/-
# Usbmux.Packet — the packets of usbmuxd

A packet is a header of four words and a payload; a plist payload is turned into the
message of the binary protocol it stands for.

An `Arrival` is what the two receives of `receive_packet` do: what the first returns,
the header it filled in, and the block of the payload when the second returned the
size it was asked for.  `fromXml` stands for `plist_from_xml`.

* `ResultMessage` — what the arrival says, by the protocol: a result and its code.
* `getResult_one` — `usbmuxd_get_result` returns 1 for these only, under its tag.
-/
import Irestore.Library.Bytes
import Irestore.Plist.Access

namespace Irestore.Usbmux

open Irestore.Library Irestore.Library.Bytes Irestore.Library.CMemory Irestore.Plist

set_option autoImplicit false

/-- `struct usbmuxd_header`. -/
structure UsbmuxdHeader where
  length : UInt32
  version : UInt32
  message : UInt32
  tag : UInt32
  deriving DecidableEq

def MESSAGE_RESULT : UInt32 := 1
def MESSAGE_DEVICE_ADD : UInt32 := 4
def MESSAGE_DEVICE_REMOVE : UInt32 := 5
def MESSAGE_PLIST : UInt32 := 8

def EPROTO : Int := 71
def EBADMSG : Int := 74

structure Arrival where
  received : Int
  header : UsbmuxdHeader
  payload : Option (List UInt8)

/-- What `receive_packet` returns, the header it leaves, and what it stores to
`*payload`, if it stores at all: a block or NULL. -/
structure Receipt where
  ret : Int
  header : UsbmuxdHeader
  payload : Option (Option (List UInt8))

def Receipt.failed (ret : Int) : Receipt := ⟨ret, ⟨0, 0, 0, 0⟩, none⟩

/-- The receipt of a packet that came whole; the length is returned as an `int`. -/
def Receipt.whole (header : UsbmuxdHeader) (payload : Option (Option (List UInt8))) : Receipt :=
  ⟨toInt32 header.length.toNat, header, payload⟩

/-- `usbmuxd_device_info_t`. -/
structure UsbmuxdDeviceInfo where
  handle : UInt32
  productId : Nat
  uuid : List UInt8
  deriving DecidableEq

/-- The fields taken from a `struct usbmuxd_device_record`: the handle, the product and 41
bytes of the serial number. -/
def deviceInfo (record : List UInt8) : Checked UsbmuxdDeviceInfo := do
  let front ← memcpy record 47
  return ⟨UInt32.ofNat (ofLE (front.take 4)), ofLE ((front.drop 4).take 2), front.drop 6⟩

/-- The size of a payload, from the length of the packet. -/
theorem toNat_sub_sixteen {length : UInt32} {size : Nat} (announced : length.toNat = 16 + size) :
    (length - 16).toNat = size := by
  have sixteen : (16 : UInt32) ≤ length := by
    rw [UInt32.le_iff_toNat_le, announced]
    exact Nat.le_add_right 16 size
  rw [UInt32.toNat_sub_of_le _ _ sixteen, announced]
  exact Nat.add_sub_cancel_left 16 size

/-! ## Plist messages -/

/-- `plist_get_uint_val` of what the dictionary holds under the key. -/
def uintItem (dict : PlistNode) (key : CText) : Checked UInt64 := do
  let node ← plistDictGetItem dict key
  plistGetUintVal node

/-- `struct usbmuxd_device_record`, as `Attached` fills it in: 268 bytes without gaps, in
which `strcpy` writes the serial number and its NUL from offset 6 on. -/
def deviceRecord (properties : PlistNode) : Checked (List UInt8) := do
  let deviceId ← uintItem properties (cText "DeviceID")
  let record ← store (List.replicate 268 0) 0 (le 4 (deviceId.toNat % 2 ^ 32))
  let productId ← uintItem properties (cText "ProductID")
  let record ← store record 4 (le 2 (productId.toNat % 2 ^ 16))
  let node ← plistDictGetItem properties (cText "SerialNumber")
  let serial ← plistGetStringVal node
  let record ← store record 6 (serial ++ [0])
  let location ← uintItem properties (cText "LocationID")
  store record 264 (le 4 (location.toNat % 2 ^ 32))

/-- The message of the binary protocol that a plist stands for.  One without a type is given to
`free`, which takes no nodes of glib. -/
def plistMessage (header : UsbmuxdHeader) (plist : PlistNode) : Checked Receipt := do
  let node ← plistDictGetItem plist (cText "MessageType")
  if plistGetNodeType node ≠ .string then .error .invalidFree
  else do
    let message ← plistGetStringVal node
    if message = (cText "Result").val then do
      let number ← uintItem plist (cText "Number")
      return .whole { header with length := 20, message := MESSAGE_RESULT }
        (some (some (le 4 (number.toNat % 2 ^ 32))))
    else if message = (cText "Attached").val then do
      let properties ← plistDictGetItem plist (cText "Properties")
      match properties with
      | none => return .failed (-EBADMSG)
      | some properties => do
          let record ← deviceRecord properties
          return .whole { header with length := 284, message := MESSAGE_DEVICE_ADD }
            (some (some record))
    else if message = (cText "Detached").val then do
      let node ← plistDictGetItem plist (cText "DeviceID")
      match node with
      | none => return .whole header none
      | some _ => do
          let number ← plistGetUintVal node
          return .whole { header with length := 20, message := MESSAGE_DEVICE_REMOVE }
            (some (some (le 4 (number.toNat % 2 ^ 32))))
    else return .failed (-EBADMSG)

/-! ## Receiving -/

section Receiving

variable (fromXml : List UInt8 → Checked (Option PlistNode))

/-- `receive_packet` behind the payload. -/
def interpretPacket (header : UsbmuxdHeader) (payload : Option (List UInt8)) : Checked Receipt := do
  if header.message = MESSAGE_PLIST then do
    let plist ← fromXml (payload.getD [])
    match plist with
    | none => return .failed (-EBADMSG)
    | some plist => plistMessage header plist
  else return .whole header (some payload)

/-- `receive_packet`. -/
def receivePacket (arrival : Arrival) : Checked Receipt :=
  if arrival.received < 16 then return .failed arrival.received
  else if arrival.header.length - 16 = 0 then interpretPacket fromXml arrival.header none
  else
    match arrival.payload with
    | none => return .failed (-EBADMSG)
    | some block => interpretPacket fromXml arrival.header (some block)

/-- `usbmuxd_get_result`: what it returns, and `*result`, which is -1 unless it returns 1. -/
def usbmuxdGetResult (tag : UInt32) (arrival : Arrival) (errno : Nat) :
    Checked (Int × UInt32) := do
  let receipt ← receivePacket fromXml arrival
  if receipt.ret < 0 then return (-errno, 0xFFFFFFFF)
  else if receipt.ret < 16 then return (-EPROTO, 0xFFFFFFFF)
  else if receipt.header.message = MESSAGE_RESULT then
    match receipt.payload.join with
    | some block =>
        if receipt.header.tag = tag then do
          let result ← memcpy block 4
          return (1, UInt32.ofNat (ofLE result))
        else return (0, 0xFFFFFFFF)
    | none => return (0, 0xFFFFFFFF)
  else return (-EPROTO, 0xFFFFFFFF)

/-! ## What an arrival says -/

/-- The payload of an arrival that came whole, empty when the header announces none. -/
def Arrival.body (arrival : Arrival) : Option (List UInt8) :=
  if arrival.received < 16 then none
  else if arrival.header.length - 16 = 0 then some []
  else arrival.payload

/-- A result with its code: of the binary protocol, of a length an `int` holds, or of a
plist. -/
inductive ResultMessage (arrival : Arrival) : Nat → Prop
  | binary {block : List UInt8} (message : arrival.header.message = MESSAGE_RESULT)
      (body : arrival.body = some block) (length : 16 < arrival.header.length.toNat)
      (small : arrival.header.length.toNat < 2 ^ 31) (enough : 4 ≤ block.length) :
      ResultMessage arrival (ofLE (block.take 4))
  | plist {block : List UInt8} {plist : PlistNode} {node : PlistNode} {number : UInt64}
      (message : arrival.header.message = MESSAGE_PLIST) (body : arrival.body = some block)
      (parsed : fromXml block = .ok (some plist))
      (type : plistDictGetItem plist (cText "MessageType") = .ok (some node))
      (isString : node.1.type = .string)
      (text : plistGetStringVal (some node) = .ok (cText "Result").val)
      (code : uintItem plist (cText "Number") = .ok number) :
      ResultMessage arrival number.toNat

/-- Nothing is said: the receive failed with `errno` 0, or it is a result without a payload
or under another tag. -/
def Silent (tag : UInt32) (arrival : Arrival) (errno : Nat) : Prop :=
  ∃ receipt, receivePacket fromXml arrival = .ok receipt ∧
    (receipt.ret < 0 ∧ errno = 0 ∨
      16 ≤ receipt.ret ∧ receipt.header.message = MESSAGE_RESULT ∧
        (receipt.payload.join = none ∨ receipt.header.tag ≠ tag))

end Receiving

/-! ## Results -/

section Results

variable {fromXml : List UInt8 → Checked (Option PlistNode)}

theorem toInt32_toNat_of_le {length : UInt32} (enough : ¬ toInt32 length.toNat < 16) :
    16 ≤ length.toNat ∧ length.toNat < 2 ^ 31 := by
  have bounds := toInt32_le length.toNat
  have width := length.toNat_lt
  rw [toInt32, Nat.mod_eq_of_lt width] at enough
  split at enough
  · omega
  · omega

/-- A plist that comes out as a result has the type `Result`, and its code is the number. -/
theorem plistMessage_result {header : UsbmuxdHeader} {plist : PlistNode} {receipt : Receipt}
    (run : plistMessage header plist = .ok receipt) (isPlist : header.message = MESSAGE_PLIST)
    (isResult : receipt.header.message = MESSAGE_RESULT) :
    ∃ node number, plistDictGetItem plist (cText "MessageType") = .ok (some node) ∧
      node.1.type = .string ∧ plistGetStringVal (some node) = .ok (cText "Result").val ∧
      uintItem plist (cText "Number") = .ok number ∧
      receipt = .whole { header with length := 20, message := MESSAGE_RESULT }
        (some (some (le 4 (number.toNat % 2 ^ 32)))) := by
  rw [plistMessage] at run
  obtain ⟨node, type, run⟩ := bind_eq_ok.mp run
  split at run
  · cases run
  rename_i isString
  obtain ⟨found, rfl, typed⟩ : ∃ found, node = some found ∧ found.1.type = .string := by
    cases node with
    | none => exact absurd (by simp [plistGetNodeType]) isString
    | some found => exact ⟨found, rfl, not_not.mp isString⟩
  obtain ⟨message, text, run⟩ := bind_eq_ok.mp run
  split_ifs at run with result attached detached
  · obtain ⟨number, code, run⟩ := bind_eq_ok.mp run
    cases run
    exact ⟨found, number, type, typed, result ▸ text, code, rfl⟩
  · obtain ⟨properties, -, run⟩ := bind_eq_ok.mp run
    cases properties with
    | none =>
      cases run
      cases isResult
    | some properties =>
      obtain ⟨record, -, run⟩ := bind_eq_ok.mp run
      cases run
      cases isResult
  · obtain ⟨device, -, run⟩ := bind_eq_ok.mp run
    cases device with
    | none =>
      cases run
      cases isPlist.symm.trans isResult
    | some device =>
      obtain ⟨number, -, run⟩ := bind_eq_ok.mp run
      cases run
      cases isResult
  · cases run
    cases isResult

/-- A result of `receive_packet` is one the arrival says. -/
theorem interpretPacket_result {header : UsbmuxdHeader} {payload : Option (List UInt8)}
    {receipt : Receipt} {block : List UInt8}
    (run : interpretPacket fromXml header payload = .ok receipt)
    (isResult : receipt.header.message = MESSAGE_RESULT)
    (present : receipt.payload.join = some block) :
    receipt = .whole header (some (some block)) ∧ header.message = MESSAGE_RESULT ∧
        payload = some block ∨
      ∃ plist node number, header.message = MESSAGE_PLIST ∧
        fromXml (payload.getD []) = .ok (some plist) ∧
        plistDictGetItem plist (cText "MessageType") = .ok (some node) ∧
        node.1.type = .string ∧ plistGetStringVal (some node) = .ok (cText "Result").val ∧
        uintItem plist (cText "Number") = .ok number ∧
        receipt = .whole { header with length := 20, message := MESSAGE_RESULT }
          (some (some (le 4 (number.toNat % 2 ^ 32)))) := by
  rw [interpretPacket] at run
  split_ifs at run with isPlist
  · obtain ⟨plist, parsed, run⟩ := bind_eq_ok.mp run
    cases plist with
    | none =>
      cases run
      cases isResult
    | some plist =>
      obtain ⟨node, number, rest⟩ := plistMessage_result run isPlist isResult
      exact .inr ⟨plist, node, number, isPlist, parsed, rest⟩
  · cases run
    simp only [Receipt.whole, Option.join_some] at present
    exact .inl ⟨by rw [present], isResult, present⟩

theorem receivePacket_whole {arrival : Arrival} {receipt : Receipt}
    (run : receivePacket fromXml arrival = .ok receipt) (enough : 16 ≤ receipt.ret) :
    ∃ payload, interpretPacket fromXml arrival.header payload = .ok receipt ∧
      arrival.body = some (payload.getD []) ∧
      (payload ≠ none → arrival.header.length - 16 ≠ 0) := by
  rw [receivePacket] at run
  split_ifs at run with short empty
  · cases run
    exact absurd enough (not_le.mpr short)
  · exact ⟨none, run, by rw [Arrival.body, if_neg short, if_pos empty]; rfl, by simp⟩
  · cases payload : arrival.payload with
    | none =>
      rw [payload] at run
      cases run
      cases enough
    | some block =>
      rw [payload] at run
      exact ⟨some block, run, by rw [Arrival.body, if_neg short, if_neg empty, payload]; rfl,
        fun _ => empty⟩

theorem ofLE_number (number : UInt64) :
    UInt32.ofNat (ofLE ((le 4 (number.toNat % 2 ^ 32)).take 4)) = UInt32.ofNat number.toNat := by
  have width : (le 4 (number.toNat % 2 ^ 32)).length = 4 := length_le ..
  rw [List.take_of_length_le (by rw [width]), ofLE_le (by omega)]
  apply UInt32.toNat_inj.mp
  rw [UInt32.toNat_ofNat', UInt32.toNat_ofNat', Nat.mod_mod]

/-- What `usbmuxd_get_result` can do: a result under the tag, nothing said, or an error. -/
theorem getResult_cases {tag res : UInt32} {arrival : Arrival} {errno : Nat} {ret : Int}
    (run : usbmuxdGetResult fromXml tag arrival errno = .ok (ret, res)) :
    (ret = 1 ∧ ∃ receipt block, receivePacket fromXml arrival = .ok receipt ∧
        16 ≤ receipt.ret ∧ receipt.header.message = MESSAGE_RESULT ∧
        receipt.payload.join = some block ∧ receipt.header.tag = tag ∧ 4 ≤ block.length ∧
        res = UInt32.ofNat (ofLE (block.take 4))) ∨
      ret = 0 ∧ res = 0xFFFFFFFF ∧ Silent fromXml tag arrival errno ∨
      ret < 0 ∧ res = 0xFFFFFFFF ∧ ¬ Silent fromXml tag arrival errno := by
  rw [usbmuxdGetResult] at run
  obtain ⟨receipt, received, run⟩ := bind_eq_ok.mp run
  have silent_iff : Silent fromXml tag arrival errno ↔
      receipt.ret < 0 ∧ errno = 0 ∨ 16 ≤ receipt.ret ∧
        receipt.header.message = MESSAGE_RESULT ∧
        (receipt.payload.join = none ∨ receipt.header.tag ≠ tag) := by
    constructor
    · rintro ⟨other, received', silent⟩
      cases received.symm.trans received'
      exact silent
    · exact fun silent => ⟨receipt, received, silent⟩
  rw [silent_iff]
  split at run
  · rename_i negative
    obtain ⟨rfl, rfl⟩ := Prod.mk.inj (Except.ok.inj run)
    rcases Nat.eq_zero_or_pos errno with rfl | positive
    · exact .inr (.inl ⟨rfl, rfl, .inl ⟨negative, rfl⟩⟩)
    · exact .inr (.inr ⟨by omega, rfl, by omega⟩)
  rename_i negative
  split at run
  · obtain ⟨rfl, rfl⟩ := Prod.mk.inj (Except.ok.inj run)
    exact .inr (.inr ⟨by decide, rfl, by omega⟩)
  rename_i short
  split at run
  · rename_i isResult
    cases present : receipt.payload.join with
    | none =>
      rw [present] at run
      obtain ⟨rfl, rfl⟩ := Prod.mk.inj (Except.ok.inj run)
      exact .inr (.inl ⟨rfl, rfl, .inr ⟨by omega, isResult, .inl rfl⟩⟩)
    | some block =>
      simp only [present] at run
      split at run
      · rename_i same
        obtain ⟨front, copied, run⟩ := bind_eq_ok.mp run
        rw [memcpy] at copied
        split at copied
        · rename_i enough
          cases copied
          obtain ⟨rfl, rfl⟩ := Prod.mk.inj (Except.ok.inj run)
          exact .inl ⟨rfl, receipt, block, received, by omega, isResult, present, same, enough, rfl⟩
        · cases copied
      · rename_i other
        obtain ⟨rfl, rfl⟩ := Prod.mk.inj (Except.ok.inj run)
        exact .inr (.inl ⟨rfl, rfl, .inr ⟨by omega, isResult, .inr other⟩⟩)
  · rename_i isResult
    obtain ⟨rfl, rfl⟩ := Prod.mk.inj (Except.ok.inj run)
    refine .inr (.inr ⟨by decide, rfl, ?_⟩)
    rintro (⟨below, -⟩ | ⟨-, isResult', -⟩)
    · exact negative below
    · exact isResult isResult'

/-- **`usbmuxd_get_result` returns 1 for a result under its tag**, with the low 32 bits of
the code. -/
theorem getResult_one {tag res : UInt32} {arrival : Arrival} {errno : Nat}
    (run : usbmuxdGetResult fromXml tag arrival errno = .ok (1, res)) :
    arrival.header.tag = tag ∧
      ∃ code, ResultMessage fromXml arrival code ∧ res = UInt32.ofNat code := by
  rcases getResult_cases run with
    ⟨-, receipt, block, received, enough, isResult, present, same, four, code⟩ | ⟨zero, -⟩ |
    ⟨negative, -⟩
  · obtain ⟨payload, interpreted, body, length⟩ := receivePacket_whole received enough
    rcases interpretPacket_result interpreted isResult present with
      ⟨rfl, message, rfl⟩ | ⟨plist, node, number, message, parsed, type, isString, text, number', rfl⟩
    · have bounds := toInt32_toNat_of_le (not_lt.mpr enough)
      refine ⟨same, _, .binary message body ?_ bounds.2 four, code⟩
      have nonzero := length (by simp)
      have differ : arrival.header.length.toNat ≠ 16 := by
        intro isSixteen
        apply nonzero
        rw [show arrival.header.length = 16 from UInt32.toNat_inj.mp isSixteen]
        rfl
      omega
    · simp only [Receipt.whole, Option.join_some] at present
      cases present
      refine ⟨same, _, .plist message body parsed type isString text number', ?_⟩
      rw [code, ofLE_number]
  · cases zero
  · cases negative

/-- A body that came whole is interpreted. -/
theorem receivePacket_of_body {arrival : Arrival} {block : List UInt8}
    (body : arrival.body = some block) :
    ∃ payload, receivePacket fromXml arrival = interpretPacket fromXml arrival.header payload ∧
      payload.getD [] = block ∧ (arrival.header.length - 16 ≠ 0 → payload = some block) := by
  rw [Arrival.body] at body
  rw [receivePacket]
  split_ifs at body ⊢ with short empty
  · cases body
    exact ⟨none, rfl, rfl, fun nonzero => absurd empty nonzero⟩
  · rw [body]
    exact ⟨some block, rfl, rfl, fun _ => rfl⟩

theorem getResult_of_receipt {tag : UInt32} {arrival : Arrival} (errno : Nat) {receipt : Receipt}
    {block : List UInt8} (received : receivePacket fromXml arrival = .ok receipt)
    (enough : 16 ≤ receipt.ret) (isResult : receipt.header.message = MESSAGE_RESULT)
    (present : receipt.payload.join = some block) (same : receipt.header.tag = tag)
    (four : 4 ≤ block.length) :
    usbmuxdGetResult fromXml tag arrival errno = .ok (1, UInt32.ofNat (ofLE (block.take 4))) := by
  rw [usbmuxdGetResult, received, ok_bind, if_neg (by omega), if_neg (by omega), if_pos isResult]
  simp only [present]
  rw [if_pos same, memcpy, if_pos four]
  rfl

/-- A result under the tag is taken. -/
theorem getResult_of_message {tag : UInt32} {arrival : Arrival} (errno : Nat) {code : Nat}
    (same : arrival.header.tag = tag) (message : ResultMessage fromXml arrival code) :
    usbmuxdGetResult fromXml tag arrival errno = .ok (1, UInt32.ofNat code) := by
  cases message with
  | @binary block message body length small four =>
    obtain ⟨payload, received, -, isBlock⟩ := @receivePacket_of_body fromXml _ _ body
    have nonzero : arrival.header.length - 16 ≠ 0 := by
      intro zero
      have isSixteen : arrival.header.length = 16 := by
        rw [← UInt32.sub_add_cancel arrival.header.length 16, zero]
        rfl
      rw [isSixteen] at length
      exact absurd length (by decide)
    rw [isBlock nonzero, interpretPacket, if_neg (by rw [message]; decide)] at received
    refine getResult_of_receipt errno received ?_ message rfl same four
    show (16 : Int) ≤ toInt32 arrival.header.length.toNat
    rw [toInt32_of_lt small]
    omega
  | @plist block plist node number message body parsed type isString text number' =>
    obtain ⟨payload, received, isBlock, -⟩ := @receivePacket_of_body fromXml _ _ body
    have named : plistGetNodeType (some node) = .string := isString
    rw [interpretPacket, if_pos message, isBlock, parsed, ok_bind] at received
    simp only [plistMessage, type, ok_bind, named, ne_eq, not_true_eq_false, if_false, text,
      if_true, number'] at received
    rw [← ofLE_number]
    refine getResult_of_receipt errno received ?_ rfl rfl same (by rw [length_le])
    show (16 : Int) ≤ toInt32 20
    decide

theorem getResult_of_silent {tag : UInt32} {arrival : Arrival} {errno : Nat}
    (silent : Silent fromXml tag arrival errno) :
    usbmuxdGetResult fromXml tag arrival errno = .ok (0, 0xFFFFFFFF) := by
  obtain ⟨receipt, received, ⟨negative, rfl⟩ | ⟨enough, isResult, silent⟩⟩ := silent
  · rw [usbmuxdGetResult, received, ok_bind, if_pos negative]
    rfl
  · rw [usbmuxdGetResult, received, ok_bind, if_neg (by omega), if_neg (by omega),
      if_pos isResult]
    cases present : receipt.payload.join with
    | none => rfl
    | some block =>
      have other : receipt.header.tag ≠ tag := by
        rcases silent with absent | other
        · cases present.symm.trans absent
        · exact other
      simp only [if_neg other]
      rfl

/-- An arrival says one code. -/
theorem ResultMessage.unique {arrival : Arrival} {code code' : Nat}
    (one : ResultMessage fromXml arrival code) (other : ResultMessage fromXml arrival code') :
    code = code' := by
  cases one with
  | binary message body length small four =>
    cases other with
    | binary message' body' =>
      cases body.symm.trans body'
      rfl
    | plist message' => cases message.symm.trans message'
  | plist message body parsed type isString text number =>
    cases other with
    | binary message' => cases message.symm.trans message'
    | plist message' body' parsed' type' isString' text' number' =>
      cases body.symm.trans body'
      cases parsed.symm.trans parsed'
      cases number.symm.trans number'
      rfl

end Results

end Irestore.Usbmux
