/-
# Usbmux.Safety — any message of the daemon

A message is a header and the payload its length announces, of any content.
`receive_packet` turns a plist into a payload of the binary protocol with accessors that
assert the types, and `get_next_event` reads a payload by its type alone.  What the plist has to
be is said of its nodes: `HasItem`, `IsUint` and `IsString`.

* `safe_of_receipt_iff` — what `get_next_event` makes of a receipt.
* `deviceRecord_ends_iff` — the properties of an attached device that fit a record.
* `messages_handled_iff` — when a message is taken or refused, and nothing else happens.
* `short_record_overread` — a device record that is read past its end.
-/
import Irestore.Usbmux.Devices

namespace Irestore.Usbmux

open Irestore.Library Irestore.Library.Bytes Irestore.Library.CMemory Irestore.Plist

set_option autoImplicit false

/-- A header with the payload its length announces. -/
structure Message where
  header : UsbmuxdHeader
  payload : List UInt8
  size : header.length.toNat = 16 + payload.length

/-- The message, as the two receives give it. -/
def Message.arrival (message : Message) : Arrival := ⟨16, message.header, some message.payload⟩

/-- A payload of a result, of a device record or of a handle, with all its fields. -/
def FullSize (receipt : Receipt) : Prop :=
  ∃ block, receipt.payload.join = some block ∧
    (receipt.header.message = MESSAGE_RESULT ∧ 4 ≤ block.length ∨
      receipt.header.message = MESSAGE_DEVICE_ADD ∧ 268 ≤ block.length ∨
      receipt.header.message = MESSAGE_DEVICE_REMOVE ∧ 4 ≤ block.length)

section Statements

variable (fromXml : List UInt8 → Checked (Option PlistNode)) (devices : Devices)
  (message : Message) (allocated : Bool)

/-- The message is handled without a fault, and refused unless it comes out as a payload of
full size. -/
def Safe : Prop :=
  ∃ receipt after ret, receivePacket fromXml message.arrival = .ok receipt ∧
    getNextEvent fromXml devices message.arrival allocated = .ok (after, ret) ∧
    (¬ FullSize receipt → ret < 0)

/-- A device that gets a block finds a slot. -/
def Room : Prop :=
  allocated = true →
    none ∈ devices.collection.slots ∨ devices.collection.slots.length * 2 < 2 ^ 31

end Statements

/-- The properties of a device: three numbers, and a serial number that ends inside the
record. -/
structure Recordable (properties : PlistNode) : Prop where
  deviceId : ∃ node, HasItem properties (cText "DeviceID") node ∧ IsUint node
  productId : ∃ node, HasItem properties (cText "ProductID") node ∧ IsUint node
  serial : ∃ node text, HasItem properties (cText "SerialNumber") node ∧ IsString node text ∧
    text.length ≤ 261
  location : ∃ node, HasItem properties (cText "LocationID") node ∧ IsUint node

/-- What a plist needs when its message type is a string of this text. -/
structure Fields (header : UsbmuxdHeader) (devices : Devices) (allocated : Bool)
    (plist : PlistNode) (text : List UInt8) : Prop where
  result : text = (cText "Result").val →
    ∃ node, HasItem plist (cText "Number") node ∧ IsUint node
  attached : text = (cText "Attached").val →
    ∃ properties, HasItem plist (cText "Properties") properties ∧
      ∀ dict, properties = some dict → Recordable dict ∧ Room devices allocated
  detached : text = (cText "Detached").val →
    ∃ node, HasItem plist (cText "DeviceID") node ∧
      if node = none then 16 < header.length.toNat else IsUint node

/-- A plist that is taken for a message, or refused. -/
def Understood (header : UsbmuxdHeader) (devices : Devices) (allocated : Bool)
    (plist : PlistNode) : Prop :=
  ∃ node text, HasItem plist (cText "MessageType") node ∧ IsString node text ∧
    Fields header devices allocated plist text

/-- A message of the binary protocol that is taken, or refused. -/
inductive Accepted (devices : Devices) (allocated : Bool) (message : Message) : Prop
  | tooLong (large : 2 ^ 31 ≤ message.header.length.toNat)
  | result (type : message.header.message = MESSAGE_RESULT) (full : 4 ≤ message.payload.length)
  | deviceAdd (type : message.header.message = MESSAGE_DEVICE_ADD)
      (full : allocated = true → 268 ≤ message.payload.length) (room : Room devices allocated)
  | deviceRemove (type : message.header.message = MESSAGE_DEVICE_REMOVE)
      (full : 4 ≤ message.payload.length)

/-- What a message has to be. -/
def Handled (fromXml : List UInt8 → Checked (Option PlistNode)) (devices : Devices)
    (allocated : Bool) (message : Message) : Prop :=
  if message.header.message = MESSAGE_PLIST then
    ∃ plist, fromXml message.payload = .ok plist ∧
      ∀ dict, plist = some dict → Understood message.header devices allocated dict
  else Accepted devices allocated message

/-! ## What becomes of a receipt -/

section Receipts

variable {fromXml : List UInt8 → Checked (Option PlistNode)} {devices : Devices}
  {message : Message} {allocated : Bool} {receipt : Receipt}

/-- A receipt that `get_next_event` makes something of, or refuses. -/
inductive Digestible (devices : Devices) (allocated : Bool) (receipt : Receipt) : Prop
  | negative (failed : receipt.ret < 0)
  | missing (announced : 16 < receipt.header.length.toNat) (absent : receipt.payload.join = none)
  | result {block : List UInt8} (type : receipt.header.message = MESSAGE_RESULT)
      (present : receipt.payload.join = some block) (full : 4 ≤ block.length)
  | deviceAdd (type : receipt.header.message = MESSAGE_DEVICE_ADD)
      (full : allocated = true → ∃ block, receipt.payload.join = some block ∧ 268 ≤ block.length)
      (room : Room devices allocated)
  | deviceRemove {block : List UInt8} (type : receipt.header.message = MESSAGE_DEVICE_REMOVE)
      (present : receipt.payload.join = some block) (full : 4 ≤ block.length)

theorem digestible_of_safe (received : receivePacket fromXml message.arrival = .ok receipt)
    (safe : Safe fromXml devices message allocated) : Digestible devices allocated receipt := by
  obtain ⟨other, after, ret, received', run, refused⟩ := safe
  cases received.symm.trans received'
  have full : ¬ ret < 0 → FullSize receipt := fun taken => by
    by_contra short
    exact taken (refused short)
  rw [getNextEvent, received, ok_bind] at run
  split at run
  · exact .negative ‹_›
  split at run
  · rename_i missing
    exact .missing missing.1 missing.2
  split at run
  · rename_i isAdd
    refine .deviceAdd isAdd (fun given => ?_) fun given => ?_
    · rw [if_pos given] at run
      cases present : receipt.payload.join with
      | none =>
        rw [present] at run
        cases run
      | some record =>
        simp only [present] at run
        obtain ⟨info, -, run⟩ := bind_eq_ok.mp run
        obtain ⟨grown, -, run⟩ := bind_eq_ok.mp run
        cases run
        obtain ⟨block, held, ⟨isResult, -⟩ | ⟨-, whole⟩ | ⟨isRemove, -⟩⟩ := full (lt_irrefl 0)
        · exact absurd (isAdd.symm.trans isResult) (by decide)
        · exact ⟨block, present.symm.trans held, whole⟩
        · exact absurd (isAdd.symm.trans isRemove) (by decide)
    · rw [if_pos given] at run
      cases present : receipt.payload.join with
      | none =>
        rw [present] at run
        cases run
      | some record =>
        simp only [present] at run
        obtain ⟨info, -, run⟩ := bind_eq_ok.mp run
        obtain ⟨grown, added, -⟩ := bind_eq_ok.mp run
        exact collectionAdd_ends_iff.mp ⟨grown, added⟩
  split at run
  · rename_i isRemove
    cases present : receipt.payload.join with
    | none =>
      rw [present] at run
      cases run
    | some block =>
      simp only [present] at run
      obtain ⟨handle, copied, -⟩ := bind_eq_ok.mp run
      exact .deviceRemove isRemove present (memcpy_eq_ok.mp copied).1
  · rename_i notAdd notRemove
    cases run
    obtain ⟨block, held, ⟨isResult, whole⟩ | ⟨isAdd, -⟩ | ⟨isRemove, -⟩⟩ := full (lt_irrefl 0)
    · exact .result isResult held whole
    · exact absurd isAdd notAdd
    · exact absurd isRemove notRemove

/-- A receipt of a result, a record or a handle in full is taken. -/
theorem getNextEvent_of_full (received : receivePacket fromXml message.arrival = .ok receipt)
    (success : ¬ receipt.ret < 0) (full : FullSize receipt)
    (room : receipt.header.message = MESSAGE_DEVICE_ADD → Room devices allocated) :
    Ends (getNextEvent fromXml devices message.arrival allocated) := by
  obtain ⟨block, held, kind⟩ := full
  have present : ¬ (16 < receipt.header.length.toNat ∧ receipt.payload.join = none) := by
    rintro ⟨-, absent⟩
    cases held.symm.trans absent
  rw [getNextEvent, received, ok_bind, if_neg success, if_neg present, held]
  dsimp only
  rcases kind with ⟨isResult, whole⟩ | ⟨isAdd, whole⟩ | ⟨isRemove, whole⟩
  · rw [if_neg (by rw [isResult]; decide), if_neg (by rw [isResult]; decide)]
    exact ⟨_, rfl⟩
  · rw [if_pos isAdd]
    split
    · rename_i given
      have copied : memcpy block 47 = .ok (block.take 47) := if_pos (by omega)
      rw [deviceInfo, copied, ok_bind, pure_eq_ok, ok_bind, ends_bind_iff]
      obtain ⟨grown, added⟩ := collectionAdd_ends_iff.mpr (room isAdd given)
      exact ⟨grown, added, _, rfl⟩
    · exact ⟨_, rfl⟩
  · have copied : memcpy block 4 = .ok (block.take 4) := if_pos whole
    rw [if_neg (by rw [isRemove]; decide), if_pos isRemove, copied, ok_bind]
    split
    · exact ⟨_, rfl⟩
    · exact ⟨_, rfl⟩

/-- **What `get_next_event` makes of a receipt.** -/
theorem safe_of_receipt_iff (received : receivePacket fromXml message.arrival = .ok receipt) :
    Safe fromXml devices message allocated ↔ Digestible devices allocated receipt := by
  refine ⟨digestible_of_safe received, fun digestible => ?_⟩
  have refused : ∀ {after : Devices} {ret : Int},
      getNextEvent fromXml devices message.arrival allocated = .ok (after, ret) → ret < 0 →
        Safe fromXml devices message allocated := fun run negative =>
    ⟨receipt, _, _, received, run, fun _ => negative⟩
  by_cases failed : receipt.ret < 0
  · have run : getNextEvent fromXml devices message.arrival allocated =
        .ok (devices.lost, - EIO) := by
      rw [getNextEvent, received, ok_bind, if_pos failed]
      rfl
    exact refused run (by decide)
  have taken : FullSize receipt → (receipt.header.message = MESSAGE_DEVICE_ADD →
      Room devices allocated) → Safe fromXml devices message allocated := fun full room => by
    obtain ⟨⟨after, ret⟩, run⟩ := getNextEvent_of_full received failed full room
    exact ⟨receipt, after, ret, received, run, fun short => absurd full short⟩
  cases digestible with
  | negative failed' => exact absurd failed' failed
  | missing announced absent =>
    have run : getNextEvent fromXml devices message.arrival allocated =
        .ok (devices, -EBADMSG) := by
      rw [getNextEvent, received, ok_bind, if_neg failed, if_pos ⟨announced, absent⟩]
      rfl
    exact refused run (by decide)
  | result type present full =>
    refine taken ⟨_, present, .inl ⟨type, full⟩⟩ fun isAdd => ?_
    exact absurd (type.symm.trans isAdd) (by decide)
  | deviceRemove type present full =>
    refine taken ⟨_, present, .inr (.inr ⟨type, full⟩)⟩ fun isAdd => ?_
    exact absurd (type.symm.trans isAdd) (by decide)
  | deviceAdd type full room =>
    cases allocated with
    | true =>
      obtain ⟨block, present, whole⟩ := full rfl
      exact taken ⟨block, present, .inr (.inl ⟨type, whole⟩)⟩ fun _ => room
    | false =>
      by_cases missing : 16 < receipt.header.length.toNat ∧ receipt.payload.join = none
      · have run : getNextEvent fromXml devices message.arrival false =
            .ok (devices, -EBADMSG) := by
          rw [getNextEvent, received, ok_bind, if_neg failed, if_pos missing]
          rfl
        exact refused run (by decide)
      · have run : getNextEvent fromXml devices message.arrival false = .ok (devices, -1) := by
          rw [getNextEvent, received, ok_bind, if_neg failed, if_neg missing, if_pos type,
            if_neg Bool.false_ne_true]
          rfl
        exact refused run (by decide)

theorem safe_iff_digestible :
    Safe fromXml devices message allocated ↔
      ∃ receipt, receivePacket fromXml message.arrival = .ok receipt ∧
        Digestible devices allocated receipt := by
  constructor
  · intro safe
    obtain ⟨receipt, after, ret, received, rest⟩ := safe
    exact ⟨receipt, received, digestible_of_safe received ⟨receipt, after, ret, received, rest⟩⟩
  · rintro ⟨receipt, received, digestible⟩
    exact (safe_of_receipt_iff received).mpr digestible

end Receipts

/-! ## What becomes of a plist -/

section Plists

variable {header : UsbmuxdHeader} {devices : Devices} {allocated : Bool} {plist : PlistNode}

theorem uintItem_ends_iff {dict : PlistNode} {key : CText} :
    Ends (uintItem dict key) ↔ ∃ node, HasItem dict key node ∧ IsUint node := by
  rw [uintItem, ends_bind_iff]
  exact exists_congr fun node =>
    and_congr plistDictGetItem_eq_ok_iff plistGetUintVal_ends_iff_isUint

/-- The properties of a device that fit a record, which they fill. -/
theorem deviceRecord_ends_iff {properties : PlistNode} :
    Ends (deviceRecord properties) ↔ Recordable properties := by
  have fits : ∀ {block : List UInt8} {off : Nat} (width n : Nat), off + width ≤ block.length →
      Ends (store block off (le width n)) := fun width n room =>
    store_ends_iff.mpr (by rwa [length_le])
  rw [deviceRecord]
  constructor
  · intro run
    obtain ⟨deviceId, one, run⟩ := ends_bind_iff.mp run
    obtain ⟨record, stored, run⟩ := ends_bind_iff.mp run
    obtain ⟨productId, two, run⟩ := ends_bind_iff.mp run
    obtain ⟨record', stored', run⟩ := ends_bind_iff.mp run
    obtain ⟨node, found, run⟩ := ends_bind_iff.mp run
    obtain ⟨text, value, run⟩ := ends_bind_iff.mp run
    obtain ⟨record'', written, run⟩ := ends_bind_iff.mp run
    obtain ⟨location, three, -⟩ := ends_bind_iff.mp run
    have width := (store_eq_ok stored).2
    have width' := (store_eq_ok stored').2
    have inside := (store_eq_ok written).1
    rw [width', width, List.length_replicate, List.length_append, List.length_singleton] at inside
    exact ⟨uintItem_ends_iff.mp ⟨_, one⟩, uintItem_ends_iff.mp ⟨_, two⟩,
      ⟨node, text, plistDictGetItem_eq_ok_iff.mp found, plistGetStringVal_eq_ok_iff.mp value,
        by omega⟩, uintItem_ends_iff.mp ⟨_, three⟩⟩
  · intro recordable
    obtain ⟨deviceId, one⟩ := uintItem_ends_iff.mpr recordable.deviceId
    obtain ⟨productId, two⟩ := uintItem_ends_iff.mpr recordable.productId
    obtain ⟨location, three⟩ := uintItem_ends_iff.mpr recordable.location
    obtain ⟨node, text, has, isString, short⟩ := recordable.serial
    have found := plistDictGetItem_eq_ok_iff.mpr has
    have value := plistGetStringVal_eq_ok_iff.mpr isString
    obtain ⟨record, stored⟩ := @fits (List.replicate 268 0) 0 4 (deviceId.toNat % 2 ^ 32)
      (by rw [List.length_replicate]; decide)
    have width := (store_eq_ok stored).2
    rw [List.length_replicate] at width
    obtain ⟨record', stored'⟩ := @fits record 4 2 (productId.toNat % 2 ^ 16) (by omega)
    have width' := (store_eq_ok stored').2
    obtain ⟨record'', written⟩ : Ends (store record' 6 (text ++ [0])) := by
      rw [store_ends_iff, List.length_append, List.length_singleton]
      omega
    have width'' := (store_eq_ok written).2
    rw [one, ok_bind, stored, ok_bind, two, ok_bind, stored', ok_bind, found, ok_bind, value,
      ok_bind, written, ok_bind, three, ok_bind]
    exact fits 4 _ (by omega)

theorem length_deviceRecord {properties : PlistNode} {record : List UInt8}
    (run : deviceRecord properties = .ok record) : record.length = 268 := by
  rw [deviceRecord] at run
  obtain ⟨deviceId, -, run⟩ := bind_eq_ok.mp run
  obtain ⟨record, stored, run⟩ := bind_eq_ok.mp run
  obtain ⟨productId, -, run⟩ := bind_eq_ok.mp run
  obtain ⟨record', stored', run⟩ := bind_eq_ok.mp run
  obtain ⟨node, -, run⟩ := bind_eq_ok.mp run
  obtain ⟨text, -, run⟩ := bind_eq_ok.mp run
  obtain ⟨record'', written, run⟩ := bind_eq_ok.mp run
  obtain ⟨location, -, run⟩ := bind_eq_ok.mp run
  rw [(store_eq_ok run).2, (store_eq_ok written).2, (store_eq_ok stored').2, (store_eq_ok stored).2,
    List.length_replicate]

theorem attached_iff {text : List UInt8} (result : text ≠ (cText "Result").val)
    (attached : text = (cText "Attached").val) :
    (∃ properties, HasItem plist (cText "Properties") properties ∧
        ∀ dict, properties = some dict → Recordable dict ∧ Room devices allocated) ↔
      Fields header devices allocated plist text :=
  ⟨fun fields => ⟨fun same => absurd same result, fun _ => fields,
    fun detached => absurd (attached.symm.trans detached) (by decide)⟩,
    fun fields => fields.attached attached⟩

theorem detached_iff {text : List UInt8} (result : text ≠ (cText "Result").val)
    (attached : text ≠ (cText "Attached").val) (detached : text = (cText "Detached").val) :
    (∃ node, HasItem plist (cText "DeviceID") node ∧
        if node = none then 16 < header.length.toNat else IsUint node) ↔
      Fields header devices allocated plist text :=
  ⟨fun fields => ⟨fun same => absurd same result, fun same => absurd same attached,
    fun _ => fields⟩, fun fields => fields.detached detached⟩

/-- A device record that is taken finds a slot. -/
theorem room_of_digestible {record : List UInt8}
    (digestible : Digestible devices allocated
      (.whole { header with length := 284, message := MESSAGE_DEVICE_ADD } (some (some record)))) :
    Room devices allocated := by
  cases digestible with
  | negative failed => exact absurd (show toInt32 284 < 0 from failed) (by decide)
  | missing announced absent => cases absent
  | result type => exact absurd (show MESSAGE_DEVICE_ADD = MESSAGE_RESULT from type) (by decide)
  | deviceAdd type full room => exact room
  | deviceRemove type =>
    exact absurd (show MESSAGE_DEVICE_ADD = MESSAGE_DEVICE_REMOVE from type) (by decide)

/-- A plist without a payload is refused when its header announced one. -/
theorem announced_of_digestible (isPlist : header.message = MESSAGE_PLIST)
    (digestible : Digestible devices allocated (.whole header none)) :
    16 < header.length.toNat := by
  cases digestible with
  | negative failed =>
    by_contra short
    have returned : toInt32 header.length.toNat = header.length.toNat := toInt32_of_lt (by omega)
    have failed' : toInt32 header.length.toNat < 0 := failed
    omega
  | missing announced absent => exact announced
  | result type => exact absurd (isPlist.symm.trans type) (by decide)
  | deviceAdd type => exact absurd (isPlist.symm.trans type) (by decide)
  | deviceRemove type => exact absurd (isPlist.symm.trans type) (by decide)

/-- **What a plist needs to be taken or refused.** -/
theorem plistMessage_digestible_iff (isPlist : header.message = MESSAGE_PLIST) :
    (∃ receipt, plistMessage header plist = .ok receipt ∧ Digestible devices allocated receipt) ↔
      Understood header devices allocated plist := by
  have refused : ∃ receipt, (pure (.failed (-EBADMSG)) : Checked Receipt) = .ok receipt ∧
      Digestible devices allocated receipt := ⟨_, rfl, .negative (by decide)⟩
  rw [plistMessage, Understood, exists_bind_iff]
  refine exists_congr fun node => ?_
  rw [exists_and_left]
  refine and_congr plistDictGetItem_eq_ok_iff ?_
  by_cases isString : plistGetNodeType node = .string
  swap
  · rw [if_pos isString]
    refine iff_of_false ?_ ?_
    · rintro ⟨receipt, run, -⟩
      cases run
    · rintro ⟨text, ⟨below, rfl⟩, -⟩
      exact isString rfl
  rw [if_neg (not_not.mpr isString), exists_bind_iff]
  refine exists_congr fun text => and_congr plistGetStringVal_eq_ok_iff ?_
  by_cases result : text = (cText "Result").val
  · rw [if_pos result, exists_bind_iff]
    constructor
    · rintro ⟨number, code, -⟩
      exact ⟨fun _ => uintItem_ends_iff.mp ⟨number, code⟩,
          fun attached => absurd (result.symm.trans attached) (by decide),
        fun detached => absurd (result.symm.trans detached) (by decide)⟩
    · intro fields
      obtain ⟨number, code⟩ := uintItem_ends_iff.mpr (fields.result result)
      exact ⟨number, code, _, rfl, .result rfl rfl (by rw [length_le])⟩
  by_cases attached : text = (cText "Attached").val
  · rw [if_neg result, if_pos attached, exists_bind_iff]
    refine Iff.trans ?_ (attached_iff result attached)
    refine exists_congr fun properties => and_congr plistDictGetItem_eq_ok_iff ?_
    cases properties with
    | none => exact iff_of_true refused fun dict absent => by cases absent
    | some dict =>
      rw [exists_bind_iff]
      constructor
      · rintro ⟨record, filled, receipt, run, digestible⟩ other same
        cases same
        cases run
        exact ⟨deviceRecord_ends_iff.mp ⟨record, filled⟩, room_of_digestible digestible⟩
      · intro fields
        obtain ⟨recordable, room⟩ := fields dict rfl
        obtain ⟨record, filled⟩ := deviceRecord_ends_iff.mpr recordable
        refine ⟨record, filled, _, rfl, .deviceAdd rfl (fun _ => ⟨record, rfl, ?_⟩) room⟩
        rw [length_deviceRecord filled]
  by_cases detached : text = (cText "Detached").val
  · rw [if_neg result, if_neg attached, if_pos detached, exists_bind_iff]
    refine Iff.trans ?_ (detached_iff result attached detached)
    refine exists_congr fun node => and_congr plistDictGetItem_eq_ok_iff ?_
    cases node with
    | none =>
      rw [if_pos rfl]
      constructor
      · rintro ⟨receipt, run, digestible⟩
        cases run
        exact announced_of_digestible isPlist digestible
      · exact fun announced => ⟨_, rfl, .missing announced rfl⟩
    | some found =>
      rw [if_neg (by simp), exists_bind_iff, ← plistGetUintVal_ends_iff_isUint]
      constructor
      · rintro ⟨number, value, -⟩
        exact ⟨number, value⟩
      · rintro ⟨number, value⟩
        exact ⟨number, value, _, rfl, .deviceRemove rfl rfl (by rw [length_le])⟩
  · rw [if_neg result, if_neg attached, if_neg detached]
    exact iff_of_true refused ⟨fun same => absurd same result, fun same => absurd same attached,
      fun same => absurd same detached⟩

end Plists

/-! ## Every message -/

section Messages

variable {fromXml : List UInt8 → Checked (Option PlistNode)} {devices : Devices}
  {message : Message} {allocated : Bool}

/-- The block a payload is received into. -/
def Message.block (message : Message) : Option (List UInt8) :=
  if message.payload = [] then none else some message.payload

theorem receivePacket_message (message : Message) :
    receivePacket fromXml message.arrival = interpretPacket fromXml message.header message.block := by
  have size := toNat_sub_sixteen message.size
  have came : ¬ (16 : Int) < 16 := lt_irrefl 16
  have empty_iff : message.header.length - 16 = 0 ↔ message.payload = [] := by
    rw [← UInt32.toNat_inj, size]
    exact List.length_eq_zero_iff
  rw [Message.arrival, receivePacket, if_neg came, Message.block]
  dsimp only
  by_cases empty : message.payload = []
  · rw [if_pos (empty_iff.mpr empty), if_pos empty]
  · rw [if_neg fun zero => empty (empty_iff.mp zero), if_neg empty]

theorem join_block {block : List UInt8} :
    (some message.block).join = some block ↔ message.payload ≠ [] ∧ message.payload = block := by
  rw [Option.join_some, Message.block]
  split
  · simp [*]
  · simp [*]

/-- A message of the binary protocol comes through as it is. -/
theorem digestible_whole_iff :
    Digestible devices allocated (.whole message.header (some message.block)) ↔
      Accepted devices allocated message := by
  have size := message.size
  have width := message.header.length.toNat_lt
  constructor
  · intro digestible
    cases digestible with
    | negative failed =>
      refine .tooLong ?_
      by_contra small
      have returned : toInt32 message.header.length.toNat = message.header.length.toNat :=
        toInt32_of_lt (by omega)
      have failed' : toInt32 message.header.length.toNat < 0 := failed
      omega
    | missing announced absent =>
      have announced' : 16 < message.header.length.toNat := announced
      have present : message.payload ≠ [] := fun empty => by
        rw [empty, List.length_nil] at size
        omega
      exact absurd (absent.symm.trans (join_block.mpr ⟨present, rfl⟩)) (by simp)
    | result type present full =>
      obtain ⟨-, rfl⟩ := join_block.mp present
      exact .result type full
    | deviceAdd type full room =>
      refine .deviceAdd type (fun given => ?_) room
      obtain ⟨block, present, whole⟩ := full given
      obtain ⟨-, rfl⟩ := join_block.mp present
      exact whole
    | deviceRemove type present full =>
      obtain ⟨-, rfl⟩ := join_block.mp present
      exact .deviceRemove type full
  · have present : ∀ {n : Nat}, n + 1 ≤ message.payload.length →
        (some message.block).join = some message.payload := fun enough => by
      refine join_block.mpr ⟨fun empty => ?_, rfl⟩
      rw [empty] at enough
      cases enough
    intro accepted
    cases accepted with
    | tooLong large =>
      have negative : toInt32 message.header.length.toNat < 0 := by
        rw [toInt32, Nat.mod_eq_of_lt width, if_neg (by omega)]
        omega
      exact .negative negative
    | result type full => exact .result type (present full) full
    | deviceAdd type full room =>
      exact .deviceAdd type (fun given => ⟨_, present (full given), full given⟩) room
    | deviceRemove type full => exact .deviceRemove type (present full) full

end Messages

/-- **When a message is taken or refused, and nothing else happens.** -/
theorem messages_handled_iff (fromXml : List UInt8 → Checked (Option PlistNode))
    (devices : Devices) (message : Message) (allocated : Bool) :
    Safe fromXml devices message allocated ↔ Handled fromXml devices allocated message := by
  rw [safe_iff_digestible, receivePacket_message, interpretPacket, Handled]
  by_cases isPlist : message.header.message = MESSAGE_PLIST
  · have payload : message.block.getD [] = message.payload := by
      rw [Message.block]
      split
      · simp [*]
      · rfl
    rw [if_pos isPlist, if_pos isPlist, payload, exists_bind_iff]
    refine exists_congr fun plist => and_congr_right fun _ => ?_
    cases plist with
    | none =>
      exact iff_of_true ⟨_, rfl, .negative (by decide)⟩ fun dict absent => by cases absent
    | some dict =>
      dsimp only
      rw [plistMessage_digestible_iff isPlist]
      constructor
      · rintro understood other same
        cases same
        exact understood
      · exact fun all => all dict rfl
  · rw [if_neg isPlist, if_neg isPlist, ← digestible_whole_iff]
    constructor
    · rintro ⟨receipt, run, digestible⟩
      cases run
      exact digestible
    · exact fun digestible => ⟨_, rfl, digestible⟩

/-- A device record of four bytes. -/
def shortRecord : Message where
  header := ⟨20, 0, MESSAGE_DEVICE_ADD, 0⟩
  payload := [1, 0, 0, 0]
  size := rfl

/-- A device record of four bytes is read past its end. -/
theorem short_record_overread :
    getNextEvent (fun _ => .ok none) .start shortRecord.arrival true = .error .outOfBounds ∧
      ¬ Safe (fun _ => .ok none) .start shortRecord true := by
  have overread : getNextEvent (fun _ => .ok none) .start shortRecord.arrival true =
      .error .outOfBounds := rfl
  refine ⟨overread, ?_⟩
  rintro ⟨receipt, after, ret, -, run, -⟩
  cases overread.symm.trans run

end Irestore.Usbmux
