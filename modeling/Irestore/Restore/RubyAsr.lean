/-
# Restore.RubyAsr — the filesystem from the C program and from the Ruby program

Both programs serve the ASR service of the device: they announce the image, answer
`OOBData` requests out of it and send all of it behind the `Payload` command.
`ASRService` of the Ruby program reads the entries of a request as they come, raises where
they are of no use, reads past the end of the file what there is, and passes over commands it
does not know.

* `validationLoop_zero` — how the C program comes through a packet.
* `alike_of_lengths`, `run_of_alike` — from any point of the two loops.
* `sends_same_iff` — when both programs send the same.
-/
import Irestore.Restore.TssBlob
import Irestore.Restore.Validation

namespace Irestore.Restore

open Irestore.Library Irestore.Library.Program Irestore.Library.CMemory Irestore.Plist

set_option autoImplicit false

/-! ## `restore_send_filesystem` -/

/-- What the host and the connection give to `restore_send_filesystem`. -/
structure AsrHost where
  connects : Nat → Bool
  opened : Bool
  announced : Bool
  conditions : Nat → Conditions
  reopened : Bool
  sends : Nat → Sent

/-- `asr_open_with_timeout`, from attempt `i` on with `attempts` of them left. -/
def openAttempts (connects : Nat → Bool) : (attempts i : Nat) → Int
  | 0, _ => -1
  | attempts + 1, i => if connects i then 0 else openAttempts connects attempts (i + 1)

/-- `asr_open_with_timeout`. -/
def asrOpenWithTimeout (connects : Nat → Bool) : Int := openAttempts connects 10 1

/-- `restore_send_filesystem`.  The first packet is freed unread. -/
def restoreSendFilesystem (image : Image) (host : AsrHost) (receipts : List Receipt) :
    Program Validation Int := do
  if asrOpenWithTimeout host.connects < 0 then return -1
  else
    match receipts with
    | [] | .failure :: _ => return -1
    | _ :: receipts => do
        let ret ← asrPerformValidation image host.conditions host.opened host.announced receipts
        if ret < 0 then return -1
        else do
          let sent := asrSendPayload host.reopened host.sends image.val
          Program.modify fun v => { v with outgoing := v.outgoing ++ sent.packets }
          if sent.ret < 0 then return -1 else return 0

/-- The device is reached within ten attempts, the image opens both times, and the connection
takes what is announced and every packet of a payload of `length` bytes. -/
structure AsrHost.Ready (host : AsrHost) (length : Nat) : Prop where
  connects : ∃ i, 1 ≤ i ∧ i ≤ 10 ∧ host.connects i = true
  opened : host.opened = true
  announced : host.announced = true
  reopened : host.reopened = true
  accepts : Accepts host.sends length

/-! ## `ASRService` -/

/-- A packet of the device: a dictionary without a key given twice. -/
structure AsrPacket where
  entries : Bindings
  distinct : (entries.map Prod.fst).Nodup

/-- The packet as `plist_from_xml` makes it. -/
def AsrPacket.node (packet : AsrPacket) : PlistNode := (plistNewDict, chainOf packet.entries)

namespace ASRService

/-- A value in the hash of a packet, as far as `start` tells them apart. -/
inductive RubyValue where
  | null
  | integer (n : Int)
  | float (bits : UInt64)
  | string (text : List UInt8)
  | other
  deriving DecidableEq

def rubyValue : Option PlistNode → RubyValue
  | none => .null
  | some (⟨.word bits, _, .uint⟩, _) => .integer bits.toNat
  | some (⟨.word bits, _, .real⟩, _) => .float bits
  | some (⟨.strval text, _, .string⟩, _) => .string text
  | some _ => .other

/-- An item of the hash: an entry put in later takes the place of an earlier one. -/
def item (packet : AsrPacket) (key : CText) : RubyValue :=
  rubyValue (packet.entries.reverse.lookup key)

/-- `plist["Command"] == command`. -/
def hasCommand (packet : AsrPacket) (command : CText) : Bool :=
  item packet (cText "Command") = .string command.val

/-- What `start` announces. -/
def announcement (size : Nat) : Bindings :=
  [(cText "FEC Slice Stride", leaf (plistNewUint 40)),
    (cText "Packet Payload Size", leaf (plistNewUint 1450)),
    (cText "Packets Per FEC", leaf (plistNewUint 25)),
    (cText "Payload", (plistNewDict, chainOf [(cText "Port", leaf (plistNewUint 1)),
      (cText "Size", leaf (plistNewUint (UInt64.ofNat size)))])),
    (cText "Stream ID", leaf (plistNewUint 1)), (cText "Version", leaf (plistNewUint 1))]

section Service

-- `truncated` is what a float is cut to, where that has 64 bits
variable (image : Image) (truncated : UInt64 → Option Int)

/-- The number that `seek` and `read` take a value for; `none` when they raise. -/
def toLong : RubyValue → Option Int
  | .integer n => if -2 ^ 63 ≤ n ∧ n < 2 ^ 63 then some n else none
  | .float bits => truncated bits
  | _ => none

/-- `@io.seek`: the new position. -/
def seek (offset : RubyValue) : Option Nat := do
  let offset ← toLong truncated offset
  if 0 ≤ offset then some offset.toNat else none

/-- `@io.read`.  At the end of the file it is nil, of which nothing is written. -/
def read (position : Nat) : RubyValue → Option (List UInt8)
  | .null => some (image.val.drop position)
  | size => do
      let size ← toLong truncated size
      if 0 ≤ size then some (bytesAt image position size.toNat) else none

/-- The answer to an `OOBData` request. -/
def answer (packet : AsrPacket) : Option (List UInt8) := do
  let position ← seek truncated (item packet (cText "OOB Offset"))
  read image truncated position (item packet (cText "OOB Length"))

/-- The loop behind the `Payload` command: `read` gives nil at the end of the file. -/
def writePayload (file : List UInt8) : List (List UInt8) :=
  if file = [] then [] else file.take 0x10000 :: writePayload (file.drop 0x10000)
termination_by file.length
decreasing_by
  have : 0 < file.length := List.length_pos_iff.mpr (by assumption)
  rw [List.length_drop]
  omega

/-- How `start` ends: behind the payload, by a raise, or with the connection. -/
inductive Ended where
  | payload
  | raised
  | closed
  deriving DecidableEq

structure Served where
  written : List (List UInt8)
  ended : Ended

/-- The loop of `start`. -/
def serve : List AsrPacket → Served
  | [] => ⟨[], .closed⟩
  | packet :: packets =>
      if hasCommand packet oobData then
        match answer image truncated packet with
        | none => ⟨[], .raised⟩
        | some bytes =>
            let later := serve packets
            ⟨bytes :: later.written, later.ended⟩
      else if hasCommand packet payload then ⟨writePayload image.val, .payload⟩
      else serve packets

/-- `ASRService.new` and `start`: what is announced, if it comes to that, and the rest. -/
def service : List AsrPacket → Option Bindings × Served
  | [] => (none, ⟨[], .raised⟩)
  | first :: packets =>
      if hasCommand first (cText "Initiate") then
        (some (announcement image.val.length), serve image truncated packets)
      else (none, ⟨[], .raised⟩)

end Service

/-! ## The two programs -/

section Same

variable (image : Image) (truncated : UInt64 → Option Int) (host : AsrHost)

/-- The packets as the C program receives them. -/
def receiptsOf (packets : List AsrPacket) : List Receipt :=
  packets.map fun packet => .packet packet.node

/-- The C program reports success, the Ruby program comes to its end, and they announced and
sent the same. -/
def SendsSame (packets : List AsrPacket) : Prop :=
  ∃ v announced, (restoreSendFilesystem image host (receiptsOf packets)).run .start = (.ok 0, v) ∧
    (service image truncated packets).2.ended = .payload ∧
      (service image truncated packets).1 = some announced ∧
        v.plists = [(plistNewDict, chainOf announced)] ∧
          v.outgoing.flatten = (service image truncated packets).2.written.flatten

/-- A request within the image, of less than 4 GiB, that the host can serve; or one in which
the C program finds no offset or no length, and for which the Ruby program has no bytes. -/
def AlikeRequest (condition : Conditions) (packet : AsrPacket) : Option (Nat × Nat) → Prop
  | none => answer image truncated packet = some []
  | some (oobOffset, oobLength) =>
      (condition.memory = true ∧ condition.readable = true ∧ condition.sent = ⟨true, oobLength⟩) ∧
        oobLength ≤ image.val.length - oobOffset ∧ oobLength < 2 ^ 32 ∧ oobOffset < 2 ^ 63

/-- Such requests, and a `Payload` command behind them. -/
def AllAlike : Nat → List AsrPacket → Prop
  | _, [] => False
  | n, packet :: packets =>
      (stringItem packet.node (cText "Command") = .ok (some oobData.val) ∧
        (∃ range, oobRange packet.node = .ok range ∧
          AlikeRequest image truncated (host.conditions n) packet range) ∧
        AllAlike (n + 1) packets) ∨
      stringItem packet.node (cText "Command") = .ok (some payload.val)

end Same

/-! ## What a packet holds -/

section Items

/-- Where no key is given twice, the last entry of a key is the first. -/
theorem lookup_reverse {entries : Bindings} (key : CText)
    (distinct : (entries.map Prod.fst).Nodup) :
    entries.reverse.lookup key = entries.lookup key := by
  induction entries with
  | nil => rfl
  | cons entry entries ih =>
    obtain ⟨name, value⟩ := entry
    rw [List.map_cons, List.nodup_cons] at distinct
    rw [List.reverse_cons, List.lookup_append, ih distinct.2, List.lookup_cons, List.lookup_cons]
    by_cases same : key == name
    · rw [same]
      have absent : entries.lookup key = none := by
        rw [List.lookup_eq_none_iff]
        intro other member
        rw [bne_iff_ne, eq_of_beq same]
        rintro rfl
        exact distinct.1 (List.mem_map.mpr ⟨other, member, rfl⟩)
      rw [absent]
      rfl
    · rw [Bool.eq_false_of_not_eq_true same]
      cases entries.lookup key <;> rfl

variable {packet : AsrPacket}

/-- Both programs find the same item. -/
theorem getItem_node (key : CText) :
    plistDictGetItem packet.node key = .ok (packet.entries.lookup key) :=
  getItem_eq rfl (chainOf_alternates _) key

theorem item_eq (key : CText) : item packet key = rubyValue (packet.entries.lookup key) := by
  rw [item, lookup_reverse key packet.distinct]

/-- A string that the C program finds. -/
theorem item_of_stringItem {key : CText} {text : List UInt8}
    (found : stringItem packet.node key = .ok (some text)) : item packet key = .string text := by
  rw [stringItem, getItem_node, ok_bind] at found
  rw [item_eq]
  cases isItem : packet.entries.lookup key with
  | none =>
    rw [isItem] at found
    cases found
  | some node =>
    rw [isItem] at found
    obtain ⟨⟨value, length, type⟩, below⟩ := node
    by_cases isString : type = .string
    · subst isString
      rw [plistGetNodeType, if_pos rfl] at found
      cases value with
      | strval text' =>
        rw [plistGetStringVal] at found
        split at found
        · cases found
          rfl
        · cases found
      | word bits => cases found
      | buff bytes => cases found
      | timeval sec usec => cases found
    · rw [plistGetNodeType, if_neg isString] at found
      cases found

/-- An unsigned integer that the C program finds. -/
theorem item_of_uintItem {key : CText} {n : UInt64}
    (found : uintItem packet.node key = .ok (some n)) : item packet key = .integer n.toNat := by
  rw [uintItem, getItem_node, ok_bind] at found
  rw [item_eq]
  cases isItem : packet.entries.lookup key with
  | none =>
    rw [isItem] at found
    cases found
  | some node =>
    rw [isItem] at found
    obtain ⟨⟨value, length, type⟩, below⟩ := node
    by_cases isUint : type = .uint
    · subst isUint
      rw [plistGetNodeType, if_pos rfl] at found
      cases value with
      | word bits =>
        rw [plistGetUintVal] at found
        split at found
        · cases found
          rfl
        · cases found
      | strval text => cases found
      | buff bytes => cases found
      | timeval sec usec => cases found
    · rw [plistGetNodeType, if_neg isUint] at found
      cases found

/-- The offset and the length that the C program finds. -/
theorem items_of_oobRange {oobOffset oobLength : Nat}
    (isRange : oobRange packet.node = .ok (some (oobOffset, oobLength))) :
    item packet (cText "OOB Offset") = .integer oobOffset ∧
      item packet (cText "OOB Length") = .integer oobLength := by
  rw [oobRange] at isRange
  obtain ⟨length, isLength, rest⟩ := bind_eq_ok.mp isRange
  cases length with
  | none => cases rest
  | some length =>
    obtain ⟨offset, isOffset, both⟩ := bind_eq_ok.mp rest
    cases offset with
    | none => cases both
    | some offset =>
      cases both
      exact ⟨item_of_uintItem isOffset, item_of_uintItem isLength⟩

theorem hasCommand_of_stringItem {command : List UInt8}
    (isCommand : stringItem packet.node (cText "Command") = .ok (some command)) (text : CText) :
    hasCommand packet text = decide (command = text.val) := by
  rw [hasCommand, item_of_stringItem isCommand]
  simp

end Items

/-! ## The C program -/

section Validation

variable {image : Image} {conditions : Nat → Conditions}

/-- How the loop comes through a packet to success: it serves the request, or the packet is the
`Payload` command. -/
theorem validationLoop_zero {v v' : Validation} (released : v.released = List.range v.received)
    {packet : PlistNode} {attempts : Nat} {receipts : List Receipt}
    (ran : (validationLoop image conditions attempts (.packet packet :: receipts)).run v =
      (.ok 0, v')) :
    (stringItem packet (cText "Command") = .ok (some oobData.val) ∧
      ∃ range, oobRange packet = .ok range ∧
        Possible image (conditions v.received) v.position range ∧
          (validationLoop image conditions 0 receipts).run (v.behind image range) = (.ok 0, v')) ∨
    (stringItem packet (cText "Command") = .ok (some payload.val) ∧
      v'.outgoing = v.outgoing ∧ v'.plists = v.plists) := by
  have live : v.received ∉ v.next.released := live_of_released released
  cases isCommand : stringItem packet (cText "Command") with
  | error fault =>
    rw [validationLoop, run_get_bind, run_modify_bind, isCommand] at ran
    cases ran
  | ok command =>
    cases command with
    | none =>
      rw [validationLoop, run_get_bind, run_modify_bind, isCommand] at ran
      cases ran
    | some command =>
      have through := run_packet image conditions v isCommand attempts receipts
      by_cases isOob : command = oobData.val
      · subst isOob
        refine .inl ⟨rfl, ?_⟩
        cases isRange : oobRange packet with
        | error fault =>
          rw [through, if_pos rfl, asrHandleOobDataRequest, isRange] at ran
          cases ran
        | ok range =>
          by_cases possible : Possible image (conditions v.received) v.position range
          · rw [run_request released isCommand isRange possible] at ran
            exact ⟨range, rfl, possible, ran⟩
          · cases range with
            | none => exact absurd trivial possible
            | some range =>
              -- the packet is freed by the handler and again behind it
              have impossible : ¬ Possible image (conditions v.received) v.next.position
                  (some (range.1, range.2)) := possible
              obtain ⟨freed, handled, twice⟩ := run_answerRequest_other impossible live
              have handler : (asrHandleOobDataRequest image (conditions v.received) v.received
                  packet).run v.next = (.ok (-1), freed) := by
                rw [asrHandleOobDataRequest, isRange, run_lift_ok_bind]
                exact handled
              have fault : (plistFree v.received).run freed = (.error .useAfterFree, freed) :=
                if_pos twice
              rw [through, if_pos rfl, run_bind handler, run_bind_error fault] at ran
              cases ran
      · rw [through, if_neg isOob] at ran
        by_cases isPayload : command = payload.val
        · subst isPayload
          rw [if_pos rfl, run_bind (run_plistFree live)] at ran
          cases ran
          exact .inr ⟨rfl, rfl, rfl⟩
        · rw [if_neg isPayload, run_bind (run_plistFree live)] at ran
          cases ran

/-- The `Payload` command. -/
theorem validationLoop_payload {v : Validation} (released : v.released = List.range v.received)
    {packet : PlistNode} (isPayload : stringItem packet (cText "Command") = .ok (some payload.val))
    (attempts : Nat) (receipts : List Receipt) :
    ∃ v', (validationLoop image conditions attempts (.packet packet :: receipts)).run v =
      (.ok 0, v') ∧ v'.outgoing = v.outgoing ∧ v'.plists = v.plists := by
  have live : v.received ∉ v.next.released := live_of_released released
  rw [run_packet image conditions v isPayload, if_neg oobData_ne_payload.symm, if_pos rfl,
    run_bind (run_plistFree live)]
  exact ⟨_, rfl, rfl, rfl⟩

/-- The payload loop sends no more than it counts down from. -/
theorem length_payloadLoop_le (sends : Nat → Sent) (i : Int) (file : List UInt8) :
    (payloadLoop sends i file).packets.flatten.length ≤ i.toNat := by
  fun_induction payloadLoop sends i file with
  | case1 sends i file positive size short => exact Nat.zero_le _
  | case2 sends i file positive size enough refused =>
    rw [List.flatten_singleton, List.length_take]
    have bound : size ≤ i.toNat := by
      show (if i < 1450 then i.toNat else 1450) ≤ i.toNat
      split <;> omega
    omega
  | case3 sends i file positive size enough taken later ih =>
    rw [List.flatten_cons, List.length_append, List.length_take]
    have bound : size + (i - 1450).toNat ≤ i.toNat := by
      show (if i < 1450 then i.toNat else 1450) + (i - 1450).toNat ≤ i.toNat
      split <;> omega
    have rest : later.packets.flatten.length ≤ (i - 1450).toNat := ih
    omega
  | case4 sends i file done => exact Nat.zero_le _

/-- What is sent behind the `Payload` command is no longer than the image. -/
theorem length_payload_le (opened : Bool) (sends : Nat → Sent) :
    (asrSendPayload opened sends image.val).packets.flatten.length ≤ image.val.length := by
  cases opened with
  | false => exact Nat.zero_le _
  | true =>
    refine (length_payloadLoop_le _ _ _).trans ?_
    have := (toInt32_le (image.val.length % 2 ^ 32)).1
    omega

/-- **When the whole image is sent behind the `Payload` command.** -/
theorem payload_iff (opened : Bool) (sends : Nat → Sent) :
    (¬ (asrSendPayload opened sends image.val).ret < 0 ∧
        (asrSendPayload opened sends image.val).packets.flatten.length = image.val.length) ↔
      opened = true ∧ Accepts sends image.val.length ∧ image.val.length < 2 ^ 31 := by
  cases opened with
  | false =>
    refine iff_of_false ?_ fun never => Bool.false_ne_true never.1
    rintro ⟨success, -⟩
    exact success (by decide : (-1 : Int) < 0)
  | true =>
    constructor
    · rintro ⟨success, whole⟩
      have bound : (asrSendPayload true sends image.val).packets.flatten.length ≤
          (toInt32 (image.val.length % 2 ^ 32)).toNat := length_payloadLoop_le _ _ _
      have small : image.val.length < 2 ^ 31 := by
        have := (toInt32_le (image.val.length % 2 ^ 32)).2
        omega
      refine ⟨rfl, ?_, small⟩
      by_contra refused
      rw [asrSendPayload_eq small, (payloadLoop_spec _ sends _ rfl).2 refused] at success
      exact success (by decide)
    · rintro ⟨-, accepts, small⟩
      obtain ⟨success, flat, -⟩ := (payloadLoop_spec _ sends _ rfl).1 accepts
      rw [asrSendPayload_eq small, flat, success]
      exact ⟨by decide, rfl⟩

end Validation

/-! ## The Ruby program -/

section Ruby

variable {image : Image} {truncated : UInt64 → Option Int} {packet : AsrPacket}

theorem flatten_writePayload (file : List UInt8) : (writePayload file).flatten = file := by
  fun_induction writePayload file with
  | case1 => rfl
  | case2 file more ih => rw [List.flatten_cons, ih, List.take_append_drop]

theorem toLong_natCast (n : Nat) :
    toLong truncated (.integer n) = if n < 2 ^ 63 then some (n : Int) else none := by
  rw [toLong]
  refine if_congr ?_ rfl rfl
  omega

theorem seek_natCast (n : Nat) :
    seek truncated (.integer n) = if n < 2 ^ 63 then some n else none := by
  rw [seek, toLong_natCast]
  split
  · simp
  · rfl

theorem read_natCast {n : Nat} (fits : n < 2 ^ 63) (position : Nat) :
    read image truncated position (.integer n) = some (bytesAt image position n) := by
  rw [read, toLong_natCast, if_pos fits]
  · simp
  · exact RubyValue.noConfusion

/-- A request in which the C program finds an offset and a length: the offset has to have 63
bits, as the length has when it is within the image. -/
theorem answer_eq {oobOffset oobLength : Nat}
    (isRange : oobRange packet.node = .ok (some (oobOffset, oobLength)))
    (fits : oobLength < 2 ^ 63) :
    answer image truncated packet =
      if oobOffset < 2 ^ 63 then some (bytesAt image oobOffset oobLength) else none := by
  obtain ⟨isOffset, isLength⟩ := items_of_oobRange isRange
  rw [answer, isOffset, isLength, seek_natCast]
  split
  · rw [Option.bind_eq_bind, Option.bind_some, read_natCast fits]
  · rfl

theorem serve_oobData
    (isCommand : stringItem packet.node (cText "Command") = .ok (some oobData.val))
    (packets : List AsrPacket) :
    serve image truncated (packet :: packets) =
      match answer image truncated packet with
      | none => ⟨[], .raised⟩
      | some bytes =>
          ⟨bytes :: (serve image truncated packets).written,
            (serve image truncated packets).ended⟩ := by
  rw [serve, hasCommand_of_stringItem isCommand, decide_eq_true rfl, if_pos rfl]

theorem serve_payload
    (isCommand : stringItem packet.node (cText "Command") = .ok (some payload.val))
    (packets : List AsrPacket) :
    serve image truncated (packet :: packets) = ⟨writePayload image.val, .payload⟩ := by
  rw [serve, hasCommand_of_stringItem isCommand, hasCommand_of_stringItem isCommand,
    decide_eq_false oobData_ne_payload.symm, decide_eq_true rfl]
  rfl

theorem length_bytesAt (oobOffset oobLength : Nat) :
    (bytesAt image oobOffset oobLength).length = oobLength ↔
      oobLength ≤ image.val.length - oobOffset := by
  rw [bytesAt, List.length_take, List.length_drop]
  omega

/-- What the Ruby program answers where the C program serves a request: as much at least, and as
much only for an alike request. -/
theorem length_answerOf {condition : Conditions} {position : Nat} {range : Option (Nat × Nat)}
    (isRange : oobRange packet.node = .ok range)
    (possible : Possible image condition position range)
    {bytes : List UInt8} (answered : answer image truncated packet = some bytes) :
    (answerOf image position range).flatten.length ≤ bytes.length ∧
      (bytes.length ≤ (answerOf image position range).flatten.length →
        AlikeRequest image truncated condition packet range) := by
  cases range with
  | none =>
    refine ⟨Nat.zero_le _, fun bound => ?_⟩
    rw [List.length_eq_zero_iff.mp (Nat.le_zero.mp bound)] at answered
    exact answered
  | some range =>
    obtain ⟨oobOffset, oobLength⟩ := range
    obtain ⟨memory, readable, inside, sent⟩ := possible
    have fits : oobLength < 2 ^ 63 := by
      have := image.2
      rw [bytesAt, List.length_take, List.length_drop] at inside
      omega
    rw [answer_eq isRange fits] at answered
    by_cases near : oobOffset < 2 ^ 63
    · rw [if_pos near, Option.some_inj] at answered
      rw [seekPosition, if_pos near] at inside
      rw [answerOf, seekPosition, if_pos near, List.flatten_singleton, List.length_take, inside,
        ← answered, inside]
      have cut : oobLength % 2 ^ 32 ≤ oobLength := Nat.mod_le _ _
      refine ⟨Nat.min_le_right _ _, fun bound => ?_⟩
      have small : oobLength < 2 ^ 32 := by omega
      rw [Nat.mod_eq_of_lt small] at sent
      exact ⟨⟨memory, readable, sent⟩, (length_bytesAt _ _).mp inside, small, near⟩
    · rw [if_neg near] at answered
      cases answered

/-- An alike request is served by both, with the same bytes. -/
theorem served_of_alike {condition : Conditions} {range : Option (Nat × Nat)}
    (isRange : oobRange packet.node = .ok range)
    (alike : AlikeRequest image truncated condition packet range) (position : Nat) :
    Possible image condition position range ∧
      answer image truncated packet = some (answerOf image position range).flatten := by
  cases range with
  | none => exact ⟨trivial, alike⟩
  | some range =>
    obtain ⟨oobOffset, oobLength⟩ := range
    obtain ⟨⟨memory, readable, sent⟩, inside, small, near⟩ := alike
    have whole := (length_bytesAt oobOffset oobLength).mpr inside
    refine ⟨⟨memory, readable, ?_, ?_⟩, ?_⟩
    · rw [seekPosition, if_pos near]
      exact whole
    · rw [Nat.mod_eq_of_lt small]
      exact sent
    · rw [answer_eq isRange (by omega), if_pos near, answerOf, seekPosition, if_pos near,
        List.flatten_singleton, Nat.mod_eq_of_lt small, List.take_of_length_le (le_of_eq whole)]

end Ruby

/-! ## From any point of the loops -/

section Runs

variable {image : Image} {truncated : UInt64 → Option Int} {host : AsrHost}

/-- **When both come to the end the Ruby program has sent as much at least**, and as much only
for alike requests. -/
theorem alike_of_lengths {packets : List AsrPacket} : ∀ {v v' : Validation},
    v.released = List.range v.received →
    (validationLoop image host.conditions 0 (receiptsOf packets)).run v = (.ok 0, v') →
    (serve image truncated packets).ended = .payload →
    v'.plists = v.plists ∧ ∃ sent answers, v'.outgoing = v.outgoing ++ sent ∧
      (serve image truncated packets).written.flatten = answers ++ image.val ∧
        sent.flatten.length ≤ answers.length ∧
          (answers.length ≤ sent.flatten.length →
            AllAlike image truncated host v.received packets) := by
  induction packets with
  | nil =>
    intro v v' released ran ended
    cases ended
  | cons packet packets ih =>
    intro v v' released ran ended
    rcases validationLoop_zero released ran with ⟨isCommand, range, isRange, possible, rest⟩ |
      ⟨isCommand, outgoing, plists⟩
    · rw [serve_oobData isCommand] at ended ⊢
      cases answered : answer image truncated packet with
      | none =>
        rw [answered] at ended
        cases ended
      | some bytes =>
        rw [answered] at ended
        obtain ⟨least, alike⟩ := length_answerOf isRange possible answered
        obtain ⟨plists, sent, answers, outgoing, written, more, later⟩ :=
          ih (released_next released) rest ended
        refine ⟨plists, answerOf image v.position range ++ sent, bytes ++ answers, ?_, ?_, ?_, ?_⟩
        · rw [outgoing]
          exact List.append_assoc _ _ _
        · rw [List.flatten_cons, written, List.append_assoc]
        · rw [List.flatten_append, List.length_append, List.length_append]
          omega
        · intro bound
          rw [List.flatten_append, List.length_append, List.length_append] at bound
          exact .inl ⟨isCommand, ⟨range, isRange, alike (by omega)⟩, later (by omega)⟩
    · rw [serve_payload isCommand]
      refine ⟨plists, [], [], ?_, flatten_writePayload _, le_refl _, fun _ => .inr isCommand⟩
      rw [outgoing, List.append_nil]

/-- **Over alike requests both come to the end**, with the same answers. -/
theorem run_of_alike {packets : List AsrPacket} : ∀ {v : Validation},
    v.released = List.range v.received → AllAlike image truncated host v.received packets →
    ∃ v' sent, (validationLoop image host.conditions 0 (receiptsOf packets)).run v = (.ok 0, v') ∧
      v'.plists = v.plists ∧ v'.outgoing = v.outgoing ++ sent ∧
        (serve image truncated packets).ended = .payload ∧
          (serve image truncated packets).written.flatten = sent.flatten ++ image.val := by
  induction packets with
  | nil =>
    intro v released alike
    exact alike.elim
  | cons packet packets ih =>
    intro v released alike
    rcases alike with ⟨isCommand, ⟨range, isRange, request⟩, later⟩ | isCommand
    · obtain ⟨possible, answered⟩ := served_of_alike isRange request v.position
      obtain ⟨v', sent, ran, plists, outgoing, ended, written⟩ :=
        ih (v := v.behind image range) (released_next released) later
      refine ⟨v', answerOf image v.position range ++ sent, ?_, plists, ?_, ?_, ?_⟩
      · exact (run_request released isCommand isRange possible 0 _).trans ran
      · rw [outgoing]
        exact List.append_assoc _ _ _
      · rw [serve_oobData isCommand, answered]
        exact ended
      · rw [serve_oobData isCommand, answered]
        show (_ :: (serve image truncated packets).written).flatten = _
        rw [List.flatten_cons, written, List.flatten_append, List.append_assoc]
    · obtain ⟨v', ran, outgoing, plists⟩ :=
        @validationLoop_payload image host.conditions v released packet.node isCommand 0
          (receiptsOf packets)
      refine ⟨v', [], ran, plists, ?_, ?_, ?_⟩
      · rw [outgoing, List.append_nil]
      · rw [serve_payload isCommand]
      · rw [serve_payload isCommand]
        exact flatten_writePayload _

end Runs

/-! ## The two programs -/

theorem openAttempts_nonneg {connects : Nat → Bool} : ∀ {attempts i : Nat},
    ¬ openAttempts connects attempts i < 0 ↔ ∃ k, i ≤ k ∧ k < i + attempts ∧ connects k = true
  | 0, i => by
      refine iff_of_false (not_not.mpr (by decide : (-1 : Int) < 0)) ?_
      rintro ⟨k, least, most, -⟩
      omega
  | attempts + 1, i => by
      rw [openAttempts]
      by_cases connected : connects i = true
      · rw [if_pos connected]
        exact iff_of_true (by decide : ¬ (0 : Int) < 0) ⟨i, le_refl i, by omega, connected⟩
      · rw [if_neg connected, openAttempts_nonneg]
        refine exists_congr fun k => ⟨?_, ?_⟩
        · rintro ⟨least, most, taken⟩
          exact ⟨by omega, by omega, taken⟩
        · rintro ⟨least, most, taken⟩
          have later : i ≠ k := fun same => connected (same ▸ taken)
          exact ⟨by omega, by omega, taken⟩

section Whole

variable {image : Image} {truncated : UInt64 → Option Int} {host : AsrHost}

/-- The loop returns 0 or -1. -/
theorem validationLoop_result {conditions : Nat → Conditions} {receipts : List Receipt} :
    ∀ attempts : Nat, Ensures (fun _ => True) (validationLoop image conditions attempts receipts)
      (fun result _ => result = 0 ∨ result = -1) fun _ => True := by
  have step {α : Type} (program : Program Validation α) :
      Ensures (fun _ => True) program (fun _ _ => True) fun _ => True :=
    ⟨fun _ _ => trivial, fun _ _ => trivial⟩
  have failed : Ensures (fun _ : Validation => True) (return -1 : Program Validation Int)
      (fun result _ => result = 0 ∨ result = -1) fun _ => True := ensures_pure fun _ _ => .inr rfl
  induction receipts with
  | nil => exact fun _ => failed
  | cons receipt receipts ih =>
    intro attempts
    cases receipt with
    | failure => exact failed
    | nothing => exact ensures_ite (fun _ => ih _) fun _ => failed
    | packet packet =>
      refine ensures_bind (step _) fun v => ensures_bind (step _) fun _ =>
        ensures_bind (step _) fun command => ?_
      cases command with
      | none => exact failed
      | some command =>
        refine ensures_ite (fun _ => ?_) fun _ => ensures_ite (fun _ => ?_) fun _ => ?_
        · exact ensures_bind (step _) fun _ => ensures_bind (step _) fun _ => ih 0
        · exact ensures_bind (step _) fun _ => ensures_pure fun _ _ => .inl rfl
        · exact ensures_bind (step _) fun _ => failed

/-- The state in which the image has been announced. -/
def announcedState (image : Image) : Validation :=
  { Validation.start with plists := [packetInfo image.val.length] }

/-- What success of the validation takes. -/
theorem asrPerformValidation_nonneg {opened announced : Bool} {receipts : List Receipt}
    {ret : Int} {v : Validation} :
    ((asrPerformValidation image host.conditions opened announced receipts).run .start =
        (.ok ret, v) ∧ ¬ ret < 0) ↔
      opened = true ∧ announced = true ∧ ret = 0 ∧
        (validationLoop image host.conditions 0 receipts).run (announcedState image) =
          (.ok 0, v) := by
  cases opened with
  | false =>
    refine iff_of_false ?_ fun never => Bool.false_ne_true never.1
    rintro ⟨ran, success⟩
    cases ran
    exact success (by decide)
  | true =>
    cases announced with
    | false =>
      refine iff_of_false ?_ fun never => Bool.false_ne_true never.2.1
      rintro ⟨ran, success⟩
      cases ran
      exact success (by decide)
    | true =>
      rw [eq_self, true_and, true_and]
      constructor
      · rintro ⟨ran, success⟩
        rcases (validationLoop_result 0).ok trivial ran with rfl | rfl
        · exact ⟨rfl, ran⟩
        · exact absurd (by decide) success
      · rintro ⟨rfl, ran⟩
        exact ⟨ran, by decide⟩

/-- What success of `restore_send_filesystem` takes. -/
theorem restoreSendFilesystem_zero {first : Receipt} {receipts : List Receipt} {v : Validation}
    (came : first ≠ .failure) :
    (restoreSendFilesystem image host (first :: receipts)).run .start = (.ok 0, v) ↔
      ¬ asrOpenWithTimeout host.connects < 0 ∧ host.opened = true ∧ host.announced = true ∧
        ¬ (asrSendPayload host.reopened host.sends image.val).ret < 0 ∧
          ∃ v', (validationLoop image host.conditions 0 receipts).run (announcedState image) =
              (.ok 0, v') ∧
            { v' with outgoing := v'.outgoing ++
              (asrSendPayload host.reopened host.sends image.val).packets } = v := by
  have body : restoreSendFilesystem image host (first :: receipts) =
      if asrOpenWithTimeout host.connects < 0 then return -1
      else do
        let ret ← asrPerformValidation image host.conditions host.opened host.announced receipts
        if ret < 0 then return -1
        else do
          Program.modify fun v => { v with outgoing := v.outgoing ++
            (asrSendPayload host.reopened host.sends image.val).packets }
          if (asrSendPayload host.reopened host.sends image.val).ret < 0 then return -1
          else return 0 := by
    cases first with
    | failure => exact absurd rfl came
    | nothing => rfl
    | packet packet => rfl
  rw [body]
  by_cases unreached : asrOpenWithTimeout host.connects < 0
  · rw [if_pos unreached]
    refine iff_of_false ?_ fun never => never.1 unreached
    intro never
    cases never
  rw [if_neg unreached, and_iff_right unreached, run_bind_eq_ok]
  constructor
  · rintro ⟨ret, v', ran, rest⟩
    by_cases failed : ret < 0
    · rw [if_pos failed] at rest
      cases rest
    obtain ⟨opened, announced, -, loop⟩ := asrPerformValidation_nonneg.mp ⟨ran, failed⟩
    rw [if_neg failed, run_modify_bind] at rest
    by_cases unsent : (asrSendPayload host.reopened host.sends image.val).ret < 0
    · rw [if_pos unsent] at rest
      cases rest
    rw [if_neg unsent] at rest
    exact ⟨opened, announced, unsent, v', loop, (Prod.mk.inj rest).2⟩
  · rintro ⟨opened, announced, paid, v', loop, rfl⟩
    obtain ⟨ran, success⟩ := asrPerformValidation_nonneg.mpr ⟨opened, announced, rfl, loop⟩
    refine ⟨0, v', ran, ?_⟩
    rw [if_neg success, run_modify_bind, if_neg paid]
    rfl

/-- **The two programs send the same exactly when** the device is reached and takes what is
sent, the image has less than 2 GiB, and behind `Initiate` come alike requests and the
`Payload` command. -/
theorem sends_same_iff (image : Image) (truncated : UInt64 → Option Int) (host : AsrHost)
    (packets : List AsrPacket) :
    SendsSame image truncated host packets ↔
      host.Ready image.val.length ∧ image.val.length < 2 ^ 31 ∧
        ∃ first requests, packets = first :: requests ∧
          hasCommand first (cText "Initiate") = true ∧
            AllAlike image truncated host 0 requests := by
  have reached : ¬ asrOpenWithTimeout host.connects < 0 ↔
      ∃ i, 1 ≤ i ∧ i ≤ 10 ∧ host.connects i = true := by
    rw [asrOpenWithTimeout, openAttempts_nonneg]
    refine exists_congr fun i => and_congr_right fun _ => and_congr_left fun _ => ?_
    omega
  cases packets with
  | nil =>
    refine iff_of_false ?_ fun never => by
      obtain ⟨-, -, first, requests, split, -⟩ := never
      cases split
    rintro ⟨v, announced, -, ended, -⟩
    cases ended
  | cons first requests =>
    rw [SendsSame, receiptsOf, List.map_cons]
    by_cases isInitiate : hasCommand first (cText "Initiate") = true
    · rw [service, if_pos isInitiate]
      constructor
      · rintro ⟨v, announced, ran, ended, same, -, bytes⟩
        obtain ⟨connected, opened, told, paid, v', loop, rfl⟩ :=
          (restoreSendFilesystem_zero Receipt.noConfusion).mp ran
        obtain ⟨-, sent, answers, outgoing, written, least, alike⟩ :=
          @alike_of_lengths image truncated host requests _ _ rfl loop ended
        have lengths := congrArg List.length bytes
        have most := @length_payload_le image host.reopened host.sends
        rw [List.flatten_append, List.length_append, outgoing, List.flatten_append,
          List.length_append, written, List.length_append] at lengths
        have nothing : (announcedState image).outgoing.flatten.length = 0 := rfl
        obtain ⟨reopened, accepts, small⟩ := (payload_iff _ _).mp ⟨paid, by omega⟩
        exact ⟨⟨reached.mp connected, opened, told, reopened, accepts⟩, small, first, requests, rfl,
          isInitiate, alike (by omega)⟩
      · rintro ⟨ready, small, first', requests', split, -, alike⟩
        cases split
        obtain ⟨v', sent, loop, plists, outgoing, ended, written⟩ :=
          @run_of_alike image truncated host requests (announcedState image) rfl alike
        obtain ⟨paid, -⟩ := (payload_iff _ _).mpr ⟨ready.reopened, ready.accepts, small⟩
        have whole := ((payloadLoop_spec _ host.sends image.val rfl).1 ready.accepts).2.1
        refine ⟨_, _, (restoreSendFilesystem_zero Receipt.noConfusion).mpr
          ⟨reached.mpr ready.connects, ready.opened, ready.announced, paid, v', loop, rfl⟩, ended,
          rfl, ?_, ?_⟩
        · exact plists
        · rw [written, List.flatten_append, outgoing, ready.reopened, asrSendPayload_eq small,
            whole]
          rfl
    · rw [service, if_neg isInitiate]
      refine iff_of_false ?_ ?_
      · rintro ⟨v, announced, -, ended, -⟩
        cases ended
      · rintro ⟨-, -, first', requests', split, initiate, -⟩
        cases split
        exact isInitiate initiate

end Whole

/-- A packet that is a command only. -/
def commandPacket (command : CText) : AsrPacket where
  entries := [(cText "Command", leaf (plistNewString command.val))]
  distinct := List.pairwise_singleton _ _

/-- A request for the two bytes behind the first. -/
def twoBytesPacket : AsrPacket where
  entries := [(cText "Command", leaf (plistNewString oobData.val)),
    (cText "OOB Offset", leaf (plistNewUint 1)), (cText "OOB Length", leaf (plistNewUint 2))]
  distinct := by decide

/-- Everything goes through. -/
def smoothHost : AsrHost where
  connects _ := true
  opened := true
  announced := true
  conditions _ := smooth 2
  reopened := true
  sends _ := ⟨true, 3⟩

theorem threeBytes_same : SendsSame threeBytes (fun _ => none) smoothHost
    [commandPacket (cText "Initiate"), twoBytesPacket, commandPacket payload] := by
  refine (sends_same_iff threeBytes _ smoothHost _).mpr
    ⟨⟨⟨1, by decide, by decide, rfl⟩, rfl, rfl, rfl, ?_⟩, by decide, _, _, rfl, by decide,
      .inl ⟨rfl, ⟨some (1, 2), rfl, ⟨rfl, rfl, rfl⟩, by decide, by decide, by decide⟩, .inr rfl⟩⟩
  intro k inside
  obtain rfl : k = 0 := by
    have length : threeBytes.val.length = 3 := rfl
    omega
  rfl

end ASRService

end Irestore.Restore
