/-
# Restore.Validation — answering the device while it validates the filesystem

`asr_perform_validation` answers `OOBData` requests with parts of the filesystem until a
`Payload` command comes.  `asr_handle_oob_data_request` frees the packet on some of its error
paths, which the caller does again, and its result is not looked at.  The packets are numbered
as they are received.

* `run_handle` — the ways a request goes.
* `loopHolds_iff` — from any point of the loop.
* `validated_iff` — when the call does what it is to.
* `requests_not_answered` — a request past the end of the file, and one without a length.
-/
import Irestore.Library.Program
import Irestore.Plist.Access
import Irestore.Restore.Filesystem

namespace Irestore.Restore

open Irestore.Library Irestore.Library.Program Irestore.Library.Bytes Irestore.Library.CMemory
  Irestore.Plist

set_option autoImplicit false

/-! ## The loop -/

/-- What `asr_receive` gives: a failure, no plist, or a packet. -/
inductive Receipt where
  | failure
  | nothing
  | packet (plist : PlistNode)

/-- What `malloc`, `fread` and the connection do for a request. -/
structure Conditions where
  memory : Bool
  readable : Bool
  sent : Sent

/-- The filesystem image; its size is an `off_t`. -/
abbrev Image := { content : List UInt8 // content.length < 2 ^ 63 }

/-- The position in the file, what was sent to the device, how many packets were received, and
which were released. -/
structure Validation where
  position : Nat
  plists : List PlistNode
  outgoing : List (List UInt8)
  received : Nat
  released : List Nat

/-- `plist_free` of the packet with this number. -/
def plistFree (n : Nat) : Program Validation Unit :=
  ⟨fun v =>
    if n ∈ v.released then (.error .useAfterFree, v)
    else (.ok (), { v with released := v.released ++ [n] })⟩

/-- An unsigned integer the dictionary holds under the key; `none` when it holds none there. -/
def uintItem (dict : PlistNode) (key : CText) : Checked (Option UInt64) := do
  let node ← plistDictGetItem dict key
  if plistGetNodeType node = .uint then do
    let value ← plistGetUintVal node
    return some value
  else return none

/-- What a request asks for: an offset and a length. -/
def oobRange (packet : PlistNode) : Checked (Option (Nat × Nat)) := do
  let oobLength ← uintItem packet (cText "OOB Length")
  match oobLength with
  | none => return none
  | some oobLength => do
      let oobOffset ← uintItem packet (cText "OOB Offset")
      return oobOffset.map fun oobOffset => (oobOffset.toNat, oobLength.toNat)

section Loop

variable (image : Image)

/-- The bytes of the file from a position on, as `fread` reads them. -/
def bytesAt (position length : Nat) : List UInt8 := (image.val.drop position).take length

/-- Where `fseek` leaves the file; as a `long` the offset is not to be negative. -/
def seekPosition (position oobOffset : Nat) : Nat :=
  if oobOffset < 2 ^ 63 then oobOffset else position

/-- `asr_handle_oob_data_request` from `malloc` on. -/
def answerRequest (conditions : Conditions) (n oobOffset oobLength : Nat) :
    Program Validation Int := do
  if conditions.memory = false then do
    plistFree n
    return -1
  else do
    Program.modify fun v => { v with position := seekPosition v.position oobOffset }
    let v ← Program.get
    let oobData := bytesAt image v.position oobLength
    if conditions.readable = false ∨ oobData.length ≠ oobLength then do
      plistFree n
      return -1
    else do
      Program.modify fun v => { v with position := v.position + oobLength }
      -- the length goes to a `uint32_t`
      let size := oobLength % 2 ^ 32
      if asrSendBuffer conditions.sent size < 0 then do
        plistFree n
        return -1
      else do
        Program.modify fun v => { v with outgoing := v.outgoing ++ [oobData.take size] }
        return 0

/-- `asr_handle_oob_data_request`. -/
def asrHandleOobDataRequest (conditions : Conditions) (n : Nat) (packet : PlistNode) :
    Program Validation Int := do
  let range ← Program.lift (oobRange packet)
  match range with
  | none => return -1
  | some (oobOffset, oobLength) => answerRequest image conditions n oobOffset oobLength

def oobData : CText := cText "OOBData"

def payload : CText := cText "Payload"

theorem oobData_ne_payload : oobData.val ≠ payload.val := by decide

variable (conditions : Nat → Conditions)

/-- The loop of `asr_perform_validation`; behind the listed receipts the connection fails. -/
def validationLoop : Nat → List Receipt → Program Validation Int
  | _, [] => return -1
  | _, .failure :: _ => return -1
  -- NULL is no dictionary: there is no command in it
  | attempts, .nothing :: receipts =>
      if attempts < 5 then validationLoop (attempts + 1) receipts else return -1
  | _, .packet packet :: receipts => do
      let v ← Program.get
      let n := v.received
      Program.modify fun v => { v with received := v.received + 1 }
      let command ← Program.lift (stringItem packet (cText "Command"))
      match command with
      | none => return -1
      | some command =>
          if command = oobData.val then do
            let _ ← asrHandleOobDataRequest image (conditions n) n packet
            plistFree n
            validationLoop 0 receipts
          else if command = payload.val then do
            plistFree n
            return 0
          else do
            plistFree n
            return -1

/-- What the device is told of the filesystem. -/
def packetInfo (length : Nat) : PlistNode :=
  let payloadInfo := [("Port", 1), ("Size", length)].foldl (fun dict (key, value) =>
    plistDictInsertItem dict (cText key) (leaf (plistNewUint (UInt64.ofNat value))))
      (leaf plistNewDict)
  let packetInfo := [("FEC Slice Stride", 40), ("Packet Payload Size", 1450),
    ("Packets Per FEC", 25)].foldl (fun dict (key, value) =>
      plistDictInsertItem dict (cText key) (leaf (plistNewUint value))) (leaf plistNewDict)
  let packetInfo := plistDictInsertItem packetInfo (cText "Payload") payloadInfo
  [("Stream ID", 1), ("Version", 1)].foldl (fun dict (key, value) =>
    plistDictInsertItem dict (cText key) (leaf (plistNewUint value))) packetInfo

/-- `asr_perform_validation`: whether the file opens and the packet information can be sent, and
what is received then. -/
def asrPerformValidation (opened announced : Bool) (receipts : List Receipt) :
    Program Validation Int := do
  if opened = false then return -1
  else do
    Program.modify fun v => { v with plists := v.plists ++ [packetInfo image.val.length] }
    if announced = false then return -1 else validationLoop image conditions 0 receipts

end Loop

/-! ## One request -/

section Requests

variable (image : Image)

def nextPosition (position : Nat) : Option (Nat × Nat) → Nat
  | none => position
  | some (oobOffset, oobLength) => seekPosition position oobOffset + oobLength

/-- What a request asks for can be read, and what is to be sent is taken. -/
def Possible (conditions : Conditions) (position : Nat) : Option (Nat × Nat) → Prop
  | none => True
  | some (oobOffset, oobLength) => conditions.memory = true ∧ conditions.readable = true ∧
      (bytesAt image (seekPosition position oobOffset) oobLength).length = oobLength ∧
        conditions.sent = ⟨true, oobLength % 2 ^ 32⟩

/-- A request with a length that 32 bits hold, and an offset that a `long` holds. -/
def Fits : Option (Nat × Nat) → Prop
  | none => False
  | some (oobOffset, oobLength) => oobLength < 2 ^ 32 ∧ (oobOffset < 2 ^ 63 ∨ oobLength = 0)

/-- The request is answered with the bytes it asks for. -/
def Answers (packet : PlistNode) (sent : List UInt8) : Prop :=
  ∃ oobOffset oobLength, oobRange packet = .ok (some (oobOffset, oobLength)) ∧
    sent = bytesAt image oobOffset oobLength ∧ sent.length = oobLength

variable {image}

/-- A request that is possible is answered with as many bytes as 32 bits of its length say. -/
theorem run_answerRequest {conditions : Conditions} {v : Validation} {oobOffset oobLength : Nat}
    (possible : Possible image conditions v.position (some (oobOffset, oobLength))) (n : Nat) :
    (answerRequest image conditions n oobOffset oobLength).run v = (.ok 0,
      { v with
        position := seekPosition v.position oobOffset + oobLength
        outgoing := v.outgoing ++ [(bytesAt image (seekPosition v.position oobOffset)
          oobLength).take (oobLength % 2 ^ 32)] }) := by
  obtain ⟨memory, readable, inside, sent⟩ := possible
  have read : ¬ (conditions.readable = false ∨
      (bytesAt image (seekPosition v.position oobOffset) oobLength).length ≠ oobLength) := by
    rw [readable]
    exact not_or.mpr ⟨by decide, not_not.mpr inside⟩
  have taken : ¬ asrSendBuffer conditions.sent (oobLength % 2 ^ 32) < 0 :=
    fun negative => asrSendBuffer_negative.mp negative sent
  rw [answerRequest, if_neg (by rw [memory]; decide), run_modify_bind, run_get_bind]
  dsimp only
  rw [if_neg read, run_modify_bind, if_neg taken]
  rfl

/-- Any other request frees the packet. -/
theorem run_answerRequest_other {conditions : Conditions} {v : Validation}
    {oobOffset oobLength n : Nat}
    (other : ¬ Possible image conditions v.position (some (oobOffset, oobLength)))
    (live : n ∉ v.released) :
    ∃ v', (answerRequest image conditions n oobOffset oobLength).run v = (.ok (-1), v') ∧
      n ∈ v'.released := by
  have freed {v' : Validation} (same : v'.released = v.released) :
      ∃ v'', (plistFree n >>= fun _ => return (-1) : Program Validation Int).run v' =
        (.ok (-1), v'') ∧ n ∈ v''.released := by
    have step : (plistFree n).run v' = (.ok (), { v' with released := v'.released ++ [n] }) :=
      if_neg (same ▸ live)
    exact ⟨_, run_bind step, by simp⟩
  rw [answerRequest]
  by_cases memory : conditions.memory = false
  · rw [if_pos memory]
    exact freed rfl
  · rw [if_neg memory, run_modify_bind, run_get_bind]
    dsimp only
    by_cases unread : conditions.readable = false ∨
        (bytesAt image (seekPosition v.position oobOffset) oobLength).length ≠ oobLength
    · rw [if_pos unread]
      exact freed rfl
    · rw [if_neg unread, run_modify_bind]
      obtain ⟨readable, inside⟩ := not_or.mp unread
      have failed : asrSendBuffer conditions.sent (oobLength % 2 ^ 32) < 0 :=
        asrSendBuffer_negative.mpr fun sent => other ⟨Bool.eq_true_of_not_eq_false memory,
          Bool.eq_true_of_not_eq_false readable, not_not.mp inside, sent⟩
      rw [if_pos failed]
      exact freed rfl

/-- What is sent for a request. -/
def answerOf (image : Image) (position : Nat) : Option (Nat × Nat) → List (List UInt8)
  | none => []
  | some (oobOffset, oobLength) =>
      [(bytesAt image (seekPosition position oobOffset) oobLength).take (oobLength % 2 ^ 32)]

/-- **The handler**: what it leaves when the request is possible. -/
theorem run_handle {conditions : Conditions} {packet : PlistNode} {range : Option (Nat × Nat)}
    (isRange : oobRange packet = .ok range) {v : Validation}
    (possible : Possible image conditions v.position range) (n : Nat) :
    ∃ result, (asrHandleOobDataRequest image conditions n packet).run v = (.ok result,
      { v with
        position := nextPosition v.position range
        outgoing := v.outgoing ++ answerOf image v.position range }) := by
  rw [asrHandleOobDataRequest, isRange, run_lift_ok_bind]
  cases range with
  | none =>
    refine ⟨-1, ?_⟩
    rw [nextPosition, answerOf, List.append_nil]
    rfl
  | some range => exact ⟨0, run_answerRequest possible n⟩

theorem length_bytesAt_le (position length : Nat) :
    (bytesAt image position length).length ≤ length := List.length_take_le _ _

/-- **What is sent is what is asked for** when the numbers fit. -/
theorem answers_iff {conditions : Conditions} {packet : PlistNode} {oobOffset oobLength : Nat}
    (isRange : oobRange packet = .ok (some (oobOffset, oobLength))) {position : Nat}
    (possible : Possible image conditions position (some (oobOffset, oobLength))) :
    Answers image packet ((bytesAt image (seekPosition position oobOffset) oobLength).take
        (oobLength % 2 ^ 32)) ↔ Fits (some (oobOffset, oobLength)) := by
  obtain ⟨-, -, inside, -⟩ := possible
  constructor
  · rintro ⟨offset, length, isRange', sent, whole⟩
    cases isRange.symm.trans isRange'
    have small : oobLength < 2 ^ 32 := by
      rw [List.length_take, inside] at whole
      omega
    refine ⟨small, ?_⟩
    by_contra far
    obtain ⟨beyond, some⟩ := not_or.mp far
    have none : bytesAt image oobOffset oobLength = [] := by
      rw [bytesAt, List.drop_eq_nil_of_le (by have := image.2; omega), List.take_nil]
    rw [sent, none] at whole
    exact some whole.symm
  · rintro ⟨small, place⟩
    refine ⟨oobOffset, oobLength, isRange, ?_, ?_⟩
    · rw [Nat.mod_eq_of_lt small, List.take_of_length_le (length_bytesAt_le _ _)]
      rcases place with near | rfl
      · rw [seekPosition, if_pos near]
      · rw [bytesAt, bytesAt, List.take_zero, List.take_zero]
    · rw [Nat.mod_eq_of_lt small, List.take_of_length_le (length_bytesAt_le _ _), inside]

end Requests

/-! ## The loop -/

section Runs

variable (image : Image) (conditions : Nat → Conditions)

def packetsOf (receipts : List Receipt) : List PlistNode :=
  receipts.filterMap fun
    | .packet packet => some packet
    | _ => none

/-- From this point on: every packet is released once, and 0 is returned only behind a `Payload`
command, when the requests before it were answered, as those before were. -/
def LoopHolds (v : Validation) (attempts : Nat) (answered : Prop) (receipts : List Receipt) : Prop :=
  ∃ result v', (validationLoop image conditions attempts receipts).run v = (.ok result, v') ∧
    v'.released = List.range v'.received ∧ (result = 0 ∨ result < 0) ∧
      (result = 0 → answered ∧ ∃ requests last behind sent,
        packetsOf receipts = requests ++ last :: behind ∧
          v'.received = v.received + requests.length + 1 ∧
            stringItem last (cText "Command") = .ok (some payload.val) ∧
              v'.outgoing = v.outgoing ++ sent ∧ List.Forall₂ (Answers image) requests sent)

/-- Every packet that is received has a command; an `OOBData` request that has a length and an
offset can be answered; and all are, rightly, before a `Payload` command. -/
def Orderly : (attempts n position : Nat) → (answered : Prop) → List Receipt → Prop
  | _, _, _, _, [] | _, _, _, _, .failure :: _ => True
  | attempts, n, position, answered, .nothing :: receipts =>
      attempts < 5 → Orderly (attempts + 1) n position answered receipts
  | _, n, position, answered, .packet packet :: receipts =>
      ∃ command, stringItem packet (cText "Command") = .ok (some command) ∧
        (command = oobData.val → ∃ range, oobRange packet = .ok range ∧
          Possible image (conditions n) position range ∧
            Orderly 0 (n + 1) (nextPosition position range) (answered ∧ Fits range) receipts) ∧
        (command = payload.val → answered)

variable {image conditions}

theorem packetsOf_cons (packet : PlistNode) (receipts : List Receipt) :
    packetsOf (.packet packet :: receipts) = packet :: packetsOf receipts := rfl

/-- The state in which the handler runs, and that of the next receive. -/
def Validation.next (v : Validation) : Validation := { v with received := v.received + 1 }

theorem live_of_released {v : Validation} (released : v.released = List.range v.received) :
    v.received ∉ v.released := by
  rw [released]
  exact List.not_mem_range_self

theorem run_plistFree {v : Validation} {n : Nat} (live : n ∉ v.released) :
    (plistFree n).run v = (.ok (), { v with released := v.released ++ [n] }) := if_neg live

/-- A failed receive. -/
theorem loopHolds_of_failure {v : Validation} (released : v.released = List.range v.received)
    {attempts : Nat} {answered : Prop} {receipts : List Receipt}
    (ran : (validationLoop image conditions attempts receipts).run v = (.ok (-1), v)) :
    LoopHolds image conditions v attempts answered receipts :=
  ⟨-1, v, ran, released, .inr (by decide), fun never => absurd never (by decide)⟩

/-! What was sent stays sent. -/

section Grows

variable (front : List (List UInt8))

theorem plistFree_grows (n : Nat) :
    Keeps (fun v : Validation => front <+: v.outgoing) (plistFree n) where
  ok {v v' _} sent ran := by
    rw [plistFree] at ran
    dsimp only at ran
    split at ran <;> cases ran
    exact sent
  fault {v v' _} sent ran := by
    rw [plistFree] at ran
    dsimp only at ran
    split at ran <;> cases ran
    exact sent

theorem asrHandleOobDataRequest_grows (condition : Conditions) (n : Nat) (packet : PlistNode) :
    Keeps (fun v : Validation => front <+: v.outgoing)
      (asrHandleOobDataRequest image condition n packet) := by
  have freed : Keeps (fun v : Validation => front <+: v.outgoing)
      (plistFree n >>= fun _ => (return -1 : Program Validation Int)) :=
    keeps_bind (plistFree_grows front n) fun _ => keeps_pure _
  refine keeps_bind (keeps_lift _) fun range => ?_
  cases range with
  | none => exact keeps_pure _
  | some range =>
    refine keeps_ite freed (keeps_bind (ensures_modify fun _ sent => sent) fun _ => ?_)
    refine keeps_bind keeps_get fun _ => keeps_ite freed ?_
    refine keeps_bind (ensures_modify fun _ sent => sent) fun _ => keeps_ite freed ?_
    refine keeps_bind (ensures_modify fun v sent => ?_) fun _ => keeps_pure _
    exact sent.trans (List.prefix_append _ _)

theorem validationLoop_grows {receipts : List Receipt} : ∀ attempts : Nat,
    Keeps (fun v : Validation => front <+: v.outgoing)
      (validationLoop image conditions attempts receipts) := by
  induction receipts with
  | nil => exact fun _ => keeps_pure _
  | cons receipt receipts ih =>
    intro attempts
    cases receipt with
    | failure => exact keeps_pure _
    | nothing => exact keeps_ite (ih _) (keeps_pure _)
    | packet packet =>
      refine keeps_bind keeps_get fun v => keeps_bind (ensures_modify fun _ sent => sent) fun _ => ?_
      refine keeps_bind (keeps_lift _) fun command => ?_
      cases command with
      | none => exact keeps_pure _
      | some command =>
        refine keeps_ite ?_ (keeps_ite ?_ ?_)
        · exact keeps_bind (asrHandleOobDataRequest_grows front _ _ _) fun _ =>
            keeps_bind (plistFree_grows front _) fun _ => ih 0
        · exact keeps_bind (plistFree_grows front _) fun _ => keeps_pure _
        · exact keeps_bind (plistFree_grows front _) fun _ => keeps_pure _

end Grows

/-- A packet as far as its command. -/
theorem run_packet (image : Image) (conditions : Nat → Conditions) (v : Validation)
    {packet : PlistNode} {command : List UInt8}
    (isCommand : stringItem packet (cText "Command") = .ok (some command)) (attempts : Nat)
    (receipts : List Receipt) :
    (validationLoop image conditions attempts (.packet packet :: receipts)).run v =
      (if command = oobData.val then do
        let _ ← asrHandleOobDataRequest image (conditions v.received) v.received packet
        plistFree v.received
        validationLoop image conditions 0 receipts
      else if command = payload.val then do
        plistFree v.received
        return 0
      else do
        plistFree v.received
        return -1 : Program Validation Int).run v.next := by
  rw [validationLoop, run_get_bind, run_modify_bind, isCommand, run_lift_ok_bind]
  rfl

/-- The state behind a request that is possible. -/
def Validation.behind (image : Image) (v : Validation) (range : Option (Nat × Nat)) : Validation where
  position := nextPosition v.position range
  plists := v.plists
  outgoing := v.outgoing ++ answerOf image v.position range
  received := v.received + 1
  released := v.released ++ [v.received]

theorem run_request {v : Validation} (released : v.released = List.range v.received)
    {packet : PlistNode} (isCommand : stringItem packet (cText "Command") = .ok (some oobData.val))
    {range : Option (Nat × Nat)} (isRange : oobRange packet = .ok range)
    (possible : Possible image (conditions v.received) v.position range) (attempts : Nat)
    (receipts : List Receipt) :
    (validationLoop image conditions attempts (.packet packet :: receipts)).run v =
      (validationLoop image conditions 0 receipts).run (v.behind image range) := by
  obtain ⟨result, handled⟩ := run_handle isRange (show Possible image
    (conditions v.received) v.next.position range from possible) v.received
  rw [run_packet image conditions v isCommand, if_pos rfl, run_bind handled]
  exact run_bind (run_plistFree (live_of_released released))

/-- The first that is sent from a request on is the answer to it. -/
theorem sent_behind {v v' : Validation} {oobOffset oobLength attempts : Nat}
    {receipts : List Receipt} {result : Int} {first : List UInt8} {sent : List (List UInt8)}
    (ran : (validationLoop image conditions attempts receipts).run
      (v.behind image (some (oobOffset, oobLength))) = (.ok result, v'))
    (outgoing : v'.outgoing = v.outgoing ++ first :: sent) :
    first = (bytesAt image (seekPosition v.position oobOffset) oobLength).take (oobLength % 2 ^ 32) ∧
      v'.outgoing = (v.behind image (some (oobOffset, oobLength))).outgoing ++ sent := by
  obtain ⟨more, grown⟩ := (validationLoop_grows
    (v.behind image (some (oobOffset, oobLength))).outgoing attempts).ok (List.prefix_refl _) ran
  have parts : v.outgoing ++ (answerOf image v.position (some (oobOffset, oobLength)) ++ more) =
      v.outgoing ++ first :: sent := by
    rw [← List.append_assoc]
    exact grown.trans outgoing
  obtain ⟨isFirst, isSent⟩ := List.cons.inj (List.append_cancel_left parts)
  subst isSent
  exact ⟨isFirst.symm, grown.symm⟩

/-- A request that is possible leaves to the rest what it is to do, with what the request adds. -/
theorem loopHolds_request {v : Validation} (released : v.released = List.range v.received)
    {packet : PlistNode} (isCommand : stringItem packet (cText "Command") = .ok (some oobData.val))
    {range : Option (Nat × Nat)} (isRange : oobRange packet = .ok range)
    (possible : Possible image (conditions v.received) v.position range) (attempts : Nat)
    (answered : Prop) (receipts : List Receipt) :
    LoopHolds image conditions v attempts answered (.packet packet :: receipts) ↔
      LoopHolds image conditions (v.behind image range) 0 (answered ∧ Fits range) receipts := by
  rw [LoopHolds, LoopHolds, run_request released isCommand isRange possible]
  refine exists_congr fun result => exists_congr fun v' => and_congr_right fun ran =>
    and_congr_right fun _ => and_congr_right fun _ => imp_congr_right fun _ => ?_
  rw [and_assoc]
  refine and_congr_right fun _ => ?_
  constructor
  · rintro ⟨requests, last, behind, sent, split, count, isLast, outgoing, answers⟩
    rw [packetsOf_cons] at split
    cases requests with
    | nil =>
      cases split
      have same := Except.ok.inj (isCommand.symm.trans isLast)
      exact absurd (Option.some.inj same) oobData_ne_payload
    | cons request requests =>
      obtain ⟨same, later⟩ := List.cons.inj split
      subst same
      cases answers with
      | cons answer answers =>
        rename_i first sent
        cases range with
        | none =>
          obtain ⟨offset, length, isRange', -⟩ := answer
          cases isRange.symm.trans isRange'
        | some range =>
          obtain ⟨isFirst, grown⟩ := sent_behind ran outgoing
          rw [isFirst] at answer
          refine ⟨(answers_iff isRange possible).mp answer, requests, last, behind, sent, later, ?_,
            isLast, grown, answers⟩
          rw [count, List.length_cons]
          show _ = v.received + 1 + _ + 1
          omega
  · rintro ⟨whole, requests, last, behind, sent, split, count, isLast, outgoing, answers⟩
    cases range with
    | none => exact whole.elim
    | some range =>
      refine ⟨packet :: requests, last, behind, _ :: sent, congrArg (packet :: ·) split, ?_, isLast,
        ?_, .cons ((answers_iff isRange possible).mpr whole) answers⟩
      · rw [count, List.length_cons]
        show v.received + 1 + _ + 1 = _
        omega
      · rw [outgoing]
        exact List.append_assoc _ _ _

theorem released_next {v : Validation} (released : v.released = List.range v.received) :
    v.released ++ [v.received] = List.range (v.received + 1) := by
  rw [released, List.range_succ]

/-- A request, when the rest of the loop is known. -/
theorem loopHolds_oobData {v : Validation} (released : v.released = List.range v.received)
    {packet : PlistNode} (isCommand : stringItem packet (cText "Command") = .ok (some oobData.val))
    {receipts : List Receipt}
    (rest : ∀ {v : Validation} {answered : Prop}, v.released = List.range v.received →
      (LoopHolds image conditions v 0 answered receipts ↔
        Orderly image conditions 0 v.received v.position answered receipts))
    (attempts : Nat) (answered : Prop) :
    LoopHolds image conditions v attempts answered (.packet packet :: receipts) ↔
      ∃ range, oobRange packet = .ok range ∧ Possible image (conditions v.received) v.position range ∧
        Orderly image conditions 0 (v.received + 1) (nextPosition v.position range)
          (answered ∧ Fits range) receipts := by
  cases isRange : oobRange packet with
  | error fault =>
    refine iff_of_false ?_ fun ⟨range, never, _⟩ => by cases never
    rintro ⟨result, v', ran, -⟩
    rw [run_packet image conditions v isCommand, if_pos rfl, asrHandleOobDataRequest, isRange] at ran
    cases ran
  | ok range =>
    simp only [Except.ok.injEq, exists_eq_left']
    by_cases possible : Possible image (conditions v.received) v.position range
    · rw [loopHolds_request released isCommand isRange possible, and_iff_right possible]
      exact rest (released_next released)
    · refine iff_of_false ?_ fun both => possible both.1
      cases range with
      | none => exact fun _ => possible trivial
      | some range =>
        -- the packet is freed by the handler and again behind it
        rintro ⟨result, v', ran, -⟩
        have live : v.received ∉ v.next.released := live_of_released released
        obtain ⟨freed, handled, twice⟩ := run_answerRequest_other (show ¬ Possible image
          (conditions v.received) v.next.position (some (range.1, range.2)) from possible) live
        have handler : (asrHandleOobDataRequest image (conditions v.received) v.received packet).run
            v.next = (.ok (-1), freed) := by
          rw [asrHandleOobDataRequest, isRange, run_lift_ok_bind]
          exact handled
        have fault : (plistFree v.received).run freed = (.error .useAfterFree, freed) := if_pos twice
        rw [run_packet image conditions v isCommand, if_pos rfl, run_bind handler,
          run_bind_error fault] at ran
        cases ran

/-- The last packet. -/
theorem loopHolds_last {v : Validation} (released : v.released = List.range v.received)
    {packet : PlistNode} {command : List UInt8}
    (isCommand : stringItem packet (cText "Command") = .ok (some command))
    (other : command ≠ oobData.val) (attempts : Nat) (answered : Prop) (receipts : List Receipt) :
    LoopHolds image conditions v attempts answered (.packet packet :: receipts) ↔
      (command = payload.val → answered) := by
  have live : v.received ∉ v.next.released := live_of_released released
  have ran := run_packet image conditions v isCommand attempts receipts
  by_cases isPayload : command = payload.val
  · rw [if_neg other, if_pos isPayload, run_bind (run_plistFree live)] at ran
    rw [forall_prop_of_true isPayload]
    constructor
    · rintro ⟨result, v', ran', -, -, zero⟩
      cases ran.symm.trans ran'
      exact (zero rfl).1
    · intro holds
      refine ⟨0, _, ran, released_next released, .inl rfl, fun _ => ⟨holds, [], packet,
        packetsOf receipts, [], rfl, rfl, isPayload ▸ isCommand, (List.append_nil _).symm, .nil⟩⟩
  · rw [if_neg other, if_neg isPayload, run_bind (run_plistFree live)] at ran
    refine iff_of_true ?_ fun never => absurd never isPayload
    exact ⟨-1, _, ran, released_next released, .inr (by decide),
      fun never => absurd never (by decide)⟩

/-- **From any point of the loop.** -/
theorem loopHolds_iff {receipts : List Receipt} : ∀ {v : Validation} {attempts : Nat}
    {answered : Prop}, v.released = List.range v.received →
      (LoopHolds image conditions v attempts answered receipts ↔
        Orderly image conditions attempts v.received v.position answered receipts) := by
  induction receipts with
  | nil =>
    intro v attempts answered released
    exact iff_of_true (loopHolds_of_failure released rfl) trivial
  | cons receipt receipts ih =>
    intro v attempts answered released
    cases receipt with
    | failure => exact iff_of_true (loopHolds_of_failure released rfl) trivial
    | nothing =>
      by_cases few : attempts < 5
      · have same : validationLoop image conditions attempts (.nothing :: receipts) =
            validationLoop image conditions (attempts + 1) receipts := if_pos few
        rw [LoopHolds, same, Orderly, forall_prop_of_true few]
        exact ih released
      · have stop : validationLoop image conditions attempts (.nothing :: receipts) =
            return -1 := if_neg few
        exact iff_of_true (loopHolds_of_failure released (by rw [stop]; rfl)) fun some =>
          absurd some few
    | packet packet =>
      rw [Orderly]
      cases isCommand : stringItem packet (cText "Command") with
      | error fault =>
        refine iff_of_false ?_ fun ⟨command, never, _⟩ => by cases never
        rintro ⟨result, v', ran, -⟩
        rw [validationLoop, run_get_bind, run_modify_bind, isCommand] at ran
        cases ran
      | ok command =>
        cases command with
        | none =>
          -- the packet is not released
          refine iff_of_false ?_ fun ⟨command, never, _⟩ => by cases never
          rintro ⟨result, v', ran, released', -⟩
          rw [validationLoop, run_get_bind, run_modify_bind, isCommand] at ran
          cases ran
          have lengths := congrArg List.length (released.symm.trans released')
          simp only [List.length_range] at lengths
          omega
        | some command =>
          simp only [Except.ok.injEq, Option.some.injEq, exists_eq_left']
          by_cases isOob : command = oobData.val
          · subst isOob
            rw [forall_prop_of_true rfl, forall_prop_of_false oobData_ne_payload, and_true]
            exact loopHolds_oobData released isCommand (fun released => ih released) attempts answered
          · rw [forall_prop_of_false isOob, true_and]
            exact loopHolds_last released isCommand isOob attempts answered receipts

end Runs

/-! ## The whole call -/

/-- The file is opened, and nothing was received. -/
def Validation.start : Validation := ⟨0, [], [], 0, []⟩

/-- Every packet is released once, and 0 is returned only behind a `Payload` command, when every
request before it was answered with the bytes of the file it asked for. -/
def Validated (image : Image) (conditions : Nat → Conditions) (opened announced : Bool)
    (receipts : List Receipt) : Prop :=
  ∃ result v, (asrPerformValidation image conditions opened announced receipts).run .start =
      (.ok result, v) ∧
    v.released = List.range v.received ∧ (result = 0 ∨ result < 0) ∧
      (result = 0 → ∃ requests last behind, packetsOf receipts = requests ++ last :: behind ∧
        v.received = requests.length + 1 ∧
          stringItem last (cText "Command") = .ok (some payload.val) ∧
            List.Forall₂ (Answers image) requests v.outgoing)

/-- **The validation is what it is to be exactly when the receipts are orderly**, once the file is
open and the packet information sent. -/
theorem validated_iff (image : Image) (conditions : Nat → Conditions) (opened announced : Bool)
    (receipts : List Receipt) :
    Validated image conditions opened announced receipts ↔
      (opened = true → announced = true → Orderly image conditions 0 0 0 True receipts) := by
  cases opened with
  | false =>
    refine iff_of_true ⟨-1, .start, rfl, rfl, .inr (by decide), fun never => ?_⟩ fun never => by
      cases never
    exact absurd never (by decide)
  | true =>
    cases announced with
    | false =>
      refine iff_of_true ⟨-1, _, rfl, rfl, .inr (by decide), fun never => ?_⟩ fun _ never => by
        cases never
      exact absurd never (by decide)
    | true =>
      rw [forall_prop_of_true rfl, forall_prop_of_true rfl]
      refine Iff.trans ?_ (@loopHolds_iff image conditions receipts
        ⟨0, [packetInfo image.val.length], [], 0, []⟩ 0 True rfl)
      refine exists_congr fun result => exists_congr fun v => and_congr_right fun _ =>
        and_congr_right fun _ => and_congr_right fun _ => imp_congr_right fun _ => ?_
      constructor
      · rintro ⟨requests, last, behind, split, count, isLast, answers⟩
        exact ⟨trivial, requests, last, behind, v.outgoing, split,
          count.trans (by rw [Nat.zero_add]), isLast, rfl, answers⟩
      · rintro ⟨-, requests, last, behind, sent, split, count, isLast, outgoing, answers⟩
        refine ⟨requests, last, behind, split, count.trans (by rw [Nat.zero_add]), isLast, ?_⟩
        rw [outgoing]
        exact answers

/-- A packet with these entries. -/
def packetOf (command : CText) (entries : List (String × UInt64)) : PlistNode :=
  entries.foldl (fun dict (key, value) =>
      plistDictInsertItem dict (cText key) (leaf (plistNewUint value)))
    (plistDictInsertItem (leaf plistNewDict) (cText "Command") (leaf (plistNewString command.val)))

def threeBytes : Image := ⟨[1, 2, 3], by decide⟩

/-- Everything goes through, and `sent` is taken. -/
def smooth (sent : Nat) : Conditions := ⟨true, true, ⟨true, sent⟩⟩

/-- Four bytes of a file of three are asked for, and the packet is freed twice; and a request
without a length is left unanswered. -/
theorem requests_not_answered :
    ((asrPerformValidation threeBytes (fun _ => smooth 4) true true
        [.packet (packetOf oobData [("OOB Length", 4), ("OOB Offset", 0)])]).run .start).1 =
      .error .useAfterFree ∧
    ((asrPerformValidation threeBytes (fun _ => smooth 4) true true
        [.packet (packetOf oobData []), .packet (packetOf payload [])]).run .start).1 = .ok 0 ∧
    ¬ Validated threeBytes (fun _ => smooth 4) true true
      [.packet (packetOf oobData [("OOB Length", 4), ("OOB Offset", 0)])] ∧
    ¬ Validated threeBytes (fun _ => smooth 4) true true
      [.packet (packetOf oobData []), .packet (packetOf payload [])] := by
  have twice : ((asrPerformValidation threeBytes (fun _ => smooth 4) true true
      [.packet (packetOf oobData [("OOB Length", 4), ("OOB Offset", 0)])]).run .start).1 =
    .error .useAfterFree := rfl
  have unanswered : ((asrPerformValidation threeBytes (fun _ => smooth 4) true true
      [.packet (packetOf oobData []), .packet (packetOf payload [])]).run .start) =
    (.ok 0, ⟨0, [packetInfo 3], [], 2, [0, 1]⟩) := rfl
  refine ⟨twice, congrArg Prod.fst unanswered, ?_, ?_⟩
  · rintro ⟨result, v, ran, -⟩
    rw [ran] at twice
    cases twice
  · rintro ⟨result, v, ran, -, -, zero⟩
    cases unanswered.symm.trans ran
    obtain ⟨requests, last, behind, -, count, -, answers⟩ := zero rfl
    have none : List.Forall₂ (Answers threeBytes) requests [] := answers
    cases none
    exact absurd count (by decide)

end Irestore.Restore
