/-
# MobileSync.Sessions — the data class and the direction over whole runs

`track` reads from a history alone whether a session was opened (a start returned
success, and no finish or cancel since) and whether the device is ready for changes
(it said so and was pinged, and nothing moved the session since).

A call first exchanges events with the device (`During`) and then may move the
client (`After`); `call_after` says this of every call, and both results follow from
it by induction over the run.

* `changes_sent_when_ready` — `mobilesync_send_changes` sends only to a device that is
  ready, and the direction is computer to device only in a session.
* `syncs_upheld` — the client holds a data class exactly while a session is opened,
  in every run whose starts are all answered as they should be.
* `failed_start_opens` — a start that fails stores its data class all the same.
-/
import Irestore.Library.Trace
import Irestore.MobileSync.Client

namespace Irestore.MobileSync

open Irestore.Library Irestore.Library.CMemory Irestore.Library.Program Irestore.Plist

set_option autoImplicit false

/-! ## What a history says -/

/-- The reply says that the device is ready. -/
def isReady (reply : PlistNode) : Bool :=
  plistGetStringVal (plistArrayGetItem reply 0) =
    .ok (cText "SDMessageDeviceReadyToReceiveChanges").val

/-- The calls that may move the client from one session to another. -/
def Operation.movesSession : Operation → Bool
  | .start | .finish | .cancel _ => true
  | _ => false

/-- The last plist received, whether the device is ready for changes, and whether a
session is opened.  A cancel without a reason is refused. -/
structure Track where
  reply : Option PlistNode
  ready : Bool
  opened : Bool

def Track.step (t : Track) : Event → Track
  | .sent _ _ => t
  | .received reply => { t with reply := reply }
  | .pinged went => { t with ready := t.ready || (went && t.reply.any isReady) }
  | .returned operation err before after =>
      { t with
        ready := t.ready && !(operation.movesSession && before ≠ after)
        opened := match operation with
          | .start => t.opened || err = .success
          | .finish | .cancel (some _) => false
          | _ => t.opened }

/-- The monitor of sessions. -/
def track : Monitor Event Track := ⟨⟨none, false, false⟩, Track.step⟩

@[simp] theorem track_step : track.step = Track.step := rfl

/-! ## What a call does -/

/-- An event of the exchange of a call that finds the client as `c`. -/
def Exchanged (operation : Operation) (c : MobilesyncClient) : Event → Prop
  | .sent sender _ =>
      sender = operation ∧ (operation = .sendChanges → c.direction = .computerToDevice)
  | .received _ | .pinged _ => True
  | .returned .. => False

/-- The history is the one before the call and its exchange. -/
def Extends (operation : Operation) (before : World) (w : World) : Prop :=
  ∃ events, w.history = before.history ++ events ∧
    ∀ event ∈ events, Exchanged operation before.client event

/-- Inside a call: events were exchanged, the client is as it was. -/
structure During (operation : Operation) (before : World) (w : World) : Prop where
  extended : Extends operation before w
  client : w.client = before.client

theorem during_start (operation : Operation) (w : World) : During operation w w :=
  ⟨⟨[], by simp⟩, rfl⟩

theorem Extends.record {operation : Operation} {before w : World} {event : Event}
    (extended : Extends operation before w) (exchanged : Exchanged operation before.client event) :
    Extends operation before (w.record event) := by
  obtain ⟨events, history, each⟩ := extended
  refine ⟨events ++ [event], ?_, fun e member => ?_⟩
  · show w.history ++ [event] = _
    rw [history, List.append_assoc]
  · rcases List.mem_append.mp member with earlier | last
    · exact each e earlier
    · rw [List.mem_singleton.mp last]
      exact exchanged

theorem During.record {operation : Operation} {before w : World} {event : Event}
    (during : During operation before w) (exchanged : Exchanged operation before.client event) :
    During operation before (w.record event) :=
  ⟨during.extended.record exchanged, during.client⟩

/-- Nothing but a return changes whether a session is opened, and nothing exchanged
takes the device's readiness away. -/
theorem Extends.read {operation : Operation} {before w : World}
    (extended : Extends operation before w) :
    (track.read w.history).opened = (track.read before.history).opened ∧
      ((track.read before.history).ready = true → (track.read w.history).ready = true) := by
  obtain ⟨events, history, each⟩ := extended
  rw [history]
  clear history
  induction events using List.reverseRecOn with
  | nil =>
    rw [List.append_nil]
    exact ⟨rfl, id⟩
  | append_singleton events event ih =>
    obtain ⟨opened, ready⟩ := ih fun e member => each e (by simp [member])
    have last := each event (by simp)
    rw [← List.append_assoc, Monitor.read_concat, track_step]
    cases event with
    | sent sender message => exact ⟨opened, ready⟩
    | received reply => exact ⟨opened, ready⟩
    | pinged went =>
      refine ⟨opened, fun was => ?_⟩
      simp only [Track.step, ready was, Bool.true_or]
    | returned operation err before after => exact last.elim

/-- A history stays sound over an exchange whose events are all permitted. -/
theorem Extends.sound {operation : Operation} {before w : World}
    {permitted : Track → Event → Prop} (extended : Extends operation before w)
    (sound : track.Sound permitted before.history)
    (each : ∀ (so_far : World) event, Extends operation before so_far →
      Exchanged operation before.client event → permitted (track.read so_far.history) event) :
    track.Sound permitted w.history := by
  obtain ⟨events, history, exchanged⟩ := extended
  rw [history]
  clear history
  induction events using List.reverseRecOn with
  | nil =>
    rw [List.append_nil]
    exact sound
  | append_singleton events event ih =>
    have earlier (e : Event) (member : e ∈ events) :=
      exchanged e (List.mem_append_left [event] member)
    rw [← List.append_assoc]
    apply (ih earlier).concat
    exact each ⟨before.client, before.history ++ events⟩ event ⟨events, rfl, earlier⟩
      (exchanged event (by simp))

section Exchanges

variable {operation : Operation} {before : World}

theorem keeps_send {message : PlistNode} {answer : Answer}
    (allowed : operation = .sendChanges → before.client.direction = .computerToDevice) :
    Keeps (During operation before) (mobilesyncSend operation message answer) := by
  apply keeps_bind
  · exact ensures_modify fun w during => during.record ⟨rfl, allowed⟩
  · exact fun _ => keeps_pure _

theorem keeps_receive {answer : Answer} {read : PlistNode → Program World Outcome}
    (reads : ∀ msg, answer.reply = some msg → Keeps (During operation before) (read msg)) :
    Keeps (During operation before) (mobilesyncReceive answer read) := by
  apply keeps_bind
  · exact ensures_modify fun w during => during.record trivial
  · intro _
    cases reply : answer.reply with
    | none => exact keeps_pure _
    | some msg => exact reads msg reply

theorem keeps_sendOnly {message : PlistNode} {answer : Answer}
    (allowed : operation = .sendChanges → before.client.direction = .computerToDevice) :
    Keeps (During operation before) (sendOnly operation message answer) := by
  apply keeps_bind
  · exact keeps_send allowed
  · exact fun _ => keeps_pure _

theorem keeps_exchange {message : PlistNode} {answer : Answer}
    {read : PlistNode → Checked Outcome} (other : operation ≠ .sendChanges) :
    Keeps (During operation before) (exchange operation message answer read) := by
  apply keeps_bind
  · exact keeps_send fun same => absurd same other
  · intro err
    apply keeps_ite
    · exact keeps_pure _
    · exact keeps_receive fun msg _ => keeps_lift _

end Exchanges

/-- What a call may have made of the client when it returns. -/
def Moves (c : MobilesyncClient) (err : MobilesyncError) (c' : MobilesyncClient) :
    Operation → Prop
  | .start => c' = c ∧ err = .invalidArg ∨
      c.dataClass = none ∧ ∃ dataClass, c' = ⟨.deviceToComputer, some dataClass⟩
  | .finish => c' = c ∧ c.dataClass = none ∨ c' = .idle
  | .cancel reason => c' = c ∧ (c.dataClass = none ∨ reason = none) ∨ c' = .idle ∧ reason ≠ none
  | .readyToSend => c' = c ∨ ∃ dataClass, c.dataClass = some dataClass ∧
      c' = ⟨.computerToDevice, some dataClass⟩
  | _ => c' = c

/-- Where a call leaves the world. -/
structure After (operation : Operation) (before : World) (outcome : Outcome) (w : World) :
    Prop where
  extended : Extends operation before w
  moves : Moves before.client outcome.1 w.client operation
  ready : operation = .readyToSend → w.client ≠ before.client →
    (track.read w.history).ready = true

/-- A call whose client stays as it is. -/
theorem During.after {operation : Operation} {before w : World} {outcome : Outcome}
    (during : During operation before w)
    (stays : Moves before.client outcome.1 before.client operation) :
    After operation before outcome w where
  extended := during.extended
  moves := by
    rw [during.client]
    exact stays
  ready _ moved := absurd during.client moved

/-- A call that first looks at the client. -/
theorem ensures_look {operation : Operation} {before : World} {next : World → Program World Outcome}
    (rest : ∀ found : World, found.client = before.client →
      Ensures (During operation before) (next found) (After operation before)
        (During operation before)) :
    Ensures (During operation before) (Program.get >>= next) (After operation before)
      (During operation before) where
  ok during ran := (rest _ during.client).ok during ran
  fault during ran := (rest _ during.client).fault during ran

/-- The two ways through a call that needs a session. -/
theorem ensures_withDataClass {operation : Operation} {before : World}
    {call : CText → Program World Outcome}
    (idle : before.client.dataClass = none →
      Moves before.client .invalidArg before.client operation)
    (session : ∀ dataClass, before.client.dataClass = some dataClass →
      Ensures (During operation before) (call dataClass) (After operation before)
        (During operation before)) :
    Ensures (During operation before) (withDataClass call) (After operation before)
      (During operation before) := by
  apply ensures_look
  intro found same
  rw [same]
  cases held : before.client.dataClass with
  | none => exact ensures_pure fun w during => during.after (idle held)
  | some dataClass => exact session dataClass held

/-- Leaving the world with another client. -/
theorem ensures_setClient {operation : Operation} {before : World} {outcome : Outcome}
    {client : MobilesyncClient} (other : operation ≠ .readyToSend)
    (moves : Moves before.client outcome.1 client operation) :
    Ensures (During operation before)
      (do Program.modify (World.setClient client); return outcome)
      (After operation before) (During operation before) := by
  apply ensures_of_run
  intro w during
  exact ⟨outcome, w.setClient client, rfl, during.extended, moves, fun same => absurd same other⟩

theorem start_after (before : World) (dataClass : Option CText) (anchors : Option Anchors)
    (version : UInt64) (wantsType wantsVersion : Bool) (answer : Answer) :
    Ensures (During .start before)
      (mobilesyncStart dataClass anchors version wantsType wantsVersion answer)
      (After .start before) (During .start before) := by
  apply ensures_look
  intro found same
  rw [same]
  split
  · rename_i idle
    apply ensures_bind (keeps_exchange (by decide))
    exact fun outcome => ensures_setClient (by decide) (.inr ⟨idle, _, rfl⟩)
  · exact ensures_pure fun w during => during.after (.inl ⟨rfl, rfl⟩)

theorem finish_after (before : World) (answer : Answer) :
    Ensures (During .finish before) (mobilesyncFinish answer) (After .finish before)
      (During .finish before) := by
  apply ensures_withDataClass
  · exact fun idle => .inl ⟨rfl, idle⟩
  · intro dataClass _
    apply ensures_bind (keeps_exchange (by decide))
    exact fun outcome => ensures_setClient (by decide) (.inr rfl)

theorem cancel_after (before : World) (reason : Option CText) (answer : Answer) :
    Ensures (During (.cancel reason) before) (mobilesyncCancel reason answer)
      (After (.cancel reason) before) (During (.cancel reason) before) := by
  apply ensures_withDataClass
  · exact fun idle => .inl ⟨rfl, .inl idle⟩
  · intro dataClass _
    cases reason with
    | none => exact ensures_pure fun w during => during.after (.inl ⟨rfl, .inr rfl⟩)
    | some text =>
      apply ensures_bind (keeps_sendOnly (by simp))
      exact fun outcome => ensures_setClient (by simp) (.inr ⟨rfl, by simp⟩)

/-- A call that leaves the client as it is. -/
theorem ensures_of_keeps {operation : Operation} {before : World} {program : Program World Outcome}
    (keeps : Keeps (During operation before) program)
    (stays : ∀ err, Moves before.client err before.client operation) :
    Ensures (During operation before) program (After operation before) (During operation before) :=
  ensures_mono keeps (fun _ during => during) fun outcome _ during => during.after (stays outcome.1)

theorem readyReply_success {msg : PlistNode} {outcome : Outcome}
    (read : readyReply msg = .ok outcome) (success : outcome.1 = .success) :
    isReady msg = true := by
  rw [readyReply, unlessCancelled, responseType] at read
  split at read
  · cases read
    cases success
  · rename_i node first
    obtain ⟨text, string, read⟩ := bind_eq_ok.mp read
    split at read
    · obtain ⟨_, -, read⟩ := bind_eq_ok.mp read
      cases read
      cases success
    · cases read
      rw [isReady, first, string]
      by_contra other
      simp only [Except.ok.injEq, decide_eq_true_eq] at other
      simp [Outcome.alone, other] at success

/-- The only way to turn the direction: the device said that it is ready, and the ping
went through. -/
theorem readyToSend_after (before : World) (answer : Answer) :
    Ensures (During .readyToSend before) (mobilesyncReadyToSendChangesFromComputer answer)
      (After .readyToSend before) (During .readyToSend before) := by
  have stays (err : MobilesyncError) :
      Moves before.client err before.client .readyToSend := .inl rfl
  apply ensures_withDataClass (fun _ => stays _)
  intro dataClass held
  apply ensures_look
  intro found same
  apply ensures_ite
  · exact fun _ => ensures_pure fun w during => during.after (stays _)
  intro _
  apply ensures_between (fun _ w => During .readyToSend before w ∧
    (track.read w.history).reply = answer.reply)
  · apply ensures_modify
    intro w during
    refine ⟨during.record trivial, ?_⟩
    show (track.read (w.history ++ [_])).reply = _
    rw [Monitor.read_concat]
    rfl
  intro _
  cases reply : answer.reply with
  | none => exact ensures_pure fun w hw => hw.1.after (stays _)
  | some msg =>
    apply ensures_between (fun outcome w => During .readyToSend before w ∧
      (track.read w.history).reply = some msg ∧ (outcome.1 = .success → isReady msg = true))
    · apply ensures_lift
      · exact fun outcome read w hw => ⟨hw.1, hw.2, fun success => readyReply_success read success⟩
      · exact fun w hw => hw.1
    intro outcome
    apply ensures_ite
    · exact fun _ => ensures_pure fun w hw => hw.1.after (stays _)
    intro success
    apply ensures_between (fun err w => During .readyToSend before w ∧
      (err = .success → (track.read w.history).ready = true))
    · constructor
      · rintro w w' err ⟨during, last, ready⟩ ran
        cases ran
        refine ⟨during.record trivial, fun went => ?_⟩
        show (track.read (w.history ++ [_])).ready = true
        cases pinged : answer.pinged with
        | false => simp [pinged] at went
        | true =>
          rw [Monitor.read_concat, track_step, Track.step, last]
          simp [ready (by simpa using success)]
      · rintro w w' fault - ran
        cases ran
    intro err
    apply ensures_ite
    · exact fun _ => ensures_pure fun w hw => hw.1.after (stays _)
    · intro went
      apply ensures_of_run
      rintro w ⟨during, ready⟩
      refine ⟨_, _, rfl, during.extended, .inr ⟨dataClass, held, rfl⟩, fun _ _ => ?_⟩
      exact ready (by simpa using went)

theorem sendChanges_after (before : World) (entities : Option PlistNode) (isLastRecord : UInt8)
    (actions : Option PlistNode) (answer : Answer) :
    Ensures (During .sendChanges before)
      (mobilesyncSendChanges entities isLastRecord actions answer)
      (After .sendChanges before) (During .sendChanges before) := by
  have refused (outcome : Outcome) : Ensures (During .sendChanges before) (pure outcome)
      (After .sendChanges before) (During .sendChanges before) :=
    ensures_of_keeps (keeps_pure _) fun _ => rfl
  refine ensures_withDataClass (fun _ => rfl) fun dataClass _ => ?_
  cases entities with
  | none => exact refused _
  | some entities =>
    apply ensures_ite
    · exact fun _ => refused _
    intro _
    apply ensures_look
    intro found same
    apply ensures_ite
    · exact fun _ => refused _
    intro turned
    refine ensures_of_keeps ?_ fun _ => rfl
    apply keeps_bind
    · exact keeps_lift _
    · exact fun message => keeps_sendOnly fun _ => by simpa [same] using turned

/-- What every call does, by the operation it is. -/
theorem call_after (call : Call) (before : World) :
    Ensures (During call.operation before) call.program (After call.operation before)
      (During call.operation before) := by
  cases call with
  | start dataClass anchors version wantsType wantsVersion answer =>
    exact start_after before dataClass anchors version wantsType wantsVersion answer
  | finish answer => exact finish_after before answer
  | getAllRecords answer =>
    exact ensures_withDataClass (fun _ => rfl) fun _ _ =>
      ensures_of_keeps (keeps_sendOnly (by rintro ⟨⟩)) fun _ => rfl
  | getChanges answer =>
    exact ensures_withDataClass (fun _ => rfl) fun _ _ =>
      ensures_of_keeps (keeps_sendOnly (by rintro ⟨⟩)) fun _ => rfl
  | receiveChanges wantsEntities wantsLast actions answer =>
    exact ensures_withDataClass (fun _ => rfl) fun _ _ =>
      ensures_of_keeps (keeps_receive fun _ _ => keeps_lift _) fun _ => rfl
  | clear answer =>
    exact ensures_withDataClass (fun _ => rfl) fun _ _ =>
      ensures_of_keeps (keeps_exchange (by rintro ⟨⟩)) fun _ => rfl
  | acknowledge answer =>
    exact ensures_withDataClass (fun _ => rfl) fun _ _ =>
      ensures_of_keeps (keeps_sendOnly (by rintro ⟨⟩)) fun _ => rfl
  | readyToSend answer => exact readyToSend_after before answer
  | sendChanges entities isLastRecord actions answer =>
    exact sendChanges_after before entities isLastRecord actions answer
  | remap wantsMapping answer =>
    refine ensures_withDataClass (fun _ => rfl) fun _ _ => ?_
    refine ensures_of_keeps ?_ fun _ => rfl
    apply keeps_bind keeps_get
    intro found
    exact keeps_ite (keeps_pure _) (keeps_receive fun _ _ => keeps_lift _)
  | cancel reason answer => exact cancel_after before reason answer

/-- A whole call, its return noted. -/
theorem perform_after (call : Call) (before : World) {post : World → Prop}
    (returned : ∀ outcome w, After call.operation before outcome w →
      post (w.record (.returned call.operation outcome.1 before.client w.client)))
    (broken : ∀ w, During call.operation before w → post w) :
    Ensures (· = before) call.perform (fun _ => post) post := by
  apply ensures_step (show (get : Program World World).run before = (.ok before, before) from rfl)
  apply ensures_between (After call.operation before)
  · constructor
    · rintro w w' outcome rfl ran
      exact (call_after call w).ok (during_start _ w) ran
    · rintro w w' fault rfl ran
      exact broken w' ((call_after call w).fault (during_start _ w) ran)
  · rintro ⟨err, results⟩
    apply ensures_of_run
    intro w after
    exact ⟨(), _, rfl, returned _ w after⟩

/-! ## Changes are sent to a device that is ready -/

/-- Changes are sent only to a device that is ready. -/
def SendsChanges (t : Track) : Event → Prop
  | .sent .sendChanges _ => t.ready = true
  | _ => True

structure Directed (w : World) : Prop where
  sound : track.Sound SendsChanges w.history
  ready : w.client.direction = .computerToDevice → (track.read w.history).ready = true
  session : w.client.direction = .computerToDevice → w.client.dataClass ≠ none

theorem Extends.directed {operation : Operation} {before w : World} (directed : Directed before)
    (extended : Extends operation before w) : track.Sound SendsChanges w.history := by
  apply extended.sound directed.sound
  intro so_far event extended exchanged
  cases event with
  | sent sender message =>
    cases sender with
    | sendChanges => exact extended.read.2 (directed.ready (exchanged.2 exchanged.1.symm))
    | _ => trivial
  | _ => trivial

/-- A client that sends its changes was so before the call, or was just turned. -/
theorem Moves.turned {c c' : MobilesyncClient} {err : MobilesyncError} {operation : Operation}
    (moves : Moves c err c' operation) (turned : c'.direction = .computerToDevice) :
    c' = c ∨ operation = .readyToSend ∧ c'.dataClass ≠ none := by
  cases operation with
  | start =>
    rcases moves with ⟨same, -⟩ | ⟨-, dataClass, rfl⟩
    · exact .inl same
    · cases turned
  | finish =>
    rcases moves with ⟨same, -⟩ | rfl
    · exact .inl same
    · cases turned
  | cancel reason =>
    rcases moves with ⟨same, -⟩ | ⟨rfl, -⟩
    · exact .inl same
    · cases turned
  | readyToSend =>
    rcases moves with same | ⟨dataClass, -, rfl⟩
    · exact .inl same
    · exact .inr ⟨rfl, by simp⟩
  | _ => exact .inl moves

theorem directed_perform (call : Call) : Keeps Directed call.perform := by
  apply ensures_each
  intro before directed
  apply perform_after
  · intro outcome w after
    have readyAfter (turned : w.client.direction = .computerToDevice) :
        (track.read w.history).ready = true := by
      rcases after.moves.turned turned with same | ⟨isReady, -⟩
      · exact after.extended.read.2 (directed.ready (same ▸ turned))
      · by_cases same : w.client = before.client
        · exact after.extended.read.2 (directed.ready (same ▸ turned))
        · exact after.ready isReady same
    refine ⟨(after.extended.directed directed).concat trivial, fun turned => ?_, fun turned => ?_⟩
    · show (track.read (w.history ++ [_])).ready = true
      rw [Monitor.read_concat]
      show ((track.read w.history).ready &&
        !(call.operation.movesSession && decide (before.client ≠ w.client))) = true
      rw [readyAfter turned]
      rcases after.moves.turned turned with same | ⟨isReady, -⟩
      · simp [same]
      · simp [isReady, Operation.movesSession]
    · rcases after.moves.turned turned with same | ⟨-, session⟩
      · show w.client.dataClass ≠ none
        rw [same]
        exact directed.session (same ▸ turned)
      · exact session
  · intro w during
    refine ⟨during.extended.directed directed, fun turned => ?_, fun turned => ?_⟩
    · exact during.extended.read.2 (directed.ready (during.client ▸ turned))
    · rw [during.client]
      exact directed.session (during.client ▸ turned)

theorem directed_new : Directed mobilesyncClientNew where
  sound := Monitor.sound_nil
  ready turned := by cases turned
  session turned := by cases turned

/-- In every run, `mobilesync_send_changes` sends only to a device that said it is ready
and was pinged since the session was last moved, and the direction is computer to
device only while there is a data class. -/
theorem changes_sent_when_ready (run : List Call) :
    track.Sound SendsChanges ((calls run).state mobilesyncClientNew).history ∧
      (((calls run).state mobilesyncClientNew).client.direction = .computerToDevice →
        ((calls run).state mobilesyncClientNew).client.dataClass ≠ none) := by
  have directed := (keeps_forM directed_perform run).state directed_new
  exact ⟨directed.sound, directed.session⟩

/-! ## Data class and session -/

/-- A start that fails leaves the client as it was. -/
def LeavesClient (_ : Track) : Event → Prop
  | .returned .start err before after => err ≠ .success → after = before
  | _ => True

/-- The client agrees with the history. -/
structure Upheld (w : World) : Prop where
  sound : track.Sound LeavesClient w.history
  session : w.client.dataClass ≠ none ↔ (track.read w.history).opened = true

/-- A reply that starts a session. -/
structure Accepts (wantsType wantsVersion : Bool) (msg : PlistNode) : Prop where
  typed : plistArrayGetItem msg 0 ≠ none
  accepted : ∀ text, plistGetStringVal (plistArrayGetItem msg 0) = .ok text →
    text ≠ (cText "SDMessageRefuseToSyncDataClassWithComputer").val ∧
      text ≠ (cText "SDMessageCancelSession").val
  syncType : wantsType = true → plistArrayGetItem msg 4 ≠ none ∧
    ∀ text, plistGetStringVal (plistArrayGetItem msg 4) = .ok text → syncTypeOf text ≠ none
  version : wantsVersion = true → plistArrayGetItem msg 5 ≠ none

/-- What a call needs of the answer to it: a start that makes its request has to be
accepted. -/
def Fine (w : World) : Call → Prop
  | .start dataClass anchors _ wantsType wantsVersion answer =>
      w.client.dataClass = none → dataClass ≠ none → (anchors.bind Anchors.computerAnchor) ≠ none →
        answer.sent = true ∧
          ∃ msg, answer.reply = some msg ∧ Accepts wantsType wantsVersion msg
  | _ => True

theorem startVersion_success {msg : PlistNode} {wantsVersion : Bool} {results : Results}
    {outcome : Outcome} (version : wantsVersion = true → plistArrayGetItem msg 5 ≠ none)
    (read : startVersion msg wantsVersion results = .ok outcome) : outcome.1 = .success := by
  rw [startVersion] at read
  split at read
  · rename_i wants
    split at read
    · rename_i missing
      exact absurd missing (version wants)
    · obtain ⟨_, -, read⟩ := bind_eq_ok.mp read
      cases read
      rfl
  · cases read
    rfl

theorem startReply_success {msg : PlistNode} {wantsType wantsVersion : Bool} {outcome : Outcome}
    (accepts : Accepts wantsType wantsVersion msg)
    (read : startReply wantsType wantsVersion msg = .ok outcome) : outcome.1 = .success := by
  rw [startReply, responseType] at read
  split at read
  · rename_i missing
    exact absurd missing accepts.typed
  rename_i node first
  obtain ⟨text, string, read⟩ := bind_eq_ok.mp read
  obtain ⟨notRefused, notCancelled⟩ := accepts.accepted text (first ▸ string)
  rw [if_neg notRefused, if_neg notCancelled] at read
  split at read
  · rename_i wants
    obtain ⟨present, known⟩ := accepts.syncType wants
    split at read
    · rename_i missing
      exact absurd missing present
    rename_i typeNode fourth
    obtain ⟨type, string, read⟩ := bind_eq_ok.mp read
    split at read
    · rename_i unknown
      exact absurd unknown (known type (fourth ▸ string))
    · exact startVersion_success accepts.version read
  · exact startVersion_success accepts.version read

/-- A start that finds what it needs succeeds, or its arguments were refused. -/
theorem start_fine {w w' : World} {dataClass : Option CText} {anchors : Option Anchors}
    {version : UInt64} {wantsType wantsVersion : Bool} {answer : Answer} {outcome : Outcome}
    (fine : Fine w (.start dataClass anchors version wantsType wantsVersion answer))
    (ran : (mobilesyncStart dataClass anchors version wantsType wantsVersion answer).run w =
      (.ok outcome, w')) : outcome.1 = .success ∨ w' = w := by
  rw [mobilesyncStart, run_get_bind] at ran
  split at ran
  · rename_i dataClass deviceAnchor computerAnchor idle
    obtain ⟨sent, msg, reply, accepts⟩ := fine idle (by simp) (by simp)
    obtain ⟨exchanged, w₁, ran', rest⟩ := run_bind_eq_ok.mp ran
    cases rest
    left
    obtain ⟨err, w₂, went, ran'⟩ := run_bind_eq_ok.mp ran'
    cases went
    rw [sent, run_ite, if_neg (by decide), mobilesyncReceive, run_modify_bind, reply] at ran'
    cases read : startReply wantsType wantsVersion msg with
    | error fault =>
      simp only [run_lift, read] at ran'
      cases ran'
    | ok outcome =>
      simp only [run_lift, read] at ran'
      cases ran'
      exact startReply_success accepts read
  · cases ran
    exact .inr rfl

/-- Noting an event that agrees with the client. -/
theorem upheld_record {w : World} {event : Event} (sound : track.Sound LeavesClient w.history)
    (leaves : LeavesClient (track.read w.history) event)
    (session : w.client.dataClass ≠ none ↔
      ((track.read w.history).step event).opened = true) : Upheld (w.record event) where
  sound := sound.concat leaves
  session := by
    show w.client.dataClass ≠ none ↔ (track.read (w.history ++ [event])).opened = true
    rw [Monitor.read_concat]
    exact session

theorem upheld_perform {w w' : World} {call : Call} (upheld : Upheld w) (fine : Fine w call)
    (ran : call.perform.run w = (.ok (), w')) : Upheld w' := by
  rw [Call.perform, run_get_bind] at ran
  obtain ⟨outcome, w₁, ran', rest⟩ := run_bind_eq_ok.mp ran
  cases rest
  have after := (call_after call w).ok (during_start _ w) ran'
  have sound : track.Sound LeavesClient w₁.history := by
    apply after.extended.sound upheld.sound
    intro so_far event _ exchanged
    cases event with
    | returned operation err before after => exact exchanged.elim
    | _ => trivial
  have opened : (track.read w₁.history).opened = true ↔ w.client.dataClass ≠ none := by
    rw [after.extended.read.1]
    exact upheld.session.symm
  have moves := after.moves
  cases call with
  | start dataClass anchors version wantsType wantsVersion answer =>
    have succeeds := start_fine fine ran'
    refine upheld_record sound (fun failed => ?_) ?_
    · rcases succeeds with success | same
      · exact absurd success failed
      · rw [same]
    · show _ ↔ ((track.read w₁.history).opened || decide (outcome.1 = .success)) = true
      rw [Bool.or_eq_true, opened, decide_eq_true_eq]
      rcases moves with ⟨same, invalid⟩ | ⟨idle, dataClass, moved⟩
      · rw [same, invalid]
        simp
      · have success : outcome.1 = .success := by
          rcases succeeds with success | same
          · exact success
          · rw [same] at moved
            simp [moved] at idle
        rw [moved, success]
        simp
  | finish answer =>
    refine upheld_record sound trivial ?_
    show _ ↔ false = true
    rcases moves with ⟨same, idle⟩ | moved
    · simp [same, idle]
    · simp [moved, MobilesyncClient.idle]
  | cancel reason answer =>
    refine upheld_record sound trivial ?_
    cases reason with
    | none =>
      show _ ↔ (track.read w₁.history).opened = true
      rw [opened]
      rcases moves with ⟨same, -⟩ | ⟨-, given⟩
      · rw [same]
      · exact absurd rfl given
    | some text =>
      show _ ↔ false = true
      rcases moves with ⟨same, idle | given⟩ | ⟨moved, -⟩
      · simp [same, idle]
      · cases given
      · simp [moved, MobilesyncClient.idle]
  | readyToSend answer =>
    refine upheld_record sound trivial ?_
    show _ ↔ (track.read w₁.history).opened = true
    rw [opened]
    rcases moves with same | ⟨dataClass, held, moved⟩
    · rw [same]
    · simp [moved, held]
  | _ =>
    refine upheld_record sound trivial ?_
    show _ ↔ (track.read w₁.history).opened = true
    rw [opened, show w₁.client = w.client from moves]

theorem upheld_new : Upheld mobilesyncClientNew where
  sound := Monitor.sound_nil
  session := by simp [mobilesyncClientNew, MobilesyncClient.idle, track]

/-- In a run whose starts are all accepted, the client holds a data class exactly while a
session is opened, in every state reached. -/
theorem syncs_upheld (run : List Call)
    (fine : Meets Fine Call.perform mobilesyncClientNew run) :
    ∀ first, first <+: run → ∀ w, (calls first).run mobilesyncClientNew = (.ok (), w) →
      Upheld w := by
  intro first isPrefix w ran
  refine Meets.keeps ?_ (fine.of_prefix isPrefix) upheld_new ran
  exact fun _ _ _ => upheld_perform

/-- A start of the data class `C`, asking for sync type and version. -/
def startCall (answer : Answer) : Call :=
  .start (some (cText "C")) (some ⟨none, some (cText "now")⟩) 1 true true answer

def startAccepted : PlistNode :=
  messageOf [stringNode (cText "SDMessageSyncDataClassWithComputer"), stringNode (cText "C"),
    stringNode (cText "---"), stringNode (cText "now"), stringNode (cText "SDSyncTypeFast"),
    leaf (plistNewUint 1)]

theorem startAccepted_accepts : Accepts true true startAccepted where
  typed := by decide +kernel
  accepted text string := by
    have value : plistGetStringVal (plistArrayGetItem startAccepted 0) =
        .ok (cText "SDMessageSyncDataClassWithComputer").val := by decide +kernel
    cases value.symm.trans string
    exact ⟨by decide +kernel, by decide +kernel⟩
  syncType _ := by
    refine ⟨by decide +kernel, fun text string => ?_⟩
    have value : plistGetStringVal (plistArrayGetItem startAccepted 4) =
        .ok (cText "SDSyncTypeFast").val := by decide +kernel
    cases value.symm.trans string
    decide +kernel
  version _ := by decide +kernel

theorem started_upheld :
    Upheld ((calls [startCall ⟨true, some startAccepted, true⟩]).state mobilesyncClientNew) := by
  apply syncs_upheld _ ?_ _ (List.prefix_refl _)
  · exact Prod.ext (by decide +kernel) rfl
  · refine ⟨fun _ _ _ => ?_, fun _ _ => trivial⟩
    exact ⟨rfl, startAccepted, rfl, startAccepted_accepts⟩

/-- A start whose request cannot be sent stores its data class all the same. -/
theorem failed_start_opens :
    ∃ w, (calls [startCall ⟨false, none, true⟩]).run mobilesyncClientNew = (.ok (), w) ∧
      ¬ Upheld w := by
  refine ⟨(calls [startCall ⟨false, none, true⟩]).state mobilesyncClientNew,
    Prod.ext (by decide +kernel) rfl, fun upheld => ?_⟩
  have opened := upheld.session.mp (by decide +kernel)
  revert opened
  decide +kernel

end Irestore.MobileSync
