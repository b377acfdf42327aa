/-
# Recovery.Callbacks — which callbacks a client calls

By its interface a client calls, for each type of event, the callback last subscribed for
that type.

* `commandCalls`, `progressCalls` — the calls of a command and of an upload, by what is
  registered.
* `Delivers` — a client that has the registered callbacks and makes these calls.
* `upheld_iff` — over every sequence of subscriptions, which of them keep it.
* `progress_suppresses_commands` — a progress callback takes the place of two others.
-/
import Irestore.Library.Trace
import Irestore.Recovery.Client

namespace Irestore.Recovery

open Irestore.Library Irestore.Library.Program Irestore.Library.CMemory

set_option autoImplicit false

variable {C : Type}

/-! ## Subscriptions -/

/-- A call of one of the two functions. -/
inductive Subscription (C : Type) where
  | subscribe (type : IrecvEventType) (callback : Option C)
  | unsubscribe (type : IrecvEventType)

def Subscription.type : Subscription C → IrecvEventType
  | .subscribe type _ => type
  | .unsubscribe type => type

/-- The callback it gives; none when it takes one away. -/
def Subscription.callback : Subscription C → Option C
  | .subscribe _ callback => callback
  | .unsubscribe _ => none

def step (client : IrecvClient C) : Subscription C → IrecvClient C × IrecvError
  | .subscribe type callback => irecvEventSubscribe client type callback
  | .unsubscribe type => irecvEventUnsubscribe client type

theorem step_eq (client : IrecvClient C) (call : Subscription C) :
    step client call = setCallback client call.type call.callback := by
  cases call <;> rfl

/-- The client after a sequence of subscriptions. -/
def clientAfter (client : IrecvClient C) (calls : List (Subscription C)) : IrecvClient C :=
  calls.foldl (fun client call => (step client call).1) client

/-- The callback the last subscription for the type gave. -/
def registered (calls : List (Subscription C)) (type : IrecvEventType) : Option C :=
  (calls.reverse.find? fun call => call.type = type).bind Subscription.callback

/-! ## Calls -/

/-- The calls of callbacks in a history. -/
def called (history : List (Action C)) : List (C × IrecvEvent) :=
  history.filterMap fun action =>
    match action with
    | .call callback event => some (callback, event)
    | _ => none

/-- One call for an event, if there is a callback for it. -/
def callFor (callback : Option C) (event : IrecvEvent) : List (C × IrecvEvent) :=
  callback.toList.map fun callback => (callback, event)

/-- The callback answers that it has handled the event. -/
def Handled (outside : Outside C) (history : List (Action C)) (callback : Option C)
    (event : IrecvEvent) : Prop :=
  ∃ c, callback = some c ∧ outside.call history c event ≠ 0

/-- The calls of an upload of so many packets. -/
def progressCalls (callback : Option C) (length packets : Nat) : List (C × IrecvEvent) :=
  (List.range packets).flatMap fun i =>
    callFor callback (progressEvent length (min ((i + 1) * packetSize) length))

/-- A command calls the callbacks of its two events, the second unless the first has
handled it. -/
structure DeliversCommand (table : IrecvEventType → Option C) (client : IrecvClient C)
    (outside : Outside C) (history : List (Action C)) (command : CText) : Prop where
  handled : Handled outside history (table .precommand) (commandEvent command .precommand) →
    ∃ after, (irecvSendCommand outside client command).run history = (.ok IRECV_E_SUCCESS, after) ∧
      called after = called history ++
        callFor (table .precommand) (commandEvent command .precommand)
  sent : ¬ Handled outside history (table .precommand) (commandEvent command .precommand) →
    ∃ after, (irecvSendCommand outside client command).run history = (.ok IRECV_E_SUCCESS, after) ∧
      called after = called history ++
        callFor (table .precommand) (commandEvent command .precommand) ++
        callFor (table .postcommand) (commandEvent command .postcommand)

/-- An upload calls the progress callback behind each packet that goes through, all of them
when it succeeds. -/
def DeliversBuffer (table : IrecvEventType → Option C) (client : IrecvClient C)
    (outside : Outside C) (history : List (Action C)) (buffer : List UInt8)
    (dfuNotifyFinished : Bool) : Prop :=
  ∃ ret after packets, (irecvSendBuffer outside client buffer dfuNotifyFinished).run history =
      (.ok ret, after) ∧
    packets ≤ packetsOf buffer.length ∧
    (ret = IRECV_E_SUCCESS → packets = packetsOf buffer.length) ∧
    called after = called history ++ progressCalls (table .progress) buffer.length packets

/-- The client has the callbacks of the table, and calls them for their own events; an upload is
one whose positions fit an `int`. -/
structure Delivers (table : IrecvEventType → Option C) (client : IrecvClient C) : Prop where
  stored : ∀ type, client.callback type = table type
  command : ∀ outside history command, client.handle = true →
    DeliversCommand table client outside history command
  buffer : ∀ outside history buffer dfuNotifyFinished, client.handle = true →
    buffer.length < 2 ^ 31 → DeliversBuffer table client outside history buffer dfuNotifyFinished

/-- Every subscription succeeds, and the client it leaves delivers what is registered. -/
def Upheld (client : IrecvClient C) (calls : List (Subscription C)) : Prop :=
  ∀ before call, before ++ [call] <+: calls →
    (step (clientAfter client before) call).2 = IRECV_E_SUCCESS ∧
      Delivers (registered (before ++ [call])) (clientAfter client (before ++ [call]))

/-- The callback is not left in the place of another: the types whose cases run into the
next ones find it there already. -/
def Fine (client : IrecvClient C) (call : Subscription C) : Prop :=
  match call.type with
  | .received | .precommand | .postcommand => True
  | .progress => client.connectedCallback = call.callback ∧ client.precommandCallback = call.callback
  | .connected => client.precommandCallback = call.callback
  | .disconnected => False

/-! ## What is stored -/

section Subscriptions

variable {client : IrecvClient C}

theorem registered_concat (calls : List (Subscription C)) (call : Subscription C)
    (type : IrecvEventType) :
    registered (calls ++ [call]) type =
      if call.type = type then call.callback else registered calls type := by
  rw [registered, List.reverse_append, List.reverse_singleton, List.singleton_append,
    List.find?_cons]
  by_cases same : call.type = type
  · simp [same]
  · simp [same, registered]

theorem clientAfter_concat (calls : List (Subscription C)) (call : Subscription C) :
    clientAfter client (calls ++ [call]) = (step (clientAfter client calls) call).1 := by
  rw [clientAfter, List.foldl_append]
  rfl

/-- One subscription succeeds and sets the callback of its type alone exactly when it is
fine. -/
theorem fine_iff {table : IrecvEventType → Option C} {call : Subscription C}
    (stored : ∀ type, client.callback type = table type) :
    ((step client call).2 = IRECV_E_SUCCESS ∧ ∀ type, (step client call).1.callback type =
        if call.type = type then call.callback else table type) ↔ Fine client call := by
  simp only [← stored, step_eq, Fine]
  cases call.type with
  | received =>
    refine iff_of_true ⟨rfl, fun type => ?_⟩ trivial
    cases type <;> rfl
  | precommand =>
    refine iff_of_true ⟨rfl, fun type => ?_⟩ trivial
    cases type <;> rfl
  | postcommand =>
    refine iff_of_true ⟨rfl, fun type => ?_⟩ trivial
    cases type <;> rfl
  | connected =>
    refine ⟨fun alone => (alone.2 .precommand).symm, fun there => ⟨rfl, fun type => ?_⟩⟩
    cases type with
    | precommand => exact there.symm
    | received | postcommand | connected | disconnected | progress => rfl
  | disconnected =>
    refine iff_of_false (fun alone => ?_) id
    exact absurd alone.1 (show IRECV_E_UNKNOWN_ERROR ≠ IRECV_E_SUCCESS by decide)
  | progress =>
    refine ⟨fun alone => ⟨(alone.2 .connected).symm, (alone.2 .precommand).symm⟩,
      fun there => ⟨rfl, fun type => ?_⟩⟩
    cases type with
    | connected => exact there.1.symm
    | precommand => exact there.2.symm
    | received | postcommand | disconnected | progress => rfl

end Subscriptions

/-! ## Calls of callbacks -/

section Calling

variable {outside : Outside C} {client : IrecvClient C}

theorem called_append (front back : List (Action C)) :
    called (front ++ back) = called front ++ called back :=
  List.filterMap_append

theorem run_callback (callee : Option C) (event : IrecvEvent) (history : List (Action C)) :
    ∃ answer after, (callback outside callee event).run history = (.ok answer, after) ∧
      (answer ≠ 0 ↔ Handled outside history callee event) ∧
      called after = called history ++ callFor callee event := by
  cases callee with
  | none => exact ⟨0, history, rfl, by simp [Handled], by simp [callFor]⟩
  | some c =>
    refine ⟨_, _, rfl, ?_, called_append _ _⟩
    simp [Handled]

/-- The program ends, with `post` of its value, and calls no callback. -/
def Quiet {α : Type} (program : Program (List (Action C)) α) (post : α → Prop) : Prop :=
  ∀ calls, Ensures (fun history => called history = calls) program
    (fun a history => called history = calls ∧ post a) fun _ => False

theorem quiet_pure {α : Type} {a : α} {post : α → Prop} (holds : post a) :
    Quiet (pure a : Program (List (Action C)) α) post :=
  fun _ => ensures_pure fun _ same => ⟨same, holds⟩

theorem quiet_bind {α β : Type} {first : Program (List (Action C)) α}
    {next : α → Program (List (Action C)) β} {mid : α → Prop} {post : β → Prop}
    (run : Quiet first mid) (rest : ∀ a, mid a → Quiet (next a) post) :
    Quiet (first >>= next) post :=
  fun calls => ensures_bind (run calls) fun a =>
    ensures_each fun _ holds => ensures_mono (rest a holds.2 calls)
      (fun _ same => same ▸ holds.1) fun _ _ post => post

theorem quiet_ite {α : Type} {condition : Prop} [Decidable condition]
    {yes no : Program (List (Action C)) α} {post : α → Prop}
    (left : condition → Quiet yes post) (right : ¬condition → Quiet no post) :
    Quiet (if condition then yes else no) post :=
  fun calls => ensures_ite (fun holds => left holds calls) fun fails => right fails calls

theorem quiet_get : Quiet (get : Program (List (Action C)) _) fun _ => True :=
  fun _ => ensures_get fun _ same => ⟨same, trivial⟩

theorem quiet_act {action : Action C} (transfer : called [action] = []) :
    Quiet (act action) fun _ => True := by
  refine fun calls => ensures_modify fun history same => ⟨?_, trivial⟩
  rw [called_append, same, transfer, List.append_nil]

theorem quiet_control (bmRequestType bRequest : UInt8) (data : List UInt8) :
    Quiet (irecvControlTransfer outside bmRequestType bRequest data) fun _ => True :=
  quiet_bind quiet_get fun _ _ => quiet_bind (quiet_act rfl) fun _ _ => quiet_pure trivial

theorem quiet_bulk (data : List UInt8) :
    Quiet (irecvBulkTransfer outside data) fun _ => True := by
  refine quiet_bind quiet_get fun _ _ => quiet_bind (quiet_act rfl) fun _ _ => ?_
  refine quiet_ite (fun _ => ?_) fun _ => quiet_pure trivial
  exact quiet_bind (quiet_act rfl) fun _ _ => quiet_pure trivial

theorem quiet_getStatus : Quiet (irecvGetStatus outside client) fun _ => True := by
  refine quiet_ite (fun _ => quiet_pure trivial) fun _ => ?_
  refine quiet_bind (quiet_control _ _ _) fun _ _ => ?_
  exact quiet_ite (fun _ => quiet_pure trivial) fun _ => quiet_pure trivial

theorem quiet_getStatuses : ∀ rounds, Quiet (getStatuses outside client rounds) fun _ => True
  | 0 => quiet_pure trivial
  | rounds + 1 => quiet_bind quiet_getStatus fun _ _ =>
      quiet_ite (fun _ => quiet_pure trivial) fun _ => quiet_getStatuses rounds

/-- A packet that fails does so with an error. -/
theorem quiet_sendPacket (data : List UInt8) (size : Nat) :
    Quiet (sendPacket outside client data size) fun failed => failed ≠ some IRECV_E_SUCCESS := by
  have upload : some IRECV_E_USB_UPLOAD ≠ some IRECV_E_SUCCESS := by decide
  have other : ∀ {error : IrecvError}, error ≠ IRECV_E_SUCCESS →
      some error ≠ some IRECV_E_SUCCESS := fun differ same => differ (Option.some.inj same)
  have none' : (none : Option IrecvError) ≠ some IRECV_E_SUCCESS := nofun
  refine quiet_ite (fun _ => quiet_bind (quiet_bulk _) fun _ _ => ?_)
    fun _ => quiet_bind (quiet_control _ _ _) fun _ _ => ?_
  · refine quiet_ite (fun _ => quiet_pure upload) fun _ => ?_
    exact quiet_ite (fun differ => quiet_pure (other differ)) fun _ => quiet_pure none'
  · refine quiet_ite (fun _ => quiet_pure upload) fun _ => ?_
    refine quiet_bind quiet_getStatus fun _ _ => ?_
    refine quiet_ite (fun differ => quiet_pure (other differ)) fun _ => ?_
    exact quiet_ite (fun _ => quiet_pure upload) fun _ => quiet_pure none'

theorem quiet_notifyFinished (dfuNotifyFinished : Bool) :
    Quiet (notifyFinished outside client dfuNotifyFinished) fun _ => True := by
  refine quiet_ite (fun _ => ?_) fun _ => quiet_pure trivial
  refine quiet_bind (quiet_control _ _ _) fun _ _ => ?_
  refine quiet_bind (quiet_getStatuses 3) fun failed _ => ?_
  cases failed with
  | some error => exact quiet_pure trivial
  | none => exact quiet_bind (quiet_act rfl) fun _ _ => quiet_pure trivial

/-- What a quiet program leaves. -/
theorem Quiet.run {α : Type} {program : Program (List (Action C)) α} {post : α → Prop}
    (quiet : Quiet program post) (history : List (Action C)) :
    ∃ a after, program.run history = (.ok a, after) ∧ called after = called history ∧ post a := by
  match result : program.run history with
  | (.ok a, after) => exact ⟨a, after, rfl, (quiet _).ok rfl result⟩
  | (.error fault, after) => exact ((quiet _).fault rfl result).elim

/-- A command, by the client's callbacks. -/
theorem sendCommand_calls (present : client.handle = true) (history : List (Action C))
    (command : CText) :
    DeliversCommand client.callback client outside history command := by
  have there : ¬ client.handle = false := by simp [present]
  obtain ⟨answer, during, ran, handled, first⟩ := @run_callback _ outside
    client.precommandCallback (commandEvent command .precommand) history
  constructor
  · intro isHandled
    refine ⟨during, ?_, first⟩
    rw [irecvSendCommand, if_neg there, run_bind ran, if_pos (handled.mpr isHandled)]
    rfl
  · intro notHandled
    have quiet : Quiet (irecvSendCommandRaw outside command) fun error =>
        error = IRECV_E_SUCCESS := by
      refine quiet_ite (fun _ => ?_) fun _ => quiet_pure rfl
      exact quiet_bind (quiet_control _ _ _) fun _ _ => quiet_pure rfl
    obtain ⟨_, sent, raw, silent, rfl⟩ := quiet.run during
    obtain ⟨_, after, ran', -, second⟩ := @run_callback _ outside client.postcommandCallback
      (commandEvent command .postcommand) sent
    refine ⟨after, ?_, by rw [second, silent, first]; rfl⟩
    rw [irecvSendCommand, if_neg there, run_bind ran, if_neg (mt handled.mp notHandled),
      run_bind raw, if_neg (fun failed => failed.1 rfl), run_bind ran']
    rfl

/-- What is through before packet `i`, and the size of the packet. -/
theorem add_sizeOfPacket {length i : Nat} (more : i < packetsOf length) :
    min (i * packetSize) length + sizeOfPacket length i = min ((i + 1) * packetSize) length := by
  have division := Nat.div_add_mod length packetSize
  have bound := Nat.mod_lt length (show 0 < packetSize by decide)
  rw [sizeOfPacket]
  by_cases whole : length % packetSize = 0
  · rw [packetsOf, if_neg (not_not.mpr whole)] at more ⊢
    rw [if_neg (not_not.mpr whole), ite_self]
    rw [packetSize] at *
    omega
  · rw [packetsOf, if_pos whole] at more ⊢
    rw [if_pos whole]
    rw [packetSize] at *
    split <;> omega

/-- The loop from packet `i` on. -/
theorem sendPackets_calls (buffer : List UInt8) : ∀ (rounds i : Nat) (history : List (Action C)),
    i + rounds = packetsOf buffer.length →
    ∃ failed after through, (sendPackets outside client buffer rounds i
        (min (i * packetSize) buffer.length)).run history = (.ok failed, after) ∧
      through ≤ rounds ∧ failed ≠ some IRECV_E_SUCCESS ∧ (failed = none → through = rounds) ∧
      called after = called history ++ (List.range' i through).flatMap fun j =>
        callFor client.progressCallback
          (progressEvent buffer.length (min ((j + 1) * packetSize) buffer.length))
  | 0, i, history, _ => ⟨none, history, 0, rfl, Nat.le_refl 0, nofun, fun _ => rfl, by simp⟩
  | rounds + 1, i, history, total => by
      obtain ⟨failed, sent, ran, silent, differ⟩ := (@quiet_sendPacket _ outside client
        ((buffer.drop (i * packetSize)).take (sizeOfPacket buffer.length i))
        (sizeOfPacket buffer.length i)).run history
      rw [sendPackets, run_bind ran]
      cases failed with
      | some error => exact ⟨some error, sent, 0, rfl, Nat.zero_le _, differ, nofun, by simp [silent]⟩
      | none =>
        obtain ⟨_, reported, ran', -, call⟩ := @run_callback _ outside client.progressCallback
          (progressEvent buffer.length (min ((i + 1) * packetSize) buffer.length)) sent
        obtain ⟨failed, after, through, rest, few, differ, all, calls⟩ :=
          sendPackets_calls buffer rounds (i + 1) reported (by omega)
        have next := @add_sizeOfPacket buffer.length i (by omega)
        refine ⟨failed, after, through + 1, ?_, by omega, differ, fun none => ?_, ?_⟩
        · simp only [next]
          rw [run_bind ran']
          exact rest
        · rw [all none]
        · rw [calls, call, silent, List.range'_succ, List.flatMap_cons, List.append_assoc]

/-- An upload, by the client's callbacks. -/
theorem sendBuffer_calls (present : client.handle = true) (history : List (Action C))
    (buffer : List UInt8) (dfuNotifyFinished : Bool) :
    DeliversBuffer client.callback client outside history buffer dfuNotifyFinished := by
  have there : ¬ client.handle = false := by simp [present]
  have quiet : Quiet (initiateTransfer outside client) fun _ => True :=
    quiet_ite (fun _ => quiet_control _ _ _) fun _ => quiet_control _ _ _
  obtain ⟨⟨error, bytes⟩, begun, ran, silent, -⟩ := quiet.run history
  unfold DeliversBuffer
  rw [irecvSendBuffer, if_neg there, run_bind ran]
  dsimp only
  by_cases refused : error ≠ IRECV_E_SUCCESS
  · refine ⟨error, begun, 0, by rw [if_pos refused]; rfl, Nat.zero_le _, fun same => ?_, ?_⟩
    · exact absurd same refused
    · simp [silent, progressCalls]
  obtain ⟨failed, sent, through, ran, few, differ, all, calls⟩ :=
    @sendPackets_calls _ outside client buffer (packetsOf buffer.length) 0 begun (Nat.zero_add _)
  rw [Nat.zero_mul, Nat.zero_min] at ran
  have counted : called sent =
      called history ++ progressCalls client.progressCallback buffer.length through := by
    rw [calls, silent, progressCalls, List.range_eq_range']
  simp only [if_neg refused, run_bind ran]
  cases failed with
  | some error =>
    refine ⟨error, sent, through, rfl, few, fun same => ?_, counted⟩
    exact absurd (congrArg some same) differ
  | none =>
    obtain ⟨ret, after, ended, silent', -⟩ := (@quiet_notifyFinished _ outside client
      dfuNotifyFinished).run sent
    exact ⟨ret, after, through, ended, few, fun _ => all rfl, silent'.trans counted⟩

theorem delivers_of_stored {table : IrecvEventType → Option C}
    (stored : ∀ type, client.callback type = table type) : Delivers table client := by
  obtain rfl : client.callback = table := funext stored
  exact ⟨fun _ => rfl, fun _ history command present => sendCommand_calls present history command,
    fun _ history buffer dfuNotifyFinished present _ =>
      sendBuffer_calls present history buffer dfuNotifyFinished⟩

end Calling

/-! ## Every sequence of subscriptions -/

section Runs

variable {client : IrecvClient C}

/-- While every subscription has been fine, what is stored is what is registered. -/
theorem stored_of_upheld {calls : List (Subscription C)}
    (fresh : ∀ type, client.callback type = none) (upheld : Upheld client calls) :
    ∀ type, (clientAfter client calls).callback type = registered calls type := by
  cases calls using List.reverseRecOn with
  | nil => exact fresh
  | append_singleton calls call => exact (upheld calls call (List.prefix_refl _)).2.stored

/-- **A sequence of subscriptions is upheld exactly when each of them is fine.** -/
theorem subscriptions_upheld_iff (fresh : ∀ type, client.callback type = none)
    (calls : List (Subscription C)) :
    Upheld client calls ↔
      ∀ before call, before ++ [call] <+: calls → Fine (clientAfter client before) call := by
  induction calls using List.reverseRecOn with
  | nil =>
    have none' : ∀ {before : List (Subscription C)} {call : Subscription C},
        ¬ before ++ [call] <+: [] := by simp
    exact iff_of_true (fun _ _ isPrefix => absurd isPrefix none') fun _ _ isPrefix =>
      absurd isPrefix none'
  | append_singleton calls call ih =>
    rw [Upheld, forall_prefix_concat_iff, forall_prefix_concat_iff, ← ih]
    refine and_congr_right fun upheld => ?_
    rw [← fine_iff (stored_of_upheld fresh upheld), clientAfter_concat]
    refine and_congr_right fun _ => ⟨fun delivers type => ?_, fun alone => ?_⟩
    · rw [delivers.stored, registered_concat]
    · refine delivers_of_stored fun type => ?_
      rw [alone, registered_concat]

end Runs

/-- A client that has just been opened, in recovery mode. -/
def opened : IrecvClient Nat := { mode := 0x1281, handle := true }

/-- Callbacks for commands, for what is received and for nothing any more. -/
def watched : List (Subscription Nat) :=
  [.subscribe .precommand (some 1), .subscribe .postcommand (some 2), .subscribe .received (some 3),
    .unsubscribe .precommand]

theorem opened_fresh (type : IrecvEventType) : opened.callback type = none := by
  cases type <;> rfl

theorem watched_upheld : Upheld opened watched := by
  refine (subscriptions_upheld_iff opened_fresh watched).mpr fun before call isPrefix => ?_
  have member : call ∈ watched := isPrefix.subset (by simp)
  simp only [watched, List.mem_cons, List.not_mem_nil, or_false] at member
  rcases member with rfl | rfl | rfl | rfl <;> trivial

/-- A progress callback is installed in the place of two others. -/
theorem progress_suppresses_commands : ¬ Upheld opened [.subscribe .progress (some 1)] := by
  intro upheld
  have stored := (upheld [] _ (List.prefix_refl _)).2.stored .precommand
  cases stored

end Irestore.Recovery
