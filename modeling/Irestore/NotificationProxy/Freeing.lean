/-
# NotificationProxy.Freeing — `np_client_free` and the thread it does not wait for

The connection is released before the thread is joined, and the mutex is not taken for it.

* `free_safe_iff` — from a client that is idle, no order of steps reaches the released
  connection exactly when there was no thread.
* `unfaulted_reached` — a run in which this holds at every `np_client_free` has no fault.
-/
import Irestore.NotificationProxy.Interleavings

namespace Irestore.NotificationProxy

open Irestore.Library Irestore.Library.CMemory Irestore.Plist

set_option autoImplicit false

variable {Callback : Type} {s : Proxy Callback} {callback : Callback}

/-- Some order of steps ends at an access to the released connection. -/
def Doomed : Proxy Callback → Prop := Attains step fun s => s.fault = some .useAfterFree

/-- The connection is released, and the thread is at `pc`. -/
structure Released (s : Proxy Callback) (callback : Callback) (pc : NotifierPc) : Prop where
  running : s.fault = none
  parent : s.parent = .dangling
  connected : s.connected = false
  mutex : pc.holds = false → s.mutex = none
  thread : s.notifier = some (callback, pc)

theorem Released.moves {pc : NotifierPc} (released : Released s callback pc) (pc' : NotifierPc)
    (held : pc'.holds = pc.holds) : Released (s.at callback pc') callback pc' :=
  ⟨released.running, released.parent, released.connected,
    fun free => released.mutex (held.symm.trans free), rfl⟩

theorem doomed_receiving (released : Released s callback .receiving) : Doomed s := by
  have stepped : notifierStep none s = some (s.faulted .useAfterFree) := by
    rw [notifierStep, released.thread]
    dsimp only
    rw [receiveStep, released.connected]
    rfl
  exact attains_notifier released.running stepped (.here rfl)

theorem doomed_entering (released : Released s callback .entering) : Doomed s := by
  have stepped : notifierStep none s = some (s.faulted .useAfterFree) := by
    rw [notifierStep, released.thread]
    dsimp only
    rw [released.parent]
  exact attains_notifier released.running stepped (.here rfl)

theorem doomed_locking (released : Released s callback .locking) : Doomed s := by
  obtain ⟨running, parent, connected, mutex, thread⟩ := released
  have stepped : notifierStep none s =
      some { s.at callback .entering with mutex := some .notifier } := by
    rw [notifierStep, thread]
    dsimp only
    rw [if_pos (mutex rfl)]
  have entered : Released { s.at callback .entering with mutex := some .notifier } callback
      .entering :=
    ⟨running, parent, connected, fun free => absurd free.symm Bool.false_ne_true, rfl⟩
  exact attains_notifier running stepped (doomed_entering entered)

theorem Released.live {pc : NotifierPc} (released : Released s callback pc) :
    s.parent ≠ .null := by
  rw [released.parent]
  exact Parent.noConfusion

theorem doomed_guarding (released : Released s callback .guarding) : Doomed s := by
  refine attains_notifier released.running ?_ (doomed_locking (released.moves .locking rfl))
  rw [notifierStep, released.thread]
  dsimp only
  rw [if_neg released.live]

theorem doomed_checking (released : Released s callback .checking) : Doomed s := by
  refine attains_notifier released.running ?_ (doomed_guarding (released.moves .guarding rfl))
  rw [notifierStep, released.thread]
  dsimp only
  rw [if_neg released.live]

theorem doomed_sleeping (released : Released s callback .sleeping) : Doomed s := by
  refine attains_notifier released.running ?_ (doomed_checking (released.moves .checking rfl))
  rw [notifierStep, released.thread]

theorem doomed_calling {notification : Option (List UInt8)}
    (released : Released s callback (.calling notification)) : Doomed s := by
  obtain ⟨running, parent, connected, mutex, thread⟩ := released
  have stepped : notifierStep none s = some { s.at callback .sleeping with
      delivered := s.delivered ++ (notification.map (callback, ·)).toList } := by
    rw [notifierStep, thread]
  have slept : Released { s.at callback .sleeping with
      delivered := s.delivered ++ (notification.map (callback, ·)).toList } callback .sleeping :=
    ⟨running, parent, connected, fun _ => mutex rfl, rfl⟩
  exact attains_notifier running stepped (doomed_sleeping slept)

theorem doomed_unlocking {notification : Option (List UInt8)}
    (released : Released s callback (.unlocking notification)) : Doomed s := by
  obtain ⟨running, parent, connected, mutex, thread⟩ := released
  have stepped : notifierStep none s =
      some { s.at callback (.calling notification) with mutex := none } := by
    rw [notifierStep, thread]
  have called : Released { s.at callback (.calling notification) with mutex := none } callback
      (.calling notification) := ⟨running, parent, connected, fun _ => rfl, rfl⟩
  exact attains_notifier running stepped (doomed_calling called)

theorem Released.doomed {pc : NotifierPc} (released : Released s callback pc)
    (unfinished : pc ≠ .finished) : Doomed s := by
  cases pc with
  | checking => exact doomed_checking released
  | guarding => exact doomed_guarding released
  | locking => exact doomed_locking released
  | entering => exact doomed_entering released
  | receiving => exact doomed_receiving released
  | unlocking notification => exact doomed_unlocking released
  | calling notification => exact doomed_calling released
  | sleeping => exact doomed_sleeping released
  | finished => exact absurd rfl unfinished

/-- `np_client_free` goes on with no thread beside it. -/
structure Freeing (s : Proxy Callback) : Prop where
  running : s.fault = none
  thread : s.notifier = none
  caller : s.caller = .clearing ∨ s.caller = .awaiting ∨ s.caller = .gone

theorem Freeing.step {s' : Proxy Callback} {event : Event Callback} (freeing : Freeing s)
    (stepped : step s event = some s') : Freeing s' := by
  obtain ⟨running, thread, caller⟩ := freeing
  rw [step_running running] at stepped
  cases event with
  | call call =>
    rcases caller with caller | caller | caller <;>
      · dsimp only at stepped
        rw [callStep, caller] at stepped
        cases stepped
  | free =>
    rcases caller with caller | caller | caller <;>
      · dsimp only at stepped
        rw [freeStep, caller] at stepped
        cases stepped
  | caller outside =>
    dsimp only at stepped
    rw [callerStep] at stepped
    rcases caller with caller | caller | caller
    · rw [caller] at stepped
      cases stepped
      exact ⟨running, thread, .inr (.inl rfl)⟩
    · rw [caller] at stepped
      dsimp only at stepped
      rw [thread] at stepped
      cases stepped
      exact ⟨running, rfl, .inr (.inr rfl)⟩
    · rw [caller] at stepped
      cases stepped
  | notifier reply =>
    dsimp only at stepped
    rw [notifierStep, thread] at stepped
    cases stepped

/-- **After `np_client_free` no order of steps reaches the released connection, exactly when
no callback was set.** -/
theorem free_safe_iff (reachable : Reachable s) (running : s.fault = none)
    (idle : s.caller = .idle) :
    (∀ s', step s .free = some s' → ¬ Doomed s') ↔ s.notifier = none := by
  have coherent := reachable.coherent
  have freed : step s .free =
      some { s with caller := .clearing, parent := .dangling, connected := false } := by
    rw [step_running running]
    show freeStep s = _
    rw [freeStep, idle]
  rw [freed]
  constructor
  · intro safe
    cases thread : s.notifier with
    | none => rfl
    | some at' =>
      obtain ⟨callback, pc⟩ := at'
      have released : Released
          { s with caller := .clearing, parent := .dangling, connected := false } callback pc := by
        refine ⟨running, rfl, rfl, fun free => ?_, thread⟩
        have mutex := coherent.mutex
        rw [Proxy.holder, idle, Proxy.notifierHolds, thread] at mutex
        show s.mutex = none
        rw [mutex, Option.any_some, free]
        rfl
      refine absurd (released.doomed ?_) (safe _ rfl)
      -- a thread that finished saw the pointer cleared
      rintro rfl
      have null := coherent.finished callback thread
      rw [coherent.parent, idle] at null
      cases null
  · rintro none s' same
    cases same
    intro doomed
    have freeing : Freeing
        { s with caller := .clearing, parent := .dangling, connected := false } :=
      ⟨running, none, .inl rfl⟩
    obtain ⟨s', freed, faulted⟩ := Attains.keeps doomed Freeing.step freeing
    rw [freed.running] at faulted
    cases faulted

theorem free_new_safe :
    ∃ s' : Proxy Unit, step npClientNew .free = some s' ∧ ¬ Doomed s' :=
  ⟨_, rfl, (free_safe_iff .start rfl rfl).mpr rfl _ rfl⟩

/-- `np_client_free` is called while there is no thread, and what is received can be read. -/
def Careful (s : Proxy Callback) (event : Event Callback) : Prop :=
  event.Readable ∧ (event = .free → s.notifier = none)

/-- With nothing faulted, the connection is gone only when there is no thread. -/
structure Unfaulted (s : Proxy Callback) : Prop where
  coherent : Coherent s
  running : s.fault = none
  alone : s.caller.connected = false → s.notifier = none

theorem CallerPc.not_dangling {pc : CallerPc Callback} (here : pc.connected = true) :
    pc.parent ≠ .dangling := by
  intro dangling
  cases pc with
  | clearing => cases here
  | idle | locking | replacing | joining | starting | posting | observing | unlocking | awaiting
  | gone => cases dangling

theorem startNotifier_frame (created : Bool) (notifyCb : Option Callback) (s : Proxy Callback) :
    (startNotifier created notifyCb s).fault = s.fault ∧
      (startNotifier created notifyCb s).caller.connected = true := by
  unfold startNotifier
  split
  · split <;> exact ⟨rfl, rfl⟩
  · exact ⟨rfl, rfl⟩

/-- The owner meets no fault, and takes the connection away in `np_client_free` only. -/
theorem Unfaulted.callerStep {s' : Proxy Callback} {outside : Outside} (unfaulted : Unfaulted s)
    (stepped : callerStep outside s = some s') :
    s'.fault = none ∧ (s'.caller.connected = false → s'.notifier = none) := by
  obtain ⟨coherent, running, alone⟩ := unfaulted
  unfold NotificationProxy.callerStep at stepped
  cases at' : s.caller with
  | idle | gone =>
    rw [at'] at stepped
    cases stepped
  | locking call =>
    rw [at'] at stepped
    dsimp only at stepped
    split at stepped
    · cases stepped
      exact ⟨running, fun gone => by cases call <;> cases gone⟩
    · cases stepped
  | replacing notifyCb | joining notifyCb =>
    rw [at'] at stepped
    dsimp only at stepped
    split at stepped <;> cases stepped <;> exact ⟨running, fun gone => by cases gone⟩
  | starting notifyCb =>
    rw [at'] at stepped
    cases stepped
    obtain ⟨same, here⟩ := startNotifier_frame outside.created notifyCb s
    exact ⟨same.trans running, fun gone => absurd (here.symm.trans gone) Bool.noConfusion⟩
  | posting notification | observing notification | unlocking =>
    rw [at'] at stepped
    cases stepped
    exact ⟨running, fun gone => by cases gone⟩
  | clearing =>
    rw [at'] at stepped alone
    cases stepped
    exact ⟨running, fun _ => alone rfl⟩
  | awaiting =>
    rw [at'] at stepped
    dsimp only at stepped
    split at stepped <;> cases stepped <;> exact ⟨running, fun _ => rfl⟩

theorem Unfaulted.notifierStep {s' : Proxy Callback} {reply : Option PlistNode}
    (unfaulted : Unfaulted s) (readable : Ends (readNotification reply))
    (stepped : notifierStep reply s = some s') : s'.fault = none ∧ s'.caller = s.caller := by
  obtain ⟨coherent, running, alone⟩ := unfaulted
  unfold NotificationProxy.notifierStep at stepped
  cases thread : s.notifier with
  | none =>
    rw [thread] at stepped
    cases stepped
  | some at' =>
    obtain ⟨callback, pc⟩ := at'
    rw [thread] at stepped alone
    dsimp only at stepped
    have here : s.caller.connected = true := by
      by_contra gone
      rw [Bool.not_eq_true] at gone
      cases alone gone
    cases pc with
    | finished => cases stepped
    | checking | guarding | sleeping | unlocking | calling =>
      cases stepped
      exact ⟨running, rfl⟩
    | locking =>
      dsimp only at stepped
      split at stepped
      · cases stepped
        exact ⟨running, rfl⟩
      · cases stepped
    | entering =>
      dsimp only at stepped
      split at stepped
      · cases stepped
        exact ⟨running, rfl⟩
      · cases stepped
        exact ⟨running, rfl⟩
      · rename_i dangling
        -- only `np_client_free` leaves the pointer dangling
        exact absurd (coherent.parent.symm.trans dangling) (CallerPc.not_dangling here)
    | receiving =>
      cases stepped
      obtain ⟨read, reads⟩ := readable
      rw [receiveStep, coherent.connected, here, if_pos rfl, reads]
      exact ⟨running, rfl⟩

theorem Unfaulted.step {s' : Proxy Callback} {event : Event Callback} (unfaulted : Unfaulted s)
    (careful : Careful s event) (stepped : step s event = some s') : Unfaulted s' := by
  have coherent' := unfaulted.coherent.step stepped
  obtain ⟨coherent, running, alone⟩ := id unfaulted
  rw [step_running running] at stepped
  cases event with
  | call call =>
    dsimp only at stepped
    unfold callStep at stepped
    split at stepped
    · cases stepped
      exact ⟨coherent', running, fun gone => by cases gone⟩
    · cases stepped
  | free =>
    dsimp only at stepped
    unfold freeStep at stepped
    split at stepped
    · cases stepped
      exact ⟨coherent', running, fun _ => careful.2 rfl⟩
    · cases stepped
  | caller outside =>
    obtain ⟨running', alone'⟩ := unfaulted.callerStep stepped
    exact ⟨coherent', running', alone'⟩
  | notifier reply =>
    obtain ⟨running', same⟩ := unfaulted.notifierStep careful.1 stepped
    refine ⟨coherent', running', fun gone => ?_⟩
    rw [same] at gone
    dsimp only at stepped
    rw [NotificationProxy.notifierStep, alone gone] at stepped
    cases stepped

/-- **When `np_client_free` finds no thread, no run reaches the released connection.** -/
theorem unfaulted_reached (reached : Reached Careful step npClientNew s) : s.fault = none := by
  have unfaulted : Unfaulted s := reached.keeps Unfaulted.step
    ⟨coherent_new, rfl, fun gone => by cases gone⟩
  exact unfaulted.running

end Irestore.NotificationProxy
