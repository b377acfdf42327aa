/-
# NotificationProxy.Interleavings — what holds for every order of steps

`Coherent` ties the mutex and the pointer `client->parent` to where the two threads are.

* `joined_iff` — a callback is replaced exactly when the old thread did not stand before
  the mutex as `parent` was cleared.
* `stuck_iff` — this is the only deadlock.
-/
import Irestore.NotificationProxy.Client

namespace Irestore.NotificationProxy

open Irestore.Library Irestore.Library.CMemory Irestore.Plist

set_option autoImplicit false

variable {Callback : Type}

/-! ## Coherence -/

def CallerPc.holds : CallerPc Callback → Bool
  | .replacing _ | .joining .. | .starting _ | .posting _ | .observing _ | .unlocking => true
  | _ => false

def NotifierPc.holds : NotifierPc → Bool
  | .entering | .receiving | .unlocking _ => true
  | _ => false

/-- What the owner has made of `client->parent`. -/
def CallerPc.parent : CallerPc Callback → Parent
  | .joining .. | .awaiting | .gone => .null
  | .clearing => .dangling
  | _ => .live

def CallerPc.connected : CallerPc Callback → Bool
  | .clearing | .awaiting | .gone => false
  | _ => true

/-- The old thread is there while the owner waits to put the pointer back, and no thread
is when a new one is to be created. -/
def CallerPc.Waits (threads : Bool) : CallerPc Callback → Prop
  | .joining _ parent => parent = .live ∧ threads = true
  | .starting _ | .gone => threads = false
  | _ => True

def Proxy.notifierHolds (s : Proxy Callback) : Bool := s.notifier.any fun thread => thread.2.holds

/-- Who has the mutex, by where the threads are. -/
def Proxy.holder (s : Proxy Callback) : Option Holder :=
  if s.caller.holds then some .caller else if s.notifierHolds then some .notifier else none

structure Coherent (s : Proxy Callback) : Prop where
  mutex : s.mutex = s.holder
  exclusive : s.caller.holds = true → s.notifierHolds = false
  parent : s.parent = s.caller.parent
  connected : s.connected = s.caller.connected
  waits : s.caller.Waits s.notifier.isSome
  finished : ∀ callback, s.notifier = some (callback, .finished) → s.parent = .null

theorem coherent_new : Coherent (npClientNew : Proxy Callback) :=
  ⟨rfl, fun held => absurd held Bool.false_ne_true, rfl, rfl, trivial, fun _ none => by cases none⟩

theorem Coherent.callStep {s s' : Proxy Callback} {call : Call Callback} (coherent : Coherent s)
    (stepped : callStep call s = some s') : Coherent s' := by
  obtain ⟨mutex, exclusive, parent, connected, waits, finished⟩ := coherent
  unfold NotificationProxy.callStep at stepped
  split at stepped
  · rename_i idle
    cases stepped
    rw [Proxy.holder, idle] at mutex
    rw [idle] at parent connected
    exact ⟨mutex, fun held => absurd held Bool.false_ne_true, parent, connected, trivial, finished⟩
  · cases stepped

theorem Coherent.freeStep {s s' : Proxy Callback} (coherent : Coherent s)
    (stepped : freeStep s = some s') : Coherent s' := by
  obtain ⟨mutex, exclusive, parent, connected, waits, finished⟩ := coherent
  unfold NotificationProxy.freeStep at stepped
  split at stepped
  · rename_i idle
    cases stepped
    rw [Proxy.holder, idle] at mutex
    rw [idle] at parent
    refine ⟨mutex, fun held => absurd held Bool.false_ne_true, rfl, rfl, trivial, ?_⟩
    -- the pointer was live, so no thread has finished
    intro callback isFinished
    have null := finished callback isFinished
    rw [parent] at null
    cases null
  · cases stepped

/-- The new thread holds nothing. -/
theorem Coherent.startNotifier {s : Proxy Callback} {notifyCb : Option Callback}
    (coherent : Coherent s) (starting : s.caller = .starting notifyCb) (created : Bool) :
    Coherent (startNotifier created notifyCb s) := by
  obtain ⟨mutex, exclusive, parent, connected, -, finished⟩ := coherent
  rw [Proxy.holder] at mutex
  rw [starting] at mutex exclusive parent connected
  have alone := exclusive rfl
  cases notifyCb with
  | none => exact ⟨mutex, fun _ => alone, parent, connected, trivial, finished⟩
  | some callback =>
    cases created with
    | false => exact ⟨mutex, fun _ => alone, parent, connected, trivial, finished⟩
    | true => exact ⟨mutex, fun _ => rfl, parent, connected, trivial, fun _ isNew => by cases isNew⟩

/-- Nobody has the mutex, so the notifier does not. -/
theorem Coherent.alone_of_free {s : Proxy Callback} (coherent : Coherent s)
    (free : s.mutex = none) : s.caller.holds = false ∧ s.notifierHolds = false := by
  have mutex := coherent.mutex
  rw [free, Proxy.holder] at mutex
  split at mutex
  · cases mutex
  · rename_i idle
    split at mutex
    · cases mutex
    · rename_i alone
      exact ⟨Bool.not_eq_true _ ▸ idle, Bool.not_eq_true _ ▸ alone⟩

theorem Coherent.callerStep {s s' : Proxy Callback} {outside : Outside} (coherent : Coherent s)
    (stepped : callerStep outside s = some s') : Coherent s' := by
  obtain ⟨mutex, exclusive, parent, connected, waits, finished⟩ := id coherent
  rw [Proxy.holder] at mutex
  unfold NotificationProxy.callerStep at stepped
  cases at' : s.caller with
  | idle | gone =>
    rw [at'] at stepped
    cases stepped
  | locking call =>
    rw [at'] at stepped parent connected
    dsimp only at stepped
    split at stepped
    · rename_i free
      cases stepped
      have alone := (coherent.alone_of_free free).2
      cases call <;> exact ⟨rfl, fun _ => alone, parent, connected, trivial, finished⟩
    · cases stepped
  | replacing notifyCb =>
    rw [at'] at stepped mutex exclusive parent connected
    dsimp only at stepped
    split at stepped
    · rename_i isNone
      cases stepped
      refine ⟨mutex, fun _ => exclusive rfl, parent, connected, ?_, finished⟩
      show s.notifier.isSome = false
      rw [isNone]
      rfl
    · rename_i thread isThread
      cases stepped
      refine ⟨mutex, fun _ => exclusive rfl, rfl, connected, ⟨parent, ?_⟩, fun _ _ => rfl⟩
      show s.notifier.isSome = true
      rw [isThread]
      rfl
  | joining notifyCb saved =>
    rw [at'] at stepped mutex connected waits
    dsimp only at stepped
    split at stepped
    · cases stepped
      exact ⟨mutex, fun _ => rfl, waits.1, connected, rfl, fun _ none => by cases none⟩
    · cases stepped
  | starting notifyCb =>
    rw [at'] at stepped
    cases stepped
    exact coherent.startNotifier at' outside.created
  | posting notification | observing notification =>
    rw [at'] at stepped mutex exclusive parent connected
    cases stepped
    exact ⟨mutex, fun _ => exclusive rfl, parent, connected, trivial, finished⟩
  | unlocking =>
    rw [at'] at stepped exclusive parent connected
    cases stepped
    refine ⟨?_, fun held => absurd held Bool.false_ne_true, parent, connected, trivial, finished⟩
    show none = if s.notifierHolds then _ else none
    rw [exclusive rfl]
    rfl
  | clearing =>
    rw [at'] at stepped mutex connected
    cases stepped
    exact ⟨mutex, fun held => absurd held Bool.false_ne_true, rfl, connected, trivial,
      fun _ _ => rfl⟩
  | awaiting =>
    rw [at'] at stepped mutex parent connected
    dsimp only at stepped
    split at stepped
    · rename_i isNone
      cases stepped
      rw [Proxy.notifierHolds, isNone] at mutex
      exact ⟨mutex, fun held => absurd held Bool.false_ne_true, parent, connected, rfl,
        fun _ _ => parent⟩
    · rename_i isFinished
      cases stepped
      rw [Proxy.notifierHolds, isFinished] at mutex
      exact ⟨mutex, fun held => absurd held Bool.false_ne_true, parent, connected, rfl,
        fun _ _ => parent⟩
    · cases stepped

/-- The notifier moves on, and the mutex with it. -/
theorem Coherent.notifierMoves {s : Proxy Callback} {callback : Callback} {pc pc' : NotifierPc}
    (coherent : Coherent s) (thread : s.notifier = some (callback, pc))
    (moved : pc'.holds = pc.holds) (ends : pc' = .finished → s.parent = .null) :
    Coherent (s.at callback pc') := by
  obtain ⟨mutex, exclusive, parent, connected, waits, -⟩ := coherent
  have same : (s.at callback pc').notifierHolds = s.notifierHolds := by
    rw [Proxy.notifierHolds, Proxy.notifierHolds, thread]
    exact moved
  refine ⟨?_, fun held => same.trans (exclusive held), parent, connected, ?_, ?_⟩
  · rw [Proxy.holder, same]
    exact mutex
  · rw [thread] at waits
    exact waits
  · intro _ isFinished
    cases isFinished
    exact ends rfl

/-- A fault is seen by nobody else. -/
theorem Coherent.faulted {s : Proxy Callback} (coherent : Coherent s) (fault : Fault) :
    Coherent (s.faulted fault) :=
  ⟨coherent.mutex, coherent.exclusive, coherent.parent, coherent.connected, coherent.waits,
    coherent.finished⟩

theorem Coherent.receiveStep {s : Proxy Callback} {callback : Callback} (coherent : Coherent s)
    (thread : s.notifier = some (callback, .receiving)) (reply : Option PlistNode) :
    Coherent (receiveStep callback reply s) := by
  unfold NotificationProxy.receiveStep
  split
  · split
    · rename_i code notification _
      have moved : Coherent (s.at callback (.unlocking notification)) :=
        coherent.notifierMoves thread rfl fun same => by cases same
      obtain ⟨mutex, exclusive, parent, connected, waits, finished⟩ := moved
      exact ⟨mutex, exclusive, parent, connected, waits, finished⟩
    · exact coherent.faulted _
  · exact coherent.faulted _

theorem Coherent.notifierStep {s s' : Proxy Callback} {reply : Option PlistNode}
    (coherent : Coherent s) (stepped : notifierStep reply s = some s') : Coherent s' := by
  unfold NotificationProxy.notifierStep at stepped
  cases thread : s.notifier with
  | none =>
    rw [thread] at stepped
    cases stepped
  | some at' =>
    obtain ⟨callback, pc⟩ := at'
    have waits := coherent.waits
    rw [thread] at stepped waits
    dsimp only at stepped
    cases pc with
    | finished => cases stepped
    | checking =>
      cases stepped
      split
      · rename_i null
        exact coherent.notifierMoves thread rfl fun _ => null
      · exact coherent.notifierMoves thread rfl fun same => by cases same
    | guarding =>
      cases stepped
      split
      · exact coherent.notifierMoves thread rfl fun same => by cases same
      · exact coherent.notifierMoves thread rfl fun same => by cases same
    | sleeping =>
      cases stepped
      exact coherent.notifierMoves thread rfl fun same => by cases same
    | calling notification =>
      cases stepped
      have moved : Coherent (s.at callback .sleeping) :=
        coherent.notifierMoves thread rfl fun same => by cases same
      obtain ⟨mutex, exclusive, parent, connected, waits, finished⟩ := moved
      exact ⟨mutex, exclusive, parent, connected, waits, finished⟩
    | locking =>
      dsimp only at stepped
      split at stepped
      · rename_i free
        cases stepped
        have idle := (coherent.alone_of_free free).1
        refine ⟨?_, fun held => ?_, coherent.parent, coherent.connected, waits,
          fun _ isFinished => by cases isFinished⟩
        · show _ = if s.caller.holds then _ else _
          rw [idle]
          rfl
        · exact absurd (idle.symm.trans held) Bool.false_ne_true
      · cases stepped
    | entering =>
      dsimp only at stepped
      split at stepped
      · cases stepped
        exact coherent.notifierMoves thread rfl fun same => by cases same
      · cases stepped
        exact coherent.notifierMoves thread rfl fun same => by cases same
      · cases stepped
        exact coherent.faulted _
    | receiving =>
      cases stepped
      exact coherent.receiveStep thread reply
    | unlocking notification =>
      cases stepped
      have idle : s.caller.holds = false := by
        by_contra held
        rw [Bool.not_eq_false] at held
        have alone := coherent.exclusive held
        rw [Proxy.notifierHolds, thread] at alone
        cases alone
      refine ⟨?_, fun _ => rfl, coherent.parent, coherent.connected, waits,
        fun _ isFinished => by cases isFinished⟩
      show _ = if s.caller.holds then _ else _
      rw [idle]
      rfl

/-- **One step of either thread keeps the state coherent.** -/
theorem Coherent.step {s s' : Proxy Callback} {event : Event Callback} (coherent : Coherent s)
    (stepped : step s event = some s') : Coherent s' := by
  unfold NotificationProxy.step at stepped
  split at stepped
  · cases event with
    | call call => exact coherent.callStep stepped
    | free => exact coherent.freeStep stepped
    | caller outside => exact coherent.callerStep stepped
    | notifier reply => exact coherent.notifierStep stepped
  · cases stepped

/-- The states of all runs from a new client. -/
def Reachable (s : Proxy Callback) : Prop :=
  Reached (fun _ (_ : Event Callback) => True) step npClientNew s

theorem Reachable.coherent {s : Proxy Callback} (reachable : Reachable s) : Coherent s :=
  reachable.keeps (fun coherent _ stepped => coherent.step stepped) coherent_new

theorem Reachable.of_run {s : Proxy Callback} (events : List (Event Callback))
    (ran : events.foldlM step npClientNew = some s) : Reachable s :=
  Reached.follow (fun _ _ => trivial) .start ran

theorem step_running {s : Proxy Callback} (running : s.fault = none) (event : Event Callback) :
    step s event =
      match event with
      | .call call => callStep call s
      | .free => freeStep s
      | .caller outside => callerStep outside s
      | .notifier reply => notifierStep reply s := if_pos running

/-! ## The deadlock -/

/-- The old thread stands before the mutex, which the owner has while it waits for it. -/
def Deadlocked (s : Proxy Callback) : Prop :=
  ∃ notifyCb parent callback, s.caller = .joining notifyCb parent ∧
    s.notifier = some (callback, .locking)

theorem Deadlocked.stuck {s : Proxy Callback} (coherent : Coherent s) (deadlocked : Deadlocked s) :
    Stuck s := by
  obtain ⟨notifyCb, parent, callback, joining, thread⟩ := deadlocked
  have held : s.mutex = some .caller := by
    rw [coherent.mutex, Proxy.holder, joining]
    rfl
  intro event
  unfold step
  split
  · cases event with
    | call call =>
      show callStep call s = none
      rw [callStep, joining]
    | free =>
      show freeStep s = none
      rw [freeStep, joining]
    | caller outside =>
      show callerStep outside s = none
      rw [callerStep, joining]
      dsimp only
      rw [thread]
    | notifier reply =>
      show notifierStep reply s = none
      rw [notifierStep, thread]
      dsimp only
      rw [held]
      rfl
  · rfl

/-- A notifier that cannot go on has finished, or waits for the mutex. -/
theorem notifierStep_none {s : Proxy Callback} {callback : Callback} {pc : NotifierPc}
    (thread : s.notifier = some (callback, pc)) (blocked : notifierStep none s = none) :
    pc = .finished ∨ pc = .locking ∧ s.mutex ≠ none := by
  rw [notifierStep, thread] at blocked
  dsimp only at blocked
  cases pc with
  | finished => exact .inl rfl
  | locking =>
    dsimp only at blocked
    split at blocked
    · cases blocked
    · rename_i taken
      exact .inr ⟨rfl, taken⟩
  | entering =>
    dsimp only at blocked
    split at blocked <;> cases blocked
  | checking | guarding | receiving | unlocking | calling | sleeping => cases blocked

def noOutside : Outside := ⟨.success, .success, none, true⟩

/-- An owner that cannot go on waits for the mutex or for a thread, or is through. -/
theorem callerStep_none {s : Proxy Callback} (blocked : callerStep noOutside s = none)
    (busy : s.caller ≠ .idle) (present : s.caller ≠ .gone) :
    (s.caller.holds = false ∧ s.mutex ≠ none) ∨
      (∃ callback pc, s.notifier = some (callback, pc) ∧ pc ≠ .finished ∧
        (s.caller.holds = false ∨ ∃ notifyCb parent, s.caller = .joining notifyCb parent)) ∨
      ∃ notifyCb parent, s.caller = .joining notifyCb parent ∧ s.notifier = none := by
  unfold callerStep at blocked
  cases at' : s.caller with
  | idle => exact absurd at' busy
  | gone => exact absurd at' present
  | locking call =>
    rw [at'] at blocked
    dsimp only at blocked
    split at blocked
    · cases blocked
    · rename_i taken
      exact .inl ⟨rfl, taken⟩
  | replacing notifyCb =>
    rw [at'] at blocked
    dsimp only at blocked
    split at blocked <;> cases blocked
  | joining notifyCb parent =>
    rw [at'] at blocked
    dsimp only at blocked
    cases thread : s.notifier with
    | none => exact .inr (.inr ⟨notifyCb, parent, rfl, rfl⟩)
    | some at'' =>
      obtain ⟨callback, pc⟩ := at''
      refine .inr (.inl ⟨callback, pc, rfl, ?_, .inr ⟨notifyCb, parent, rfl⟩⟩)
      rintro rfl
      rw [thread] at blocked
      cases blocked
  | starting | posting | observing | unlocking | clearing =>
    rw [at'] at blocked
    cases blocked
  | awaiting =>
    rw [at'] at blocked
    dsimp only at blocked
    cases thread : s.notifier with
    | none =>
      rw [thread] at blocked
      cases blocked
    | some at'' =>
      obtain ⟨callback, pc⟩ := at''
      refine .inr (.inl ⟨callback, pc, rfl, ?_, .inl rfl⟩)
      rintro rfl
      rw [thread] at blocked
      cases blocked

/-- **No thread can go on exactly when the owner waits for a thread that waits for its mutex.** -/
theorem stuck_iff {s : Proxy Callback} (reachable : Reachable s) (running : s.fault = none)
    (present : s.caller ≠ .gone) : Stuck s ↔ Deadlocked s := by
  have coherent := reachable.coherent
  refine ⟨fun stuck => ?_, fun deadlocked => deadlocked.stuck coherent⟩
  have callerBlocked : callerStep noOutside s = none := by
    rw [← stuck (.caller noOutside), step_running running]
  have notifierBlocked : notifierStep none s = none := by
    rw [← stuck (.notifier none), step_running running]
  have busy : s.caller ≠ .idle := by
    intro idle
    have blocked := stuck (.call (.setNotifyCallback none))
    rw [step_running running] at blocked
    dsimp only at blocked
    rw [callStep, idle] at blocked
    cases blocked
  have mutex := coherent.mutex
  rw [Proxy.holder] at mutex
  rcases callerStep_none callerBlocked busy present with
    ⟨idle, taken⟩ | ⟨callback, pc, thread, unfinished, waiting⟩ | ⟨_, _, joining, isNone⟩
  · -- the mutex is the notifier's, and it goes on
    rw [idle] at mutex
    cases thread : s.notifier with
    | none =>
      rw [Proxy.notifierHolds, thread] at mutex
      exact absurd mutex taken
    | some at' =>
      obtain ⟨callback, pc⟩ := at'
      rw [Proxy.notifierHolds, thread] at mutex
      rcases notifierStep_none thread notifierBlocked with rfl | ⟨rfl, -⟩
      · exact absurd mutex taken
      · exact absurd mutex taken
  · rcases notifierStep_none thread notifierBlocked with rfl | ⟨rfl, taken⟩
    · exact absurd rfl unfinished
    · rcases waiting with idle | ⟨notifyCb, parent, joining⟩
      · rw [idle, Proxy.notifierHolds, thread] at mutex
        exact absurd mutex taken
      · exact ⟨notifyCb, parent, callback, joining, thread⟩
  · have waits := coherent.waits
    rw [joining, isNone] at waits
    cases waits.2

/-- The callback is taken back while its thread is about to receive. -/
def waiting : Proxy Unit :=
  { npClientNew with
    caller := .joining none .live
    notifier := some ((), .locking)
    parent := .null
    mutex := some .caller
    returns := [.success] }

theorem waiting_reachable : Reachable waiting :=
  .of_run [.call (.setNotifyCallback (some ())), .caller noOutside, .caller noOutside,
    .caller noOutside, .caller noOutside, .notifier none, .notifier none,
    .call (.setNotifyCallback none), .caller noOutside, .caller noOutside] rfl

theorem stuck_waiting : Stuck waiting :=
  (stuck_iff waiting_reachable rfl (fun gone => by cases gone)).mpr ⟨none, .live, (), rfl, rfl⟩

/-! ## Joining the old thread -/

/-- The owner waits for the thread, which is at `pc`. -/
structure Joining (s : Proxy Callback) (notifyCb : Option Callback) (callback : Callback)
    (pc : NotifierPc) : Prop where
  running : s.fault = none
  caller : ∃ parent, s.caller = .joining notifyCb parent
  parent : s.parent = .null
  thread : s.notifier = some (callback, pc)

/-- Some order of steps brings `np_set_notify_callback` past `g_thread_join`. -/
def Joins (notifyCb : Option Callback) : Proxy Callback → Prop :=
  Attains step fun s => s.caller = .starting notifyCb

theorem Joining.moves {s : Proxy Callback} {notifyCb : Option Callback} {callback : Callback}
    {pc : NotifierPc} (joining : Joining s notifyCb callback pc) (pc' : NotifierPc) :
    Joining (s.at callback pc') notifyCb callback pc' :=
  ⟨joining.running, joining.caller, joining.parent, rfl⟩

/-- A step of the notifier comes first. -/
theorem attains_notifier {goal : Proxy Callback → Prop} {s s₁ : Proxy Callback}
    (running : s.fault = none) (stepped : notifierStep none s = some s₁)
    (rest : Attains step goal s₁) : Attains step goal s :=
  .after ((step_running running (.notifier none)).trans stepped) rest

variable {s : Proxy Callback} {notifyCb : Option Callback} {callback : Callback}

theorem joins_finished (joining : Joining s notifyCb callback .finished) : Joins notifyCb s := by
  obtain ⟨running, ⟨parent, caller⟩, cleared, thread⟩ := joining
  have stepped : step s (.caller noOutside) =
      some { s with notifier := none, parent := parent, caller := .starting notifyCb } := by
    rw [step_running running]
    show callerStep noOutside s = _
    rw [callerStep, caller]
    dsimp only
    rw [thread]
  exact .after stepped (.here rfl)

theorem joins_checking (joining : Joining s notifyCb callback .checking) : Joins notifyCb s := by
  refine attains_notifier joining.running ?_ (joins_finished (joining.moves .finished))
  rw [notifierStep, joining.thread]
  dsimp only
  rw [if_pos joining.parent]

theorem joins_sleeping (joining : Joining s notifyCb callback .sleeping) : Joins notifyCb s := by
  refine attains_notifier joining.running ?_ (joins_checking (joining.moves .checking))
  rw [notifierStep, joining.thread]

theorem joins_calling {notification : Option (List UInt8)}
    (joining : Joining s notifyCb callback (.calling notification)) : Joins notifyCb s := by
  obtain ⟨running, caller, parent, thread⟩ := joining
  have stepped : notifierStep none s = some { s.at callback .sleeping with
      delivered := s.delivered ++ (notification.map (callback, ·)).toList } := by
    rw [notifierStep, thread]
  have slept : Joining { s.at callback .sleeping with
      delivered := s.delivered ++ (notification.map (callback, ·)).toList } notifyCb callback
      .sleeping := ⟨running, caller, parent, rfl⟩
  exact attains_notifier running stepped (joins_sleeping slept)

theorem joins_guarding (joining : Joining s notifyCb callback .guarding) : Joins notifyCb s := by
  refine attains_notifier joining.running ?_ (joins_calling (joining.moves (.calling none)))
  rw [notifierStep, joining.thread]
  dsimp only
  rw [if_pos joining.parent]

/-- **`np_set_notify_callback` gets past the old thread exactly when that one did not ask for
the mutex before `parent` was cleared.** -/
theorem joined_iff {saved : Parent} {pc : NotifierPc} (reachable : Reachable s)
    (running : s.fault = none) (joining : s.caller = .joining notifyCb saved)
    (thread : s.notifier = some (callback, pc)) : Joins notifyCb s ↔ pc ≠ .locking := by
  have coherent := reachable.coherent
  constructor
  · rintro ⟨events, s', ran, started⟩ rfl
    have stuck := Deadlocked.stuck coherent ⟨notifyCb, saved, callback, joining, thread⟩
    cases events with
    | nil =>
      cases ran
      rw [joining] at started
      cases started
    | cons event events =>
      rw [List.foldlM_cons, stuck event] at ran
      cases ran
  · intro unlocked
    have cleared := coherent.parent
    have exclusive := coherent.exclusive
    rw [joining] at cleared exclusive
    have alone := exclusive rfl
    rw [Proxy.notifierHolds, thread] at alone
    have here : Joining s notifyCb callback pc := ⟨running, ⟨saved, joining⟩, cleared, thread⟩
    cases pc with
    | locking => exact absurd rfl unlocked
    | entering | receiving | unlocking => cases alone
    | finished => exact joins_finished here
    | checking => exact joins_checking here
    | sleeping => exact joins_sleeping here
    | calling => exact joins_calling here
    | guarding => exact joins_guarding here

theorem not_joins_waiting : ¬ Joins none waiting := fun joins =>
  absurd rfl ((joined_iff waiting_reachable rfl rfl rfl).mp joins)

end Irestore.NotificationProxy
