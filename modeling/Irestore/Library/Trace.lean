/-
# Library.Trace — histories and what a monitor reads from them

A history is the list of the events of a run, oldest first.  A `Monitor` reads it
event by event and keeps what it has to know of the past; `Sound` says that every
event was permitted by what the monitor knew when it happened.

* `forall_prefix_concat_iff` — what holds at every event of a list that is one longer.
* `read_concat`, `sound_concat_iff` — one event more.
* `foldl_register` — a register that keeps what it is given first.
* `Reached condition step start` — the states of the runs whose steps all meet a condition;
  `Reached.keeps` is the induction over such a run.
* `Attains step goal s` — some run from `s` ends where the goal holds.
-/
import Mathlib.Data.List.Induction
import Mathlib.Data.List.Infix
import Mathlib.Tactic.Common

namespace Irestore.Library

set_option autoImplicit false

universe u v

/-- What holds at every event of a list, by the events before it. -/
theorem forall_prefix_concat_iff {E : Type u} {P : List E → E → Prop} {history : List E}
    {event : E} :
    (∀ before last, before ++ [last] <+: history ++ [event] → P before last) ↔
      (∀ before last, before ++ [last] <+: history → P before last) ∧ P history event := by
  constructor
  · intro holds
    refine ⟨fun before last isPrefix => ?_, holds history event (List.prefix_refl _)⟩
    exact holds before last (isPrefix.trans (List.prefix_append history [event]))
  · rintro ⟨holds, new⟩ before last isPrefix
    rcases List.prefix_concat_iff.mp isPrefix with whole | earlier
    · obtain ⟨rfl, same⟩ := List.append_inj' whole rfl
      cases same
      exact new
    · exact holds before last earlier

/-- What is known before any event, and what an event adds to it. -/
structure Monitor (E : Type u) (T : Type v) where
  start : T
  step : T → E → T

namespace Monitor

variable {E : Type u} {T : Type v} (monitor : Monitor E T)

/-- What the monitor knows after a history. -/
def read (history : List E) : T := history.foldl monitor.step monitor.start

@[simp] theorem read_nil : monitor.read [] = monitor.start := rfl

theorem read_append (history events : List E) :
    monitor.read (history ++ events) = events.foldl monitor.step (monitor.read history) :=
  List.foldl_append

@[simp] theorem read_concat (history : List E) (event : E) :
    monitor.read (history ++ [event]) = monitor.step (monitor.read history) event :=
  monitor.read_append history [event]

/-- Every event was permitted when it happened. -/
def Sound (permitted : T → E → Prop) (history : List E) : Prop :=
  ∀ before event, before ++ [event] <+: history → permitted (monitor.read before) event

variable {monitor} {permitted : T → E → Prop}

theorem sound_nil : monitor.Sound permitted [] := by
  intro before event isPrefix
  simp at isPrefix

theorem sound_concat_iff {history : List E} {event : E} :
    monitor.Sound permitted (history ++ [event]) ↔
      monitor.Sound permitted history ∧ permitted (monitor.read history) event :=
  forall_prefix_concat_iff

theorem Sound.concat {history : List E} {event : E} (sound : monitor.Sound permitted history)
    (allowed : permitted (monitor.read history) event) :
    monitor.Sound permitted (history ++ [event]) :=
  sound_concat_iff.mpr ⟨sound, allowed⟩

end Monitor

/-! ## Registers -/

section Register

variable {E : Type u} {V : Type v}

/-- A value that is set once, until it is cleared. -/
def register (clears : E → Bool) (sets : E → Option V) (value : Option V) (event : E) : Option V :=
  if clears event then none else value.or (sets event)

/-- The events since the last one that clears. -/
def sinceLast (clears : E → Bool) (history : List E) : List E :=
  (history.reverse.takeWhile fun event => !clears event).reverse

theorem sinceLast_concat (clears : E → Bool) (history : List E) (event : E) :
    sinceLast clears (history ++ [event]) =
      if clears event then [] else sinceLast clears history ++ [event] := by
  cases isClear : clears event <;> simp [sinceLast, isClear]

/-- **A register holds what was set first since it was last cleared.** -/
theorem foldl_register (clears : E → Bool) (sets : E → Option V) (value : Option V)
    (history : List E) :
    history.foldl (register clears sets) value =
      (if history.any clears then none else value).or
        ((sinceLast clears history).findSome? sets) := by
  induction history using List.reverseRecOn with
  | nil => simp [sinceLast]
  | append_singleton history event ih =>
    rw [List.foldl_append, ih, sinceLast_concat]
    cases isClear : clears event with
    | true => simp [register, isClear]
    | false => simp [register, isClear, Option.or_assoc, List.findSome?_append]

end Register

/-! ## States reached -/

section Reached

variable {S : Type u} {E : Type v}

/-- The states of the runs whose steps all meet the condition; a step may not be possible. -/
inductive Reached (condition : S → E → Prop) (step : S → E → Option S) (start : S) : S → Prop where
  | start : Reached condition step start start
  | next {s s' : S} {event : E} : Reached condition step start s → condition s event →
      step s event = some s' → Reached condition step start s'

variable {condition : S → E → Prop} {step : S → E → Option S} {start : S}

/-- What every step keeps under its condition holds in every state reached. -/
theorem Reached.keeps {invariant : S → Prop}
    (each : ∀ {s s' event}, invariant s → condition s event → step s event = some s' →
      invariant s') (first : invariant start) {s : S}
    (reached : Reached condition step start s) : invariant s := by
  induction reached with
  | start => exact first
  | next _ met stepped ih => exact each ih met stepped

/-- The last step of a run. -/
theorem foldlM_concat_inv {s' : S} {events : List E} {event : E}
    (ran : (events ++ [event]).foldlM step start = some s') :
    ∃ s, events.foldlM step start = some s ∧ step s event = some s' := by
  rw [List.foldlM_append] at ran
  obtain ⟨s, first, last⟩ := Option.bind_eq_some_iff.mp ran
  refine ⟨s, first, ?_⟩
  rw [List.foldlM_cons] at last
  obtain ⟨_, stepped, ended⟩ := Option.bind_eq_some_iff.mp last
  cases ended
  exact stepped

/-- A step that is taken only under the condition. -/
def guarded (condition : S → E → Prop) [∀ s event, Decidable (condition s event)]
    (step : S → E → Option S) (s : S) (event : E) : Option S :=
  if condition s event then step s event else none

theorem Reached.run [∀ s event, Decidable (condition s event)] {steps : List E} :
    ∀ {s s' : S}, Reached condition step start s →
      steps.foldlM (guarded condition step) s = some s' → Reached condition step start s' := by
  induction steps with
  | nil =>
    intro s s' reached ran
    cases ran
    exact reached
  | cons event steps ih =>
    intro s s' reached ran
    rw [List.foldlM_cons] at ran
    obtain ⟨s₁, stepped, rest⟩ := Option.bind_eq_some_iff.mp ran
    rw [guarded] at stepped
    split at stepped
    · rename_i met
      exact ih (reached.next met stepped) rest
    · cases stepped

/-- A condition that always holds stops no run. -/
theorem Reached.follow (always : ∀ s event, condition s event) {events : List E} :
    ∀ {s s' : S}, Reached condition step start s → events.foldlM step s = some s' →
      Reached condition step start s' := by
  induction events with
  | nil =>
    intro s s' reached ran
    cases ran
    exact reached
  | cons event events ih =>
    intro s s' reached ran
    rw [List.foldlM_cons] at ran
    obtain ⟨s₁, stepped, rest⟩ := Option.bind_eq_some_iff.mp ran
    exact ih (reached.next (always s event) stepped) rest

/-- Some run of steps ends in a state the goal holds in. -/
def Attains (step : S → E → Option S) (goal : S → Prop) (s : S) : Prop :=
  ∃ (events : List E) (s' : S), events.foldlM step s = some s' ∧ goal s'

variable {goal : S → Prop}

theorem Attains.here {s : S} (holds : goal s) : Attains step goal s := ⟨[], s, rfl, holds⟩

theorem Attains.after {s s₁ : S} {event : E} (stepped : step s event = some s₁)
    (rest : Attains step goal s₁) : Attains step goal s := by
  obtain ⟨events, s', ran, holds⟩ := rest
  refine ⟨event :: events, s', ?_, holds⟩
  rw [List.foldlM_cons, stepped]
  exact ran

/-- What every step keeps holds where a run ends. -/
theorem Attains.keeps {invariant : S → Prop} {s : S} (attains : Attains step goal s)
    (each : ∀ {s s' event}, invariant s → step s event = some s' → invariant s')
    (holds : invariant s) : ∃ s', invariant s' ∧ goal s' := by
  obtain ⟨events, s', ran, met⟩ := attains
  induction events generalizing s with
  | nil =>
    cases ran
    exact ⟨_, holds, met⟩
  | cons event events ih =>
    rw [List.foldlM_cons] at ran
    obtain ⟨s₁, stepped, rest⟩ := Option.bind_eq_some_iff.mp ran
    exact ih (each holds stepped) rest

end Reached

end Irestore.Library
