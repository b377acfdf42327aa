/-
# Library.Program — programs over a state that may fault

A `Program S α` is a C function over the state `S`: it ends with a value or with
a `Fault`, and leaves a state either way.  What it did before a fault stays in
the state.

* `Ensures pre program post broken` — from every state with `pre` the program ends
  with `post` of its value and state, or faults in a state where `broken` holds.
* `Keeps invariant program` — the invariant survives, fault or not.
* The rules `ensures_…` and `keeps_…`, one for each way to build a program;
  `keeps_forM` is the induction over a run of steps.
* `Yields invariant program post` — from the invariant the program ends, with it and with
  `post` of its value.
* `Meets condition step` — a run each of whose steps finds its condition met.
* `Respects related program` — from related states it ends alike, in related states: what
  the relation leaves out of the state has no part in the result.
-/
import Irestore.Library.CMemory

namespace Irestore.Library

open Irestore.Library.CMemory

set_option autoImplicit false

/-- A computation over the state `S` that ends with a value or a fault. -/
structure Program (S α : Type) where
  run : S → Checked α × S

namespace Program

variable {S α β : Type}

/-- The state a run leaves, fault or not. -/
def state (program : Program S α) (s : S) : S := (program.run s).2

protected def pure (a : α) : Program S α := ⟨fun s => (.ok a, s)⟩

protected def bind (first : Program S α) (next : α → Program S β) : Program S β :=
  ⟨fun s =>
    match first.run s with
    | (.ok a, s') => (next a).run s'
    | (.error fault, s') => (.error fault, s')⟩

instance : Monad (Program S) where
  pure := Program.pure
  bind := Program.bind

def get : Program S S := ⟨fun s => (.ok s, s)⟩

def modify (change : S → S) : Program S Unit := ⟨fun s => (.ok (), change s)⟩

/-- A computation that does not look at the state. -/
def lift (run : Checked α) : Program S α := ⟨fun s => (run, s)⟩

/-- Run the program, then note in the state it leaves where it started; a fault is
noted too. -/
def noting (program : Program S α) (note : S → S → S) : Program S α :=
  ⟨fun s => ((program.run s).1, note s (program.run s).2)⟩

/-- Run a program on a part of the state. -/
def zoom {T : Type} (part : S → T) (put : T → S → S) (program : Program T α) : Program S α :=
  ⟨fun s => ((program.run (part s)).1, put (program.run (part s)).2 s)⟩

/-- The value a pointer points to. -/
def deref : Option α → Program S α
  | some a => pure a
  | none => lift (.error .nullPointer)

@[simp] theorem run_pure (a : α) (s : S) : (pure a : Program S α).run s = (.ok a, s) := rfl

@[simp] theorem run_get (s : S) : (get : Program S S).run s = (.ok s, s) := rfl

@[simp] theorem run_modify (change : S → S) (s : S) :
    (modify change).run s = (.ok (), change s) := rfl

@[simp] theorem run_lift (run : Checked α) (s : S) : (lift run : Program S α).run s = (run, s) := rfl

@[simp] theorem run_ite {condition : Prop} [Decidable condition] (yes no : Program S α) (s : S) :
    (if condition then yes else no).run s = if condition then yes.run s else no.run s := by
  split <;> rfl

theorem run_noting (program : Program S α) (note : S → S → S) (s : S) :
    (program.noting note).run s = ((program.run s).1, note s (program.run s).2) := rfl

theorem run_bind_eq (first : Program S α) (next : α → Program S β) (s : S) :
    (first >>= next).run s =
      match first.run s with
      | (.ok a, s') => (next a).run s'
      | (.error fault, s') => (.error fault, s') := rfl

theorem run_bind {first : Program S α} {next : α → Program S β} {s s' : S} {a : α}
    (ran : first.run s = (.ok a, s')) : (first >>= next).run s = (next a).run s' := by
  change (Program.bind first next).run s = _
  simp only [Program.bind, ran]

theorem run_bind_error {first : Program S α} {next : α → Program S β} {s s' : S} {fault : Fault}
    (ran : first.run s = (.error fault, s')) : (first >>= next).run s = (.error fault, s') := by
  change (Program.bind first next).run s = _
  simp only [Program.bind, ran]

/-- A value comes out of a bind exactly through a value of the first program. -/
theorem run_bind_eq_ok {first : Program S α} {next : α → Program S β} {s s'' : S} {b : β} :
    (first >>= next).run s = (.ok b, s'') ↔
      ∃ a s', first.run s = (.ok a, s') ∧ (next a).run s' = (.ok b, s'') := by
  constructor
  · intro ran
    match result : first.run s with
    | (.ok a, s') => exact ⟨a, s', rfl, (run_bind result).symm.trans ran⟩
    | (.error fault, s') =>
      rw [run_bind_error result] at ran
      cases ran
  · rintro ⟨a, s', ran, rest⟩
    exact (run_bind ran).trans rest

theorem run_get_bind (next : S → Program S β) (s : S) :
    ((get : Program S S) >>= next).run s = (next s).run s := rfl

theorem run_modify_bind (change : S → S) (next : Unit → Program S β) (s : S) :
    (modify change >>= next).run s = (next ()).run (change s) := rfl

theorem run_lift_ok_bind (a : α) (next : α → Program S β) (s : S) :
    (lift (.ok a) >>= next).run s = (next a).run s := rfl

theorem run_lift_bind_eq_ok {run : Checked α} {next : α → Program S β} {s s' : S} {b : β} :
    (lift run >>= next).run s = (.ok b, s') ↔
      ∃ a, run = .ok a ∧ (next a).run s = (.ok b, s') := by
  cases run with
  | error fault =>
    constructor
    · intro ran
      cases ran
    · rintro ⟨a, failed, -⟩
      cases failed
  | ok a =>
    constructor
    · intro ran
      exact ⟨a, rfl, ran⟩
    · rintro ⟨a', same, ran⟩
      cases same
      exact ran

/-! ## Pre- and postconditions -/

/-- From every state with `pre` the run leaves a state with `post` of its value,
and when it faults, with `broken`. -/
structure Ensures (pre : S → Prop) (program : Program S α) (post : α → S → Prop)
    (broken : S → Prop) : Prop where
  ok : ∀ {s s' a}, pre s → program.run s = (.ok a, s') → post a s'
  fault : ∀ {s s' fault}, pre s → program.run s = (.error fault, s') → broken s'

/-- The run leaves the invariant as it found it, fault or not. -/
def Keeps (invariant : S → Prop) (program : Program S α) : Prop :=
  Ensures invariant program (fun _ => invariant) invariant

variable {pre : S → Prop} {broken invariant : S → Prop}

theorem ensures_of_run {program : Program S α} {post : α → S → Prop}
    (run : ∀ s, pre s → ∃ a s', program.run s = (.ok a, s') ∧ post a s') :
    Ensures pre program post broken where
  ok hs ran := by
    obtain ⟨a, s', ran', holds⟩ := run _ hs
    rw [ran] at ran'
    cases ran'
    exact holds
  fault hs ran := by
    obtain ⟨a, s', ran', -⟩ := run _ hs
    rw [ran] at ran'
    cases ran'

theorem ensures_pure {a : α} {post : α → S → Prop} (holds : ∀ s, pre s → post a s) :
    Ensures pre (pure a : Program S α) post broken :=
  ensures_of_run fun s hs => ⟨a, s, rfl, holds s hs⟩

theorem ensures_bind {first : Program S α} {next : α → Program S β} {mid : α → S → Prop}
    {post : β → S → Prop} (run : Ensures pre first mid broken)
    (rest : ∀ a, Ensures (mid a) (next a) post broken) :
    Ensures pre (first >>= next) post broken where
  ok {s s'' b} hs ran := by
    match result : first.run s with
    | (.ok a, s') => exact (rest a).ok (run.ok hs result) ((run_bind result).symm.trans ran)
    | (.error fault, s') =>
      rw [run_bind_error result] at ran
      cases ran
  fault {s s'' fault} hs ran := by
    match result : first.run s with
    | (.ok a, s') => exact (rest a).fault (run.ok hs result) ((run_bind result).symm.trans ran)
    | (.error fault, s') =>
      rw [run_bind_error result] at ran
      cases ran
      exact run.fault hs result

/-- `ensures_bind`, the condition between the two given. -/
theorem ensures_between (mid : α → S → Prop) {first : Program S α} {next : α → Program S β}
    {post : β → S → Prop} (run : Ensures pre first mid broken)
    (rest : ∀ a, Ensures (mid a) (next a) post broken) :
    Ensures pre (first >>= next) post broken :=
  ensures_bind run rest

/-- A first step whose run is known. -/
theorem ensures_step {first : Program S α} {next : α → Program S β} {s s' : S} {a : α}
    {post : β → S → Prop} (ran : first.run s = (.ok a, s'))
    (rest : Ensures (· = s') (next a) post broken) :
    Ensures (· = s) (first >>= next) post broken where
  ok same ran' := rest.ok rfl ((run_bind ran).symm.trans (same ▸ ran'))
  fault same ran' := rest.fault rfl ((run_bind ran).symm.trans (same ▸ ran'))

theorem ensures_mono {program : Program S α} {pre' : S → Prop} {post post' : α → S → Prop}
    (run : Ensures pre program post broken) (stronger : ∀ s, pre' s → pre s)
    (weaker : ∀ a s, post a s → post' a s) : Ensures pre' program post' broken where
  ok hs ran := weaker _ _ (run.ok (stronger _ hs) ran)
  fault hs ran := run.fault (stronger _ hs) ran

/-- One state at a time. -/
theorem ensures_each {program : Program S α} {post : α → S → Prop}
    (run : ∀ s, pre s → Ensures (· = s) program post broken) : Ensures pre program post broken where
  ok hs ran := (run _ hs).ok rfl ran
  fault hs ran := (run _ hs).fault rfl ran

/-- A condition that the state has no part in. -/
theorem ensures_fact {program : Program S α} {fact : Prop} {post : α → S → Prop}
    (run : fact → Ensures pre program post broken) :
    Ensures (fun s => pre s ∧ fact) program post broken :=
  ⟨fun hs ran => (run hs.2).ok hs.1 ran, fun hs ran => (run hs.2).fault hs.1 ran⟩

theorem ensures_get {post : S → S → Prop} (holds : ∀ s, pre s → post s s) :
    Ensures pre get post broken :=
  ensures_of_run fun s hs => ⟨s, s, rfl, holds s hs⟩

theorem ensures_modify {change : S → S} {post : Unit → S → Prop}
    (holds : ∀ s, pre s → post () (change s)) : Ensures pre (modify change) post broken :=
  ensures_of_run fun s hs => ⟨(), change s, rfl, holds s hs⟩

theorem ensures_lift {run : Checked α} {post : α → S → Prop}
    (holds : ∀ a, run = .ok a → ∀ s, pre s → post a s) (broke : ∀ s, pre s → broken s) :
    Ensures pre (lift run) post broken where
  ok hs ran := by
    cases ran
    exact holds _ rfl _ hs
  fault hs ran := by
    cases ran
    exact broke _ hs

theorem ensures_ite {condition : Prop} [Decidable condition] {yes no : Program S α}
    {post : α → S → Prop} (left : condition → Ensures pre yes post broken)
    (right : ¬condition → Ensures pre no post broken) :
    Ensures pre (if condition then yes else no) post broken := by
  split
  · exact left ‹_›
  · exact right ‹_›

theorem ensures_noting {program : Program S α} {note : S → S → S} {post : α → S → Prop}
    (run : ∀ s, pre s → Ensures (· = s) program (fun a s' => post a (note s s'))
      fun s' => broken (note s s')) : Ensures pre (program.noting note) post broken where
  ok {s s' a} hs ran := by
    obtain ⟨result, rfl⟩ := Prod.mk.inj ran
    exact (run s hs).ok rfl (Prod.ext result rfl)
  fault {s s' fault} hs ran := by
    obtain ⟨result, rfl⟩ := Prod.mk.inj ran
    exact (run s hs).fault rfl (Prod.ext result rfl)

/-! ## Invariants -/

theorem keeps_pure (a : α) : Keeps invariant (pure a : Program S α) := ensures_pure fun _ hs => hs

theorem keeps_get : Keeps invariant (get : Program S S) := ensures_get fun _ hs => hs

theorem keeps_lift (run : Checked α) : Keeps invariant (lift run : Program S α) :=
  ensures_lift (fun _ _ _ hs => hs) fun _ hs => hs

theorem keeps_deref (pointer : Option α) : Keeps invariant (deref pointer : Program S α) := by
  cases pointer with
  | none => exact keeps_lift _
  | some a => exact keeps_pure a

theorem keeps_bind {first : Program S α} {next : α → Program S β} (run : Keeps invariant first)
    (rest : ∀ a, Keeps invariant (next a)) : Keeps invariant (first >>= next) :=
  ensures_bind run rest

theorem keeps_ite {condition : Prop} [Decidable condition] {yes no : Program S α}
    (left : Keeps invariant yes) (right : Keeps invariant no) :
    Keeps invariant (if condition then yes else no) :=
  ensures_ite (fun _ => left) fun _ => right

/-- An invariant of every step is an invariant of a whole run. -/
theorem keeps_forM {step : β → Program S PUnit} (each : ∀ b, Keeps invariant (step b)) :
    ∀ steps : List β, Keeps invariant (steps.forM step)
  | [] => keeps_pure ()
  | b :: steps => keeps_bind (each b) fun _ => keeps_forM each steps

/-! ## Programs that end -/

/-- The program does not fault, leaves the invariant and has a value with `post`. -/
def Yields (invariant : S → Prop) (program : Program S α) (post : α → Prop) : Prop :=
  Ensures invariant program (fun a s => invariant s ∧ post a) fun _ => False

section Yields

variable {mid : α → Prop} {post : β → Prop}

theorem yields_pure {b : β} (holds : post b) : Yields invariant (pure b : Program S β) post :=
  ensures_pure fun _ hs => ⟨hs, holds⟩

/-- A first program that ends with a value the rest can use. -/
theorem Yields.andThen {first : Program S α} {next : α → Program S β} {post : β → S → Prop}
    (run : Yields invariant first mid)
    (rest : ∀ a, mid a → Ensures invariant (next a) post fun _ => False) :
    Ensures invariant (first >>= next) post fun _ => False :=
  ensures_bind run fun a => ensures_fact (rest a)

theorem yields_bind {first : Program S α} {next : α → Program S β}
    (run : Yields invariant first mid) (rest : ∀ a, mid a → Yields invariant (next a) post) :
    Yields invariant (first >>= next) post :=
  run.andThen rest

theorem yields_ite {condition : Prop} [Decidable condition] {yes no : Program S β}
    (left : condition → Yields invariant yes post)
    (right : ¬condition → Yields invariant no post) :
    Yields invariant (if condition then yes else no) post :=
  ensures_ite left right

theorem yields_lift {a : α} (holds : mid a) : Yields invariant (lift (.ok a)) mid :=
  yields_pure holds

/-- A part of the state that the invariant does not speak of. -/
theorem yields_zoom {T : Type} {part : S → T} {put : T → S → S} {program : Program T β}
    (kept : ∀ t s, invariant s → invariant (put t s))
    (run : Yields (fun _ => True) program post) :
    Yields invariant (zoom part put program) post where
  ok hs ran := by
    obtain ⟨result, rfl⟩ := Prod.mk.inj ran
    exact ⟨kept _ _ hs, (run.ok trivial (Prod.ext result rfl)).2⟩
  fault hs ran := by
    obtain ⟨result, rfl⟩ := Prod.mk.inj ran
    exact run.fault trivial (Prod.ext result rfl)

end Yields

/-! ## Runs under a condition -/

/-- Every step of the run finds its condition met in the state it starts from. -/
def Meets (condition : S → β → Prop) (step : β → Program S PUnit) : S → List β → Prop
  | _, [] => True
  | s, b :: rest =>
      condition s b ∧ ∀ s', (step b).run s = (.ok (), s') → Meets condition step s' rest

variable {condition : S → β → Prop} {step : β → Program S PUnit}

theorem Meets.of_prefix {steps : List β} : ∀ {s : S} {first : List β},
    Meets condition step s steps → first <+: steps → Meets condition step s first := by
  induction steps with
  | nil =>
    intro s first _ isPrefix
    rw [List.prefix_nil.mp isPrefix]
    trivial
  | cons b rest ih =>
    intro s first meets isPrefix
    cases first with
    | nil => trivial
    | cons head tail =>
      obtain ⟨same, shorter⟩ := List.cons_prefix_cons.mp isPrefix
      subst same
      exact ⟨meets.1, fun s' ran => ih (meets.2 s' ran) shorter⟩

/-- What every step keeps under its condition, a run keeps that meets the conditions. -/
theorem Meets.keeps {steps : List β}
    (each : ∀ s s' b, invariant s → condition s b → (step b).run s = (.ok (), s') →
      invariant s') :
    ∀ {s s' : S}, Meets condition step s steps → invariant s →
      (steps.forM step).run s = (.ok (), s') → invariant s' := by
  induction steps with
  | nil =>
    intro s s' _ holds ran
    cases ran
    exact holds
  | cons b rest ih =>
    intro s s' meets holds ran
    obtain ⟨_, s₁, first, later⟩ := run_bind_eq_ok.mp ran
    exact ih (meets.2 s₁ first) (each s s₁ b holds meets.1 first) later

/-- A postcondition that also holds after a fault holds of the state left. -/
theorem Ensures.state {program : Program S α} (ensures : Ensures pre program (fun _ => broken) broken)
    {s : S} (holds : pre s) : broken (program.state s) := by
  unfold Program.state
  match result : program.run s with
  | (.ok a, s') => exact ensures.ok holds result
  | (.error fault, s') => exact ensures.fault holds result

/-- The invariant of the state left, whatever the value. -/
theorem keeps_of_state {program : Program S α}
    (kept : ∀ s, invariant s → invariant (program.state s)) : Keeps invariant program where
  ok {s s' a} hs ran := by
    have left := kept s hs
    rwa [Program.state, ran] at left
  fault {s s' fault} hs ran := by
    have left := kept s hs
    rwa [Program.state, ran] at left

theorem Keeps.state {program : Program S α} (keeps : Keeps invariant program) {s : S}
    (holds : invariant s) : invariant (program.state s) := Ensures.state keeps holds

/-! ## Two runs -/

/-- From related states the program ends with the same value or fault, in related states. -/
def Respects (related : S → S → Prop) (program : Program S α) : Prop :=
  ∀ s t, related s t → (program.run s).1 = (program.run t).1 ∧
    related (program.run s).2 (program.run t).2

variable {related : S → S → Prop}

theorem respects_pure (a : α) : Respects related (pure a : Program S α) :=
  fun _ _ alike => ⟨rfl, alike⟩

theorem respects_lift (run : Checked α) : Respects related (lift run : Program S α) :=
  fun _ _ alike => ⟨rfl, alike⟩

theorem respects_bind {first : Program S α} {next : α → Program S β}
    (run : Respects related first) (rest : ∀ a, Respects related (next a)) :
    Respects related (first >>= next) := by
  intro s t alike
  obtain ⟨same, alike'⟩ := run s t alike
  match ran : first.run s, ran' : first.run t with
  | (.ok a, s'), (result, t') =>
    rw [ran, ran'] at same alike'
    cases same
    rw [run_bind ran, run_bind ran']
    exact rest a s' t' alike'
  | (.error fault, s'), (result, t') =>
    rw [ran, ran'] at same alike'
    cases same
    rw [run_bind_error ran, run_bind_error ran']
    exact ⟨rfl, alike'⟩

theorem respects_ite {condition : Prop} [Decidable condition] {yes no : Program S α}
    (left : Respects related yes) (right : Respects related no) :
    Respects related (if condition then yes else no) := by
  split
  · exact left
  · exact right

/-- A program may look at what the relation says of the state. -/
theorem respects_get_bind {next : S → Program S β}
    (same : ∀ s t, related s t → next s = next t) (rest : ∀ s, Respects related (next s)) :
    Respects related (get >>= next) := by
  intro s t alike
  rw [run_get_bind, run_get_bind, same s t alike]
  exact rest t s t alike

end Program

end Irestore.Library
