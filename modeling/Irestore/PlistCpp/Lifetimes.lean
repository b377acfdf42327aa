/-
# PlistCpp.Lifetimes — each plist node freed once

`Upheld` is what the classes promise along a run: the operations end, no node is used
after it was freed, in every state reached the wrappers mirror the plist trees and every
node made so far is live once or was freed once, and a copy has the contents of its
source.

* `lifetimes_upheld_iff` — a run of well-formed operations upholds it when each of them is fine.
* `remove_frees_twice` — one that is not.
-/
import Irestore.PlistCpp.Breaks

namespace Irestore.PlistCpp

open Irestore.Library Irestore.Library.CMemory

set_option autoImplicit false

variable {V : Type}

/-- Every operation of the run meets the condition in the state it is done in. -/
def Meets (condition : World V → Op V → Prop) : World V → List (Op V) → Prop
  | _, [] => True
  | w, op :: ops => condition w op ∧ ∀ w', step w op = .ok w' → Meets condition w' ops

/-- At every point of the run the two sides agree, and the next operation does what it
says. -/
def Upheld (w : World V) (ops : List (Op V)) : Prop :=
  ∀ first, first <+: ops → ∃ reached, run w first = .ok reached ∧ Agree reached ∧
    ∀ op, first ++ [op] <+: ops → ∃ w', step reached op = .ok w' ∧ Copies reached w' op

theorem run_cons (w : World V) (op : Op V) (ops : List (Op V)) :
    run w (op :: ops) = step w op >>= fun w' => run w' ops := List.foldlM_cons

theorem upheld_nil {w : World V} : Upheld w [] ↔ Agree w := by
  constructor
  · intro upheld
    obtain ⟨reached, ran, agree, -⟩ := upheld [] (List.prefix_refl _)
    cases ran
    exact agree
  · intro agree first isPrefix
    rw [List.prefix_nil.mp isPrefix]
    exact ⟨w, rfl, agree, fun op more => absurd more (by simp)⟩

theorem upheld_cons {w : World V} {op : Op V} {ops : List (Op V)} :
    Upheld w (op :: ops) ↔
      Agree w ∧ ∃ w', step w op = .ok w' ∧ Copies w w' op ∧ Upheld w' ops := by
  constructor
  · intro upheld
    obtain ⟨_, ran, agree, next⟩ := upheld [] (List.nil_prefix)
    cases ran
    obtain ⟨w', done, copies⟩ := next op (by simp)
    refine ⟨agree, w', done, copies, fun first isPrefix => ?_⟩
    obtain ⟨reached, ran, agrees, further⟩ := upheld (op :: first)
      (List.cons_prefix_cons.mpr ⟨rfl, isPrefix⟩)
    rw [run_cons, done, ok_bind] at ran
    exact ⟨reached, ran, agrees, fun op' more =>
      further op' (List.cons_prefix_cons.mpr ⟨rfl, more⟩)⟩
  · rintro ⟨agree, w', done, copies, upheld⟩ first isPrefix
    cases first with
    | nil =>
      refine ⟨w, rfl, agree, fun op' more => ?_⟩
      obtain ⟨rfl, -⟩ := List.cons_prefix_cons.mp more
      exact ⟨w', done, copies⟩
    | cons op' first =>
      obtain ⟨rfl, shorter⟩ := List.cons_prefix_cons.mp isPrefix
      obtain ⟨reached, ran, agrees, further⟩ := upheld first shorter
      refine ⟨reached, by rw [run_cons, done, ok_bind, ran], agrees, fun op'' more => ?_⟩
      exact further op'' (List.cons_prefix_cons.mp more).2

theorem lifetimes_upheld_from {ops : List (Op V)} : ∀ {w : World V}, Agree w →
    Meets WellFormed w ops → (Upheld w ops ↔ Meets Fine w ops) := by
  induction ops with
  | nil => exact fun agree _ => ⟨fun _ => trivial, fun _ => upheld_nil.mpr agree⟩
  | cons op ops ih =>
    intro w agree wellFormed
    rw [upheld_cons]
    constructor
    · rintro ⟨-, w', done, copies, upheld⟩
      have agree' : Agree w' := by
        obtain ⟨reached, ran, agrees, -⟩ := upheld [] List.nil_prefix
        cases ran
        exact agrees
      refine ⟨fine_of_kept agree wellFormed.1 ⟨w', done, agree', copies⟩, fun other ran => ?_⟩
      cases done.symm.trans ran
      exact (ih agree' (wellFormed.2 w' done)).mp upheld
    · rintro ⟨fine, later⟩
      obtain ⟨w', done, agree', copies⟩ := kept_of_fine agree fine
      exact ⟨agree, w', done, copies, (ih agree' (wellFormed.2 w' done)).mpr (later w' done)⟩

/-- A run of well-formed operations upholds the promise when each of them is fine. -/
theorem lifetimes_upheld_iff (ops : List (Op V)) (wellFormed : Meets WellFormed World.start ops) :
    Upheld World.start ops ↔ Meets Fine World.start ops :=
  lifetimes_upheld_from agree_start wellFormed

/-- A dictionary with a value, in an array that is copied and destroyed. -/
def nestedRun : List (Op Nat) :=
  [.create .dict, .create (.value 7), .dictionaryInsert 0 [65] 1, .create .array,
    .arrayAppend 4 0, .copy 4, .destroy 4]

/-- A value removed from its dictionary. -/
def removeRun : List (Op Nat) :=
  [.create .dict, .create (.value 7), .dictionaryInsert 0 [65] 1, .dictionaryRemoveKey 0 [65]]

theorem meets_cons {condition : World V → Op V → Prop} {w w' : World V} {op : Op V}
    {ops : List (Op V)} (met : condition w op) (done : step w op = .ok w')
    (later : Meets condition w' ops) : Meets condition w (op :: ops) := by
  refine ⟨met, fun other ran => ?_⟩
  cases done.symm.trans ran
  exact later

theorem nested_upheld : Upheld World.start nestedRun := by
  refine (lifetimes_upheld_iff nestedRun ?_).mpr ?_
  · refine meets_cons (by simp [WellFormed, Content.kind?]) rfl ?_
    refine meets_cons (by simp [WellFormed, Content.kind?]) rfl ?_
    refine meets_cons ⟨⟨_, rfl, rfl, trivial⟩, _, rfl⟩ rfl ?_
    refine meets_cons (by simp [WellFormed, Content.kind?]) rfl ?_
    refine meets_cons ⟨⟨_, rfl, rfl, trivial⟩, _, rfl⟩ rfl ?_
    refine meets_cons ⟨_, rfl⟩ rfl ?_
    exact meets_cons ⟨_, .tail _ (.tail _ (.head _)), rfl, trivial⟩ rfl trivial
  · refine meets_cons (by simp [Fine, Content.kind?]) rfl ?_
    refine meets_cons (by simp [Fine, Content.kind?]) rfl ?_
    refine meets_cons ⟨⟨_, rfl, rfl, by decide⟩, by decide, _, rfl, ?_⟩ rfl ?_
    · unfold Cloneable
      decide
    refine meets_cons (by simp [Fine, Content.kind?]) rfl ?_
    refine meets_cons ⟨⟨_, rfl, rfl, trivial⟩, _, rfl, by unfold Cloneable; decide⟩ rfl ?_
    refine meets_cons ⟨_, rfl, by unfold Cloneable; decide⟩ rfl ?_
    exact meets_cons ⟨_, .tail _ (.tail _ (.head _)), rfl, trivial⟩ rfl trivial

theorem remove_frees_twice :
    Meets WellFormed World.start removeRun ∧ ¬ Upheld World.start removeRun := by
  constructor
  · refine meets_cons (by simp [WellFormed, Content.kind?]) rfl ?_
    refine meets_cons (by simp [WellFormed, Content.kind?]) rfl ?_
    refine meets_cons ⟨⟨_, rfl, rfl, trivial⟩, _, rfl⟩ rfl ?_
    exact ⟨⟨_, rfl, rfl, by decide +kernel⟩, fun _ _ => trivial⟩
  · intro upheld
    obtain ⟨reached, ran, -⟩ := upheld removeRun (List.prefix_refl _)
    have fault : run World.start removeRun = .error .useAfterFree := by decide +kernel
    cases fault.symm.trans ran

end Irestore.PlistCpp
