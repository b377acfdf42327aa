/-
# Library.Records — streams of self-delimiting records, and records in buckets

* `PrefixFree` — a rendering whose end is told by its own bytes.  A stream of such
  records determines them (`PrefixFree.flatMap_injective`).
* `eq_flatMap_buckets` — a list sorted by a key is its buckets put end to end.
-/
import Mathlib.Algebra.Order.Ring.Nat
import Mathlib.Data.List.Basic
import Mathlib.Tactic.Common

namespace Irestore.Library.Records

set_option autoImplicit false

variable {α β : Type}

/-- Where a record ends is told by its own bytes. -/
def PrefixFree (render : α → List β) : Prop :=
  ∀ {a b : α} {s t : List β}, render a ++ s = render b ++ t → a = b ∧ s = t

theorem PrefixFree.flatMap_injective {render : α → List β} (free : PrefixFree render)
    (nonempty : ∀ a, render a ≠ []) :
    ∀ {xs ys : List α}, xs.flatMap render = ys.flatMap render → xs = ys
  | [], [], _ => rfl
  | [], y :: ys, same => by
      rw [List.flatMap_nil, List.flatMap_cons] at same
      exact absurd (List.append_eq_nil_iff.mp same.symm).1 (nonempty y)
  | x :: xs, [], same => by
      rw [List.flatMap_nil, List.flatMap_cons] at same
      exact absurd (List.append_eq_nil_iff.mp same).1 (nonempty x)
  | x :: xs, y :: ys, same => by
      rw [List.flatMap_cons, List.flatMap_cons] at same
      obtain ⟨head, tail⟩ := free same
      rw [head, free.flatMap_injective nonempty tail]

/-! ## Buckets -/

/-- The records below a key, then those of the key. -/
theorem filter_lt_succ {key : α → Nat} {m : Nat} : ∀ {xs : List α},
    xs.Pairwise (fun a b => key a ≤ key b) →
      xs.filter (fun a => key a < m + 1) =
        xs.filter (fun a => key a < m) ++ xs.filter fun a => key a = m
  | [], _ => rfl
  | x :: xs, sorted => by
      obtain ⟨first, rest⟩ := List.pairwise_cons.mp sorted
      have ih := filter_lt_succ (m := m) rest
      by_cases low : key x < m
      · have within : key x < m + 1 := by omega
        have other : ¬ key x = m := by omega
        simp only [List.filter_cons, low, within, other, decide_true, decide_false, if_true, ih,
          List.cons_append, Bool.false_eq_true, if_false]
      · -- nothing below the key is left behind `x`
        have none : xs.filter (fun a => key a < m) = [] := by
          rw [List.filter_eq_nil_iff]
          intro a member
          have := first a member
          simp only [decide_eq_true_eq]
          omega
        rw [none, List.nil_append] at ih
        by_cases here : key x = m
        · subst here
          simp only [List.filter_cons, Nat.lt_irrefl, Nat.lt_succ_self, decide_true, decide_false,
            Bool.false_eq_true, if_true, if_false, none, ih, List.nil_append]
        · have beyond : ¬ key x < m + 1 := by omega
          simp only [List.filter_cons, low, beyond, here, decide_false, Bool.false_eq_true,
            if_false, none, List.nil_append, ih]

/-- **A sorted list is its buckets put end to end.** -/
theorem eq_flatMap_buckets {key : α → Nat} {xs : List α}
    (sorted : xs.Pairwise fun a b => key a ≤ key b) (m : Nat) :
    (List.range m).flatMap (fun r => xs.filter fun a => key a = r) =
      xs.filter fun a => key a < m := by
  induction m with
  | zero => simp
  | succ m ih =>
    rw [List.range_succ, List.flatMap_append, ih, filter_lt_succ sorted]
    simp

end Irestore.Library.Records
