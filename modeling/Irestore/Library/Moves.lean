/-
# Library.Moves — moves made one after the other

A store maps places to values.  A move empties its target, then takes the value of its
source there, and fails when the source is empty.  Moves made one after the other are to do
what they say of the store they begin with, all at once.

* `move`, `moveAll` — one move, and moves up to the first that fails.
* `Moved` — what the moves are to do together.
* `Harmless` — no move is onto itself, onto the source of a later one, or onto the target
  of another.
* `moveAll_iff` — for moves of different sources: they do what they say, whatever the store,
  exactly when they are harmless.
* `moveAll_swap` — two values that are to change places.
-/
import Mathlib.Data.List.Nodup
import Mathlib.Logic.Function.Basic
import Mathlib.Logic.Nontrivial.Basic

namespace Irestore.Library

open Function

set_option autoImplicit false

variable {K V : Type} [DecidableEq K]

/-- A move and whether it succeeds. -/
def move (source target : K) (store : K → Option V) : Bool × (K → Option V) :=
  match update store target none source with
  | none => (false, update store target none)
  | some value =>
      (true, update (update (update store target none) source none) target (some value))

/-- Moves up to the first that fails. -/
def moveAll : List (K × K) → (K → Option V) → Bool × (K → Option V)
  | [], store => (true, store)
  | (source, target) :: moves, store =>
      if (move source target store).1 then moveAll moves (move source target store).2
      else move source target store

/-- There is a value at each source. -/
def Filled (moves : List (K × K)) (store : K → Option V) : Prop :=
  ∀ m ∈ moves, store m.1 ≠ none

/-- Each target has the value that was at its source; the sources are empty unless they are
targets, and all else is as it was. -/
structure Moved (moves : List (K × K)) (before after : K → Option V) : Prop where
  target : ∀ m ∈ moves, after m.2 = before m.1
  other : ∀ k, k ∉ moves.map Prod.snd →
    after k = if k ∈ moves.map Prod.fst then none else before k

/-- The moves succeed and do what they say. -/
def Performed (moves : List (K × K)) (store : K → Option V) : Prop :=
  (moveAll moves store).1 = true ∧ Moved moves store (moveAll moves store).2

structure Harmless (moves : List (K × K)) : Prop where
  proper : ∀ m ∈ moves, m.1 ≠ m.2
  targets : (moves.map Prod.snd).Nodup
  ordered : moves.Pairwise fun earlier later => earlier.2 ≠ later.1

/-! ## One move -/

section Move

variable {source target : K} {store : K → Option V}

theorem move_self (k : K) (store : K → Option V) : (move k k store).1 = false := by
  simp [move]

theorem move_eq (differ : source ≠ target) {value : V} (there : store source = some value) :
    move source target store =
      (true, update (update (update store target none) source none) target (some value)) := by
  simp only [move, update_of_ne differ, there]

theorem moveAll_cons_of_some (differ : source ≠ target) {value : V}
    (there : store source = some value) (moves : List (K × K)) :
    moveAll ((source, target) :: moves) store =
      moveAll moves
        (update (update (update store target none) source none) target (some value)) := by
  rw [moveAll, move_eq differ there]
  rfl

/-- Of two values that are to change places the second is lost, and the first is put back. -/
theorem moveAll_swap {a b : K} (differ : a ≠ b) {value : V} (there : store a = some value) :
    moveAll [(a, b), (b, a)] store = (true, update store b none) := by
  have arrived : update (update (update store b none) a none) b (some value) b = some value :=
    update_self _ _ _
  rw [moveAll_cons_of_some differ there, moveAll_cons_of_some differ.symm arrived, moveAll]
  refine congrArg _ (funext fun k => ?_)
  by_cases isFirst : k = a
  · rw [isFirst, update_self, update_of_ne differ, there]
  · by_cases isSecond : k = b
    · rw [isSecond, update_of_ne differ.symm, update_self, update_self]
    · simp only [update_of_ne isFirst, update_of_ne isSecond]

/-- Whatever is somewhere behind a move was somewhere before. -/
theorem move_value {k : K} {value : V} (found : (move source target store).2 k = some value) :
    (k = target ∧ source ≠ target ∧ store source = some value) ∨
      (k ≠ target ∧ store k = some value) := by
  rw [move] at found
  by_cases same : k = target
  · subst same
    split at found
    · simp at found
    · rename_i value' there
      have differ : source ≠ k := by
        rintro rfl
        simp at there
      rw [update_of_ne differ] at there
      simp only [update_self, Option.some.injEq] at found
      exact .inl ⟨rfl, differ, found ▸ there⟩
  · refine .inr ⟨same, ?_⟩
    split at found
    · exact (update_of_ne same _ _).symm.trans found
    · replace found := (update_of_ne same _ _).symm.trans found
      by_cases other : k = source
      · subst other
        simp at found
      · rwa [update_of_ne other, update_of_ne same] at found

end Move

/-! ## Moves that do what they say -/

theorem Harmless.performed {moves : List (K × K)} :
    ∀ {store : K → Option V}, Harmless moves → (moves.map Prod.fst).Nodup → Filled moves store →
      Performed moves store := by
  induction moves with
  | nil =>
    intro store _ _ _
    exact ⟨rfl, fun m member => absurd member List.not_mem_nil, fun k _ => by simp [moveAll]⟩
  | cons m moves ih =>
    intro store harmless distinct filled
    obtain ⟨source, target⟩ := m
    obtain ⟨proper, targets, ordered⟩ := harmless
    have differ : source ≠ target := proper _ List.mem_cons_self
    obtain ⟨fresh, distinct⟩ := List.nodup_cons.mp distinct
    obtain ⟨freshTarget, targets⟩ := List.nodup_cons.mp targets
    obtain ⟨unread, ordered⟩ := List.pairwise_cons.mp ordered
    obtain ⟨value, there⟩ := Option.ne_none_iff_exists'.mp (filled _ List.mem_cons_self)
    rw [Performed, moveAll_cons_of_some differ there]
    generalize next : update (update (update store target none) source none) target (some value) =
      store'
    -- the sources still to come are as they were
    have kept (m : K × K) (member : m ∈ moves) : store' m.1 = store m.1 := by
      have notTarget : m.1 ≠ target := (unread m member).symm
      have notSource : m.1 ≠ source := fun same =>
        fresh (List.mem_map.mpr ⟨m, member, same⟩)
      rw [← next, update_of_ne notTarget, update_of_ne notSource, update_of_ne notTarget]
    obtain ⟨success, moved⟩ := @ih store'
      ⟨fun m member => proper m (.tail _ member), targets, ordered⟩ distinct
      fun m member => by rw [kept m member]; exact filled m (.tail _ member)
    refine ⟨success, fun m member => ?_, fun k notTarget => ?_⟩
    · rcases List.mem_cons.mp member with rfl | later
      · have unread' : target ∉ moves.map Prod.fst := by
          intro read
          obtain ⟨m, member, same⟩ := List.mem_map.mp read
          exact unread m member same.symm
        rw [moved.other target freshTarget, if_neg unread', ← next, update_self]
        exact there.symm
      · rw [moved.target m later, kept m later]
    · obtain ⟨notHead, notLater⟩ := not_or.mp (mt List.mem_cons.mpr notTarget)
      rw [moved.other k notLater, List.map_cons]
      by_cases isSource : k = source
      · subst isSource
        rw [if_neg fresh, if_pos List.mem_cons_self, ← next, update_of_ne notHead, update_self]
      · have later : k ∈ source :: moves.map Prod.fst ↔ k ∈ moves.map Prod.fst :=
          List.mem_cons.trans (or_iff_right isSource)
        rw [← next, update_of_ne notHead, update_of_ne isSource, update_of_ne notHead,
          if_congr later rfl rfl]

/-! ## Moves that do not -/

theorem moveAll_append {first : List (K × K)} :
    ∀ {store : K → Option V} (rest : List (K × K)),
      (moveAll (first ++ rest) store).1 = true →
        (moveAll first store).1 = true ∧
          moveAll (first ++ rest) store = moveAll rest (moveAll first store).2 := by
  induction first with
  | nil => exact fun rest _ => ⟨rfl, rfl⟩
  | cons m first ih =>
    intro store rest success
    rw [List.cons_append, moveAll] at success ⊢
    rw [moveAll]
    split
    · rename_i moved
      rw [if_pos moved] at success
      exact ih rest success
    · rename_i failed
      rw [if_neg failed] at success
      exact absurd success failed

/-- A value that is at one place only stays there, or goes, while that is no source. -/
theorem moveAll_only {value : V} {place : K} {moves : List (K × K)} :
    ∀ {store : K → Option V}, place ∉ moves.map Prod.fst →
      (∀ k, store k = some value → k = place) →
        ∀ k, (moveAll moves store).2 k = some value → k = place := by
  induction moves with
  | nil => exact fun _ only k found => only k found
  | cons m moves ih =>
    intro store unread only
    obtain ⟨notHead, unread⟩ := not_or.mp (mt List.mem_cons.mpr unread)
    have once (k : K) (found : (move m.1 m.2 store).2 k = some value) : k = place := by
      rcases move_value found with ⟨-, -, there⟩ | ⟨-, there⟩
      · exact absurd (only _ there).symm notHead
      · exact only k there
    rw [moveAll]
    split
    · exact ih unread once
    · exact once

theorem moveAll_nowhere {value : V} {moves : List (K × K)} :
    ∀ {store : K → Option V}, (∀ k, store k ≠ some value) →
      ∀ k, (moveAll moves store).2 k ≠ some value := by
  induction moves with
  | nil => exact fun nowhere => nowhere
  | cons m moves ih =>
    intro store nowhere
    have once (k : K) : (move m.1 m.2 store).2 k ≠ some value := by
      intro found
      rcases move_value found with ⟨-, -, there⟩ | ⟨-, there⟩
      · exact nowhere _ there
      · exact nowhere k there
    rw [moveAll]
    split
    · exact ih once
    · exact once

section Failures

variable {moves : List (K × K)}

/-- A move onto itself fails. -/
theorem proper_of_performed {value : V} (performed : Performed moves fun _ : K => some value) :
    ∀ m ∈ moves, m.1 ≠ m.2 := by
  rintro ⟨source, target⟩ member same
  cases (same : source = target)
  obtain ⟨before, after, rfl⟩ := List.append_of_mem member
  obtain ⟨-, rest⟩ := moveAll_append ((source, source) :: after) performed.1
  have success := performed.1
  rw [rest, moveAll, if_neg (by rw [move_self]; exact Bool.false_ne_true), move_self] at success
  cases success

/-- Of two moves onto one target the first is in vain. -/
theorem targets_of_performed (distinct : (moves.map Prod.fst).Nodup) {a b : V} (differ : a ≠ b)
    (performed : ∀ m ∈ moves, Performed moves (update (fun _ : K => some a) m.1 (some b))) :
    (moves.map Prod.snd).Nodup := by
  refine (List.nodup_map_iff_inj_on distinct.of_map).mpr fun m member m' member' same => ?_
  obtain ⟨-, moved⟩ := performed m member
  have first := moved.target m member
  have second := moved.target m' member'
  rw [same, second, update_self] at first
  refine List.inj_on_of_nodup_map distinct member member' ?_
  by_contra other
  rw [update_of_ne (Ne.symm other)] at first
  exact differ (Option.some.inj first)

/-- What a move finds at its target is lost to the later ones. -/
theorem ordered_of_performed (distinct : (moves.map Prod.fst).Nodup) {a b : V} (differ : a ≠ b)
    (performed : ∀ m ∈ moves, Performed moves (update (fun _ : K => some a) m.1 (some b))) :
    moves.Pairwise fun earlier later => earlier.2 ≠ later.1 := by
  have behind : ∀ (rest before : List (K × K)), moves = before ++ rest →
      rest.Pairwise fun earlier later => earlier.2 ≠ later.1 := by
    intro rest
    induction rest with
    | nil => exact fun _ _ => List.Pairwise.nil
    | cons m rest ih =>
      intro before split
      refine List.pairwise_cons.mpr ⟨fun later member same => ?_,
        ih (before ++ [m]) (by rw [split, List.append_assoc]; rfl)⟩
      subst split
      obtain ⟨success, moved⟩ := performed later
        (List.mem_append_right _ (List.mem_cons_of_mem _ member))
      obtain ⟨-, run⟩ := moveAll_append (m :: rest) success
      rw [List.map_append, List.map_cons] at distinct
      obtain ⟨-, apart, disjoint⟩ := List.nodup_append.mp distinct
      have isSource : later.1 ∈ rest.map Prod.fst := List.mem_map_of_mem member
      -- the value is at the source of the later move only, and gone behind this one
      have only := @moveAll_only _ _ _ b later.1 before
        (update (fun _ => some a) later.1 (some b))
        (fun read => disjoint _ read _ (List.mem_cons_of_mem _ isSource) rfl) fun k found => by
          by_contra other
          rw [update_of_ne other] at found
          exact differ (Option.some.inj found)
      have once (k : K) : (move m.1 m.2 (moveAll before
          (update (fun _ => some a) later.1 (some b))).2).2 k ≠ some b := by
        intro found
        rcases move_value found with ⟨-, -, there⟩ | ⟨other, there⟩
        · exact (List.nodup_cons.mp apart).1 (only _ there ▸ isSource)
        · exact other ((only k there).trans same.symm)
      have arrived := moved.target later (List.mem_append_right _ (List.mem_cons_of_mem _ member))
      rw [run, update_self, moveAll] at arrived
      split at arrived
      · exact moveAll_nowhere once _ arrived
      · exact once _ arrived
  exact behind moves [] rfl

end Failures

/-- **When moves do what they say.** -/
theorem moveAll_iff [Nontrivial V] {moves : List (K × K)} (distinct : (moves.map Prod.fst).Nodup) :
    (∀ store : K → Option V, Filled moves store → Performed moves store) ↔ Harmless moves := by
  constructor
  · intro performed
    obtain ⟨a, b, differ⟩ := exists_pair_ne V
    have marked (m : K × K) (_ : m ∈ moves) :
        Performed moves (update (fun _ : K => some a) m.1 (some b)) := by
      refine performed _ fun m' _ => ?_
      by_cases same : m'.1 = m.1
      · rw [same, update_self]
        exact Option.some_ne_none b
      · rw [update_of_ne same]
        exact Option.some_ne_none a
    exact ⟨proper_of_performed (performed (fun _ => some a) fun _ _ => Option.some_ne_none a),
      targets_of_performed distinct differ marked, ordered_of_performed distinct differ marked⟩
  · exact fun harmless store filled => harmless.performed distinct filled

end Irestore.Library
