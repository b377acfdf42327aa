/-
# Plist.BinaryHistory — the references `plist_from_bin` follows

The second pass of `plist_from_bin` reads the references of the containers in table
order, a key of a dictionary before its value.

* `Object.references` — the references of one object, in that order.
* `linkArray_eq`, `linkDict_eq` — the loops follow exactly these, when the object's
  block of references is whole.
-/
import Irestore.Plist.BinaryRead

namespace Irestore.Plist

open Irestore.Library Irestore.Library.Bytes Irestore.Library.CMemory

set_option autoImplicit false

/-! ## References -/

/-- A reference the second pass follows: whose it is, whether it is the key of a
dictionary, and which entry it names. -/
structure Reference where
  container : Nat
  key : Bool
  target : Nat
  deriving DecidableEq, Repr

/-- The number at one position of a reference block. -/
def refAt (block : List UInt8) (w position : Nat) : Nat :=
  ofBE (slice block (position * w) (hostWidth w))

/-- The numbers in a container's reference block. -/
def Object.refValues (w : Nat) : Object → List Nat
  | .array count refs => (List.range count).map (refAt refs w)
  | .dict count refs => (List.range (2 * count)).map (refAt refs w)
  | _ => []

/-- The references of object `i`, in the order the second pass follows them; an
index is 32 bits wide. -/
def Object.references (w i : Nat) : Object → List Reference
  | .array count refs => (List.range count).map fun j => ⟨i, false, refAt refs w j % 2 ^ 32⟩
  | .dict count refs => (List.range count).flatMap fun j =>
      [⟨i, true, refAt refs w j % 2 ^ 32⟩, ⟨i, false, refAt refs w (j + count) % 2 ^ 32⟩]
  | _ => []

def Object.isContainer : Object → Bool
  | .array .. | .dict .. => true
  | _ => false

/-- Every reference of the object can be read, and names one of `n` entries. -/
structure Object.Linkable (w n : Nat) (object : Object) : Prop where
  blockLength : ∀ count refs, (object = .array count refs → refs.length = count * w) ∧
    (object = .dict count refs → refs.length = count * w * 2)
  width : object.refValues w ≠ [] → 0 < w
  inRange : ∀ value ∈ object.refValues w, value < n

theorem Object.container_of_mem {w i : Nat} {object : Object} {r : Reference}
    (member : r ∈ object.references w i) : r.container = i ∧ object.isContainer = true := by
  cases object <;> simp only [references, List.not_mem_nil, List.mem_map, List.mem_flatMap] at member
  · obtain ⟨j, -, rfl⟩ := member
    exact ⟨rfl, rfl⟩
  · obtain ⟨j, -, hr⟩ := member
    simp only [List.mem_cons, List.not_mem_nil, or_false] at hr
    rcases hr with rfl | rfl <;> exact ⟨rfl, rfl⟩

/-- The entries an object names are among the numbers in its block. -/
theorem Object.target_of_mem {w i : Nat} {object : Object} {r : Reference}
    (member : r ∈ object.references w i) :
    ∃ value ∈ object.refValues w, r.target = value % 2 ^ 32 := by
  cases object <;> simp only [references, List.not_mem_nil, List.mem_map, List.mem_flatMap] at member
  · rename_i count refs
    obtain ⟨j, hj, rfl⟩ := member
    exact ⟨refAt refs w j, List.mem_map.mpr ⟨j, hj, rfl⟩, rfl⟩
  · rename_i count refs
    obtain ⟨j, hj, hr⟩ := member
    simp only [List.mem_range] at hj
    simp only [List.mem_cons, List.not_mem_nil, or_false] at hr
    rcases hr with rfl | rfl
    · exact ⟨refAt refs w j, List.mem_map.mpr ⟨j, by simp; omega, rfl⟩, rfl⟩
    · exact ⟨refAt refs w (j + count), List.mem_map.mpr ⟨j + count, by simp; omega, rfl⟩, rfl⟩

theorem Object.Linkable.target_lt {w n i : Nat} {object : Object} (linkable : object.Linkable w n)
    {r : Reference} (member : r ∈ object.references w i) : r.target < n := by
  obtain ⟨value, hv, target⟩ := object.target_of_mem member
  have := linkable.inRange value hv
  have := Nat.mod_le value (2 ^ 32)
  omega

/-- The references of a container that has some are at least a byte wide. -/
theorem Object.Linkable.width_pos {w n count : Nat} {refs : List UInt8} {object : Object}
    (linkable : object.Linkable w n)
    (shape : object = .array count refs ∨ object = .dict count refs) (positive : 0 < count) :
    0 < w := by
  refine linkable.width ?_
  rcases shape with rfl | rfl
  · simp only [refValues, ne_eq, List.map_eq_nil_iff, List.range_eq_nil]
    omega
  · simp only [refValues, ne_eq, List.map_eq_nil_iff, List.range_eq_nil]
    omega

/-! ## The loops of the second pass follow the references -/

def linkReference (table : NodeTable) (r : Reference) : Checked NodeTable :=
  if r.key then linkKey r.container r.target table else linkNode r.container r.target table

theorem indexAt_ok {block : List UInt8} {w position : Nat} (width : 0 < w)
    (inside : (position + 1) * w ≤ block.length) (small : block.length < 2 ^ 32) :
    indexAt block w position = .ok (refAt block w position % 2 ^ 32) := by
  have host := hostWidth_le width
  rw [Nat.succ_mul] at inside
  have start : position * w % 2 ^ 32 = position * w := Nat.mod_eq_of_lt (by omega)
  have read : uintToHost (block.drop (position * w)) w = .ok (refAt block w position) := by
    rw [uintToHost_eq_ok]
    refine ⟨?_, rfl⟩
    rw [List.length_drop]
    omega
  rw [indexAt, start, read]
  rfl

theorem foldlM_flatMap {α β γ : Type} (pieces : α → List β) (step : γ → β → Checked γ) :
    ∀ (xs : List α) (start : γ), (xs.flatMap pieces).foldlM step start =
      xs.foldlM (fun state x => (pieces x).foldlM step state) start
  | [], _ => rfl
  | x :: xs, start => by
      rw [List.flatMap_cons, List.foldlM_append, List.foldlM_cons]
      exact congrArg _ (funext fun state => foldlM_flatMap pieces step xs state)

theorem foldlM_congr {α γ : Type} {step step' : γ → α → Checked γ} :
    ∀ {xs : List α} (start : γ), (∀ x ∈ xs, ∀ state, step state x = step' state x) →
      xs.foldlM step start = xs.foldlM step' start
  | [], _, _ => rfl
  | x :: xs, start, same => by
      rw [List.foldlM_cons, List.foldlM_cons, same x (by simp)]
      exact congrArg _ (funext fun state => foldlM_congr state fun y hy => same y (by simp [hy]))

theorem forEach32_small {length : Nat} (small : length < 2 ^ 32)
    (body : NodeTable → Nat → Checked NodeTable) (table : NodeTable) :
    forEach32 length body table = (List.range length).foldlM body table := by
  rw [forEach32, Nat.min_eq_left (by omega)]
  simp only [small, if_true]
  exact bind_pure _

theorem linkArray_eq {w n i count : Nat} {refs : List UInt8} {table : NodeTable}
    (linkable : (Object.array count refs).Linkable w n) (small : refs.length < 2 ^ 32) :
    linkArray w i refs count table =
      ((Object.array count refs).references w i).foldlM linkReference table := by
  have block := (linkable.blockLength count refs).1 rfl
  by_cases none : count = 0
  · subst none
    rfl
  have width : 0 < w := linkable.width_pos (.inl rfl) (Nat.pos_of_ne_zero none)
  have countLe : count ≤ count * w := Nat.le_mul_of_pos_right count width
  rw [linkArray, forEach32_small (by omega), Object.references, List.foldlM_map]
  refine foldlM_congr table fun j hj state => ?_
  have hj' : j < count := by simpa using hj
  have inside : (j + 1) * w ≤ refs.length := by
    rw [block]
    exact Nat.mul_le_mul_right w hj'
  rw [indexAt_ok width inside small]
  rfl

theorem linkDict_eq {w n i count : Nat} {refs : List UInt8} {table : NodeTable}
    (linkable : (Object.dict count refs).Linkable w n) (small : refs.length < 2 ^ 32) :
    linkDict w i refs count table =
      ((Object.dict count refs).references w i).foldlM linkReference table := by
  have block := (linkable.blockLength count refs).2 rfl
  by_cases none : count = 0
  · subst none
    rfl
  have width : 0 < w := linkable.width_pos (.inr rfl) (Nat.pos_of_ne_zero none)
  have countLe : count ≤ count * w := Nat.le_mul_of_pos_right count width
  rw [linkDict, forEach32_small (by omega), Object.references, foldlM_flatMap]
  refine foldlM_congr table fun j hj state => ?_
  have hj' : j < count := by simpa using hj
  have keyInside : (j + 1) * w ≤ refs.length := by
    have : (j + 1) * w ≤ count * w := Nat.mul_le_mul_right w hj'
    omega
  have valueInside : (j + count + 1) * w ≤ refs.length := by
    have := Nat.mul_le_mul_right w (show j + count + 1 ≤ 2 * count by omega)
    rw [Nat.mul_assoc] at this
    omega
  rw [indexAt_ok width keyInside small, indexAt_ok width valueInside small]
  simp only [bind, Except.bind, List.foldlM_cons, List.foldlM_nil, linkReference, if_true,
    Bool.false_eq_true, if_false]
  cases linkKey i (refAt refs w j % 2 ^ 32) state with
  | error fault => rfl
  | ok next =>
    change linkNode _ _ next = linkNode _ _ next >>= pure
    exact (bind_pure _).symm

end Irestore.Plist
