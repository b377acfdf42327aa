/-
# Afc.StringsList — the two scans of `make_strings_list`

The list is allocated by the number of NULs in the tokens, and filled by copying one string
after the other.  Here both scans are those of the code, over a block of memory; a read behind
the block or a store behind the list is a fault.

* `countNullspaces_eq` — the first scan counts the NULs.
* `fillList_eq` — the second copies the strings that `splitNul` cuts, one into each slot.
* `stringsList_whole` — the two keep in step on every block.
-/
import Irestore.Afc.DeviceInfo

namespace Irestore.Afc.StringsList

open Irestore.Library Irestore.Library.CMemory

set_option autoImplicit false

/-! ## The scans -/

/-- A slot of the list: as `malloc` left it, NULL, or a copied string. -/
inductive Slot where
  | unset | null
  | text (copy : List UInt8)
  deriving DecidableEq, Repr

/-- `list[i] = slot`. -/
def setSlot (list : List Slot) (i : Nat) (slot : Slot) : Checked (List Slot) :=
  if i < list.length then .ok (list.set i slot) else .error .outOfBounds

/-- `string[i]`. -/
def charAt (string : List UInt8) (i : Nat) : Checked UInt8 :=
  match string[i]? with
  | some char => .ok char
  | none => .error .outOfBounds

/-- `count_nullspaces`; it counts in 32 bits. -/
def countNullspaces (string : List UInt8) (number : Nat) : Checked Nat :=
  (List.range number).foldlM (fun nulls i => do
    let char ← charAt string i
    return if char = 0 then (nulls + 1) % 2 ^ 32 else nulls) 0

/-- The second loop of `make_strings_list` from slot `i` and character `j` on, and the NULL
behind it. -/
def fillList (tokens : List UInt8) : Nat → Nat → Nat → List Slot → Checked (List Slot)
  | 0, i, _, list => setSlot list i .null
  | rounds + 1, i, j, list => do
      let copy ← strdup (tokens.drop j)
      let list ← setSlot list i (.text copy)
      fillList tokens rounds (i + 1) ((j + (copy.length + 1)) % 2 ^ 32) list

/-- `make_strings_list`, of a block that may be NULL. -/
def makeStringsList (tokens : Option (List UInt8)) (length : Nat) : Checked (Option (List Slot)) :=
  match tokens with
  | none => .ok none
  | some tokens =>
      if length = 0 then .ok none
      else do
        let nulls ← countNullspaces tokens length
        let list ← fillList tokens nulls 0 0 (List.replicate ((nulls + 1) % 2 ^ 32) .unset)
        return some list

/-! ## The strings of a block -/

/-- A block with a NUL in it, cut there. -/
theorem exists_cString {block : List UInt8} (terminated : 0 ∈ block) :
    ∃ behind, block = cString block ++ 0 :: behind ∧ 0 ∉ cString block := by
  obtain ⟨text, behind, rfl, nulFree⟩ := List.eq_append_cons_of_mem terminated
  refine ⟨behind, ?_, ?_⟩ <;> rw [cString_append nulFree]
  exact nulFree

theorem splitNul_nul_free {text : List UInt8} (nulFree : 0 ∉ text) :
    ∀ before, splitNul before text = [] := by
  induction text with
  | nil => exact fun _ => rfl
  | cons b text ih =>
    intro before
    have nonzero : b ≠ 0 := fun zero => nulFree (by simp [zero])
    rw [splitNul, if_neg nonzero, ih fun member => nulFree (by simp [member])]

/-- The strings, each with its NUL, and the rest behind the last one make up the block. -/
structure Cuts (block : List UInt8) (entries : List (List UInt8)) (rest : List UInt8) : Prop where
  whole : block = entries.flatMap (· ++ [0]) ++ rest
  nulFree : ∀ entry ∈ entries, 0 ∉ entry
  last : 0 ∉ rest

theorem Cuts.length {block rest : List UInt8} {entries : List (List UInt8)}
    (cuts : Cuts block entries rest) : entries.length = block.count 0 := by
  obtain ⟨whole, nulFree, last⟩ := cuts
  rw [whole, List.count_append, List.count_eq_zero.mpr last]
  clear whole
  induction entries with
  | nil => rfl
  | cons entry entries ih =>
    rw [List.flatMap_cons, List.count_append, List.count_append,
      List.count_eq_zero.mpr (nulFree entry List.mem_cons_self), Nat.add_assoc,
      ← ih fun other member => nulFree other (.tail _ member), List.length_cons]
    exact Nat.add_comm _ 1

/-- One string more in front. -/
theorem Cuts.cons {entry behind rest : List UInt8} {entries : List (List UInt8)}
    (nulFree : 0 ∉ entry) (cuts : Cuts behind entries rest) :
    Cuts (entry ++ 0 :: behind) (entry :: entries) rest where
  whole := by rw [cuts.whole]; simp
  nulFree := List.forall_mem_cons.mpr ⟨nulFree, cuts.nulFree⟩
  last := cuts.last

/-- What `splitNul` leaves out is behind the last NUL. -/
theorem splitNul_cuts (block : List UInt8) : ∃ rest, Cuts block (splitNul [] block) rest := by
  by_cases terminated : 0 ∈ block
  · obtain ⟨behind, cut, nulFree⟩ := exists_cString terminated
    have shorter : behind.length < block.length := by
      have lengths := congrArg List.length cut
      rw [List.length_append, List.length_cons] at lengths
      omega
    obtain ⟨rest, cuts⟩ := splitNul_cuts behind
    refine ⟨rest, ?_⟩
    rw [cut, splitNul_block nulFree]
    exact cuts.cons nulFree
  · exact ⟨block, by rw [splitNul_nul_free terminated]; exact ⟨rfl, nofun, terminated⟩⟩
termination_by block.length

/-! ## The first scan -/

/-- **The NULs are counted**, as far as the block goes. -/
theorem countNullspaces_eq {string : List UInt8} {number : Nat} (inside : number ≤ string.length)
    (small : number < 2 ^ 32) :
    countNullspaces string number = .ok ((string.take number).count 0) := by
  induction number with
  | zero => rfl
  | succ number ih =>
    have here : string[number]? = some string[number] := List.getElem?_eq_getElem (by omega)
    have counted := ih (by omega) (by omega)
    have few : (string.take number).count 0 ≤ number :=
      List.count_le_length.trans (List.length_take_le _ _)
    rw [countNullspaces] at counted ⊢
    rw [List.range_succ, List.foldlM_append, counted, ok_bind, List.foldlM_cons, charAt, here,
      List.take_add_one, here, List.count_append]
    by_cases nul : string[number] = 0
    · simp [nul, List.foldlM_nil]
      omega
    · simp [nul, List.foldlM_nil]

/-! ## The second scan -/

theorem setSlot_append {done rest : List Slot} {i : Nat} (here : done.length = i) (slot : Slot) :
    setSlot (done ++ .unset :: rest) i slot = .ok (done ++ slot :: rest) := by
  subst here
  rw [setSlot, if_pos (by simp), List.set_append_right _ _ (Nat.le_refl _), Nat.sub_self]
  rfl

/-- **Each string is copied into its slot**: as many rounds as there are NULs behind character
`j`, into a list with a slot for each and one for the NULL. -/
theorem fillList_eq {tokens : List UInt8} (small : tokens.length < 2 ^ 32) :
    ∀ {rounds i j : Nat} {done : List Slot}, rounds = (tokens.drop j).count 0 →
      done.length = i →
        fillList tokens rounds i j (done ++ List.replicate (rounds + 1) .unset) =
          .ok (done ++ (splitNul [] (tokens.drop j)).map .text ++ [.null])
  | 0, i, j, done, none', here => by
      rw [splitNul_nul_free (List.count_eq_zero.mp none'.symm), List.map_nil, List.append_nil]
      exact setSlot_append here .null
  | rounds + 1, i, j, done, count, here => by
      have terminated : 0 ∈ tokens.drop j := List.count_pos_iff.mp (by omega)
      have copied : strdup (tokens.drop j) = .ok (cString (tokens.drop j)) := if_pos terminated
      obtain ⟨behind, cut, nulFree⟩ := exists_cString terminated
      generalize cString (tokens.drop j) = copy at copied cut nulFree
      have lengths := congrArg List.length cut
      simp only [List.length_drop, List.length_append, List.length_cons] at lengths
      have next : tokens.drop (j + (copy.length + 1)) = behind := by
        rw [← List.drop_drop, cut, ← List.drop_drop, List.drop_left]
        rfl
      have left : rounds = behind.count 0 := by
        rw [cut, List.count_append, List.count_eq_zero.mpr nulFree, List.count_cons_self] at count
        omega
      have rest := @fillList_eq tokens small rounds (i + 1) (j + (copy.length + 1))
        (done ++ [.text copy]) (by rw [next, left]) (by simp [here])
      rw [List.append_assoc, List.singleton_append] at rest
      rw [fillList, copied, ok_bind, List.replicate_succ, setSlot_append here, ok_bind,
        Nat.mod_eq_of_lt (by omega), rest, next, cut, splitNul_block nulFree]
      simp

/-! ## Both scans -/

/-- The list holds the strings that the operations are given, and a NULL behind them. -/
theorem makeStringsList_eq (buffer : Buffer) {length : Nat} (inside : length ≤ buffer.filled.length)
    (small : length < 2 ^ 32 - 1) :
    makeStringsList (some (buffer.filled.take length)) length =
      .ok ((Afc.makeStringsList (some buffer) length).map fun entries =>
        entries.map .text ++ [.null]) := by
  rw [makeStringsList, Afc.makeStringsList]
  split
  · rfl
  · have width : (buffer.filled.take length).length = length := List.length_take_of_le inside
    have few : (buffer.filled.take length).count 0 ≤ length :=
      List.count_le_length.trans_eq width
    have counted := countNullspaces_eq (Nat.le_of_eq width.symm) (by omega)
    rw [List.take_of_length_le (Nat.le_of_eq width)] at counted
    have filled := @fillList_eq (buffer.filled.take length) (by omega) _ 0 0 [] rfl rfl
    rw [counted, ok_bind, Nat.mod_eq_of_lt (by omega)]
    exact congrArg (fun filled => filled >>= fun list => pure (some list)) filled

/-- **The list of a block**: NULL for no tokens at all, and else a string for each NUL, with a
NULL behind the last one.  Nothing behind the block is read, and nothing stored behind the
list. -/
theorem stringsList_whole (buffer : List UInt8) {length : Nat} (inside : length ≤ buffer.length)
    (small : length < 2 ^ 32 - 1) :
    ∃ result, makeStringsList (some (buffer.take length)) length = .ok result ∧
      (length = 0 → result = none) ∧
      (length ≠ 0 → ∃ entries rest, result = some (entries.map .text ++ [.null]) ∧
        entries.length = (buffer.take length).count 0 ∧
        Cuts (buffer.take length) entries rest) := by
  refine ⟨_, makeStringsList_eq ⟨buffer.length, buffer⟩ inside small, fun zero => ?_,
    fun some => ?_⟩
  · rw [Afc.makeStringsList, if_pos zero]
    rfl
  · obtain ⟨rest, cuts⟩ := splitNul_cuts (buffer.take length)
    refine ⟨_, rest, ?_, cuts.length, cuts⟩
    rw [Afc.makeStringsList, if_neg some]
    rfl

/-- A string, an empty string, and a letter with no NUL behind it. -/
theorem stringsList_open_end : ∃ entries rest,
    makeStringsList (some [65, 0, 0, 66]) 4 = .ok (some (entries.map .text ++ [.null])) ∧
      entries.length = 2 ∧ Cuts [65, 0, 0, 66] entries rest := by
  obtain ⟨result, made, -, listed⟩ := @stringsList_whole [65, 0, 0, 66] 4 (by decide)
    (by decide)
  obtain ⟨entries, rest, rfl, counted, cuts⟩ := listed (by decide)
  exact ⟨entries, rest, made, counted, cuts⟩

end Irestore.Afc.StringsList
