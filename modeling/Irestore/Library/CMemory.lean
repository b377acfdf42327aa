/-
# Library.CMemory — memory-checked C over byte lists

A block of C memory that a program may read is the list of its bytes.  A
computation over such blocks is `Checked`: it ends with a value, or with the
`Fault` of the access that has no meaning in C (a read past the end of a block,
a read of a freed block, a null or a wild pointer), of the assertion that fails, of the
`int` that overflows, or with `diverges` when it never ends.

* `memcpy src n` — the first `n` bytes of `src`; a fault when `src` is shorter.
* `memcmp a b n` — are the first `n` bytes equal?  Both blocks must have `n` bytes,
  wherever the first difference is.
* `store block off bytes` — write into a block; a fault past its end.
* `int n` — a number an `int` is to hold; a fault when it overflows.  `toInt32` is
  what a conversion to `int` makes of a larger unsigned number.
* `cString` — what the string functions see of a block: its bytes before the
  first NUL.  `strdup` faults on a block that has none.
* `strstr`, `strtok`, `snprintf` — what these find in or make of a text.
-/
import Irestore.Library.Bytes
import Mathlib.Data.List.TakeWhile

namespace Irestore.Library.CMemory

set_option autoImplicit false

/-- Why a C computation has no value. -/
inductive Fault where
  | outOfBounds
  | useAfterFree
  | nullPointer
  | wildPointer
  | invalidFree
  | assertion
  | intOverflow
  | diverges
  deriving DecidableEq, Repr

/-- A C computation whose memory accesses are checked. -/
abbrev Checked (α : Type) := Except Fault α

/-- The computation ends with a value. -/
def Ends {α : Type} (run : Checked α) : Prop := ∃ result, run = .ok result

def memcpy (src : List UInt8) (n : Nat) : Checked (List UInt8) :=
  if n ≤ src.length then .ok (src.take n) else .error .outOfBounds

def memcmp (a b : List UInt8) (n : Nat) : Checked Bool :=
  if n ≤ a.length ∧ n ≤ b.length then .ok (decide (a.take n = b.take n))
  else .error .outOfBounds

def store (block : List UInt8) (off : Nat) (bytes : List UInt8) : Checked (List UInt8) :=
  if off + bytes.length ≤ block.length then
    .ok (block.take off ++ bytes ++ block.drop (off + bytes.length))
  else .error .outOfBounds

def int (n : Nat) : Checked Nat := if n < 2 ^ 31 then .ok n else .error .intOverflow

def toInt32 (n : Nat) : Int :=
  if n % 2 ^ 32 < 2 ^ 31 then ((n % 2 ^ 32 : Nat) : Int) else ((n % 2 ^ 32 : Nat) : Int) - 2 ^ 32

theorem toInt32_of_lt {n : Nat} (small : n < 2 ^ 31) : toInt32 n = n := by
  rw [toInt32, Nat.mod_eq_of_lt (by omega), if_pos small]

theorem toInt32_le (n : Nat) : toInt32 n ≤ n ∧ toInt32 n < 2 ^ 31 := by
  rw [toInt32]
  split <;> omega

def cString (block : List UInt8) : List UInt8 := block.takeWhile (· != 0)

def strdup (block : List UInt8) : Checked (List UInt8) :=
  if 0 ∈ block then .ok (cString block) else .error .outOfBounds

/-- Where `strstr` finds the text first. -/
def strstr (needle : List UInt8) : List UInt8 → Option Nat
  | [] => if needle = [] then some 0 else none
  | b :: text =>
      if needle.isPrefixOf (b :: text) then some 0 else (strstr needle text).map (· + 1)

/-- The tokens `strtok` finds one after the other, for a single delimiter. -/
def strtok (delimiter : UInt8) (text : List UInt8) : List (List UInt8) :=
  (text.splitOn delimiter).filter (· ≠ [])

/-- What `snprintf` leaves of a text in a buffer of `size` bytes, the NUL not counted. -/
def snprintf (size : Nat) (text : List UInt8) : List UInt8 := text.take (size - 1)

/-- The text of a C string: bytes none of which is NUL. -/
abbrev CText := { text : List UInt8 // 0 ∉ text }

/-- The block that holds the string. -/
def CText.block (text : CText) : List UInt8 := text.val ++ [0]

/-- A string literal of ASCII characters. -/
def cText (literal : String) : CText :=
  ⟨(literal.toList.map fun c => UInt8.ofNat c.toNat).filter (· ≠ 0), by simp⟩

@[simp] theorem ok_bind {α β : Type} (a : α) (next : α → Checked β) :
    ((Except.ok a : Checked α) >>= next) = next a := rfl

@[simp] theorem error_bind {α β : Type} (fault : Fault) (next : α → Checked β) :
    ((Except.error fault : Checked α) >>= next) = .error fault := rfl

@[simp] theorem pure_eq_ok {α : Type} (a : α) : (pure a : Checked α) = .ok a := rfl

/-- A value comes out of a bind exactly through a value of the first step. -/
theorem bind_eq_ok {α β : Type} {first : Checked α} {next : α → Checked β} {result : β} :
    (first >>= next) = .ok result ↔ ∃ a, first = .ok a ∧ next a = .ok result := by
  cases first with
  | error fault => simp [bind, Except.bind]
  | ok a => simp [bind, Except.bind]

/-- A bind gives a value with a property exactly through a value of the first step. -/
theorem exists_bind_iff {α β : Type} {first : Checked α} {next : α → Checked β} {P : β → Prop} :
    (∃ result, (first >>= next) = .ok result ∧ P result) ↔
      ∃ a, first = .ok a ∧ ∃ result, next a = .ok result ∧ P result := by
  cases first with
  | error fault => simp [bind, Except.bind]
  | ok a => simp [bind, Except.bind]

theorem ends_bind_iff {α β : Type} {first : Checked α} {next : α → Checked β} :
    Ends (first >>= next) ↔ ∃ a, first = .ok a ∧ Ends (next a) := by
  cases first with
  | error fault => simp [Ends, bind, Except.bind]
  | ok a => simp [Ends, bind, Except.bind]

/-- A loop over the positions of a list that gives a value for each element. -/
theorem mapM_range' {α β : Type} {f : Nat → Checked β} {g : α → β} :
    ∀ {xs : List α} {start : Nat}, (∀ i x, xs[i]? = some x → f (start + i) = .ok (g x)) →
      (List.range' start xs.length).mapM f = .ok (xs.map g)
  | [], _, _ => rfl
  | x :: xs, start, each => by
      have first := each 0 x rfl
      rw [Nat.add_zero] at first
      have rest := @mapM_range' α β f g xs (start + 1) fun i y found => by
        have := each (i + 1) y (by simpa using found)
        rwa [Nat.add_assoc, Nat.add_comm 1]
      rw [List.length_cons, List.range'_succ, List.mapM_cons, first, ok_bind, rest, ok_bind]
      rfl

/-- A loop that ends has ended at each element. -/
theorem mapM_eq_map {α β : Type} {f : α → Checked β} {g : α → β} :
    ∀ {xs : List α}, (∀ x ∈ xs, f x = .ok (g x)) → xs.mapM f = .ok (xs.map g)
  | [], _ => rfl
  | x :: xs, each => by
      rw [List.mapM_cons, each x (by simp), ok_bind,
        mapM_eq_map fun y member => each y (by simp [member]), ok_bind]
      rfl

theorem mapM_ends {α β : Type} {f : α → Checked β} :
    ∀ {xs : List α} {ys : List β}, xs.mapM f = .ok ys → ∀ x ∈ xs, ∃ y, f x = .ok y
  | x :: xs, ys, run, a, member => by
      rw [List.mapM_cons] at run
      obtain ⟨y, first, run⟩ := bind_eq_ok.mp run
      obtain ⟨rest, later, -⟩ := bind_eq_ok.mp run
      rcases List.mem_cons.mp member with rfl | inside
      · exact ⟨y, first⟩
      · exact mapM_ends later a inside

theorem memcpy_eq_ok {src copied : List UInt8} {n : Nat} :
    memcpy src n = .ok copied ↔ n ≤ src.length ∧ copied = src.take n := by
  unfold memcpy
  split
  · rename_i fits
    simp [fits, eq_comm]
  · rename_i short
    simp [short]

theorem memcpy_append {front back : List UInt8} {n : Nat} (width : front.length = n) :
    memcpy (front ++ back) n = .ok front := by
  subst width
  simp [memcpy]

/-- A store within the block keeps its length. -/
theorem store_eq_ok {block bytes stored : List UInt8} {off : Nat}
    (run : store block off bytes = .ok stored) :
    off + bytes.length ≤ block.length ∧ stored.length = block.length := by
  rw [store] at run
  split at run
  · rename_i fits
    cases run
    refine ⟨fits, ?_⟩
    simp only [List.length_append, List.length_take, List.length_drop]
    omega
  · cases run

theorem store_ends_iff {block bytes : List UInt8} {off : Nat} :
    Ends (store block off bytes) ↔ off + bytes.length ≤ block.length := by
  rw [store]
  split
  · exact iff_of_true ⟨_, rfl⟩ ‹_›
  · exact iff_of_false (fun ⟨_, run⟩ => by cases run) ‹_›

/-- Writing on behind what is written already, into the zeros left. -/
theorem store_append {written bytes : List UInt8} {off left : Nat} (here : written.length = off)
    (room : bytes.length ≤ left) :
    store (written ++ List.replicate left 0) off bytes =
      .ok (written ++ bytes ++ List.replicate (left - bytes.length) 0) := by
  subst here
  have fits : written.length + bytes.length ≤ (written ++ List.replicate left 0).length := by
    simp only [List.length_append, List.length_replicate]
    omega
  rw [store, if_pos fits, List.take_left, List.drop_append, List.drop_eq_nil_of_le (by omega),
    Nat.add_sub_cancel_left, List.drop_replicate, List.nil_append]

/-- `memcmp` with the length of its first argument compares for a prefix. -/
theorem memcmp_length_eq_true {a b : List UInt8} :
    memcmp a b a.length = .ok true ↔ a <+: b := by
  rw [memcmp, List.take_length]
  constructor
  · intro same
    split at same
    · exact List.prefix_iff_eq_take.mpr (by simpa using same)
    · cases same
  · intro start
    rw [if_pos ⟨le_refl _, start.length_le⟩, decide_eq_true (List.prefix_iff_eq_take.mp start)]

/-- It has an answer exactly when the second argument is no shorter. -/
theorem memcmp_length_ends {a b : List UInt8} :
    Ends (memcmp a b a.length) ↔ a.length ≤ b.length := by
  rw [memcmp]
  split
  · rename_i inside
    exact iff_of_true ⟨_, rfl⟩ inside.2
  · rename_i outside
    exact iff_of_false (fun ended => by obtain ⟨_, ended⟩ := ended; cases ended)
      fun fits => outside ⟨le_refl _, fits⟩

theorem cString_of_nul_free {text : List UInt8} (nulFree : 0 ∉ text) : cString text = text := by
  induction text with
  | nil => rfl
  | cons b bs ih =>
    have head : b ≠ 0 := fun zero => nulFree (by simp [zero])
    have tail : 0 ∉ bs := fun member => nulFree (by simp [member])
    have rest : bs.takeWhile (· != 0) = bs := ih tail
    rw [cString, List.takeWhile_cons, rest]
    simp [head]

theorem cString_eq_self {text : List UInt8} : cString text = text ↔ 0 ∉ text := by
  refine ⟨fun same member => ?_, cString_of_nul_free⟩
  rw [← same, cString] at member
  simpa using List.mem_takeWhile_imp member

theorem nul_free_cString (block : List UInt8) : 0 ∉ cString block := by
  intro member
  rw [cString] at member
  simpa using List.mem_takeWhile_imp member

theorem cString_append {text behind : List UInt8} (nulFree : 0 ∉ text) :
    cString (text ++ 0 :: behind) = text := by
  have differ : ∀ b ∈ text, (b != 0) = true := by
    intro b member
    rw [bne_iff_ne]
    rintro rfl
    exact nulFree member
  rw [cString, List.takeWhile_append_of_pos differ]
  simp

end Irestore.Library.CMemory
