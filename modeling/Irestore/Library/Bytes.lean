/-
# Library.Bytes — fixed-width integers as bytes, and reads from a byte list

The byte vocabulary of every wire and file format below.

* `le w n` / `be w n` — the low `w` bytes of `n`, least or most significant
  first; `ofLE` / `ofBE` read them back (`ofLE_le`, `ofBE_be`, `le_ofLE`).
* `slice bs off len` — `len` bytes of `bs` from offset `off`, with its laws over
  `++`: a slice that lies in one part of a concatenation is a slice of that part.
-/
import Mathlib.Algebra.Order.Ring.Nat
import Mathlib.Data.List.Basic
import Mathlib.Tactic.Common

namespace Irestore.Library.Bytes

set_option autoImplicit false

/-- The low `w` bytes of `n`, least significant first. -/
def le : Nat → Nat → List UInt8
  | 0, _ => []
  | w + 1, n => UInt8.ofNat n :: le w (n / 256)

/-- Little-endian bytes read back as a natural. -/
def ofLE : List UInt8 → Nat
  | [] => 0
  | b :: bs => b.toNat + 256 * ofLE bs

/-- The low `w` bytes of `n`, most significant first. -/
def be (w n : Nat) : List UInt8 := (le w n).reverse

/-- Big-endian bytes read back as a natural. -/
def ofBE (bytes : List UInt8) : Nat := ofLE bytes.reverse

@[simp] theorem length_le (w n : Nat) : (le w n).length = w := by
  induction w generalizing n with
  | zero => rfl
  | succ w ih => simp [le, ih]

@[simp] theorem length_be (w n : Nat) : (be w n).length = w := by simp [be]

theorem ofLE_le {w n : Nat} (fits : n < 256 ^ w) : ofLE (le w n) = n := by
  induction w generalizing n with
  | zero => simp at fits; subst fits; rfl
  | succ w ih =>
    have high : n / 256 < 256 ^ w := by
      rw [Nat.pow_succ] at fits
      omega
    simp only [le, ofLE, ih high, UInt8.toNat_ofNat']
    omega

/-- Bytes written again as they were read. -/
theorem le_ofLE (bytes : List UInt8) : le bytes.length (ofLE bytes) = bytes := by
  induction bytes with
  | nil => rfl
  | cons b bs ih =>
    have low : UInt8.ofNat (b.toNat + 256 * ofLE bs) = b := by
      apply UInt8.toNat_inj.mp
      have := b.toNat_lt
      rw [UInt8.toNat_ofNat']
      omega
    have high : (b.toNat + 256 * ofLE bs) / 256 = ofLE bs := by
      have := b.toNat_lt
      omega
    rw [List.length_cons, le, ofLE, low, high, ih]

theorem ofBE_be {w n : Nat} (fits : n < 256 ^ w) : ofBE (be w n) = n := by
  simp [ofBE, be, ofLE_le fits]

theorem ofLE_lt (bytes : List UInt8) : ofLE bytes < 256 ^ bytes.length := by
  induction bytes with
  | nil => simp [ofLE]
  | cons b bs ih =>
    have low : b.toNat < 256 := b.toNat_lt
    simp only [ofLE, List.length_cons, Nat.pow_succ]
    omega

theorem ofBE_lt (bytes : List UInt8) : ofBE bytes < 256 ^ bytes.length := by
  simpa [ofBE] using ofLE_lt bytes.reverse

/-- Only the low `w` bytes matter. -/
theorem le_mod (w n : Nat) : le w (n % 256 ^ w) = le w n := by
  induction w generalizing n with
  | zero => rfl
  | succ w ih =>
    have byte : UInt8.ofNat (n % 256 ^ (w + 1)) = UInt8.ofNat n := by
      apply UInt8.toNat_inj.mp
      simp only [UInt8.toNat_ofNat', Nat.reducePow]
      exact Nat.mod_mod_of_dvd n ⟨256 ^ w, by rw [Nat.pow_succ, Nat.mul_comm]⟩
    have high : n % 256 ^ (w + 1) / 256 = n / 256 % 256 ^ w := by
      rw [Nat.pow_succ, Nat.mul_comm, Nat.mod_mul_right_div_self]
    rw [le, le, byte, high, ih]

theorem le_injective {w n m : Nat} (hn : n < 256 ^ w) (hm : m < 256 ^ w)
    (same : le w n = le w m) : n = m := by
  rw [← ofLE_le hn, same, ofLE_le hm]

theorem ofLE_append (front back : List UInt8) :
    ofLE (front ++ back) = ofLE front + 256 ^ front.length * ofLE back := by
  induction front with
  | nil => simp [ofLE]
  | cons b bs ih =>
    simp only [List.cons_append, ofLE, ih, List.length_cons, Nat.pow_succ]
    rw [Nat.mul_add, Nat.mul_comm (256 ^ bs.length) 256, Nat.mul_assoc]
    omega

/-- Most significant zero bytes do not change a big-endian reading. -/
theorem ofBE_zero_cons (bytes : List UInt8) : ofBE (0 :: bytes) = ofBE bytes := by
  simp [ofBE, ofLE_append, ofLE]

/-! ## Slices -/

/-- `len` bytes of `bytes` from offset `off`. -/
def slice (bytes : List UInt8) (off len : Nat) : List UInt8 := (bytes.drop off).take len

theorem slice_append_left {front back : List UInt8} {off len : Nat}
    (inside : off + len ≤ front.length) : slice (front ++ back) off len = slice front off len := by
  unfold slice
  rw [List.drop_append_of_le_length (by omega), List.take_append_of_le_length]
  rw [List.length_drop]
  omega

theorem slice_append_right (front back : List UInt8) (off len : Nat) :
    slice (front ++ back) (front.length + off) len = slice back off len := by
  rw [slice, slice, List.drop_append, List.drop_eq_nil_of_le (by omega)]
  simp

theorem slice_take {bytes : List UInt8} {n off len : Nat} (inside : off + len ≤ n) :
    slice (bytes.take n) off len = slice bytes off len := by
  rw [slice, slice, List.drop_take, List.take_take, Nat.min_eq_left (by omega)]

/-- What is behind an offset: what is before the next, and what is behind that. -/
theorem drop_eq_append {bytes : List UInt8} {off stop : Nat} (ordered : off ≤ stop) :
    bytes.drop off = (bytes.drop off).take (stop - off) ++ bytes.drop stop := by
  have rest : bytes.drop stop = (bytes.drop off).drop (stop - off) := by
    rw [List.drop_drop, Nat.add_sub_cancel' ordered]
  rw [rest, List.take_append_drop]

theorem slice_of_drop {bytes piece rest : List UInt8} {off : Nat}
    (found : bytes.drop off = piece ++ rest) : slice bytes off piece.length = piece := by
  simp [slice, found]

/-- The bytes of the `i`th of several records of one width, laid end to end. -/
theorem slice_flatMap {α : Type} (encode : α → List UInt8) {w : Nat} :
    ∀ (records : List α) (i : Nat) (r : α), (∀ x ∈ records, (encode x).length = w) →
      records[i]? = some r → slice (records.flatMap encode) (i * w) w = encode r
  | [], i, r, _, found => by simp at found
  | x :: xs, 0, r, width, found => by
      simp only [List.getElem?_cons_zero, Option.some.injEq] at found
      subst found
      have hw := width x (by simp)
      rw [List.flatMap_cons, Nat.zero_mul, slice_append_left (by omega)]
      simp [slice, ← hw]
  | x :: xs, i + 1, r, width, found => by
      have hw := width x (by simp)
      have tail := slice_flatMap encode xs i r (fun y hy => width y (by simp [hy]))
        (by simpa using found)
      rw [List.flatMap_cons, Nat.succ_mul, Nat.add_comm (i * w) w, ← hw, slice_append_right]
      rw [hw]
      exact tail

end Irestore.Library.Bytes
