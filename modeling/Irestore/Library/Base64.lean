/-
# Library.Base64 — base64 text

Three bytes are four characters of six bits each; one or two bytes at the end are
padded with `=`.  Decoding skips what is no base64 character.

* `decode_encode` — decoding undoes encoding.
* `decode_filter` — characters that are skipped may be taken out before.
-/
import Mathlib.Algebra.Order.Ring.Nat
import Mathlib.Data.List.Basic
import Mathlib.Tactic.Common

namespace Irestore.Library.Base64

set_option autoImplicit false

/-- The characters base64 is made of. -/
def isBase64 (b : UInt8) : Bool :=
  (65 ≤ b ∧ b ≤ 90) ∨ (97 ≤ b ∧ b ≤ 122) ∨ (48 ≤ b ∧ b ≤ 57) ∨ b = 43 ∨ b = 47 ∨ b = 61

/-- The character of six bits. -/
def digit (n : Nat) : UInt8 :=
  if n < 26 then UInt8.ofNat (65 + n)
  else if n < 52 then UInt8.ofNat (71 + n)
  else if n < 62 then UInt8.ofNat (n - 4)
  else if n = 62 then 43
  else 47

/-- The six bits of a character. -/
def value (b : UInt8) : Nat :=
  if 65 ≤ b ∧ b ≤ 90 then b.toNat - 65
  else if 97 ≤ b ∧ b ≤ 122 then b.toNat - 71
  else if 48 ≤ b ∧ b ≤ 57 then b.toNat + 4
  else if b = 43 then 62
  else 63

def encode : List UInt8 → List UInt8
  | [] => []
  | [a] => [digit (a.toNat / 4), digit (a.toNat % 4 * 16), 61, 61]
  | [a, b] =>
      [digit (a.toNat / 4), digit (a.toNat % 4 * 16 + b.toNat / 16), digit (b.toNat % 16 * 4), 61]
  | a :: b :: c :: rest =>
      digit (a.toNat / 4) :: digit (a.toNat % 4 * 16 + b.toNat / 16) ::
        digit (b.toNat % 16 * 4 + c.toNat / 64) :: digit (c.toNat % 64) :: encode rest

/-- Decode groups of four characters. -/
def decodeGroups : List UInt8 → List UInt8
  | s :: t :: u :: v :: rest =>
      let first := UInt8.ofNat (value s * 4 + value t / 16)
      let second := UInt8.ofNat (value t % 16 * 16 + value u / 4)
      if u = 61 then [first]
      else if v = 61 then [first, second]
      else first :: second :: UInt8.ofNat (value u % 4 * 64 + value v) :: decodeGroups rest
  | _ => []

def decode (text : List UInt8) : List UInt8 := decodeGroups (text.filter isBase64)

theorem value_digit : ∀ n < 64, value (digit n) = n := by decide

theorem isBase64_digit : ∀ n < 64, isBase64 (digit n) = true := by decide

theorem digit_ne_pad : ∀ n < 64, digit n ≠ 61 := by decide

theorem encode_isBase64 : ∀ (bytes : List UInt8), ∀ b ∈ encode bytes, isBase64 b
  | [], b, member => by cases member
  | [a], b, member => by
      have ha := a.toNat_lt
      simp only [encode, List.mem_cons, List.not_mem_nil, or_false] at member
      rcases member with rfl | rfl | rfl | rfl
      · exact isBase64_digit _ (by omega)
      · exact isBase64_digit _ (by omega)
      · decide
      · decide
  | [a, c], b, member => by
      have ha := a.toNat_lt
      have hc := c.toNat_lt
      simp only [encode, List.mem_cons, List.not_mem_nil, or_false] at member
      rcases member with rfl | rfl | rfl | rfl
      · exact isBase64_digit _ (by omega)
      · exact isBase64_digit _ (by omega)
      · exact isBase64_digit _ (by omega)
      · decide
  | a :: c :: d :: rest, b, member => by
      have ha := a.toNat_lt
      have hc := c.toNat_lt
      have hd := d.toNat_lt
      simp only [encode, List.mem_cons] at member
      rcases member with rfl | rfl | rfl | rfl | later
      · exact isBase64_digit _ (by omega)
      · exact isBase64_digit _ (by omega)
      · exact isBase64_digit _ (by omega)
      · exact isBase64_digit _ (by omega)
      · exact encode_isBase64 rest b later

theorem ofNat_eq {n : Nat} {b : UInt8} (same : n = b.toNat) : UInt8.ofNat n = b := by
  rw [same, UInt8.ofNat_toNat]

theorem decodeGroups_encode : ∀ bytes : List UInt8, decodeGroups (encode bytes) = bytes
  | [] => rfl
  | [a] => by
      have ha := a.toNat_lt
      simp only [encode, decodeGroups, if_true]
      rw [value_digit _ (by omega), value_digit _ (by omega)]
      exact congrArg ([·]) (ofNat_eq (by omega))
  | [a, b] => by
      have ha := a.toNat_lt
      have hb := b.toNat_lt
      simp only [encode, decodeGroups, if_true]
      rw [if_neg (digit_ne_pad _ (by omega)), value_digit _ (by omega), value_digit _ (by omega),
        value_digit _ (by omega), ofNat_eq (b := a) (by omega), ofNat_eq (b := b) (by omega)]
  | a :: b :: c :: rest => by
      have ha := a.toNat_lt
      have hb := b.toNat_lt
      have hc := c.toNat_lt
      simp only [encode, decodeGroups]
      rw [if_neg (digit_ne_pad _ (by omega)), if_neg (digit_ne_pad _ (by omega)),
        value_digit _ (by omega), value_digit _ (by omega), value_digit _ (by omega),
        value_digit _ (by omega), ofNat_eq (b := a) (by omega), ofNat_eq (b := b) (by omega),
        ofNat_eq (b := c) (by omega), decodeGroups_encode rest]

/-- **Decoding undoes encoding.** -/
theorem decode_encode (bytes : List UInt8) : decode (encode bytes) = bytes := by
  rw [decode, List.filter_eq_self.mpr (encode_isBase64 bytes), decodeGroups_encode]

/-- Characters that decoding skips may be taken out before. -/
theorem decode_filter {p : UInt8 → Bool} (skipped : ∀ b, isBase64 b → p b) (text : List UInt8) :
    decode text = decode (text.filter p) := by
  have both : ∀ b, (isBase64 b && p b) = isBase64 b := by
    intro b
    cases letter : isBase64 b with
    | false => rfl
    | true => rw [skipped b letter, Bool.and_true]
  rw [decode, decode, List.filter_filter]
  simp only [both]

end Irestore.Library.Base64
