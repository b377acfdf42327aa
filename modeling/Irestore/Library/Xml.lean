/-
# Library.Xml — XML nodes, as the linked lists libxml2 keeps

An `Xml` is a chain of nodes: text, or an element with the chain of its children.
A program that only looks at the names of elements and at the text inside them
does not see how that text is cut into nodes: `outline` is what it sees.

* `content` — the text inside a chain, as `xmlNodeGetContent` collects it.
* `AllText` — what holds of every piece of text in a chain.
* `XmlText` — UTF-8 text of characters that XML allows.
-/
import Mathlib.Algebra.Order.Ring.Nat
import Mathlib.Data.List.Basic
import Mathlib.Tactic.Common

namespace Irestore.Library

set_option autoImplicit false

universe u

/-- A chain of nodes; `ν` is the type of names. -/
inductive Xml (ν : Type u) where
  | nil
  | text (content : List UInt8) (next : Xml ν)
  | element (name : ν) (children next : Xml ν)
  deriving DecidableEq, Repr

/-- The elements of a chain, each with the text inside it. -/
inductive Outline (ν : Type u) where
  | nil
  | element (name : ν) (content : List UInt8) (children next : Outline ν)

namespace Xml

variable {ν : Type u}

def append : Xml ν → Xml ν → Xml ν
  | .nil, back => back
  | .text content next, back => .text content (next.append back)
  | .element name children next, back => .element name children (next.append back)

/-- All text in the chain. -/
def content : Xml ν → List UInt8
  | .nil => []
  | .text content next => content ++ next.content
  | .element _ children next => children.content ++ next.content

def outline : Xml ν → Outline ν
  | .nil => .nil
  | .text _ next => next.outline
  | .element name children next =>
      .element name children.content children.outline next.outline

/-- Every piece of text in the chain has the property. -/
def AllText (p : List UInt8 → Prop) : Xml ν → Prop
  | .nil => True
  | .text content next => p content ∧ next.AllText p
  | .element _ children next => children.AllText p ∧ next.AllText p

@[simp] theorem nil_append (back : Xml ν) : Xml.nil.append back = back := rfl

theorem allText_append {p : List UInt8 → Prop} : ∀ {front back : Xml ν},
    (front.append back).AllText p ↔ front.AllText p ∧ back.AllText p
  | .nil, _ => by simp [AllText]
  | .text _ next, back => by
      simp only [append, AllText, @allText_append p next, and_assoc]
  | .element _ _ next, back => by
      simp only [append, AllText, @allText_append p next, and_assoc]

end Xml

/-! ## XML text -/

/-- The characters that may occur in an XML document. -/
def XmlChar (c : Char) : Prop :=
  c.val = 0x9 ∨ c.val = 0xA ∨ c.val = 0xD ∨ (0x20 ≤ c.val ∧ c.val ≤ 0xD7FF) ∨
    (0xE000 ≤ c.val ∧ c.val ≤ 0xFFFD) ∨ (0x10000 ≤ c.val ∧ c.val ≤ 0x10FFFF)

instance (c : Char) : Decidable (XmlChar c) := by
  unfold XmlChar
  infer_instance

/-- UTF-8 text of XML characters. -/
def XmlText (text : List UInt8) : Prop :=
  ∃ chars : List Char, (∀ c ∈ chars, XmlChar c) ∧ chars.flatMap String.utf8EncodeChar = text

theorem xmlText_nil : XmlText [] := ⟨[], by simp, rfl⟩

theorem xmlText_append {front back : List UInt8} :
    XmlText front → XmlText back → XmlText (front ++ back)
  | ⟨cs, legal, encoded⟩, ⟨ds, legal', encoded'⟩ =>
      ⟨cs ++ ds, by simpa [or_imp, forall_and] using ⟨legal, legal'⟩, by
        rw [List.flatMap_append, encoded, encoded']⟩

/-- The ASCII characters XML allows, DEL but for. -/
def asciiText (b : UInt8) : Bool := b = 9 ∨ b = 10 ∨ b = 13 ∨ (32 ≤ b ∧ b < 127)

theorem xmlText_ascii {text : List UInt8} (ascii : ∀ b ∈ text, asciiText b) : XmlText text := by
  have single : ∀ n < 127, asciiText (UInt8.ofNat n) →
      XmlChar (Char.ofNat n) ∧ String.utf8EncodeChar (Char.ofNat n) = [UInt8.ofNat n] := by
    decide
  induction text with
  | nil => exact xmlText_nil
  | cons b bs ih =>
    have here := ascii b (by simp)
    have small : b.toNat < 127 := by
      simp only [asciiText, decide_eq_true_eq, ← UInt8.toNat_inj, UInt8.le_iff_toNat_le,
        UInt8.lt_iff_toNat_lt] at here
      rcases here with h | h | h | ⟨-, h⟩
      · rw [h]; decide
      · rw [h]; decide
      · rw [h]; decide
      · exact h
    have byte : UInt8.ofNat b.toNat = b := UInt8.ofNat_toNat
    obtain ⟨legal, encoded⟩ := single b.toNat small (by rw [byte]; exact here)
    rw [byte] at encoded
    refine @xmlText_append [b] _ ⟨[Char.ofNat b.toNat], ?_, ?_⟩
      (ih fun c member => ascii c (by simp [member]))
    · simpa using legal
    · rw [List.flatMap_singleton, encoded]

end Irestore.Library
