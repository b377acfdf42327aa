/-
# Img3.Element — the elements of an IMG3 image

An image is a 20-byte header and elements end to end; an element begins with its
signature, its own full size and the size of its data, four little-endian bytes
each.  `Element` carries its well-formedness: at least its 12-byte header, and the
size it says.

* `elements_injective` — the bytes of a list of elements determine it.
-/
import Irestore.Library.CMemory
import Irestore.Library.Records

namespace Irestore.Img3

open Irestore.Library.Bytes Irestore.Library.CMemory Irestore.Library.Records

set_option autoImplicit false

/-! ## Constants -/

def kImg3Container : Nat := 0x496D6733
def kDataElement : Nat := 0x44415441
def kTypeElement : Nat := 0x54595045
def kKbagElement : Nat := 0x4B424147
def kShshElement : Nat := 0x53485348
def kCertElement : Nat := 0x43455254
def kVersElement : Nat := 0x56455253
def kBordElement : Nat := 0x424F5244
def kSepoElement : Nat := 0x5345504F
def kEcidElement : Nat := 0x45434944
def kUnknElement : Nat := 0x53414C54

/-- An `unsigned int` field of a header. -/
def field (bytes : List UInt8) (off : Nat) : Nat := ofLE (slice bytes off 4)

/-! ## Elements -/

/-- A well-formed element, as its bytes. -/
structure Element where
  bytes : List UInt8
  header_le : 12 ≤ bytes.length
  delimited : field bytes 4 = bytes.length
  deriving DecidableEq

namespace Element

def signature (e : Element) : Nat := field e.bytes 0

theorem ext_bytes {a b : Element} (same : a.bytes = b.bytes) : a = b := by
  cases a
  cases b
  cases same
  rfl

theorem bytes_ne_nil (e : Element) : e.bytes ≠ [] := by
  intro empty
  have := e.header_le
  rw [empty] at this
  cases this

end Element

theorem field_append {front back : List UInt8} {off : Nat} (inside : off + 4 ≤ front.length) :
    field (front ++ back) off = field front off := by
  rw [field, slice_append_left inside, field]

theorem field_take {bytes : List UInt8} {n off : Nat} (inside : off + 4 ≤ n) :
    field (bytes.take n) off = field bytes off := by
  rw [field, slice_take inside, field]

theorem field_lt (bytes : List UInt8) (off : Nat) : field bytes off < 2 ^ 32 := by
  have bound := ofLE_lt (slice bytes off 4)
  have short : (slice bytes off 4).length ≤ 4 := List.length_take_le _ _
  calc field bytes off < 256 ^ (slice bytes off 4).length := bound
    _ ≤ 256 ^ 4 := Nat.pow_le_pow_right (by decide) short
    _ = 2 ^ 32 := by decide

/-- An element ends where its size says. -/
theorem element_prefixFree : PrefixFree Element.bytes := by
  intro a b s t same
  have sizes : field (a.bytes ++ s) 4 = field (b.bytes ++ t) 4 := congrArg (field · 4) same
  rw [field_append (by have := a.header_le; omega), field_append (by have := b.header_le; omega),
    a.delimited, b.delimited] at sizes
  obtain ⟨head, tail⟩ := List.append_inj same sizes
  exact ⟨Element.ext_bytes head, tail⟩

/-- **The bytes of a list of elements determine it.** -/
theorem elements_injective {es es' : List Element}
    (same : es.flatMap Element.bytes = es'.flatMap Element.bytes) : es = es' :=
  element_prefixFree.flatMap_injective Element.bytes_ne_nil same

/-- A signature element is one the TSS server replaces. -/
def Element.isSignature (e : Element) : Bool :=
  e.signature == kEcidElement || e.signature == kShshElement || e.signature == kCertElement

/-! ## Images and blobs -/

/-- The kinds of element `img3_parse_file` knows, a slot of the file each. -/
inductive Slot where
  | type | data | vers | sepo | bord | kbag | ecid | shsh | cert | unkn
  deriving DecidableEq, Repr

/-- The `switch` on an element's signature. -/
def slotOf (signature : Nat) : Option Slot :=
  if signature = kTypeElement then some .type
  else if signature = kDataElement then some .data
  else if signature = kVersElement then some .vers
  else if signature = kSepoElement then some .sepo
  else if signature = kBordElement then some .bord
  else if signature = kKbagElement then some .kbag
  else if signature = kEcidElement then some .ecid
  else if signature = kShshElement then some .shsh
  else if signature = kCertElement then some .cert
  else if signature = kUnknElement then some .unkn
  else none

/-- An image of well-formed elements of known kinds; its size is an `int`. -/
structure Image where
  header : List UInt8
  elements : List Element
  header_length : header.length = 20
  container : field header 0 = kImg3Container
  known : ∀ e ∈ elements, slotOf e.signature ≠ none
  small : 20 + (elements.flatMap Element.bytes).length < 2 ^ 31

def Image.bytes (image : Image) : List UInt8 := image.header ++ image.elements.flatMap Element.bytes

/-- A TSS blob: an ECID, an SHSH and a CERT element. -/
structure Blob where
  ecid : Element
  shsh : Element
  cert : Element
  ecid_signature : ecid.signature = kEcidElement
  shsh_signature : shsh.signature = kShshElement
  cert_signature : cert.signature = kCertElement

def Blob.elements (blob : Blob) : List Element := [blob.ecid, blob.shsh, blob.cert]

def Blob.bytes (blob : Blob) : List UInt8 := blob.elements.flatMap Element.bytes

end Irestore.Img3
