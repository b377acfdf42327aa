/-
# Img3.File — `img3.c`: parsing an image, replacing its signature, writing it back

`img3_parse_file` puts each element into the slot of its kind (a second KBAG into
a slot of its own), `img3_replace_signature` puts the blob's three elements into
theirs, and `img3_get_data` writes the slots in an order of its own.

Sizes and offsets are `int`s: a sum past `2^31` is a negative number, which no
allocation serves and no buffer holds at.  Allocations of other sizes succeed.
-/
import Irestore.Img3.Element

namespace Irestore.Img3

open Irestore.Library.Bytes Irestore.Library.CMemory

set_option autoImplicit false

/-- `img3_element`: the block of the element and its type. -/
structure Img3Element where
  data : List UInt8
  type : Nat
  deriving DecidableEq

/-- `img3_file`. -/
structure Img3File where
  header : List UInt8
  typeElement : Option Img3Element := none
  dataElement : Option Img3Element := none
  versElement : Option Img3Element := none
  sepoElement : Option Img3Element := none
  bordElement : Option Img3Element := none
  kbag1Element : Option Img3Element := none
  kbag2Element : Option Img3Element := none
  ecidElement : Option Img3Element := none
  shshElement : Option Img3Element := none
  certElement : Option Img3Element := none
  unknElement : Option Img3Element := none

/-- An `unsigned int` read from memory. -/
def readField (data : List UInt8) (off : Nat) : Checked Nat := do
  let bytes ← memcpy (data.drop off) 4
  return ofLE bytes

/-- `img3_parse_element`. -/
def img3ParseElement (data : List UInt8) : Checked Img3Element := do
  let fullSize ← readField data 4
  let block ← memcpy data fullSize
  let type ← readField block 0
  return ⟨block, type⟩

/-- Put a parsed element into its slot. -/
def Img3File.put (image : Img3File) (element : Img3Element) : Slot → Img3File
  | .type => { image with typeElement := some element }
  | .data => { image with dataElement := some element }
  | .vers => { image with versElement := some element }
  | .sepo => { image with sepoElement := some element }
  | .bord => { image with bordElement := some element }
  | .kbag =>
      if image.kbag1Element = none then { image with kbag1Element := some element }
      else { image with kbag2Element := some element }
  | .ecid => { image with ecidElement := some element }
  | .shsh => { image with shshElement := some element }
  | .cert => { image with certElement := some element }
  | .unkn => { image with unknElement := some element }

/-- The loop of `img3_parse_file`, on the bytes from `data_offset` to the end.  An
element takes at least the four bytes its type is read from, so as much fuel as
there are bytes is enough. -/
def parseElements : Nat → Img3File → List UInt8 → Checked (Option Img3File)
  | _, image, [] => .ok (some image)
  | 0, _, _ :: _ => .error .diverges
  | fuel + 1, image, data@(_ :: _) => do
      let signature ← readField data 0
      match slotOf signature with
      | none => return none
      | some slot => do
          let element ← img3ParseElement data
          let fullSize ← readField data 4
          parseElements fuel (image.put element slot) (data.drop fullSize)

/-- `img3_parse_file`; `none` is NULL. -/
def img3ParseFile (data : List UInt8) : Checked (Option Img3File) := do
  let signature ← readField data 0
  if signature ≠ kImg3Container then return none
  else do
    let header ← memcpy data 20
    parseElements data.length { header := header } (data.drop 20)

/-- The element at an `int` offset of the signature. -/
def parseElementAt (signature : List UInt8) (offset : Nat) : Checked Img3Element :=
  if offset % 2 ^ 32 < 2 ^ 31 then img3ParseElement (signature.drop (offset % 2 ^ 32))
  else .error .outOfBounds

/-- `img3_replace_signature`; `none` is its return code -1. -/
def img3ReplaceSignature (image : Img3File) (signature : List UInt8) :
    Checked (Option Img3File) := do
  let ecid ← parseElementAt signature 0
  if ecid.type ≠ kEcidElement then return none
  else do
    let ecidSize ← readField ecid.data 4
    let shsh ← parseElementAt signature ecidSize
    if shsh.type ≠ kShshElement then return none
    else do
      let shshSize ← readField shsh.data 4
      let cert ← parseElementAt signature (ecidSize + shshSize)
      if cert.type ≠ kCertElement then return none
      else do
        -- `offset` is moved past the CERT too, and not used again
        let _ ← readField cert.data 4
        return some { image with
          ecidElement := some ecid, shshElement := some shsh, certElement := some cert }

/-- The slots before the SHSH, in the order `img3_get_data` writes them. -/
def Img3File.beforeShsh (image : Img3File) : List Img3Element :=
  [image.typeElement, image.dataElement, image.versElement, image.sepoElement, image.bordElement,
    image.kbag1Element, image.kbag2Element, image.ecidElement].filterMap id

/-- All slots, in the order `img3_get_data` writes them. -/
def Img3File.slots (image : Img3File) : List Img3Element :=
  image.beforeShsh ++ [image.shshElement, image.certElement, image.unknElement].filterMap id

/-- The sum of the elements' `full_size`. -/
def totalSize : List Img3Element → Checked Nat
  | [] => .ok 0
  | e :: es => do
      let fullSize ← readField e.data 4
      let rest ← totalSize es
      return fullSize + rest

/-- Copy the elements behind each other into a block of `size` bytes, of which
`offset` are taken. -/
def copyElements (size : Nat) : Nat → List Img3Element → Checked (List UInt8)
  | _, [] => .ok []
  | offset, e :: es => do
      let fullSize ← readField e.data 4
      let piece ← memcpy e.data fullSize
      if size < offset + fullSize then .error .outOfBounds
      else do
        let rest ← copyElements size (offset + fullSize) es
        return piece ++ rest

/-- `img3_get_data`; `none` is its return code -1.  `unset` is what malloc left in
`shsh_offset`. -/
def img3GetData (image : Img3File) (unset : Nat) : Checked (Option (List UInt8)) := do
  let total ← totalSize image.slots
  let size := (20 + total) % 2 ^ 32
  if 2 ^ 31 ≤ size then return none
  else do
    let signature ← readField image.header 0
    let imageType ← readField image.header 16
    let body ← copyElements size 20 image.slots
    let before ← totalSize image.beforeShsh
    let shshOffset := if image.shshElement = none then unset else before
    if 20 + body.length ≠ size then return none
    else return some (le 4 signature ++ (le 4 size ++ (le 4 (size - 20) ++ (le 4 shshOffset ++
      (le 4 imageType ++ body)))))

/-- Parse an image, replace its signature by the blob and write it back. -/
def img3Sign (data signature : List UInt8) (unset : Nat) : Checked (Option (List UInt8)) := do
  let parsed ← img3ParseFile data
  match parsed with
  | none => return none
  | some image => do
      let replaced ← img3ReplaceSignature image signature
      match replaced with
      | none => return none
      | some image => img3GetData image unset

end Irestore.Img3
