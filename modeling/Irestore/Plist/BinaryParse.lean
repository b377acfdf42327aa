/-
# Plist.BinaryParse — one object of a binary property list

`parse_bin_node` turns the bytes at an object's offset into a node.  The
definitions here follow it: the marker byte chooses the kind of object, its low
nibble the size, `0x0F` asks for a nested integer object that holds the size.
Containers keep the bytes of their references in `buff`; `plist_from_bin` links
them later.

`Written w object bytes` is the format itself, as a relation that mentions no
parser: `bytes` begin with `object`, references `w` bytes wide.  `parse_written`
says that the parser returns the object's node on every such input.
-/
import Irestore.Plist.Node

namespace Irestore.Plist

open Irestore.Library.Bytes Irestore.Library.CMemory

set_option autoImplicit false

/-- What the binary property list code takes from its surroundings: whether
`malloc` serves a request of so many bytes, GLib's conversions between UTF-8 and
UTF-16, and the machine's floating point, on bit patterns. -/
structure Platform where
  malloc : Nat → Bool
  utf8ToUtf16 : List UInt8 → Option (List UInt16)
  utf16ToUtf8 : List UInt16 → Option (List UInt8)
  doubleOfFloat : UInt32 → UInt64
  floatOfDouble : UInt64 → Option UInt32
  timeOfDouble : UInt64 → Int × Int
  doubleOfTime : Int × Int → UInt64

/-! ## Integers -/

/-- `byte_convert` on a little-endian host: the bytes in reverse. -/
def byteConvert (address : List UInt8) : List UInt8 := address.reverse

/-- `uint24_from_be`: three bytes behind a zero one, converted, read by the host. -/
def uint24FromBe (buf : List UInt8) : Nat := ofLE (byteConvert (0 :: buf))

/-- How many bytes `UINT_TO_HOST(x, n)` reads. -/
def hostWidth (n : Nat) : Nat :=
  if n = 8 then 8 else if n = 4 then 4 else if n = 3 then 3 else if n = 2 then 2 else 1

/-- `UINT_TO_HOST(x, n)`. -/
def uintToHost (x : List UInt8) (n : Nat) : Checked Nat := do
  let bytes ← memcpy x (hostWidth n)
  return if n = 3 then uint24FromBe bytes else ofBE bytes

/-- `get_needed_bytes(x)`. -/
def getNeededBytes (x : Nat) : Nat :=
  if x < 2 ^ 8 then 1 else if x < 2 ^ 16 then 2 else if x < 2 ^ 24 then 3
  else if x < 2 ^ 32 then 4 else 8

theorem uintToHost_eq_ok {x : List UInt8} {n v : Nat} :
    uintToHost x n = .ok v ↔ hostWidth n ≤ x.length ∧ v = ofBE (x.take (hostWidth n)) := by
  have value : ∀ bytes, (if n = 3 then uint24FromBe bytes else ofBE bytes) = ofBE bytes := by
    intro bytes
    split
    · rw [uint24FromBe, byteConvert, ← ofBE, ofBE_zero_cons]
    · rfl
  simp only [uintToHost, value, bind_eq_ok, memcpy_eq_ok]
  constructor
  · rintro ⟨bytes, ⟨fits, rfl⟩, read⟩
    exact ⟨fits, (Except.ok.inj read).symm⟩
  · rintro ⟨fits, rfl⟩
    exact ⟨_, ⟨fits, rfl⟩, rfl⟩

theorem hostWidth_pos (n : Nat) : 0 < hostWidth n := by
  unfold hostWidth
  split_ifs <;> omega

theorem hostWidth_le {n : Nat} (positive : 0 < n) : hostWidth n ≤ n := by
  unfold hostWidth
  split_ifs <;> omega

/-! ## The parsers of each kind -/

/-- A parsed node, NULL when there is none, and `*next_object` when it was set. -/
abbrev Parsed := Option PlistData × Option (List UInt8)

def parseUintNode (bnode : List UInt8) (size : Nat) : Checked Parsed :=
  let size := 2 ^ size % 256
  if size = 1 ∨ size = 2 ∨ size = 4 ∨ size = 8 then do
    let bytes ← memcpy bnode size
    let intval ← uintToHost (bytes ++ List.replicate (8 - size) 0) size
    return (some ⟨.word (UInt64.ofNat intval), 8, .uint⟩, some (bnode.drop size))
  else return (none, none)

/-- The union's word after `parse_real_node`; NULL for any width but 4 and 8. -/
def parseRealWord (platform : Platform) (bnode : List UInt8) (size : Nat) :
    Checked (Option UInt64) := do
  let size := 2 ^ size % 256
  let buf ← memcpy bnode size
  if size = 4 then return some (platform.doubleOfFloat (UInt32.ofNat (ofLE (byteConvert buf))))
  else if size = 8 then return some (UInt64.ofNat (ofLE (byteConvert buf)))
  else return none

def parseRealNode (platform : Platform) (bnode : List UInt8) (size : Nat) : Checked Parsed := do
  let word ← parseRealWord platform bnode size
  return (word.map fun bits => ⟨.word bits, 8, .real⟩, none)

def parseDateNode (platform : Platform) (bnode : List UInt8) (size : Nat) : Checked Parsed := do
  let word ← parseRealWord platform bnode size
  return (word.map fun bits =>
    ⟨.timeval (platform.timeOfDouble bits).1 (platform.timeOfDouble bits).2, 16, .date⟩, none)

def parseStringNode (bnode : List UInt8) (size : Nat) : Checked PlistData := do
  let block ← memcpy bnode size
  return ⟨.strval (cString block), (cString block).length, .string⟩

/-- Big-endian UTF-16 code units. -/
def codeUnits : List UInt8 → List UInt16
  | a :: b :: rest => UInt16.ofNat (ofBE [a, b]) :: codeUnits rest
  | _ => []

/-- What `g_utf16_to_utf8` makes of a block; on invalid input it returns NULL
and leaves `items_written` at 0, which gives the empty string. -/
def Platform.textOfUnits (platform : Platform) (block : List UInt8) : List UInt8 :=
  cString ((platform.utf16ToUtf8 (codeUnits block)).getD [])

def parseUnicodeNode (platform : Platform) (bnode : List UInt8) (size : Nat) :
    Checked PlistData := do
  let block ← memcpy bnode (2 * size)
  let text := platform.textOfUnits block
  return ⟨.strval text, text.length, .string⟩

def parseDataNode (bnode : List UInt8) (size : Nat) : Checked PlistData := do
  let buff ← memcpy bnode size
  return ⟨.buff buff, size, .data⟩

/-- The size of a reference block is computed in 64 bits. -/
def parseDictNode (refSize : Nat) (bnode : List UInt8) (size : Nat) : Checked PlistData := do
  let buff ← memcpy bnode (size * refSize * 2 % 2 ^ 64)
  return ⟨.buff buff, size, .dict⟩

def parseArrayNode (refSize : Nat) (bnode : List UInt8) (size : Nat) : Checked PlistData := do
  let buff ← memcpy bnode (size * refSize % 2 ^ 64)
  return ⟨.buff buff, size, .array⟩

/-- The five sized kinds of `parse_bin_node`: with nibble `0x0F` the size is read
by `parse_bin_node` itself (`sizeNode`), which moves `object` behind it; a size
object that is no integer makes the node NULL. -/
def parseSized (sizeNode : Checked Parsed) (object : List UInt8) (size : Nat)
    (parse : List UInt8 → Nat → Checked PlistData) : Checked Parsed :=
  if size = 0x0F then do
    let (node, next) ← sizeNode
    match node with
    | some ⟨.word bits, _, .uint⟩ => do
        let d ← parse (next.getD object) bits.toNat
        return (some d, none)
    | _ => return (none, none)
  else do
    let d ← parse object size
    return (some d, none)

/-- `parse_bin_node`, on the bytes from the object to the end of the file. -/
def parseBinNode (platform : Platform) (dictSize : Nat) : List UInt8 → Checked Parsed
  | [] => .error .outOfBounds
  | marker :: object =>
      let type := marker.toNat / 16
      let size := marker.toNat % 16
      let sizeNode := parseBinNode platform dictSize object
      match type with
      | 0x0 =>
          if size = 9 then return (some ⟨.word 1, 1, .boolean⟩, none)
          else if size = 8 then return (some ⟨.word 0, 1, .boolean⟩, none)
          else return (none, none)
      | 0x1 => parseUintNode object size
      | 0x2 => parseRealNode platform object size
      | 0x3 => if size = 3 then parseDateNode platform object size else return (none, none)
      | 0x4 => parseSized sizeNode object size parseDataNode
      | 0x5 => parseSized sizeNode object size parseStringNode
      | 0x6 => parseSized sizeNode object size (parseUnicodeNode platform)
      | 0x7 | 0xA => parseSized sizeNode object size (parseArrayNode dictSize)
      | 0xC | 0xD => parseSized sizeNode object size (parseDictNode dictSize)
      | _ => return (none, none)

/-! ## The format -/

/-- The objects of the format.  A container has its count and the block of its
references. -/
inductive Object where
  | boolean (b : Bool)
  | uint (n : UInt64)
  | real (bytes : List UInt8)
  | date (bytes : List UInt8)
  | string (block : List UInt8)
  | unicode (block : List UInt8)
  | data (bytes : List UInt8)
  | array (count : Nat) (refs : List UInt8)
  | dict (count : Nat) (refs : List UInt8)
  deriving DecidableEq, Repr

/-- The marker of a kind with a count: in the low nibble when it is below 15,
else in an integer object of 1, 2, 4 or 8 bytes behind the marker. -/
inductive Counted (mark : Nat) : Nat → List UInt8 → Prop where
  | short {count : Nat} (small : count < 15) : Counted mark count [UInt8.ofNat (mark + count)]
  | long {k : Nat} {bytes : List UInt8} (width : k ≤ 3) (length : bytes.length = 2 ^ k) :
      Counted mark (ofBE bytes) (UInt8.ofNat (mark + 15) :: UInt8.ofNat (0x10 + k) :: bytes)

/-- `bytes` begin with `object`, references `dictSize` bytes wide.  The decoder
reads a UID as an array and a set as a dictionary. -/
inductive Written (dictSize : Nat) : Object → List UInt8 → Prop where
  | false {rest : List UInt8} : Written dictSize (.boolean false) (0x08 :: rest)
  | true {rest : List UInt8} : Written dictSize (.boolean true) (0x09 :: rest)
  | uint {k : Nat} {bytes rest : List UInt8} (width : k ≤ 3) (length : bytes.length = 2 ^ k) :
      Written dictSize (.uint (UInt64.ofNat (ofBE bytes)))
        (UInt8.ofNat (0x10 + k) :: (bytes ++ rest))
  | float {bytes rest : List UInt8} (length : bytes.length = 4) :
      Written dictSize (.real bytes) (0x22 :: (bytes ++ rest))
  | double {bytes rest : List UInt8} (length : bytes.length = 8) :
      Written dictSize (.real bytes) (0x23 :: (bytes ++ rest))
  | date {bytes rest : List UInt8} (length : bytes.length = 8) :
      Written dictSize (.date bytes) (0x33 :: (bytes ++ rest))
  | data {head bytes rest : List UInt8} (counted : Counted 0x40 bytes.length head) :
      Written dictSize (.data bytes) (head ++ (bytes ++ rest))
  | string {head block rest : List UInt8} (counted : Counted 0x50 block.length head) :
      Written dictSize (.string block) (head ++ (block ++ rest))
  | unicode {count : Nat} {head block rest : List UInt8} (counted : Counted 0x60 count head)
      (length : block.length = 2 * count) :
      Written dictSize (.unicode block) (head ++ (block ++ rest))
  | array {mark count : Nat} {head refs rest : List UInt8} (marked : mark = 0xA0 ∨ mark = 0x70)
      (counted : Counted mark count head) (length : refs.length = count * dictSize) :
      Written dictSize (.array count refs) (head ++ (refs ++ rest))
  | dict {mark count : Nat} {head refs rest : List UInt8} (marked : mark = 0xD0 ∨ mark = 0xC0)
      (counted : Counted mark count head) (length : refs.length = count * dictSize * 2) :
      Written dictSize (.dict count refs) (head ++ (refs ++ rest))

/-- The node the parser makes of an object. -/
def Object.node (platform : Platform) : Object → PlistData
  | .boolean b => ⟨.word (if b then 1 else 0), 1, .boolean⟩
  | .uint n => ⟨.word n, 8, .uint⟩
  | .real bytes =>
      ⟨.word (if bytes.length = 4 then platform.doubleOfFloat (UInt32.ofNat (ofBE bytes))
        else UInt64.ofNat (ofBE bytes)), 8, .real⟩
  | .date bytes =>
      let time := platform.timeOfDouble (UInt64.ofNat (ofBE bytes))
      ⟨.timeval time.1 time.2, 16, .date⟩
  | .string block => ⟨.strval (cString block), (cString block).length, .string⟩
  | .unicode block =>
      ⟨.strval (platform.textOfUnits block), (platform.textOfUnits block).length, .string⟩
  | .data bytes => ⟨.buff bytes, bytes.length, .data⟩
  | .array count refs => ⟨.buff refs, count, .array⟩
  | .dict count refs => ⟨.buff refs, count, .dict⟩

/-! ## The parser reads the format -/

variable {platform : Platform} {dictSize : Nat}

theorem two_pow_width {k : Nat} (width : k ≤ 3) :
    2 ^ k % 256 = 2 ^ k ∧ hostWidth (2 ^ k) = 2 ^ k ∧ 2 ^ k ≤ 8 ∧
      (2 ^ k = 1 ∨ 2 ^ k = 2 ∨ 2 ^ k = 4 ∨ 2 ^ k = 8) := by
  have cases : k = 0 ∨ k = 1 ∨ k = 2 ∨ k = 3 := by omega
  rcases cases with rfl | rfl | rfl | rfl <;> decide

theorem ofBE_lt_word {k : Nat} {bytes : List UInt8} (width : k ≤ 3)
    (length : bytes.length = 2 ^ k) : ofBE bytes < 2 ^ 64 := by
  have bound := ofBE_lt bytes
  have short : bytes.length ≤ 8 := by
    rw [length]
    exact (two_pow_width width).2.2.1
  calc ofBE bytes < 256 ^ bytes.length := bound
    _ ≤ 256 ^ 8 := Nat.pow_le_pow_right (by decide) short
    _ = 2 ^ 64 := by decide

theorem parseUintNode_written {k : Nat} {bytes rest : List UInt8} (width : k ≤ 3)
    (length : bytes.length = 2 ^ k) :
    parseUintNode (bytes ++ rest) k =
      .ok (some ⟨.word (UInt64.ofNat (ofBE bytes)), 8, .uint⟩, some rest) := by
  obtain ⟨small, host, short, known⟩ := two_pow_width width
  have read : uintToHost (bytes ++ List.replicate (8 - 2 ^ k) 0) (2 ^ k) = .ok (ofBE bytes) := by
    rw [uintToHost_eq_ok, host]
    refine ⟨by simp [length], ?_⟩
    rw [← length, List.take_left]
  simp only [parseUintNode, small, known, if_true, memcpy_append length, bind, Except.bind, read]
  rw [← length, List.drop_left]
  rfl

theorem parseBinNode_uint {k : Nat} {bytes rest : List UInt8} (width : k ≤ 3)
    (length : bytes.length = 2 ^ k) :
    parseBinNode platform dictSize (UInt8.ofNat (0x10 + k) :: (bytes ++ rest)) =
      .ok (some ⟨.word (UInt64.ofNat (ofBE bytes)), 8, .uint⟩, some rest) := by
  have marker : (UInt8.ofNat (0x10 + k)).toNat = 0x10 + k := by
    simp only [UInt8.toNat_ofNat']
    omega
  have type : (0x10 + k) / 16 = 1 := by omega
  have size : (0x10 + k) % 16 = k := by omega
  rw [parseBinNode]
  simp only [marker, type, size]
  exact parseUintNode_written width length

/-- A counted marker hands its count and the bytes behind it to the parser of
its kind. -/
theorem parseSized_counted (platform : Platform) (dictSize : Nat) (body : List UInt8)
    {mark count : Nat} {head : List UInt8} (parse : List UInt8 → Nat → Checked PlistData)
    (kind : mark % 16 = 0) (byte : mark < 256) (counted : Counted mark count head) :
    ∃ marker object, head ++ body = marker :: object ∧ marker.toNat / 16 = mark / 16 ∧
      parseSized (parseBinNode platform dictSize object) object (marker.toNat % 16) parse =
        (parse body count).map fun d => (some d, none) := by
  cases counted with
  | short small =>
    have marker : (UInt8.ofNat (mark + count)).toNat = mark + count := by
      simp only [UInt8.toNat_ofNat']
      omega
    have size : (mark + count) % 16 = count := by omega
    have inline : ¬ count = 15 := by omega
    refine ⟨_, body, rfl, by rw [marker]; omega, ?_⟩
    simp only [parseSized, marker, size, inline, if_false]
    cases parse body count <;> rfl
  | @long k bytes width length =>
    have marker : (UInt8.ofNat (mark + 15)).toNat = mark + 15 := by
      simp only [UInt8.toNat_ofNat']
      omega
    have size : (mark + 15) % 16 = 15 := by omega
    have word : (UInt64.ofNat (ofBE bytes)).toNat = ofBE bytes := by
      rw [UInt64.toNat_ofNat']
      exact Nat.mod_eq_of_lt (ofBE_lt_word width length)
    refine ⟨UInt8.ofNat (mark + 15), UInt8.ofNat (0x10 + k) :: (bytes ++ body), by simp,
      by rw [marker]; omega, ?_⟩
    simp only [parseSized, marker, size, if_true, parseBinNode_uint width length, bind,
      Except.bind, Option.getD_some, word]
    cases parse body (ofBE bytes) <;> rfl

/-- **The parser returns the node of the object its input begins with.** -/
theorem parse_written {object : Object} {bytes : List UInt8}
    (written : Written dictSize object bytes) (small : bytes.length < 2 ^ 64) :
    ∃ next, parseBinNode platform dictSize bytes = .ok (some (object.node platform), next) := by
  cases written with
  | false => exact ⟨_, rfl⟩
  | true => exact ⟨_, rfl⟩
  | uint width length => exact ⟨_, parseBinNode_uint width length⟩
  | @float bytes rest length =>
    refine ⟨none, ?_⟩
    have copied := @memcpy_append _ rest _ length
    simp [parseBinNode, parseRealNode, parseRealWord, copied, bind, Except.bind, Object.node,
      length, byteConvert, ofBE, pure, Except.pure]
  | @double bytes rest length =>
    refine ⟨none, ?_⟩
    have copied := @memcpy_append _ rest _ length
    simp [parseBinNode, parseRealNode, parseRealWord, copied, bind, Except.bind, Object.node,
      length, byteConvert, ofBE, pure, Except.pure]
  | @date bytes rest length =>
    refine ⟨none, ?_⟩
    have copied := @memcpy_append _ rest _ length
    simp [parseBinNode, parseDateNode, parseRealWord, copied, bind, Except.bind, Object.node,
      byteConvert, ofBE, pure, Except.pure]
  | @data head bytes rest counted =>
    obtain ⟨marker, object, split, type, parsed⟩ := parseSized_counted platform
      dictSize (bytes ++ rest) parseDataNode (by decide) (by decide) counted
    refine ⟨none, ?_⟩
    simp only [split, parseBinNode, type, parsed, parseDataNode, memcpy_append rfl]
    rfl
  | @string head block rest counted =>
    obtain ⟨marker, object, split, type, parsed⟩ := parseSized_counted platform
      dictSize (block ++ rest) parseStringNode (by decide) (by decide) counted
    refine ⟨none, ?_⟩
    simp only [split, parseBinNode, type, parsed, parseStringNode, memcpy_append rfl]
    rfl
  | @unicode count head block rest counted length =>
    obtain ⟨marker, object, split, type, parsed⟩ := parseSized_counted platform
      dictSize (block ++ rest) (parseUnicodeNode platform) (by decide) (by decide) counted
    refine ⟨none, ?_⟩
    simp only [split, parseBinNode, type, parsed, parseUnicodeNode, memcpy_append length]
    rfl
  | @array mark count head refs rest marked counted length =>
    have fits : count * dictSize % 2 ^ 64 = count * dictSize := by
      apply Nat.mod_eq_of_lt
      simp only [List.length_append, length] at small
      omega
    rcases marked with rfl | rfl
    all_goals
      obtain ⟨marker, object, split, type, parsed⟩ := parseSized_counted platform
        dictSize (refs ++ rest) (parseArrayNode dictSize) (by decide) (by decide) counted
      refine ⟨none, ?_⟩
      simp only [split, parseBinNode, type, parsed, parseArrayNode, fits, memcpy_append length]
      rfl
  | @dict mark count head refs rest marked counted length =>
    have fits : count * dictSize * 2 % 2 ^ 64 = count * dictSize * 2 := by
      apply Nat.mod_eq_of_lt
      simp only [List.length_append, length] at small
      omega
    rcases marked with rfl | rfl
    all_goals
      obtain ⟨marker, object, split, type, parsed⟩ := parseSized_counted platform
        dictSize (refs ++ rest) (parseDictNode dictSize) (by decide) (by decide) counted
      refine ⟨none, ?_⟩
      simp only [split, parseBinNode, type, parsed, parseDictNode, fits, memcpy_append length]
      rfl

end Irestore.Plist
