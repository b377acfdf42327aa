/-
# Plist.BinaryWrite — `plist_to_bin`

The encoder first walks the tree (`serializePlist`): a node that the hash table does
not know is numbered and its children are walked, one that it knows is left out with
all below it.  Then it writes the numbered nodes one after another, a container with
the numbers the table gives for its children, and behind them the offset table and
the trailer.

The walk meets a node as its pointer and its children (`Siblings HeapNode`).  The host
is little-endian; `probing` is the order in which the table meets its keys.
-/
import Irestore.Library.Preorder
import Irestore.Plist.BinaryCompare
import Irestore.Plist.BinaryRead

namespace Irestore.Plist

open Irestore.Library Irestore.Library.Bytes Irestore.Library.CMemory

set_option autoImplicit false

/-! ## Numbering the nodes -/

/-- The order in which `ref_table` meets its keys. -/
abbrev RefProbing := HashTable.Probing HeapNode Nat plistDataHash

/-- `struct serialize_s`. -/
structure Serialize where
  objects : List (HeapNode × Siblings HeapNode) := []
  refTable : List (HeapNode × Nat) := []

/-- `g_hash_table_lookup(ref_table, node)`. -/
def Serialize.lookup (probing : RefProbing) (ser : Serialize) (node : HeapNode) :
    Checked (Option Nat) :=
  HashTable.lookup probing plistDataCompare ser.refTable node

/-- Number a node and append it to the objects. -/
def Serialize.add (ser : Serialize) (node : HeapNode) (children : Siblings HeapNode) : Serialize :=
  { objects := ser.objects ++ [(node, children)]
    refTable := ser.refTable ++ [(node, ser.objects.length)] }

/-- `serialize_plist` for a node and its later siblings. -/
def serializePlist (probing : RefProbing) : Siblings HeapNode → Serialize → Checked Serialize
  | .nil, ser => .ok ser
  | .cons node children next, ser => do
      let val ← ser.lookup probing node
      let ser ← (match val with
        | some _ => .ok ser
        | none => serializePlist probing children (ser.add node children))
      serializePlist probing next ser

/-! ## Writing the nodes -/

/-- `Log2(x)`. -/
def log2 (x : Nat) : Nat := if x = 8 then 3 else if x = 4 then 2 else if x = 2 then 1 else 0

def writeInt (val : Nat) : List UInt8 :=
  let size := getNeededBytes val
  let size := if size = 3 then size + 1 else size
  UInt8.ofNat (0x10 ||| log2 size) :: be size val

/-- `write_real`: as a float when that loses nothing. -/
def writeReal (platform : Platform) (val : UInt64) : List UInt8 :=
  match platform.floatOfDouble val with
  | some float => UInt8.ofNat (0x20 ||| log2 4) :: be 4 float.toNat
  | none => UInt8.ofNat (0x20 ||| log2 8) :: be 8 val.toNat

def writeDate (val : UInt64) : List UInt8 := UInt8.ofNat (0x30 ||| log2 8) :: be 8 val.toNat

/-- The marker of a sized object; from 15 on, the size stands behind it. -/
def writeMarker (mark size : Nat) : List UInt8 :=
  UInt8.ofNat (mark ||| if size < 15 then size else 0xf) ::
    if size ≥ 15 then writeInt size else []

/-- `write_raw_data`; the size of a Unicode string is in code units. -/
def writeRawData (mark : Nat) (val : List UInt8) (size : Nat) : Checked (List UInt8) := do
  let buff ← memcpy val (if mark = 0x60 then size * 2 else size)
  return writeMarker mark size ++ buff

def writeData (val : List UInt8) (size : Nat) : Checked (List UInt8) := writeRawData 0x40 val size

def writeString (val : List UInt8) : Checked (List UInt8) :=
  writeRawData 0x50 val (cString val).length

/-- `write_unicode`: each code unit is byte-swapped. -/
def writeUnicode (val : List UInt16) : Checked (List UInt8) :=
  writeRawData 0x60 (val.flatMap fun unit => byteConvert (le 2 unit.toNat)) val.length

/-- The number of a child, most significant byte first; a child the table does not know
gives a null pointer. -/
def writeRef (probing : RefProbing) (ser : Serialize) (dictParamSize : Nat) (cur : HeapNode) :
    Checked (List UInt8) := do
  match ← ser.lookup probing cur with
  | some idx => return byteConvert (le dictParamSize idx)
  | none => .error .nullPointer

def writeArray (probing : RefProbing) (ser : Serialize) (dictParamSize : Nat)
    (children : Siblings HeapNode) : Checked (List UInt8) := do
  let buff ← children.tops.mapM (writeRef probing ser dictParamSize)
  return writeMarker 0xA0 children.length ++ buff.flatten

/-- The keys and the values of a dictionary; a key without a value is left out. -/
def pairs {α : Type} : List α → List α × List α
  | key :: value :: rest => (key :: (pairs rest).1, value :: (pairs rest).2)
  | _ => ([], [])

/-- `write_dict`: the numbers of the keys, then those of the values. -/
def writeDict (probing : RefProbing) (ser : Serialize) (dictParamSize : Nat)
    (children : Siblings HeapNode) : Checked (List UInt8) := do
  let size := children.length / 2
  let keys ← (pairs children.tops).1.mapM (writeRef probing ser dictParamSize)
  let values ← (pairs children.tops).2.mapM (writeRef probing ser dictParamSize)
  return writeMarker 0xD0 size ++ (keys.flatten ++ values.flatten)

/-- `is_ascii_string`: the length is passed as an `int`. -/
def isAsciiString (s : List UInt8) (len : Nat) : Bool :=
  let len := if len % 2 ^ 32 < 2 ^ 31 then len % 2 ^ 32 else 0
  (s.take len).all (· < 128)

/-- What `plist_to_bin` writes for one object.  The case of data has no `break`: an
empty array follows it.  On text that is not valid UTF-8 the conversion gives NULL. -/
def writeObject (platform : Platform) (probing : RefProbing) (ser : Serialize)
    (dictParamSize : Nat) (object : HeapNode × Siblings HeapNode) : Checked (List UInt8) :=
  let data := object.1.data
  match data.type, data.value with
  | .boolean, .word bits => .ok [if bits.toUInt8 ≠ 0 then 0x09 else 0x08]
  | .uint, .word bits => .ok (writeInt bits.toNat)
  | .real, .word bits => .ok (writeReal platform bits)
  | .key, .strval text | .string, .strval text =>
      if isAsciiString text text.length then writeString (text ++ [0])
      else
        match platform.utf8ToUtf16 text with
        | some units => writeUnicode units
        | none => .error .nullPointer
  | .data, .buff bytes => do
      let written ← writeData bytes data.length
      let empty ← writeArray probing ser dictParamSize object.2
      return written ++ empty
  | .array, _ => writeArray probing ser dictParamSize object.2
  | .dict, _ => writeDict probing ser dictParamSize object.2
  | .date, .timeval sec usec => .ok (writeDate (platform.doubleOfTime (sec, usec)))
  | .none, _ => .ok []
  | _, _ => .error .wildPointer

/-! ## The file -/

/-- Where each object begins, the first at `start`. -/
def offsetsFrom : Nat → List (List UInt8) → List Nat
  | _, [] => []
  | start, object :: rest => start :: offsetsFrom (start + object.length) rest

/-- The header, the objects, the offset table, the padding and the trailer. -/
def binaryFile (dictParamSize : Nat) (objects : List (List UInt8)) : List UInt8 :=
  let body := bplistHeader ++ objects.flatten
  let offsetSize := getNeededBytes body.length
  body ++ ((offsetsFrom bplistHeader.length objects).flatMap fun offset =>
      byteConvert (le offsetSize offset)) ++
    List.replicate 6 0 ++
    [UInt8.ofNat offsetSize, UInt8.ofNat dictParamSize] ++ be 8 objects.length ++ be 8 0 ++
    be 8 body.length

/-- `plist_to_bin`. -/
def plistToBin (platform : Platform) (probing : RefProbing) (plist : HeapNode)
    (children : Siblings HeapNode) : Checked (List UInt8) := do
  let ser ← serializePlist probing (.cons plist children .nil) {}
  let dictParamSize := getNeededBytes ser.objects.length
  let objects ← ser.objects.mapM (writeObject platform probing ser dictParamSize)
  return binaryFile dictParamSize objects

end Irestore.Plist
