/-
# Plist.BinaryCompare — when the encoder takes two nodes for one

`plist_to_bin` writes nodes that are equal for its hash table only once: nodes with
the same `plist_data_hash` that `plist_data_compare` accepts.

* `plistDataHash`, `plistDataCompare` — the two, by type.
* `HeapNode.Holds` — a node that was made for an item.
-/
import Irestore.Library.HashTable
import Irestore.Plist.Node

namespace Irestore.Plist

open Irestore.Library Irestore.Library.Bytes Irestore.Library.CMemory

set_option autoImplicit false

/-! ## Hash and comparison -/

/-- A node as its pointer: where it is, and its data. -/
structure HeapNode where
  address : UInt64
  data : PlistData
  deriving DecidableEq, Repr

/-- `hash = hash << 7 ^ (*buff)` for each byte; `char` is signed. -/
def hashBytes (hash : UInt32) (buff : List UInt8) : UInt32 :=
  buff.foldl (fun hash b => hash <<< 7 ^^^ b.toInt8.toInt32.toUInt32) hash

/-- The bytes `plist_data_hash` hashes: those of the value, of the text, or of the
pointer itself. -/
def hashedBytes (key : HeapNode) : List UInt8 :=
  match key.data.type, key.data.value with
  | .boolean, .word bits | .uint, .word bits | .real, .word bits => le 8 bits.toNat
  | .key, .strval text | .string, .strval text => text
  | .data, _ | .array, _ | .dict, _ => le 8 key.address.toNat
  | .date, .timeval sec usec =>
      (le 8 (sec % 2 ^ 64).toNat ++ le 8 (usec % 2 ^ 64).toNat).take key.data.length
  | _, _ => []

def plistDataHash (key : HeapNode) : UInt32 := hashBytes key.data.type.code (hashedBytes key)

/-- `plist_data_compare`.  Blobs are compared over the length of the first one. -/
def plistDataCompare (a b : HeapNode) : Checked Bool :=
  if a.data.type ≠ b.data.type then .ok false
  else
    match a.data.type, a.data.value, b.data.value with
    | .boolean, .word u, .word v | .uint, .word u, .word v | .real, .word u, .word v =>
        .ok (decide (u = v))
    | .key, .strval u, .strval v | .string, .strval u, .strval v => .ok (decide (u = v))
    | .data, .buff u, .buff v => memcmp u v a.data.length
    | .array, _, _ | .dict, _, _ => .ok (decide (a.address = b.address))
    | .date, .timeval sec usec, .timeval sec' usec' => .ok (decide (sec = sec' ∧ usec = usec'))
    | .none, _, _ => .ok false
    | _, _, _ => .error .wildPointer

/-! ## Nodes that show an item -/

/-- The data of a node made for the item. -/
def Item.made : Item → PlistData
  | .boolean b => plistNewBool (if b then 1 else 0)
  | .uint n => plistNewUint n
  | .string text => plistNewString text
  | .key text => plistNewKey text
  | .data bytes => plistNewData bytes
  | .array => plistNewArray
  | .dict => plistNewDict

/-- The text of a string or a key. -/
def Item.text : Item → List UInt8
  | .string text | .key text => text
  | _ => []

/-- The node was made for the item, its text NUL-free. -/
structure HeapNode.Holds (node : HeapNode) (item : Item) : Prop where
  data : node.data = item.made
  nulFree : 0 ∉ item.text

/-- The accessors show the item the node was made for. -/
theorem HeapNode.Holds.item? {node : HeapNode} {item : Item} (holds : node.Holds item) :
    node.data.item? = some item := by
  rw [holds.data]
  cases item with
  | boolean b => cases b <;> rfl
  | string text | key text =>
    have whole : cString text = text := cString_of_nul_free holds.nulFree
    simp [Item.made, plistNewString, plistNewKey, PlistData.item?, whole]
  | data bytes => simp [Item.made, plistNewData, PlistData.item?]
  | _ => rfl

end Irestore.Plist
