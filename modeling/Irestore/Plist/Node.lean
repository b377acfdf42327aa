/-
# Plist.Node — the nodes of a property list

A `plist_t` is a GLib tree whose nodes hold a `plist_data_s`: a type, a length
and a union.  `PlistValue` is the union by the kind of member it was last given;
`boolval`, `intval` and `realval` share its eight-byte word.  A node's children
and its later siblings are the two chains of `Library.Siblings`.

`Item` is what the accessor functions show of a node (`plist_get_*_val`):
a type and a value of that type.  `PlistData.item?` reads it; a node whose union
holds another kind of member than its type says has none.
-/
import Irestore.Library.CMemory
import Irestore.Library.Siblings

namespace Irestore.Plist

open Irestore.Library Irestore.Library.CMemory

set_option autoImplicit false

/-- `plist_type`, in the order of its declaration. -/
inductive PlistType where
  | boolean | uint | real | string | array | dict | date | data | key | none
  deriving DecidableEq, Repr

/-- The number C gives the enumerator. -/
def PlistType.code : PlistType → UInt32
  | .boolean => 0
  | .uint => 1
  | .real => 2
  | .string => 3
  | .array => 4
  | .dict => 5
  | .date => 6
  | .data => 7
  | .key => 8
  | .none => 9

/-- The union of `plist_data_s`.  A string is its bytes before the NUL. -/
inductive PlistValue where
  | word (bits : UInt64)
  | strval (text : List UInt8)
  | buff (bytes : List UInt8)
  | timeval (sec usec : Int)
  deriving DecidableEq, Repr

/-- `struct plist_data_s`. -/
structure PlistData where
  value : PlistValue
  length : Nat
  type : PlistType
  deriving DecidableEq, Repr

/-- A node pointer: NULL, or a node with its children and later siblings. -/
abbrev GNode := Siblings PlistData

/-- What the accessors show of a node. -/
inductive Item where
  | boolean (b : Bool)
  | uint (n : UInt64)
  | string (text : List UInt8)
  | key (text : List UInt8)
  | data (bytes : List UInt8)
  | array
  | dict
  deriving DecidableEq, Repr

/-- The type and value the accessors show; `boolval` is the low byte of the
union's word. -/
def PlistData.item? (d : PlistData) : Option Item :=
  match d.type, d.value with
  | .boolean, .word bits =>
      if bits.toUInt8 = 0 then some (.boolean false)
      else if bits.toUInt8 = 1 then some (.boolean true)
      else none
  | .uint, .word bits => some (.uint bits)
  | .string, .strval text => some (.string text)
  | .key, .strval text => some (.key text)
  | .data, .buff bytes => if bytes.length = d.length then some (.data bytes) else none
  | .array, _ => some .array
  | .dict, _ => some .dict
  | _, _ => none

/-! ## Constructors -/

def plistNewDict : PlistData := ⟨.word 0, 0, .dict⟩

def plistNewArray : PlistData := ⟨.word 0, 0, .array⟩

def plistNewKey (val : List UInt8) : PlistData := ⟨.strval (cString val), (cString val).length, .key⟩

def plistNewString (val : List UInt8) : PlistData :=
  ⟨.strval (cString val), (cString val).length, .string⟩

def plistNewBool (val : UInt8) : PlistData := ⟨.word val.toUInt64, 1, .boolean⟩

def plistNewUint (val : UInt64) : PlistData := ⟨.word val, 8, .uint⟩

def plistNewData (val : List UInt8) : PlistData := ⟨.buff val, val.length, .data⟩

end Irestore.Plist
