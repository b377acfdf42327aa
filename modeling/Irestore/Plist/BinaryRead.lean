/-
# Plist.BinaryRead — `plist_from_bin`

The decoder works in two passes.  The first parses every object of the offset
table into `nodeslist`; the second walks the table in order and links the
references of every container: the first use of an object moves its node under
the container, each later use appends a deep copy.

`NodeTable` is the heap of the second pass: the entries of `nodeslist`, each with
its data, whether its reference block has been freed, whether it has a parent
(`G_NODE_IS_ROOT` is false) and its children.  A child is a node of the table or
a copy, which nothing mutates any more.

The key of a dictionary is retyped in place (`linkKey`), before the check that
its index is in range.
-/
import Irestore.Plist.BinaryParse

namespace Irestore.Plist

open Irestore.Library Irestore.Library.Bytes Irestore.Library.CMemory

set_option autoImplicit false

/-! ## The node table -/

/-- A child of a node of the table. -/
inductive Child where
  | table (index : Nat)
  | copy (data : PlistData) (children : GNode)
  deriving DecidableEq, Repr

/-- A node of the table. -/
structure Slot where
  data : PlistData
  freed : Bool := false
  attached : Bool := false
  children : List Child := []
  deriving DecidableEq, Repr

/-- `nodeslist`; an entry that is NULL has no slot. -/
structure NodeTable where
  size : Nat
  slot : Nat → Option Slot

namespace NodeTable

/-- The node an entry points to: a fault past the table's end and at NULL. -/
def deref (table : NodeTable) (i : Nat) : Checked Slot :=
  if i < table.size then
    match table.slot i with
    | some node => .ok node
    | none => .error .nullPointer
  else .error .outOfBounds

def update (table : NodeTable) (i : Nat) (change : Slot → Slot) : NodeTable :=
  { table with slot := fun j => if j = i then (table.slot j).map change else table.slot j }

end NodeTable

/-! ## Deep copies -/

/-- The buffer of a copied node: `bytes` bytes of the source's buffer. -/
def copyBuff (d : PlistData) (freed : Bool) (bytes : Nat) : Checked PlistData :=
  match d.value with
  | .buff block =>
      if bytes % 2 ^ 64 = 0 then .ok { d with value := .buff [] }
      else if freed then .error .useAfterFree
      else do
        let copied ← memcpy block (bytes % 2 ^ 64)
        return { d with value := .buff copied }
  | _ => .error .wildPointer

/-- `copy_plist_data`; `freed` says that the source's `buff` has been freed.  A
buffer is copied as if its elements were pointers, eight bytes each. -/
def copyPlistData (d : PlistData) (freed : Bool) : Checked PlistData :=
  match d.type with
  | .boolean =>
      match d.value with
      | .word bits => .ok { d with value := .word bits.toUInt8.toUInt64 }
      | _ => .ok d
  | .uint | .date | .real => .ok d
  | .key | .string =>
      match d.value with
      | .strval _ => .ok d
      | .buff block =>
          if freed then .error .useAfterFree
          else do
            let text ← strdup block
            return { d with value := .strval text }
      | _ => .error .wildPointer
  | .data | .array => copyBuff d freed (8 * d.length)
  | .dict => copyBuff d freed (8 * d.length * 2)
  | .none => .ok { d with value := .word 0 }

/-- `g_node_copy_deep` on nodes that are copies themselves. -/
def copyCopies : GNode → Checked GNode
  | .nil => .ok .nil
  | .cons d children next => do
      let next ← copyCopies next
      let d ← copyPlistData d false
      let children ← copyCopies children
      return .cons d children next

/-- `g_node_copy_deep(nodeslist[i], copy_plist_data, NULL)`.  The fuel is the
depth of the tree; a tree deeper than the table has nodes contains itself. -/
def NodeTable.copyDeep (table : NodeTable) : Nat → Nat → Checked (PlistData × GNode)
  | 0, _ => .error .diverges
  | fuel + 1, i => do
      let node ← table.deref i
      let data ← copyPlistData node.data node.freed
      let children ← node.children.foldrM (fun child rest => do
        match child with
        | .table j => do
            let (d, below) ← table.copyDeep fuel j
            return Siblings.cons d below rest
        | .copy d below => do
            let d ← copyPlistData d false
            let below ← copyCopies below
            return Siblings.cons d below rest) Siblings.nil
      return (data, children)

/-! ## Linking -/

def Slot.append (child : Child) (node : Slot) : Slot :=
  { node with children := node.children ++ [child] }

def Slot.attach (node : Slot) : Slot := { node with attached := true }

def Slot.retype (node : Slot) : Slot := { node with data := { node.data with type := .key } }

def Slot.free (node : Slot) : Slot := { node with freed := true }

/-- `if (index < num_objects) { … }`: append node `t` of the table, or a copy of
it when it has a parent already, to node `i`. -/
def linkNode (i t : Nat) (table : NodeTable) : Checked NodeTable :=
  if t < table.size then do
    let node ← table.deref t
    if node.attached then do
      let (data, children) ← table.copyDeep (table.size + 1) t
      return table.update i (Slot.append (.copy data children))
    else return (table.update t Slot.attach).update i (Slot.append (.table t))
  else return table

/-- A key reference: the node is retyped, then linked. -/
def linkKey (i t : Nat) (table : NodeTable) : Checked NodeTable := do
  let _ ← table.deref t
  linkNode i t (table.update t Slot.retype)

/-- A reference read out of a container's block, position and value in 32 bits. -/
def indexAt (buff : List UInt8) (dictParamSize position : Nat) : Checked Nat := do
  let index ← uintToHost (buff.drop (position * dictParamSize % 2 ^ 32)) dictParamSize
  return index % 2 ^ 32

/-- The loop `for (j = 0; j < length; j++)` with a 32-bit `j`. -/
def forEach32 (length : Nat) (body : NodeTable → Nat → Checked NodeTable)
    (table : NodeTable) : Checked NodeTable := do
  let table ← (List.range (min length (2 ^ 32))).foldlM body table
  if length < 2 ^ 32 then return table else .error .diverges

def linkDict (dictParamSize i : Nat) (buff : List UInt8) (length : Nat) (table : NodeTable) :
    Checked NodeTable :=
  forEach32 length (fun table j => do
    let index1 ← indexAt buff dictParamSize j
    let index2 ← indexAt buff dictParamSize (j + length)
    let table ← linkKey i index1 table
    linkNode i index2 table) table

def linkArray (dictParamSize i : Nat) (buff : List UInt8) (length : Nat) (table : NodeTable) :
    Checked NodeTable :=
  forEach32 length (fun table j => do
    let index1 ← indexAt buff dictParamSize j
    linkNode i index1 table) table

/-- One round of the second pass. -/
def linkObject (dictParamSize : Nat) (table : NodeTable) (i : Nat) : Checked NodeTable := do
  let node ← table.deref i
  match node.data.type, node.data.value with
  | .dict, .buff buff => do
      let table ← linkDict dictParamSize i buff node.data.length table
      return table.update i Slot.free
  | .array, .buff buff => do
      let table ← linkArray dictParamSize i buff node.data.length table
      return table.update i Slot.free
  | .dict, _ | .array, _ => .error .wildPointer
  | _, _ => return table

/-! ## The decoder -/

/-- The fields of the trailer, the last 26 bytes. -/
structure Trailer where
  offsetSize : Nat
  dictParamSize : Nat
  numObjects : Nat
  rootObject : Nat
  offsetTableIndex : Nat
  deriving DecidableEq, Repr

def trailerOf (bin : List UInt8) : Trailer :=
  let trailer := bin.drop (bin.length - 26)
  { offsetSize := ofBE (slice trailer 0 1)
    dictParamSize := ofBE (slice trailer 1 1)
    numObjects := ofBE (slice trailer 2 8)
    rootObject := ofBE (slice trailer 10 8)
    offsetTableIndex := ofBE (slice trailer 18 8) }

/-- `bplist00`: the magic and the one version the decoder knows. -/
def bplistHeader : List UInt8 := [0x62, 0x70, 0x6C, 0x69, 0x73, 0x74, 0x30, 0x30]

/-- One entry of the first pass: the object whose offset the table gives.  The
entry is stored in `nodeslist`, whose allocation has `allocated` bytes. -/
def parseEntry (platform : Platform) (bin : List UInt8) (trailer : Trailer) (allocated i : Nat) :
    Checked (Option PlistData) := do
  let currentOffset ← uintToHost (bin.drop (trailer.offsetTableIndex + i * trailer.offsetSize))
    trailer.offsetSize
  let (node, _) ← parseBinNode platform trailer.dictParamSize (bin.drop currentOffset)
  if 8 * (i + 1) ≤ allocated then return node else .error .outOfBounds

/-- The table before linking. -/
def NodeTable.ofNodes (nodes : List (Option PlistData)) : NodeTable :=
  { size := nodes.length, slot := fun i => (nodes[i]?.join).map fun data => { data := data } }

/-- The node `plist_from_bin` stores in `*plist`. -/
structure PlistPtr where
  table : NodeTable
  root : Nat

/-- `plist_from_bin`; `none` leaves `*plist` NULL. -/
def plistFromBin (platform : Platform) (bin : List UInt8) : Checked (Option PlistPtr) :=
  if bin.length < 34 then .ok none
  else if bin.take 8 ≠ bplistHeader then .ok none
  else
    let trailer := trailerOf bin
    let allocated := 8 * trailer.numObjects % 2 ^ 64
    if trailer.numObjects = 0 then .ok none
    else if platform.malloc allocated = false then .ok none
    else do
      let nodes ← (List.range trailer.numObjects).mapM (parseEntry platform bin trailer allocated)
      let table ← (List.range trailer.numObjects).foldlM (linkObject trailer.dictParamSize)
        (NodeTable.ofNodes nodes)
      if trailer.rootObject < trailer.numObjects then
        return some { table := table, root := trailer.rootObject }
      else .error .outOfBounds

/-! ## Reading the result -/

/-- The items of a tree of copies. -/
def itemsOf (chain : GNode) : Option (Siblings Item) := chain.traverse PlistData.item?

/-- The tree of a child, `treeAt` giving those of the table's nodes. -/
def Child.tree (treeAt : Nat → Option (Item × Siblings Item)) :
    Child → Option (Item × Siblings Item)
  | .table j => treeAt j
  | .copy d below => do
      let item ← d.item?
      let below ← itemsOf below
      return (item, below)

/-- The tree below a node of the table, as the accessors show it.  The fuel is
its depth; a node that contains itself has no tree. -/
def NodeTable.treeAt (table : NodeTable) : Nat → Nat → Option (Item × Siblings Item)
  | 0, _ => none
  | fuel + 1, i => do
      let node ← table.slot i
      let item ← node.data.item?
      let children ← Siblings.collect (node.children.map (Child.tree (table.treeAt fuel)))
      return (item, children)

/-- The tree a caller sees. -/
def PlistPtr.tree (plist : PlistPtr) : Option (Item × Siblings Item) :=
  plist.table.treeAt plist.table.size plist.root

/-- A copy without children shows its own item. -/
theorem Child.tree_copy_nil {d : PlistData} {treeAt : Nat → Option (Item × Siblings Item)}
    {tree : Item × Siblings Item} :
    (Child.copy d .nil).tree treeAt = some tree ↔ d.item? = some tree.1 ∧ tree.2 = .nil := by
  obtain ⟨item, children⟩ := tree
  simp only [Child.tree, itemsOf, Siblings.traverse, Option.bind_eq_bind, Option.bind_some,
    Option.bind_eq_some_iff, pure, Option.some.injEq, Prod.mk.injEq]
  constructor
  · rintro ⟨item', shown, rfl, rfl⟩
    exact ⟨shown, rfl⟩
  · rintro ⟨shown, rfl⟩
    exact ⟨item, shown, rfl, rfl⟩

theorem NodeTable.treeAt_succ {table : NodeTable} {fuel i : Nat} {tree : Item × Siblings Item} :
    table.treeAt (fuel + 1) i = some tree ↔
      ∃ node, table.slot i = some node ∧ node.data.item? = some tree.1 ∧
        node.children.map (Child.tree (table.treeAt fuel)) = tree.2.toList.map some := by
  obtain ⟨item, children⟩ := tree
  simp only [treeAt, Option.bind_eq_bind, Option.bind_eq_some_iff, pure, Option.some.injEq,
    Prod.mk.injEq, Siblings.collect_eq_some]
  constructor
  · rintro ⟨node, found, item', shown, chain, collected, rfl, rfl⟩
    exact ⟨node, found, shown, collected⟩
  · rintro ⟨node, found, shown, collected⟩
    exact ⟨node, found, item, shown, children, collected, rfl, rfl⟩

end Irestore.Plist
