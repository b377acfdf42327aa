/-
# PlistCpp.Structures — dictionaries and arrays of the C++ library

A `Dictionary` or `Array` object wraps a plist node, and holds a wrapper for each value
below it: `_map` by key, `_array` by position.  The destructor of a wrapper frees its
plist node; so do the functions of `plist.c` that remove an item.

Both sides are forests.  `heap` is the plist trees that are not freed, each node at an
address; `objects` is the wrappers, the objects of the program as roots and below each
those it holds.  A wrapper is named by the address of its node.  The bindings of a map
stand in the order they were made.

The constructors take NULL for a parent they are not given, and destructors are virtual.
-/
import Irestore.Library.CMemory
import Irestore.Library.Forest

namespace Irestore.PlistCpp

open Irestore.Library Irestore.Library.CMemory

set_option autoImplicit false

universe u

/-- The kinds of wrapped nodes: the two structures, and the scalars together. -/
inductive Kind where
  | dict
  | array
  | value
  deriving DecidableEq

/-- What a plist node holds: a key its C string, a scalar its value, which is copied as it is. -/
inductive Content (V : Type) where
  | dict
  | array
  | key (text : CText)
  | value (data : V)
  deriving DecidableEq

/-- The kind of the wrapper `Node::FromPlist` makes; none for a key. -/
def Content.kind? {V : Type} : Content V → Option Kind
  | .dict => some .dict
  | .array => some .array
  | .key _ => none
  | .value _ => some .value

structure PNode (V : Type) where
  address : Nat
  content : Content V
  deriving DecidableEq

/-- A wrapper: its node, and the key it is bound to in a `_map`, a `std::string`. -/
structure Wrapper where
  key : List UInt8
  node : Nat
  kind : Kind
  deriving DecidableEq

/-- The plist nodes, those freed so far, and the wrappers. -/
structure World (V : Type) where
  heap : Siblings (PNode V)
  next : Nat
  freed : List Nat
  objects : Siblings Wrapper
  deriving DecidableEq

def World.start {V : Type} : World V := ⟨.nil, 0, [], .nil⟩

/-- A node with its children. -/
abbrev Tree (α : Type) := α × Siblings α

def Tree.chain {α : Type} (tree : Tree α) : Siblings α := .cons tree.1 tree.2 .nil

section Model

variable {V : Type}

def PNode.at (address : Nat) (node : PNode V) : Bool := node.address = address

/-- `plist_…` functions go by the type of the node they are given. -/
def PNode.typed (address : Nat) (kind : Kind) (node : PNode V) : Bool :=
  node.address = address ∧ node.content.kind? = some kind

def Wrapper.at (node : Nat) (wrapper : Wrapper) : Bool := wrapper.node = node

def Wrapper.typed (node : Nat) (kind : Kind) (wrapper : Wrapper) : Bool :=
  wrapper.node = node ∧ wrapper.kind = kind

/-! ## Nodes and wrappers -/

/-- The tree at an address that is not freed. -/
def World.tree (w : World V) (address : Nat) : Checked (Tree (PNode V)) :=
  match w.heap.find (PNode.at address) with
  | some tree => return tree
  | none => .error .useAfterFree

/-- The wrapper a pointer of the caller names. -/
def World.wrapper (w : World V) (node : Nat) : Checked (Tree Wrapper) :=
  match w.objects.find (Wrapper.at node) with
  | some wrapper => return wrapper
  | none => .error .wildPointer

/-- `plist_free`: the node and all below it. -/
def plistFree (w : World V) (address : Nat) : Checked (World V) := do
  let _ ← w.tree address
  return { w with
    heap := w.heap.prune (PNode.at address)
    freed := w.freed ++ (w.heap.cut (PNode.at address)).map PNode.address }

/-- The copies of `plist_copy`: the same contents at fresh addresses. -/
def plistCopyNodes (next : Nat) : Siblings (PNode V) → Siblings (PNode V) × Nat
  | .nil => (.nil, next)
  | .cons node below rest =>
      let (below, later) := plistCopyNodes (next + 1) below
      let (rest, later) := plistCopyNodes later rest
      (.cons ⟨next, node.content⟩ below rest, later)

/-- `Node::FromPlist` over the children of a structure of the given kind: `_array` from the
items, `_map` from the pairs. -/
def fromPlist : Kind → Siblings (PNode V) → Checked (Siblings Wrapper)
  | .array, .cons node below rest =>
      match node.content.kind? with
      | none => .error .wildPointer
      | some kind => do
          let below ← fromPlist kind below
          let rest ← fromPlist .array rest
          return .cons ⟨[], node.address, kind⟩ below rest
  | .dict, .cons keyNode _ (.cons node below rest) =>
      match keyNode.content, node.content.kind? with
      | .key text, some kind => do
          let below ← fromPlist kind below
          let rest ← fromPlist .dict rest
          return .cons ⟨text.val, node.address, kind⟩ below rest
      | _, _ => .error .wildPointer
  | _, _ => return .nil

/-- `delete` of wrappers: each destructor deletes the wrappers it holds and frees the
node. -/
def deleteWrappers : Siblings Wrapper → World V → Checked (World V)
  | .nil, w => return w
  | .cons wrapper below rest, w => do
      let w ← deleteWrappers below w
      let w ← plistFree w wrapper.node
      deleteWrappers rest w

/-! ## Copies -/

/-- The copy of the tree of a structure, and the wrappers made for it. -/
def copyStructure (w : World V) (kind : Kind) (tree : Tree (PNode V)) :
    Checked (Tree Wrapper × Tree (PNode V) × Nat) := do
  let (below, next) := plistCopyNodes (w.next + 1) tree.2
  let held ← fromPlist kind below
  return ((⟨[], w.next, kind⟩, held), (⟨w.next, tree.1.content⟩, below), next)

/-- `Dictionary::Dictionary(Dictionary&)` behind `plist_copy`: the loop asks for no key
after the first, and makes a `std::string` of NULL when there is a second pair. -/
def copyDictionary (w : World V) (tree : Tree (PNode V)) :
    Checked (Tree Wrapper × Tree (PNode V) × Nat) :=
  if 4 ≤ tree.2.length then .error .nullPointer else copyStructure w .dict tree

/-- `Clone` of a wrapper: a new wrapper, its plist tree, and the next address. -/
def clone (w : World V) (source : Wrapper) : Checked (Tree Wrapper × Tree (PNode V) × Nat) := do
  let tree ← w.tree source.node
  match source.kind with
  | .value =>
      return ((⟨[], w.next, .value⟩, .nil), (⟨w.next, tree.1.content⟩, .nil), w.next + 1)
  | .array => copyStructure w .array tree
  | .dict => copyDictionary w tree

/-! ## Dictionaries -/

/-- The keys of a `_map`. -/
def keysOf (held : Siblings Wrapper) : List (List UInt8) := held.toList.map fun tree => tree.1.key

/-- The wrapper a `_map` binds to a key. -/
def binding (held : Siblings Wrapper) (key : List UInt8) : Option (Tree Wrapper) :=
  held.toList.find? fun tree => tree.1.key = key

/-- The `_map` without a key. -/
def unbind (held : Siblings Wrapper) (key : List UInt8) : Siblings Wrapper :=
  .ofList (held.toList.filter fun tree => tree.1.key ≠ key)

/-- `delete _map[key]`: a key that is not there is bound to NULL. -/
def deleteBinding (w : World V) (held : Siblings Wrapper) (key : List UInt8) :
    Checked (World V) :=
  match binding held key with
  | none => return w
  | some bound => deleteWrappers bound.chain w

/-- `c_str()` as the functions of `plist.c` read it: to the first NUL. -/
def cStr (key : List UInt8) : CText := ⟨cString key, nul_free_cString key⟩

/-- `plist_dict_insert_item` of a new tree. -/
def plistDictInsertItem (w : World V) (target : Nat) (key : CText) (item : Tree (PNode V))
    (next : Nat) : Checked (World V) := do
  let _ ← w.tree target
  return { w with
    heap := w.heap.amend (PNode.typed target .dict) fun below =>
      below.append (.cons ⟨next, .key key⟩ .nil item.chain)
    next := next + 1 }

/-- `Dictionary::Insert`. -/
def dictionaryInsert (w : World V) (target : Nat) (key : List UInt8) (source : Nat) :
    Checked (World V) := do
  let dictionary ← w.wrapper target
  let node ← w.wrapper source
  let (wrapper, item, next) ← clone w node.1
  let w ← plistDictInsertItem w target (cStr key) item next
  let w ← deleteBinding w dictionary.2 key
  return { w with
    objects := w.objects.amend (Wrapper.typed target .dict) fun held =>
      (unbind held key).append (.cons { wrapper.1 with key := key } wrapper.2 .nil) }

/-- The pair of a dictionary's children that `plist_dict_get_item` finds; it asserts that
it walks over keys. -/
def pairOf (key : CText) : Siblings (PNode V) → Checked (Option (Nat × Nat))
  | .cons keyNode _ (.cons node _ rest) =>
      match keyNode.content with
      | .key text => if text = key then return some (keyNode.address, node.address) else pairOf key rest
      | _ => .error .assertion
  | _ => return none

/-- `plist_dict_remove_item`. -/
def plistDictRemoveItem (w : World V) (target : Nat) (key : CText) : Checked (World V) := do
  let tree ← w.tree target
  let pair ← pairOf key tree.2
  match pair with
  | none => return w
  | some (keyNode, node) => do
      let w ← plistFree w keyNode
      plistFree w node

/-- `plist_dict_get_item_key`: the key before a node; it stays NULL elsewhere. -/
def keyBefore (node : Nat) : Siblings (PNode V) → Option CText
  | .cons keyNode _ (.cons item _ rest) =>
      match keyNode.content with
      | .key text => if item.address = node then some text else keyBefore node rest
      | _ => none
  | _ => none

/-- `Dictionary::Remove(Node*)`. -/
def dictionaryRemoveNode (w : World V) (target node : Nat) : Checked (World V) := do
  let wrapper ← w.wrapper node
  let tree ← w.tree target
  match keyBefore node tree.2 with
  | none => .error .nullPointer
  | some key => do
      let w ← plistDictRemoveItem w target key
      let w ← deleteWrappers wrapper.chain w
      return { w with objects := w.objects.amend (Wrapper.typed target .dict) (unbind · key.val) }

/-- `Dictionary::Remove(const std::string&)`. -/
def dictionaryRemoveKey (w : World V) (target : Nat) (key : List UInt8) : Checked (World V) := do
  let dictionary ← w.wrapper target
  let w ← plistDictRemoveItem w target (cStr key)
  let w ← deleteBinding w dictionary.2 key
  return { w with objects := w.objects.amend (Wrapper.typed target .dict) (unbind · key) }

/-! ## Arrays -/

/-- `plist_array_append_item` and `plist_array_insert_item` of a new tree. -/
def plistArrayInsertItem (w : World V) (target pos : Nat) (item : Tree (PNode V)) (next : Nat) :
    Checked (World V) := do
  let _ ← w.tree target
  return { w with
    heap := w.heap.amend (PNode.typed target .array) (.insertAt pos item.chain)
    next := next }

/-- `Array::Insert`: an iterator past the end means nothing. -/
def arrayInsert (w : World V) (target source pos : Nat) : Checked (World V) := do
  let array ← w.wrapper target
  let node ← w.wrapper source
  let (wrapper, item, next) ← clone w node.1
  let w ← plistArrayInsertItem w target pos item next
  if array.2.length < pos then .error .outOfBounds
  else
    return { w with
      objects := w.objects.amend (Wrapper.typed target .array) (.insertAt pos wrapper.chain) }

/-- `Array::Append`: the place behind the last item. -/
def arrayAppend (w : World V) (target source : Nat) : Checked (World V) := do
  let array ← w.wrapper target
  arrayInsert w target source array.2.length

/-- The chain without its node number `n`. -/
def eraseAt {α : Type} (n : Nat) (chain : Siblings α) : Siblings α :=
  .ofList (chain.toList.eraseIdx n)

/-- `plist_array_remove_item`. -/
def plistArrayRemoveItem (w : World V) (target pos : Nat) : Checked (World V) := do
  let tree ← w.tree target
  match tree.2.toList[pos]? with
  | none => return w
  | some item => plistFree w item.1.address

/-- `Array::Remove(Node*)`; `plist_array_get_item_index` finds the node among its siblings. -/
def arrayRemoveNode (w : World V) (target node : Nat) : Checked (World V) := do
  let wrapper ← w.wrapper node
  let tree ← w.tree target
  let pos := tree.2.toList.findIdx fun item => item.1.address = node
  let w ← plistArrayRemoveItem w target pos
  let w ← deleteWrappers wrapper.chain w
  return { w with objects := w.objects.amend (Wrapper.typed target .array) (eraseAt pos) }

/-- `Array::Remove(unsigned int)`. -/
def arrayRemoveAt (w : World V) (target pos : Nat) : Checked (World V) := do
  let array ← w.wrapper target
  let w ← plistArrayRemoveItem w target pos
  match array.2.toList[pos]? with
  | none => .error .outOfBounds
  | some item => do
      let w ← deleteWrappers (Tree.chain item) w
      return { w with objects := w.objects.amend (Wrapper.typed target .array) (eraseAt pos) }

/-! ## Objects -/

/-- The objects without one of them. -/
def withoutObject (objects : Siblings Wrapper) (object : Nat) : Siblings Wrapper :=
  .ofList (objects.toList.filter fun tree => tree.1.node ≠ object)

/-- The forest with a tree in the place of the nodes that pass. -/
def replace {α : Type} (p : α → Bool) (tree : Tree α) : Siblings α → Siblings α
  | .nil => .nil
  | .cons a below rest =>
      if p a then .cons tree.1 tree.2 (replace p tree rest)
      else .cons a (replace p tree below) (replace p tree rest)

/-- A new object with its plist tree. -/
def addObject (w : World V) (wrapper : Tree Wrapper) (tree : Tree (PNode V)) (next : Nat) :
    World V :=
  { w with
    heap := w.heap.append tree.chain
    next := next
    objects := w.objects.append wrapper.chain }

/-- The assigned object has a new node and new wrappers; one that another structure holds
stays where it is held. -/
def reassign (w : World V) (target : Wrapper) (wrapper : Tree Wrapper) (tree : Tree (PNode V))
    (next : Nat) : World V :=
  if (w.objects.toList.any fun object => object.1.node = target.node) then
    addObject { w with objects := withoutObject w.objects target.node } wrapper tree next
  else
    { w with
      heap := w.heap.append tree.chain
      next := next
      objects := replace (Wrapper.at target.node) ({ wrapper.1 with key := target.key }, wrapper.2)
        w.objects }

/-- `Array::operator=`. -/
def arrayAssign (w : World V) (target source : Nat) : Checked (World V) := do
  let array ← w.wrapper target
  let node ← w.wrapper source
  let w ← plistFree w target
  let w ← deleteWrappers array.2 w
  let tree ← w.tree node.1.node
  let (wrapper, item, next) ← copyStructure w .array tree
  return reassign w array.1 wrapper item next

/-- The loop of `Dictionary::operator=`: it frees the node of every wrapper, and deletes the
wrapper. -/
def clearDictionary : List (Tree Wrapper) → World V → Checked (World V)
  | [], w => return w
  | bound :: rest, w => do
      let w ← plistFree w bound.1.node
      let w ← deleteWrappers bound.chain w
      clearDictionary rest w

/-- `Dictionary::operator=`: the old node is not freed. -/
def dictionaryAssign (w : World V) (target source : Nat) : Checked (World V) := do
  let dictionary ← w.wrapper target
  let node ← w.wrapper source
  let w ← clearDictionary dictionary.2.toList w
  let tree ← w.tree node.1.node
  let (wrapper, item, next) ← copyDictionary w tree
  return reassign w dictionary.1 wrapper item next

/-! ## Runs -/

/-- What a program does with the structures; a `Node*` is named by its plist node. -/
inductive Op (V : Type) where
  | create (content : Content V)
  | dictionaryInsert (target : Nat) (key : List UInt8) (source : Nat)
  | dictionaryRemoveNode (target node : Nat)
  | dictionaryRemoveKey (target : Nat) (key : List UInt8)
  | arrayAppend (target source : Nat)
  | arrayInsert (target source pos : Nat)
  | arrayRemoveNode (target node : Nat)
  | arrayRemoveAt (target pos : Nat)
  | copy (source : Nat)
  | dictionaryAssign (target source : Nat)
  | arrayAssign (target source : Nat)
  | destroy (object : Nat)

/-- A new object of its own; there is none for a key. -/
def create (w : World V) (content : Content V) : Checked (World V) :=
  match content.kind? with
  | none => .error .nullPointer
  | some kind =>
      return addObject w (⟨[], w.next, kind⟩, .nil) (⟨w.next, content⟩, .nil) (w.next + 1)

/-- The copy constructors. -/
def copy (w : World V) (source : Nat) : Checked (World V) := do
  let node ← w.wrapper source
  let (wrapper, item, next) ← clone w node.1
  return addObject w wrapper item next

/-- The destructor of an object that no other holds. -/
def destroy (w : World V) (object : Nat) : Checked (World V) :=
  match w.objects.toList.find? fun tree => tree.1.node = object with
  | none => .error .wildPointer
  | some wrapper => do
      let w ← deleteWrappers (Tree.chain wrapper) w
      return { w with objects := withoutObject w.objects object }

def step (w : World V) : Op V → Checked (World V)
  | .create content => create w content
  | .dictionaryInsert target key source => dictionaryInsert w target key source
  | .dictionaryRemoveNode target node => dictionaryRemoveNode w target node
  | .dictionaryRemoveKey target key => dictionaryRemoveKey w target key
  | .arrayAppend target source => arrayAppend w target source
  | .arrayInsert target source pos => arrayInsert w target source pos
  | .arrayRemoveNode target node => arrayRemoveNode w target node
  | .arrayRemoveAt target pos => arrayRemoveAt w target pos
  | .copy source => copy w source
  | .dictionaryAssign target source => dictionaryAssign w target source
  | .arrayAssign target source => arrayAssign w target source
  | .destroy object => destroy w object

def run (w : World V) (ops : List (Op V)) : Checked (World V) := ops.foldlM step w

end Model

end Irestore.PlistCpp
