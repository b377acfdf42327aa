/-
# Plist.Dict — dictionaries as flat lists of keys and values

The children of a dictionary node are its keys and values in one list, a key
before each value.  `plist_dict_get_item` walks it two nodes at a time; the
mutators relink the nodes by hand.

`Bindings` is what a dictionary is for, an association list; `Alternates` says
that a list of children holds it.

* `getItem_eq`, `insertItem_alternates`, `removeItem_alternates` and
  `setItem_absent` — on such a list every operation does what the association
  list says, `plist_dict_set_item` on absent keys only.
* `setItem_present` — on a present key it unlinks the value and leaves the key: the
  copy of the new item goes to a local variable.
* `follows_iff` — a run of calls keeps the alternation and answers as the
  association list does exactly when no call sets a present key.
-/
import Irestore.Plist.Node

namespace Irestore.Plist

open Irestore.Library Irestore.Library.CMemory

set_option autoImplicit false

/-- A node: its data and the chain of its children. -/
abbrev PlistNode := PlistData × GNode

/-! ## The operations -/

/-- The data of a copied node, as `plist_copy_node` makes it. -/
def plistCopyData (data : PlistData) : Checked PlistData :=
  match data.type, data.value with
  | .data, .buff block => do
      let copied ← memcpy block data.length
      return { data with value := .buff copied }
  | .key, .strval _ | .string, .strval _ => .ok data
  | .data, _ | .key, _ | .string, _ => .error .wildPointer
  | _, _ => .ok data

/-- `plist_copy_node` on a chain of nodes and all below them. -/
def plistCopyChain : GNode → Checked GNode
  | .nil => .ok .nil
  | .cons data below next => do
      let data ← plistCopyData data
      let below ← plistCopyChain below
      let next ← plistCopyChain next
      return .cons data below next

/-- `plist_copy_node` of one node. -/
def plistCopyNode (node : PlistNode) : Checked PlistNode := do
  let data ← plistCopyData node.1
  let below ← plistCopyChain node.2
  return (data, below)

/-- Where `plist_dict_get_item` stops: the key node it found, its next sibling if
there is one, and the children before and after them. -/
structure Found where
  before : GNode
  key : PlistNode
  item : Option PlistNode
  after : GNode

/-- The walk of `plist_dict_get_item`.  It asserts that every node it stops at is a
key. -/
def findKeyNode (key : List UInt8) : GNode → Checked (Option Found)
  | .nil => .ok none
  | .cons data below next =>
      match data.type, data.value with
      | .key, .strval text =>
          if key = text then
            match next with
            | .nil => .ok (some ⟨.nil, (data, below), none, .nil⟩)
            | .cons itemData itemBelow after =>
                .ok (some ⟨.nil, (data, below), some (itemData, itemBelow), after⟩)
          else
            match next with
            | .nil => .ok none
            | .cons itemData itemBelow after => do
                let found ← findKeyNode key after
                return found.map fun f =>
                  { f with before := .cons data below (.cons itemData itemBelow f.before) }
      | .key, _ => .error .wildPointer
      | _, _ => .error .assertion

/-- `plist_dict_get_item`; `none` is NULL. -/
def plistDictGetItem (node : PlistNode) (key : CText) : Checked (Option PlistNode) :=
  if node.1.type = .dict then do
    let found ← findKeyNode key.val node.2
    return found.bind Found.item
  else return none

/-- `plist_dict_get_size`; `g_node_n_children` counts in 32 bits. -/
def plistDictGetSize (node : PlistNode) : Nat :=
  if node.1.type = .dict then node.2.length % 2 ^ 32 / 2 else 0

/-- `plist_dict_insert_item`. -/
def plistDictInsertItem (node : PlistNode) (key : CText) (item : PlistNode) : PlistNode :=
  if node.1.type = .dict then
    (node.1, node.2.append (.cons (plistNewKey key.val) .nil (.cons item.1 item.2 .nil)))
  else node

/-- `plist_dict_set_item`: the old item is unlinked and freed, and the copy of the
new one is linked nowhere. -/
def plistDictSetItem (node : PlistNode) (key : CText) (item : PlistNode) : Checked PlistNode :=
  if node.1.type = .dict then do
    let found ← findKeyNode key.val node.2
    match found with
    | some ⟨before, keyNode, some _, after⟩ => do
        let _ ← plistCopyNode item
        return (node.1, before.append (.cons keyNode.1 keyNode.2 after))
    | _ => return node
  else return node

/-- `plist_dict_remove_item`. -/
def plistDictRemoveItem (node : PlistNode) (key : CText) : Checked PlistNode :=
  if node.1.type = .dict then do
    let found ← findKeyNode key.val node.2
    match found with
    | some ⟨before, _, some _, after⟩ => return (node.1, before.append after)
    | _ => return node
  else return node

/-- A call of a mutator.  An item is a tree of its own, handed over to the
dictionary. -/
inductive DictCall where
  | insertItem (key : CText) (item : PlistNode)
  | setItem (key : CText) (item : PlistNode)
  | removeItem (key : CText)

def DictCall.run (node : PlistNode) : DictCall → Checked PlistNode
  | .insertItem key item => .ok (plistDictInsertItem node key item)
  | .setItem key item => plistDictSetItem node key item
  | .removeItem key => plistDictRemoveItem node key

/-! ## Association lists -/

/-- What a dictionary holds. -/
abbrev Bindings := List (CText × PlistNode)

namespace Bindings

/-- Replace the value of the first binding of a key. -/
def set (key : CText) (item : PlistNode) : Bindings → Bindings
  | [] => []
  | (k, v) :: rest => if k = key then (k, item) :: rest else (k, v) :: set key item rest

/-- Drop the first binding of a key. -/
def remove (key : CText) : Bindings → Bindings
  | [] => []
  | (k, v) :: rest => if k = key then rest else (k, v) :: remove key rest

/-- What each call is to do. -/
def apply (bindings : Bindings) : DictCall → Bindings
  | .insertItem key item => bindings ++ [(key, item)]
  | .setItem key item => bindings.set key item
  | .removeItem key => bindings.remove key

theorem set_absent {key : CText} {item : PlistNode} :
    ∀ {bindings : Bindings}, bindings.lookup key = none → bindings.set key item = bindings
  | [], _ => rfl
  | (k, v) :: rest, absent => by
      rw [List.lookup_cons] at absent
      split at absent
      · cases absent
      · rename_i other
        have differ : ¬ k = key := fun same => by simp [same] at other
        rw [set, if_neg differ, set_absent absent]

end Bindings

/-- The children hold the bindings: a key node and a value for each, in order. -/
inductive Alternates : GNode → Bindings → Prop where
  | nil : Alternates .nil []
  | cons {data : PlistData} {below : GNode} {key : CText} {item : PlistNode} {rest : GNode}
      {bindings : Bindings} (type : data.type = .key) (value : data.value = .strval key.val)
      (alternates : Alternates rest bindings) :
      Alternates (.cons data below (.cons item.1 item.2 rest)) ((key, item) :: bindings)

theorem Alternates.length {chain : GNode} {bindings : Bindings}
    (alternates : Alternates chain bindings) : chain.length = 2 * bindings.length := by
  induction alternates with
  | nil => rfl
  | cons type value alternates ih =>
    simp only [Siblings.length, ih, List.length_cons]
    omega

theorem Alternates.append {front back : GNode} {first second : Bindings}
    (left : Alternates front first) (right : Alternates back second) :
    Alternates (front.append back) (first ++ second) := by
  induction left with
  | nil => exact right
  | cons type value alternates ih => exact .cons type value ih

/-! ## The operations on an alternating list -/

theorem findKeyNode_absent {chain : GNode} {bindings : Bindings} {key : CText}
    (alternates : Alternates chain bindings) (absent : bindings.lookup key = none) :
    findKeyNode key.val chain = .ok none := by
  induction alternates with
  | nil => rfl
  | @cons data below k item rest bindings type value alternates ih =>
    rw [List.lookup_cons] at absent
    split at absent
    · cases absent
    · rename_i other
      have differ : ¬ key.val = k.val := fun same => by simp [Subtype.ext same] at other
      simp only [findKeyNode, type, value, differ, if_false, ih absent]
      rfl

/-- The walk stops at the first binding of the key. -/
theorem findKeyNode_present {chain : GNode} {bindings : Bindings} {key : CText} {item : PlistNode}
    (alternates : Alternates chain bindings) (present : bindings.lookup key = some item) :
    ∃ before keyNode after front back,
      findKeyNode key.val chain = .ok (some ⟨before, keyNode, some item, after⟩) ∧
        bindings = front ++ (key, item) :: back ∧ front.lookup key = none ∧
        Alternates before front ∧ Alternates after back := by
  induction alternates with
  | nil => cases present
  | @cons data below k v rest bindings type value alternates ih =>
    rw [List.lookup_cons] at present
    split at present
    · rename_i same
      have equal : key = k := beq_iff_eq.mp same
      subst equal
      cases present
      refine ⟨.nil, (data, below), rest, [], bindings, ?_, rfl, rfl, .nil, alternates⟩
      simp only [findKeyNode, type, value, if_true]
    · rename_i other
      have differ : ¬ key.val = k.val := fun same => by simp [Subtype.ext same] at other
      obtain ⟨before, keyNode, after, front, back, found, split, first, left, right⟩ := ih present
      refine ⟨.cons data below (.cons v.1 v.2 before), keyNode, after, (k, v) :: front, back, ?_,
        by rw [split]; rfl, ?_, .cons type value left, right⟩
      · simp only [findKeyNode, type, value, differ, if_false, found]
        rfl
      · rw [List.lookup_cons, other]
        exact first

theorem Bindings.remove_append {key : CText} {item : PlistNode} {back : Bindings} :
    ∀ {front : Bindings}, front.lookup key = none →
      Bindings.remove key (front ++ (key, item) :: back) = front ++ back
  | [], _ => by simp [Bindings.remove]
  | (k, v) :: front, absent => by
      rw [List.lookup_cons] at absent
      split at absent
      · cases absent
      · rename_i other
        have differ : ¬ k = key := fun same => by simp [same] at other
        rw [List.cons_append, Bindings.remove, if_neg differ, remove_append absent]
        rfl

theorem Bindings.remove_absent {key : CText} :
    ∀ {bindings : Bindings}, bindings.lookup key = none → bindings.remove key = bindings
  | [], _ => rfl
  | (k, v) :: rest, absent => by
      rw [List.lookup_cons] at absent
      split at absent
      · cases absent
      · rename_i other
        have differ : ¬ k = key := fun same => by simp [same] at other
        rw [remove, if_neg differ, remove_absent absent]

section Operations

variable {node : PlistNode} {bindings : Bindings} (isDict : node.1.type = .dict)
variable (alternates : Alternates node.2 bindings)

include isDict alternates

theorem getItem_eq (key : CText) : plistDictGetItem node key = .ok (bindings.lookup key) := by
  simp only [plistDictGetItem, isDict, if_true]
  cases present : bindings.lookup key with
  | none => rw [findKeyNode_absent alternates present]; rfl
  | some item =>
    obtain ⟨before, keyNode, after, front, back, found, -⟩ := findKeyNode_present alternates present
    rw [found]
    rfl

theorem insertItem_alternates (key : CText) (item : PlistNode) :
    (plistDictInsertItem node key item).1.type = .dict ∧
      Alternates (plistDictInsertItem node key item).2 (bindings ++ [(key, item)]) := by
  simp only [plistDictInsertItem, isDict, if_true, true_and]
  refine alternates.append (.cons rfl ?_ .nil)
  simp only [plistNewKey, cString_of_nul_free key.property]

theorem removeItem_alternates (key : CText) :
    ∃ node', plistDictRemoveItem node key = .ok node' ∧ node'.1.type = .dict ∧
      Alternates node'.2 (bindings.remove key) := by
  simp only [plistDictRemoveItem, isDict, if_true]
  cases present : bindings.lookup key with
  | none =>
    rw [findKeyNode_absent alternates present, Bindings.remove_absent present]
    exact ⟨node, rfl, isDict, alternates⟩
  | some item =>
    obtain ⟨before, keyNode, after, front, back, found, split, first, left, right⟩ :=
      findKeyNode_present alternates present
    rw [found, split, Bindings.remove_append first]
    exact ⟨_, rfl, isDict, left.append right⟩

theorem setItem_absent {key : CText} (absent : bindings.lookup key = none) (item : PlistNode) :
    plistDictSetItem node key item = .ok node := by
  simp only [plistDictSetItem, isDict, if_true, findKeyNode_absent alternates absent]
  rfl

/-- **On a present key the value is unlinked and nothing takes its place**: one node
fewer, if the copy of the new item succeeds at all. -/
theorem setItem_present {key : CText} {old : PlistNode} (present : bindings.lookup key = some old)
    (item : PlistNode) {node' : PlistNode} (set : plistDictSetItem node key item = .ok node') :
    node'.2.length + 1 = 2 * bindings.length := by
  obtain ⟨before, keyNode, after, front, back, found, split, -, left, right⟩ :=
    findKeyNode_present alternates present
  simp only [plistDictSetItem, isDict, if_true, found, bind, Except.bind] at set
  split at set
  · cases set
  · cases set
    have lengths : (before.append (.cons keyNode.1 keyNode.2 after)).length =
        before.length + (after.length + 1) := by
      rw [← Siblings.length_toList, Siblings.toList_append, List.length_append,
        Siblings.length_toList, Siblings.toList, List.length_cons, Siblings.length_toList]
    simp only [lengths, left.length, right.length, split, List.length_append, List.length_cons]
    omega

end Operations

/-! ## Runs of calls -/

/-- The node is a dictionary that holds the bindings and answers for them. -/
structure Holds (node : PlistNode) (bindings : Bindings) : Prop where
  isDict : node.1.type = .dict
  alternates : Alternates node.2 bindings
  size : plistDictGetSize node = bindings.length
  item : ∀ key, plistDictGetItem node key = .ok (bindings.lookup key)

/-- Before, between and after the calls the dictionary is the association list. -/
def Follows : PlistNode → Bindings → List DictCall → Prop
  | node, bindings, [] => Holds node bindings
  | node, bindings, call :: calls => Holds node bindings ∧
      ∃ node', call.run node = .ok node' ∧ Follows node' (bindings.apply call) calls

/-- The call sets no key that is present. -/
def DictCall.SetsAbsent (bindings : Bindings) : DictCall → Prop
  | .setItem key _ => bindings.lookup key = none
  | _ => True

/-- No call sets a present key, and there are never 2^31 bindings. -/
def SetsAbsent : Bindings → List DictCall → Prop
  | bindings, [] => bindings.length < 2 ^ 31
  | bindings, call :: calls => bindings.length < 2 ^ 31 ∧ call.SetsAbsent bindings ∧
      SetsAbsent (bindings.apply call) calls

theorem holds_iff {node : PlistNode} {bindings : Bindings} (isDict : node.1.type = .dict)
    (alternates : Alternates node.2 bindings) : Holds node bindings ↔ bindings.length < 2 ^ 31 := by
  have size : plistDictGetSize node = 2 * bindings.length % 2 ^ 32 / 2 := by
    simp only [plistDictGetSize, isDict, if_true, alternates.length]
  constructor
  · intro holds
    have counted := holds.size
    rw [size] at counted
    omega
  · intro small
    exact ⟨isDict, alternates, by rw [size]; omega, getItem_eq isDict alternates⟩

/-- One call: what the association list says, unless it sets a present key. -/
theorem run_alternates {node : PlistNode} {bindings : Bindings} (isDict : node.1.type = .dict)
    (alternates : Alternates node.2 bindings) {call : DictCall} (absent : call.SetsAbsent bindings) :
    ∃ node', call.run node = .ok node' ∧ node'.1.type = .dict ∧
      Alternates node'.2 (bindings.apply call) := by
  cases call with
  | insertItem key item => exact ⟨_, rfl, insertItem_alternates isDict alternates key item⟩
  | setItem key item =>
    refine ⟨node, setItem_absent isDict alternates absent item, isDict, ?_⟩
    rw [Bindings.apply, Bindings.set_absent absent]
    exact alternates
  | removeItem key => exact removeItem_alternates isDict alternates key

/-- A call that sets a present key breaks the alternation. -/
theorem setsAbsent_of_alternates {node node' : PlistNode} {bindings bindings' : Bindings}
    (isDict : node.1.type = .dict) (alternates : Alternates node.2 bindings) {call : DictCall}
    (ran : call.run node = .ok node') (still : Alternates node'.2 bindings') :
    call.SetsAbsent bindings := by
  cases call with
  | insertItem key item => trivial
  | removeItem key => trivial
  | setItem key item =>
    cases present : bindings.lookup key with
    | none => exact present
    | some old =>
      have fewer := setItem_present isDict alternates present item ran
      rw [still.length] at fewer
      omega

/-- **A run of calls keeps the alternation and behaves as an association list
exactly when no call sets a present key.** -/
theorem follows_iff {calls : List DictCall} : ∀ {node : PlistNode} {bindings : Bindings},
    node.1.type = .dict → Alternates node.2 bindings →
      (Follows node bindings calls ↔ SetsAbsent bindings calls) := by
  induction calls with
  | nil => exact fun isDict alternates => holds_iff isDict alternates
  | cons call calls ih =>
    intro node bindings isDict alternates
    rw [Follows, SetsAbsent, holds_iff isDict alternates]
    refine and_congr_right fun _ => ?_
    constructor
    · rintro ⟨node', ran, follows⟩
      have after : Holds node' (bindings.apply call) := by
        cases calls with
        | nil => exact follows
        | cons => exact follows.1
      refine ⟨setsAbsent_of_alternates isDict alternates ran after.alternates, ?_⟩
      exact (ih after.isDict after.alternates).mp follows
    · rintro ⟨absent, rest⟩
      obtain ⟨node', ran, isDict', alternates'⟩ := run_alternates isDict alternates absent
      exact ⟨node', ran, (ih isDict' alternates').mpr rest⟩

/-- A dictionary with one binding, `a` to an empty array. -/
def oneBinding : PlistNode :=
  plistDictInsertItem (plistNewDict, .nil) ⟨[0x61], by decide⟩ (plistNewArray, .nil)

theorem oneBinding_alternates :
    Alternates oneBinding.2 [(⟨[0x61], by decide⟩, (plistNewArray, .nil))] :=
  .cons rfl rfl .nil

/-- Inserting, removing and setting an absent key. -/
theorem insert_remove_follows :
    Follows oneBinding [(⟨[0x61], by decide⟩, (plistNewArray, .nil))]
      [.insertItem ⟨[0x62], by decide⟩ (plistNewUint 7, .nil), .removeItem ⟨[0x61], by decide⟩,
        .setItem ⟨[0x63], by decide⟩ (plistNewUint 8, .nil)] :=
  (follows_iff rfl oneBinding_alternates).mpr
    ⟨by decide, trivial, by decide, trivial, by decide, rfl, (by decide : 1 < 2 ^ 31)⟩

/-- Setting the key that is there: its value is gone afterwards. -/
theorem set_present_loses_value :
    ¬ Follows oneBinding [(⟨[0x61], by decide⟩, (plistNewArray, .nil))]
      [.setItem ⟨[0x61], by decide⟩ (plistNewUint 7, .nil)] := by
  rintro ⟨-, node', ran, holds⟩
  have lost : DictCall.run oneBinding (.setItem ⟨[0x61], by decide⟩ (plistNewUint 7, .nil)) =
      .ok (plistNewDict, .cons (plistNewKey [0x61]) .nil .nil) := by decide
  rw [lost] at ran
  cases ran
  exact absurd holds.alternates.length (by decide)

end Irestore.Plist
