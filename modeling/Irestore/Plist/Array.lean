/-
# Plist.Array — arrays as chains of items

The children of an array node are its items.  The mutators of `plist.c` find an item by
its index and link or unlink nodes; `plist_array_set_item` shares the mistake of
`plist_dict_set_item`: the copy of the new item goes to a local variable.

* `gNodeInsert_toList`, `unlinkNth_toList` — what linking and unlinking do to the list of
  children.
* `lists_iff` — when the size and the items an array shows are those of a list.
* `arrayFollows_iff` — a run of calls in range behaves as the list exactly when it sets no
  item, and inserts nothing far behind.
* `set_item_drops` — an array of one item, which is set.
-/
import Irestore.Plist.Access

namespace Irestore.Plist

open Irestore.Library Irestore.Library.CMemory

set_option autoImplicit false

/-! ## The operations -/

/-- `plist_array_get_size`; `g_node_n_children` counts in 32 bits. -/
def plistArrayGetSize (node : PlistNode) : Nat :=
  if node.1.type = .array then node.2.length % 2 ^ 32 else 0

/-- `g_node_insert_before` the nth child, or behind all when there is none. -/
def insertBefore (item : PlistNode) : Nat → GNode → GNode
  | 0, chain => .cons item.1 item.2 chain
  | _ + 1, .nil => .cons item.1 item.2 .nil
  | n + 1, .cons data below next => .cons data below (insertBefore item n next)

/-- `g_node_insert`; a negative position is behind all children. -/
def gNodeInsert (chain : GNode) (position : Int) (item : PlistNode) : GNode :=
  if position < 0 then chain.append (.cons item.1 item.2 .nil)
  else insertBefore item position.toNat chain

/-- `g_node_unlink` of the nth child. -/
def unlinkNth : Nat → GNode → GNode
  | _, .nil => .nil
  | 0, .cons _ _ next => next
  | n + 1, .cons data below next => .cons data below (unlinkNth n next)

/-- `plist_array_insert_item`; the index goes to a `gint`. -/
def plistArrayInsertItem (node item : PlistNode) (n : UInt32) : PlistNode :=
  if node.1.type = .array then (node.1, gNodeInsert node.2 (toInt32 n.toNat) item) else node

/-- `plist_array_set_item`: the old item is unlinked and freed, and the copy of the new
one is linked nowhere. -/
def plistArraySetItem (node item : PlistNode) (n : UInt32) : Checked PlistNode :=
  match plistArrayGetItem node n.toNat with
  | none => return node
  | some _ => do
      let _ ← plistCopyNode item
      return (node.1, unlinkNth n.toNat node.2)

/-- `plist_array_remove_item`. -/
def plistArrayRemoveItem (node : PlistNode) (n : UInt32) : PlistNode :=
  match plistArrayGetItem node n.toNat with
  | none => node
  | some _ => (node.1, unlinkNth n.toNat node.2)

/-- A call of a mutator.  An item is a tree of its own, handed over to the array. -/
inductive ArrayCall where
  | appendItem (item : PlistNode)
  | insertItem (item : PlistNode) (n : UInt32)
  | setItem (item : PlistNode) (n : UInt32)
  | removeItem (n : UInt32)

def ArrayCall.run (node : PlistNode) : ArrayCall → Checked PlistNode
  | .appendItem item => .ok (plistArrayAppendItem node item)
  | .insertItem item n => .ok (plistArrayInsertItem node item n)
  | .setItem item n => plistArraySetItem node item n
  | .removeItem n => .ok (plistArrayRemoveItem node n)

/-! ## Lists -/

/-- What each call is to do. -/
def ArrayCall.apply (items : List PlistNode) : ArrayCall → List PlistNode
  | .appendItem item => items ++ [item]
  | .insertItem item n => items.insertIdx n.toNat item
  | .setItem item n => items.set n.toNat item
  | .removeItem n => items.eraseIdx n.toNat

/-- The index is at most the size for an insertion, and below it otherwise. -/
def ArrayCall.InRange (items : List PlistNode) : ArrayCall → Prop
  | .appendItem _ => True
  | .insertItem _ n => n.toNat ≤ items.length
  | .setItem _ n => n.toNat < items.length
  | .removeItem n => n.toNat < items.length

instance (items : List PlistNode) : ∀ call : ArrayCall, Decidable (call.InRange items)
  | .appendItem _ => inferInstanceAs (Decidable True)
  | .insertItem _ n => inferInstanceAs (Decidable (n.toNat ≤ items.length))
  | .setItem _ n => inferInstanceAs (Decidable (n.toNat < items.length))
  | .removeItem n => inferInstanceAs (Decidable (n.toNat < items.length))

/-- Every index is in range when its call is made. -/
def InRange : List PlistNode → List ArrayCall → Prop
  | _, [] => True
  | items, call :: calls => call.InRange items ∧ InRange (call.apply items) calls

/-- The array has the size of the list, and shows its items. -/
structure Lists (node : PlistNode) (items : List PlistNode) : Prop where
  isArray : node.1.type = .array
  size : plistArrayGetSize node = items.length
  item : ∀ n : UInt32, plistArrayGetItem node n.toNat = items[n.toNat]?

/-- Before, between and after the calls the array is the list. -/
def ArrayFollows : PlistNode → List PlistNode → List ArrayCall → Prop
  | node, items, [] => Lists node items
  | node, items, call :: calls => Lists node items ∧
      ∃ node', call.run node = .ok node' ∧ ArrayFollows node' (call.apply items) calls

/-- The call sets no item, and inserts none at an index of 2^31 or more unless only its like
are behind it. -/
def ArrayCall.Follows (items : List PlistNode) : ArrayCall → Prop
  | .setItem .. => False
  | .insertItem item n => n.toNat < 2 ^ 31 ∨ ∀ behind ∈ items.drop n.toNat, behind = item
  | _ => True

/-- Every call is such a one, and there are never 2^32 items. -/
def CallsFollow : List PlistNode → List ArrayCall → Prop
  | items, [] => items.length < 2 ^ 32
  | items, call :: calls =>
      items.length < 2 ^ 32 ∧ call.Follows items ∧ CallsFollow (call.apply items) calls

/-! ## Linking and unlinking -/

theorem insertBefore_toList (item : PlistNode) : ∀ {n : Nat} {chain : GNode},
    n ≤ chain.toList.length → (insertBefore item n chain).toList = chain.toList.insertIdx n item
  | 0, _, _ => rfl
  | n + 1, .nil, within => absurd within (Nat.not_succ_le_zero n)
  | n + 1, .cons data below next, within => by
      simp [insertBefore, Siblings.toList, insertBefore_toList item (Nat.le_of_succ_le_succ within)]

/-- **Insertion**: at the index when it is one of a `gint`, else behind all. -/
theorem gNodeInsert_toList {chain : GNode} {n : UInt32} (within : n.toNat ≤ chain.toList.length)
    (item : PlistNode) :
    (gNodeInsert chain (toInt32 n.toNat) item).toList =
      if n.toNat < 2 ^ 31 then chain.toList.insertIdx n.toNat item
      else chain.toList ++ [item] := by
  have bound := n.toNat_lt
  rw [gNodeInsert]
  by_cases small : n.toNat < 2 ^ 31
  · rw [toInt32_of_lt small, if_neg (by omega), if_pos small, Int.toNat_natCast,
      insertBefore_toList item within]
  · have negative : toInt32 n.toNat < 0 := by
      rw [toInt32, Nat.mod_eq_of_lt bound, if_neg small]
      omega
    rw [if_pos negative, if_neg small]
    simp [Siblings.toList]

/-- **Unlinking** takes one item out. -/
theorem unlinkNth_toList : ∀ (n : Nat) (chain : GNode),
    (unlinkNth n chain).toList = chain.toList.eraseIdx n
  | _, .nil => by simp [unlinkNth, Siblings.toList]
  | 0, .cons _ _ _ => rfl
  | n + 1, .cons data below next => by
      simp [unlinkNth, Siblings.toList, unlinkNth_toList n next]

/-- Put behind all, an item is where it was to be only when its like are behind it. -/
theorem concat_eq_insertIdx_iff {α : Type} {a : α} :
    ∀ {n : Nat} {xs : List α}, n ≤ xs.length →
      (xs ++ [a] = xs.insertIdx n a ↔ ∀ x ∈ xs.drop n, x = a)
  | 0, [], _ => by simp
  | 0, x :: xs, _ => by
      have rest := @concat_eq_insertIdx_iff α a 0 xs (Nat.zero_le _)
      rw [List.insertIdx_zero, List.drop_zero] at rest ⊢
      rw [List.cons_append, List.cons.injEq, List.forall_mem_cons]
      constructor
      · rintro ⟨rfl, same⟩
        exact ⟨rfl, rest.mp same⟩
      · rintro ⟨rfl, same⟩
        exact ⟨rfl, rest.mpr same⟩
  | n + 1, [], within => absurd within (Nat.not_succ_le_zero n)
  | n + 1, x :: xs, within => by
      rw [List.cons_append, List.insertIdx_succ_cons, List.cons.injEq, List.drop_succ_cons,
        concat_eq_insertIdx_iff (Nat.le_of_succ_le_succ within)]
      exact and_iff_right rfl

/-! ## One call -/

/-- **An array shows a list exactly when its children are the list**, as long as the items
can be counted. -/
theorem lists_iff {node : PlistNode} {items : List PlistNode} (isArray : node.1.type = .array) :
    Lists node items ↔ node.2.toList = items ∧ items.length < 2 ^ 32 := by
  have size : plistArrayGetSize node = node.2.toList.length % 2 ^ 32 := by
    rw [plistArrayGetSize, if_pos isArray, Siblings.length_toList]
  have item := plistArrayGetItem_eq isArray
  constructor
  · intro lists
    have counted := lists.size
    rw [size] at counted
    have small : items.length < 2 ^ 32 := counted ▸ Nat.mod_lt _ (by decide)
    have shown (n : Nat) (fits : n < 2 ^ 32) : node.2.toList[n]? = items[n]? := by
      have at_n := lists.item (UInt32.ofNat n)
      rwa [UInt32.toNat_ofNat_of_lt' fits, item] at at_n
    -- nothing is behind the last item the list has
    have ended : node.2.toList.length ≤ items.length := by
      have last := shown items.length small
      rwa [List.getElem?_eq_none (Nat.le_refl _), List.getElem?_eq_none_iff] at last
    refine ⟨List.ext_getElem? fun n => ?_, small⟩
    by_cases fits : n < 2 ^ 32
    · exact shown n fits
    · rw [List.getElem?_eq_none (by omega), List.getElem?_eq_none (by omega)]
  · rintro ⟨rfl, small⟩
    exact ⟨isArray, by rw [size, Nat.mod_eq_of_lt small], fun n => item n.toNat⟩

/-- What a call makes of the children, when its index is in range. -/
theorem ArrayCall.run_cases {node : PlistNode} (isArray : node.1.type = .array)
    {call : ArrayCall} (inRange : call.InRange node.2.toList) :
    (∃ item n, call = .setItem item n ∧ ∀ node', call.run node = .ok node' →
      node'.2.toList.length + 1 = node.2.toList.length) ∨
    ∃ node', call.run node = .ok node' ∧ node'.1.type = .array ∧
      (node'.2.toList = call.apply node.2.toList ↔ call.Follows node.2.toList) := by
  have found (n : UInt32) (below : n.toNat < node.2.toList.length) :
      ∃ old, plistArrayGetItem node n.toNat = some old :=
    ⟨_, (if_pos isArray).trans (List.getElem?_eq_getElem below)⟩
  cases call with
  | appendItem item =>
    refine .inr ⟨_, rfl, ?_, iff_of_true ?_ trivial⟩
    · rw [plistArrayAppendItem, if_pos isArray]
      exact isArray
    · rw [plistArrayAppendItem, if_pos isArray]
      simp [ArrayCall.apply, Siblings.toList]
  | insertItem item n =>
    have within : n.toNat ≤ node.2.toList.length := inRange
    refine .inr ⟨_, rfl, ?_, ?_⟩
    · rw [plistArrayInsertItem, if_pos isArray]
      exact isArray
    · rw [plistArrayInsertItem, if_pos isArray]
      dsimp only
      rw [gNodeInsert_toList within, ArrayCall.apply, ArrayCall.Follows]
      by_cases small : n.toNat < 2 ^ 31
      · rw [if_pos small]
        exact iff_of_true rfl (.inl small)
      · rw [if_neg small, or_iff_right small, concat_eq_insertIdx_iff within]
  | setItem item n =>
    obtain ⟨old, isOld⟩ := found n inRange
    refine .inl ⟨item, n, rfl, fun node' ran => ?_⟩
    simp only [ArrayCall.run, plistArraySetItem, isOld] at ran
    obtain ⟨_, -, same⟩ := bind_eq_ok.mp ran
    cases same
    rw [unlinkNth_toList, List.length_eraseIdx_of_lt inRange]
    have within : n.toNat < node.2.toList.length := inRange
    omega
  | removeItem n =>
    obtain ⟨old, isOld⟩ := found n inRange
    refine .inr ⟨_, rfl, ?_, iff_of_true ?_ trivial⟩
    · simp only [plistArrayRemoveItem, isOld]
      exact isArray
    · simp only [plistArrayRemoveItem, isOld]
      exact unlinkNth_toList _ _

theorem ArrayCall.length_apply {items : List PlistNode} {item : PlistNode} {n : UInt32} :
    (ArrayCall.apply items (.setItem item n)).length = items.length := by
  rw [ArrayCall.apply, List.length_set]

/-! ## Runs of calls -/

/-- **A run of calls in range behaves as the list exactly when it sets no item, inserts none at
an index of 2^31 or more unless only its like are behind it, and never comes to 2^32 items.** -/
theorem arrayFollows_iff {calls : List ArrayCall} : ∀ {node : PlistNode},
    node.1.type = .array → InRange node.2.toList calls →
      (ArrayFollows node node.2.toList calls ↔ CallsFollow node.2.toList calls) := by
  induction calls with
  | nil =>
    intro node isArray _
    rw [ArrayFollows, CallsFollow, lists_iff isArray]
    exact and_iff_right rfl
  | cons call calls ih =>
    rintro node isArray ⟨inRange, rest⟩
    rw [ArrayFollows, CallsFollow, lists_iff isArray, and_iff_right rfl]
    refine and_congr_right fun _ => ?_
    have lists {node' : PlistNode} {items : List PlistNode}
        (follows : ArrayFollows node' items calls) : node'.2.toList = items := by
      cases calls with
      | nil => exact ((lists_iff follows.isArray).mp follows).1
      | cons => exact ((lists_iff follows.1.isArray).mp follows.1).1
    rcases ArrayCall.run_cases isArray inRange with ⟨item, n, rfl, shorter⟩ |
      ⟨node', ran, isArray', same⟩
    · constructor
      · rintro ⟨node', ran, follows⟩
        have fewer := shorter node' ran
        rw [lists follows, ArrayCall.length_apply] at fewer
        omega
      · rintro ⟨never, -⟩
        exact never.elim
    · rw [← same]
      constructor
      · rintro ⟨node'', ran', follows⟩
        cases ran.symm.trans ran'
        have items := lists follows
        rw [← items] at rest follows ⊢
        exact ⟨rfl, (ih isArray' rest).mp follows⟩
      · rintro ⟨items, follow⟩
        rw [← items] at rest follow ⊢
        exact ⟨node', ran, (ih isArray' rest).mpr follow⟩

def emptyArray : PlistNode := leaf plistNewArray

/-- Appending, inserting and removing. -/
theorem append_insert_remove_follows :
    ArrayFollows emptyArray [] [.appendItem (leaf (plistNewUint 1)),
      .insertItem (leaf (plistNewUint 2)) 0, .removeItem 1] := by
  refine (@arrayFollows_iff _ emptyArray rfl ?_).mpr ?_
  · exact ⟨trivial, by decide, by decide, trivial⟩
  · exact ⟨by decide, trivial, by decide, .inl (by decide), by decide, trivial,
      (by decide : 1 < 2 ^ 32)⟩

/-- Setting the one item of an array: it has none afterwards. -/
theorem set_item_drops :
    ¬ ArrayFollows (plistArrayAppendItem emptyArray (leaf (plistNewUint 1)))
      [leaf (plistNewUint 1)] [.setItem (leaf (plistNewUint 2)) 0] := by
  rintro ⟨-, node', ran, lists⟩
  have dropped : ArrayCall.run (plistArrayAppendItem emptyArray (leaf (plistNewUint 1)))
      (.setItem (leaf (plistNewUint 2)) 0) = .ok emptyArray := by decide
  cases dropped.symm.trans ran
  have size := lists.size
  revert size
  decide

end Irestore.Plist
