/-
# PlistCpp.Breaks — operations that tear the two sides apart

`plist_dict_remove_item` and its siblings free an item, and the destructor of its wrapper
is called after them; so does assignment to a structure that holds something.  A second
pair under one key, a key that is cut at a NUL, or a node that is left without its wrapper, ends
the mirror.

* `delete_after_free` — what was freed is not there for the destructor.
* `fine_of_kept` — a well-formed operation that keeps the two sides together is fine.
-/
import Irestore.PlistCpp.Steps

namespace Irestore.PlistCpp

open Irestore.Library Irestore.Library.CMemory

set_option autoImplicit false

variable {V : Type}

/-! ## Freed twice -/

theorem plistFree_gone {w : World V} {address : Nat} (gone : address ∉ addresses w.heap) :
    plistFree w address = .error .useAfterFree := by
  rw [plistFree, World.tree, Mirrors.find_eq_none gone]
  rfl

theorem plistFree_inv {w w' : World V} {address : Nat} (ran : plistFree w address = .ok w') :
    w'.heap = w.heap.prune (PNode.at address) ∧ w'.objects = w.objects ∧ w'.next = w.next := by
  obtain ⟨_, -, ran⟩ := bind_eq_ok.mp ran
  cases ran
  exact ⟨rfl, rfl, rfl⟩

/-- The first destructor whose turn comes finds its node freed. -/
theorem deleteWrappers_gone : ∀ {wrapper : Wrapper} {held rest : Siblings Wrapper} {w : World V},
    (∀ a ∈ nodesOf (.cons wrapper held rest), a ∉ addresses w.heap) →
      deleteWrappers (.cons wrapper held rest) w = .error .useAfterFree
  | wrapper, .nil, rest, w, gone => by
      rw [deleteWrappers, deleteWrappers, pure_eq_ok, ok_bind,
        plistFree_gone (gone wrapper.node (by simp)), error_bind]
  | wrapper, .cons first inner next, rest, w, gone => by
      have innerGone : ∀ a ∈ nodesOf (.cons first inner next), a ∉ addresses w.heap := by
        intro a member
        refine gone a ?_
        rw [nodesOf_cons]
        exact List.mem_cons_of_mem _ (List.mem_append_left _ member)
      rw [deleteWrappers, deleteWrappers_gone innerGone, error_bind]

theorem addresses_chain (tree : Tree (PNode V)) :
    addresses tree.chain = tree.1.address :: addresses tree.2 := by
  rw [Tree.chain, addresses_cons, addresses_nil, List.append_nil]

theorem addresses_root : ∀ {chain : Siblings (PNode V)} {tree : Tree (PNode V)},
    tree ∈ chain.toList → addresses tree.chain ⊆ addresses chain
  | .cons node below next, tree, root => by
      rw [Siblings.toList, List.mem_cons] at root
      rw [addresses_cons]
      rcases root with rfl | later
      · rw [addresses_chain]
        exact List.cons_subset_cons _ (List.subset_append_left _ _)
      · exact List.subset_cons_of_subset _
          (List.subset_append_of_subset_right _ (addresses_root later))

theorem nodesOf_chain (wrapper : Tree Wrapper) :
    nodesOf wrapper.chain = wrapper.1.node :: nodesOf wrapper.2 := by
  rw [Tree.chain, nodesOf_cons, nodesOf_nil, List.append_nil]

/-- A tree that is freed is gone with all its nodes. -/
theorem gone_of_prune {heap : Siblings (PNode V)} (apart : (addresses heap).Nodup) {address : Nat}
    {tree : Tree (PNode V)} (found : heap.find (PNode.at address) = some tree) :
    ∀ a ∈ addresses tree.chain, a ∉ addresses (heap.prune (PNode.at address)) := by
  have balance := congrArg (Multiset.map PNode.address)
    (@Siblings.labels_prune _ (PNode.at address) heap)
  rw [Multiset.map_add, Multiset.map_coe, Multiset.map_coe, Multiset.map_coe,
    Multiset.coe_add] at balance
  have both := (Multiset.coe_eq_coe.mp balance).nodup_iff.mpr apart
  intro a inTree live
  have inCut : a ∈ (heap.cut (PNode.at address)).map PNode.address := by
    rw [addresses_chain] at inTree
    exact List.map_subset PNode.address (Siblings.find_subset_cut found) inTree
  exact (List.nodup_append.mp both).2.2 a live a inCut rfl

section Held

variable {w : World V} {target : Nat} {holder bound : Tree Wrapper}

theorem find_held (agree : Agree w) (found : w.objects.find (Wrapper.at target) = some holder)
    (member : bound ∈ holder.2.toList) :
    w.objects.find (Wrapper.at bound.1.node) = some bound := by
  have within := (Siblings.labels_of_find found).countP_le (p := Wrapper.at bound.1.node)
  have once := agree.wrappers_once bound.1.node
  exact Siblings.find_find found
    (Siblings.find_of_root member (decide_eq_true rfl) (Nat.le_trans within once)) once

/-- **What was freed is not there for the destructor.** -/
theorem delete_after_free (agree : Agree w)
    (found : w.objects.find (Wrapper.at bound.1.node) = some bound) {w' : World V}
    (freed : addresses w'.heap ⊆ addresses (w.heap.prune (PNode.at bound.1.node))) :
    deleteWrappers bound.chain w' = .error .useAfterFree := by
  obtain ⟨tree, located, -, mirrors⟩ := agree.mirrors.find _ agree.apart bound found
  have isNode : tree.1.address = bound.1.node :=
    of_decide_eq_true (Siblings.find_eq_some located).2
  refine deleteWrappers_gone fun a member live => ?_
  refine gone_of_prune agree.apart located a ?_ (freed live)
  have inBound : a ∈ nodesOf bound.chain := member
  rw [nodesOf_chain] at inBound
  rw [addresses_chain, isNode]
  exact List.cons_subset_cons _ mirrors.nodes_subset inBound

end Held

/-! ## Removing -/

/-- A binding among the children of its dictionary. -/
structure Pair (held : Siblings Wrapper) (below : Siblings (PNode V)) (bound : Tree Wrapper)
    (keyNode : PNode V) (node : Tree (PNode V)) : Prop where
  keyRoot : (keyNode, .nil) ∈ below.toList
  root : node ∈ below.toList
  key : keyNode.content = .key (cStr bound.1.key)
  same : bound.1.node = node.1.address
  mirrors : Mirrors bound.1.kind bound.2 node.2
  isBound : binding held bound.1.key = some bound
  got : pairOf (cStr bound.1.key) below = .ok (some (keyNode.address, bound.1.node))
  named : (addresses below).Nodup → keyBefore bound.1.node below = some (cStr bound.1.key) ∧
    keyNode.address ∉ addresses node.chain

theorem pair_of_bound {kind : Kind} {held : Siblings Wrapper} {below : Siblings (PNode V)}
    (mirrors : Mirrors kind held below) (isDict : kind = .dict) {bound : Tree Wrapper}
    (member : bound ∈ held.toList) : ∃ keyNode node, Pair held below bound keyNode node := by
  induction mirrors with
  | nil => cases member
  | item => cases isDict
  | @binding keyNode text wrapper node inHeld rest inner next key isKey unbound same typed mirrored
      later ihInner ihLater =>
    rw [← cStr_val text, ← isKey] at key
    rw [Siblings.toList, List.mem_cons] at member
    rcases member with rfl | inRest
    · refine ⟨keyNode, (node, inner), List.mem_cons_self, List.mem_cons_of_mem _ List.mem_cons_self,
        key, same, mirrored, ?_, ?_, fun apart => ⟨?_, ?_⟩⟩
      · rw [binding, Siblings.toList, List.find?_cons_of_pos (by simp)]
      · simp only [pairOf, key, if_true, same, pure_eq_ok]
      · simp only [keyBefore, key, same, if_true]
      · rw [addresses_cons, addresses_nil, List.nil_append, List.nodup_cons] at apart
        rw [addresses_chain]
        intro inTree
        refine apart.1 ?_
        rw [addresses_cons]
        exact List.cons_subset_cons _ (List.subset_append_left _ _) inTree
    · obtain ⟨keyNode', node', pair⟩ := ihLater rfl inRest
      have otherKey : wrapper.key ≠ bound.1.key := by
        intro equal
        refine unbound ?_
        rw [equal]
        exact List.mem_map_of_mem (f := fun tree => tree.1.key) inRest
      have otherText : cStr wrapper.key ≠ cStr bound.1.key := by
        intro equal
        have nulFree := later.nul_free_of_mem rfl
          (List.mem_map_of_mem (f := fun tree => tree.1.key) inRest)
        have texts := congrArg Subtype.val equal
        rw [isKey, cStr_val, ← isKey] at texts
        exact otherKey (texts.trans (cString_of_nul_free nulFree))
      refine ⟨keyNode', node', List.mem_cons_of_mem _ (List.mem_cons_of_mem _ pair.keyRoot),
        List.mem_cons_of_mem _ (List.mem_cons_of_mem _ pair.root), pair.key, pair.same,
        pair.mirrors, ?_, ?_, fun apart => ?_⟩
      · rw [binding, Siblings.toList, List.find?_cons_of_neg (by simpa using otherKey)]
        exact pair.isBound
      · simp only [pairOf, key, if_neg otherText]
        exact pair.got
      · rw [addresses_cons, addresses_nil, List.nil_append, List.nodup_cons, addresses_cons,
          List.nodup_cons, List.mem_append, not_or, List.nodup_append] at apart
        have otherNode : node.address ≠ bound.1.node := by
          intro equal
          refine apart.2.1.2 ?_
          rw [equal, pair.same]
          exact List.mem_map_of_mem (Siblings.root_mem_labels pair.root)
        obtain ⟨named, beside⟩ := pair.named apart.2.2.2.1
        exact ⟨by simp only [keyBefore, key, if_neg otherNode, named], beside⟩

section Removing

variable {w w' : World V} {target : Nat}

/-- The structure an operation is on, and the children of its node. -/
theorem structure_of_holds (agree : Agree w) {kind : Kind} {P : Siblings Wrapper → Prop}
    (holds : Holds w target kind P) :
    ∃ wrapper tree, w.objects.find (Wrapper.at target) = some wrapper ∧
      w.heap.find (PNode.at target) = some tree ∧ tree.1.content.kind? = some kind ∧
      Mirrors kind wrapper.2 tree.2 ∧ P wrapper.2 := by
  obtain ⟨wrapper, found, isKind, property⟩ := holds
  obtain ⟨tree, located, typed, mirrors⟩ := agree.mirrors.find target agree.apart wrapper found
  rw [isKind] at typed mirrors
  exact ⟨wrapper, tree, found, located, typed, mirrors, property⟩

theorem tree_of_find {tree : Tree (PNode V)} (located : w.heap.find (PNode.at target) = some tree) :
    w.tree target = .ok tree := by
  rw [World.tree, located]
  rfl

theorem apart_below (agree : Agree w) {tree : Tree (PNode V)}
    (located : w.heap.find (PNode.at target) = some tree) : (addresses tree.2).Nodup :=
  agree.apart.sublist ((Siblings.labels_of_find located).map PNode.address)

/-- `plist_dict_remove_item` frees the node of the wrapper bound to the key. -/
theorem dict_item_freed (agree : Agree w) {holder bound : Tree Wrapper} {tree : Tree (PNode V)}
    (found : w.objects.find (Wrapper.at target) = some holder)
    (located : w.heap.find (PNode.at target) = some tree)
    (mirrors : Mirrors .dict holder.2 tree.2) (member : bound ∈ holder.2.toList)
    (ran : plistDictRemoveItem w target (cStr bound.1.key) = .ok w') :
    deleteWrappers bound.chain w' = .error .useAfterFree := by
  obtain ⟨keyNode, node, pair⟩ := pair_of_bound mirrors rfl member
  rw [plistDictRemoveItem, tree_of_find located, ok_bind, pair.got, ok_bind] at ran
  obtain ⟨w₁, first, second⟩ := bind_eq_ok.mp ran
  refine delete_after_free agree (find_held agree found member) ?_
  rw [(plistFree_inv second).1, (plistFree_inv first).1, Siblings.prune_comm]
  exact ((Siblings.labels_prune_sublist _).map PNode.address).subset

theorem dictionaryRemoveKey_fails (agree : Agree w) {key : List UInt8}
    (holds : Holds w target .dict (key ∈ keysOf ·)) : dictionaryRemoveKey w target key ≠ .ok w' := by
  intro ran
  obtain ⟨holder, tree, found, located, -, mirrors, isKey⟩ := structure_of_holds agree holds
  obtain ⟨bound, member, rfl⟩ := List.mem_map.mp isKey
  obtain ⟨keyNode, node, pair⟩ := pair_of_bound mirrors rfl member
  rw [dictionaryRemoveKey, wrapper_of_find found, ok_bind] at ran
  obtain ⟨w₁, removed, ran⟩ := bind_eq_ok.mp ran
  rw [deleteBinding, pair.isBound] at ran
  simp only [dict_item_freed agree found located mirrors member removed, error_bind] at ran
  cases ran

theorem dictionaryRemoveNode_fails (agree : Agree w) {node : Nat}
    (holds : Holds w target .dict fun held => ∃ bound ∈ held.toList, bound.1.node = node) :
    dictionaryRemoveNode w target node ≠ .ok w' := by
  intro ran
  obtain ⟨holder, tree, found, located, -, mirrors, bound, member, rfl⟩ :=
    structure_of_holds agree holds
  obtain ⟨keyNode, node, pair⟩ := pair_of_bound mirrors rfl member
  rw [dictionaryRemoveNode, wrapper_of_find (find_held agree found member), ok_bind,
    tree_of_find located, ok_bind] at ran
  simp only [(pair.named (apart_below agree located)).1] at ran
  obtain ⟨w₁, removed, ran⟩ := bind_eq_ok.mp ran
  rw [dict_item_freed agree found located mirrors member removed, error_bind] at ran
  cases ran

/-- `plist_array_remove_item` frees the node of the wrapper at the position. -/
theorem array_item_freed (agree : Agree w) {holder bound : Tree Wrapper} {tree : Tree (PNode V)}
    (found : w.objects.find (Wrapper.at target) = some holder)
    (located : w.heap.find (PNode.at target) = some tree) (member : bound ∈ holder.2.toList)
    {pos : Nat} (atPos : (tree.2.toList.map fun item => item.1.address)[pos]? = some bound.1.node)
    (ran : plistArrayRemoveItem w target pos = .ok w') :
    deleteWrappers bound.chain w' = .error .useAfterFree := by
  rw [List.getElem?_map, Option.map_eq_some_iff] at atPos
  obtain ⟨item, isItem, address⟩ := atPos
  rw [plistArrayRemoveItem, tree_of_find located, ok_bind] at ran
  simp only [isItem, address] at ran
  refine delete_after_free agree (find_held agree found member) ?_
  rw [(plistFree_inv ran).1]
  exact List.Subset.refl _

theorem arrayRemoveAt_fails (agree : Agree w) {pos : Nat}
    (holds : Holds w target .array (pos < ·.length)) : arrayRemoveAt w target pos ≠ .ok w' := by
  intro ran
  obtain ⟨holder, tree, found, located, -, mirrors, within⟩ := structure_of_holds agree holds
  rw [← Siblings.length_toList] at within
  have isItem : holder.2.toList[pos]? = some (holder.2.toList[pos]) := List.getElem?_eq_getElem within
  have atPos : (tree.2.toList.map fun item => item.1.address)[pos]? =
      some (holder.2.toList[pos]).1.node := by
    rw [mirrors.roots_eq rfl, List.getElem?_map, isItem, Option.map_some]
  rw [arrayRemoveAt, wrapper_of_find found, ok_bind] at ran
  obtain ⟨w₁, removed, ran⟩ := bind_eq_ok.mp ran
  simp only [isItem] at ran
  rw [array_item_freed agree found located (List.getElem_mem within) atPos removed,
    error_bind] at ran
  cases ran

theorem arrayRemoveNode_fails (agree : Agree w) {node : Nat}
    (holds : Holds w target .array fun held => ∃ item ∈ held.toList, item.1.node = node) :
    arrayRemoveNode w target node ≠ .ok w' := by
  intro ran
  obtain ⟨holder, tree, found, located, -, mirrors, bound, member, rfl⟩ :=
    structure_of_holds agree holds
  have atPos : (tree.2.toList.map fun item => item.1.address)[tree.2.toList.findIdx fun item =>
      item.1.address = bound.1.node]? = some bound.1.node := by
    have isRoot : bound.1.node ∈ tree.2.toList.map fun item => item.1.address := by
      rw [mirrors.roots_eq rfl]
      exact List.mem_map_of_mem (f := fun item => item.1.node) member
    obtain ⟨item, inTree, address⟩ := List.mem_map.mp isRoot
    have within := List.findIdx_lt_length_of_exists (p := fun item : Tree (PNode V) =>
      item.1.address = bound.1.node) ⟨item, inTree, decide_eq_true address⟩
    rw [List.getElem?_map, List.getElem?_eq_getElem within, Option.map_some]
    exact congrArg some (of_decide_eq_true (List.findIdx_getElem (w := within)))
  rw [arrayRemoveNode, wrapper_of_find (find_held agree found member), ok_bind,
    tree_of_find located, ok_bind] at ran
  obtain ⟨w₁, removed, ran⟩ := bind_eq_ok.mp ran
  rw [array_item_freed agree found located member atPos removed, error_bind] at ran
  cases ran

end Removing

/-! ## Copying -/

theorem cloneable_of_clone {w : World V} (agree : Agree w) {source : Nat} {wrapper : Tree Wrapper}
    (found : w.objects.find (Wrapper.at source) = some wrapper)
    {made : Tree Wrapper × Tree (PNode V) × Nat} (ran : clone w wrapper.1 = .ok made) :
    Cloneable wrapper := by
  intro isDict
  obtain ⟨tree, located, -, mirrors⟩ := agree.mirrors.find source agree.apart wrapper found
  rw [isDict] at mirrors
  have length := mirrors.length_dict rfl
  rw [clone, node_of_find found, tree_of_find located, ok_bind] at ran
  simp only [isDict] at ran
  by_contra long
  rw [copyDictionary, if_pos (by omega)] at ran
  cases ran

theorem copyable_of_clone {w : World V} (agree : Agree w) {source : Nat} {wrapper : Tree Wrapper}
    (named : w.wrapper source = .ok wrapper) {made : Tree Wrapper × Tree (PNode V) × Nat}
    (ran : clone w wrapper.1 = .ok made) : Copyable w source := by
  rw [World.wrapper] at named
  split at named
  · rename_i other found
    cases named
    exact ⟨_, found, cloneable_of_clone agree found ran⟩
  · cases named

/-! ## Assigning -/

theorem length_append {α : Type} (front back : Siblings α) :
    (front.append back).length = front.length + back.length := by
  rw [← Siblings.length_toList, Siblings.toList_append, List.length_append, Siblings.length_toList,
    Siblings.length_toList]

theorem length_replace {α : Type} (p : α → Bool) (tree : Tree α) : ∀ forest : Siblings α,
    (replace p tree forest).length = forest.length
  | .nil => rfl
  | .cons a below next => by
      rw [replace]
      split
      · rw [Siblings.length, Siblings.length, length_replace p tree next]
      · rw [Siblings.length, Siblings.length, length_replace p tree next]

theorem length_withoutObject {objects : Siblings Wrapper} {object : Nat}
    (isThere : (objects.toList.any fun root => root.1.node = object) = true) :
    (withoutObject objects object).length < objects.length := by
  rw [withoutObject, ← Siblings.length_toList, Siblings.toList_ofList, ← Siblings.length_toList,
    List.length_filter_lt_length_iff_exists]
  obtain ⟨root, member, isNode⟩ := List.any_eq_true.mp isThere
  exact ⟨root, member, by simpa using isNode⟩

/-- A reassigned object has its node among the roots; with none of them gone there is one too
many. -/
theorem reassign_breaks {w : World V} (lengths : w.heap.length = w.objects.length)
    (target : Wrapper) (wrapper : Tree Wrapper) (tree : Tree (PNode V)) (next : Nat) :
    ¬ Agree (reassign w target wrapper tree next) := by
  intro agree
  have same := agree.mirrors.length_eq rfl
  rw [reassign] at same
  split at same
  · rename_i isThere
    have fewer := length_withoutObject isThere
    simp only [addObject, length_append, Tree.chain, Siblings.length] at same
    omega
  · simp only [length_append, length_replace, Tree.chain, Siblings.length] at same
    omega

section Assigning

variable {w w' : World V} {target source : Nat}

theorem dictionaryAssign_breaks (agree : Agree w) (holds : Holds w target .dict fun _ => True)
    (ran : dictionaryAssign w target source = .ok w') : ¬ Agree w' := by
  obtain ⟨holder, found, -, -⟩ := holds
  rw [dictionaryAssign, wrapper_of_find found, ok_bind] at ran
  obtain ⟨node, -, ran⟩ := bind_eq_ok.mp ran
  obtain ⟨w₁, cleared, ran⟩ := bind_eq_ok.mp ran
  cases held : holder.2.toList with
  | nil =>
    rw [held] at cleared
    cases cleared
    obtain ⟨tree, -, ran⟩ := bind_eq_ok.mp ran
    obtain ⟨made, -, ran⟩ := bind_eq_ok.mp ran
    cases ran
    exact reassign_breaks (agree.mirrors.length_eq rfl) _ _ _ _
  | cons bound rest =>
    rw [held, clearDictionary] at cleared
    obtain ⟨w₂, freed, cleared⟩ := bind_eq_ok.mp cleared
    have member : bound ∈ holder.2.toList := by
      rw [held]
      exact List.mem_cons_self
    have again := @delete_after_free _ w bound agree (find_held agree found member) w₂
      (by rw [(plistFree_inv freed).1]; exact List.Subset.refl _)
    rw [again, error_bind] at cleared
    cases cleared

theorem fine_of_arrayAssign (agree : Agree w) (holds : Holds w target .array fun _ => True)
    (ran : arrayAssign w target source = .ok w') (agree' : Agree w') :
    IsObject w target (fun root => root.1.kind = .array ∧ root.2 = .nil) ∧ target ≠ source := by
  obtain ⟨holder, found, isArray, -⟩ := holds
  obtain ⟨tree, located, -, mirrors⟩ := agree.mirrors.find target agree.apart holder found
  rw [arrayAssign, wrapper_of_find found, ok_bind] at ran
  obtain ⟨node, named, ran⟩ := bind_eq_ok.mp ran
  obtain ⟨w₁, freed, ran⟩ := bind_eq_ok.mp ran
  obtain ⟨heap₁, objects₁, -⟩ := plistFree_inv freed
  have gone := gone_of_prune agree.apart located
  rw [addresses_chain, ← heap₁] at gone
  obtain ⟨held, rest⟩ := holder
  cases rest with
  | cons first inner next =>
    have held : ∀ a ∈ nodesOf (.cons first inner next), a ∉ addresses w₁.heap := fun a member =>
      gone a (List.mem_cons_of_mem _ (mirrors.nodes_subset member))
    rw [deleteWrappers_gone held, error_bind] at ran
    cases ran
  | nil =>
    rw [deleteWrappers, pure_eq_ok, ok_bind] at ran
    obtain ⟨copied, still, ran⟩ := bind_eq_ok.mp ran
    obtain ⟨made, -, ran⟩ := bind_eq_ok.mp ran
    cases ran
    have isTarget : tree.1.address = target := of_decide_eq_true (Siblings.find_eq_some located).2
    constructor
    · by_contra none
      refine reassign_breaks ?_ _ _ _ _ agree'
      have roots := agree.mirrors.roots_eq rfl
      rw [heap₁, objects₁, Siblings.length_prune, agree.mirrors.length_eq rfl]
      intro root member
      refine decide_eq_false fun isRoot => none ?_
      have address : root.1.address ∈ w.heap.toList.map fun tree => tree.1.address :=
        List.mem_map_of_mem (f := fun tree => tree.1.address) member
      rw [roots] at address
      obtain ⟨object, isObject, isNode⟩ := List.mem_map.mp address
      have same := Siblings.find_of_root isObject (decide_eq_true (isNode.trans isRoot))
        (agree.wrappers_once target)
      cases found.symm.trans same
      exact ⟨_, isObject, isNode.trans isRoot, isArray, rfl⟩
    · rintro rfl
      cases (wrapper_of_find found).symm.trans named
      rw [node_of_find found, World.tree,
        Mirrors.find_eq_none (gone target (by rw [isTarget]; exact List.mem_cons_self))] at still
      cases still

end Assigning

/-! ## Inserting -/

section Inserting

variable {w w' : World V} {target source : Nat}

theorem fine_of_arrayInsert (agree : Agree w) {pos : Nat}
    (ran : arrayInsert w target source pos = .ok w') : Copyable w source := by
  obtain ⟨array, -, ran⟩ := bind_eq_ok.mp ran
  obtain ⟨node, named, ran⟩ := bind_eq_ok.mp ran
  obtain ⟨made, cloned, ran⟩ := bind_eq_ok.mp ran
  exact copyable_of_clone agree named cloned

/-- Deleting the wrapper of a key frees the value of its pair, and the key node stays: two pairs
under one key. -/
theorem two_keys (agree : Agree w) {key : List UInt8} {holder : Tree Wrapper}
    {tree : Tree (PNode V)} (located : w.heap.find (PNode.at target) = some tree)
    (typed : tree.1.content.kind? = some .dict) (mirrors : Mirrors .dict holder.2 tree.2)
    (isKey : key ∈ keysOf holder.2) {made : Tree Wrapper} {item : Tree (PNode V)} {next : Nat}
    (fresh : Fresh w.next made item next) {w₁ w₂ : World V}
    (heap₁ : w₁.heap = w.heap.amend (PNode.typed target .dict) fun below =>
      below.append (.cons ⟨next, .key (cStr key)⟩ .nil item.chain))
    (ledger₁ : (addresses w₁.heap : Multiset Nat) + w.freed = Multiset.range (next + 1))
    (ran : deleteBinding w₁ holder.2 key = .ok w₂) :
    ∃ children keyNode, w₂.heap.find (PNode.at target) = some (tree.1, children) ∧
      (keyNode, .nil) ∈ children.toList ∧ keyNode.address < w.next ∧
      keyNode.content = .key (cStr key) ∧ (⟨next, .key (cStr key)⟩, .nil) ∈ children.toList := by
  obtain ⟨bound, member, rfl⟩ := List.mem_map.mp isKey
  obtain ⟨keyNode, node, pair⟩ := pair_of_bound mirrors rfl member
  have apart₁ := apart_of_ledger ledger₁
  have isTarget : PNode.typed target .dict tree.1 = true := by
    have isAt := of_decide_eq_true (Siblings.find_eq_some located).2
    simp [PNode.typed, isAt, typed]
  -- the dictionary with the new pair, and the old value among its children
  have amended := @Siblings.find_amend _ (PNode.typed target .dict) (PNode.at target)
    (fun below => below.append (.cons ⟨next, .key (cStr bound.1.key)⟩ .nil item.chain))
    (fun _ => PNode.at_of_typed) _ _ located isTarget
  rw [← heap₁] at amended
  have root : node ∈
      (tree.2.append (.cons ⟨next, .key (cStr bound.1.key)⟩ .nil item.chain)).toList := by
    rw [Siblings.toList_append]
    exact List.mem_append_left _ pair.root
  obtain ⟨later, exposed⟩ := @Siblings.Exposed.of_root _
    (fun node : PNode V => decide (node.address ∈ ([] : List Nat))) _ _ root
  have stands : Stands [] (.cons node.1 node.2 later) w₁.heap :=
    ⟨Siblings.Exposed.of_find (fun _ => rfl) amended exposed, apart₁, fun _ _ => List.not_mem_nil⟩
  -- deleting its wrapper takes nodes of the old value only
  obtain ⟨w', deleted, heap₂, -⟩ := deletes_item pair.same pair.mirrors
    (deleteWrappers_spec pair.mirrors) deletes_nil stands
    (without_eq_self fun _ _ => List.not_mem_nil).symm
  rw [deleteBinding, pair.isBound] at ran
  cases deleted.symm.trans ran
  have gone : ∀ {a}, a ∈ nodesOf (.cons bound.1 bound.2 .nil) ++ [] → a ∈ addresses node.chain := by
    intro a isGone
    have inBound : a ∈ nodesOf (Tree.chain bound) := by rwa [List.append_nil] at isGone
    rw [nodesOf_chain] at inBound
    rw [addresses_chain, ← pair.same]
    exact List.cons_subset_cons _ pair.mirrors.nodes_subset inBound
  have below : ∀ {a}, a ∈ addresses tree.2 → a < w.next := fun member =>
    agree.lt_next (((Siblings.labels_of_find located).map PNode.address).subset member)
  have kept : keyNode.address ∉ addresses node.chain := (pair.named (apart_below agree located)).2
  have kept' : next ∉ addresses node.chain := by
    intro inTree
    have earlier := below (addresses_root pair.root inTree)
    have later := fresh.lt
    omega
  -- both key nodes stay
  have stays : ∀ {leaf : PNode V}, leaf.address ∉ addresses node.chain →
      (leaf, .nil) ∈
        (tree.2.append (.cons ⟨next, .key (cStr bound.1.key)⟩ .nil item.chain)).toList →
      (leaf, .nil) ∈ (without (nodesOf (.cons bound.1 bound.2 .nil) ++ [])
        (tree.2.append (.cons ⟨next, .key (cStr bound.1.key)⟩ .nil item.chain))).toList :=
    fun outside root => Siblings.root_mem_prune root
      (decide_eq_false fun isGone => outside (gone isGone))
  refine ⟨_, keyNode, ?_, stays kept ?_, ?_, pair.key, stays kept' ?_⟩
  · rw [heap₂]
    refine Siblings.find_prune_within amended (List.Nodup.of_map _ apart₁) fun a member isGone => ?_
    exact mem_of_address apart₁ (Siblings.labels_of_find amended).subset member
      (addresses_root root (gone (of_decide_eq_true isGone)))
  · rw [Siblings.toList_append]
    exact List.mem_append_left _ pair.keyRoot
  · exact below (List.mem_map_of_mem (Siblings.root_mem_labels pair.keyRoot))
  · rw [Siblings.toList_append]
    exact List.mem_append_right _ List.mem_cons_self

/-- A key with a NUL is bound as it is in the `_map`, and cut in the plist. -/
theorem nul_free_of_dictionaryInsert (agree : Agree w) {key : List UInt8} {holder : Tree Wrapper}
    (found : w.objects.find (Wrapper.at target) = some holder) (isDict : holder.1.kind = .dict)
    (ran : dictionaryInsert w target key source = .ok w') (agree' : Agree w') : 0 ∉ key := by
  intro nul
  obtain ⟨tree, located, -, mirrors⟩ := agree.mirrors.find target agree.apart holder found
  have unbound : key ∉ keysOf holder.2 := fun bound => mirrors.nul_free_of_mem isDict bound nul
  rw [dictionaryInsert, wrapper_of_find found, ok_bind] at ran
  obtain ⟨node, -, ran⟩ := bind_eq_ok.mp ran
  obtain ⟨⟨made, item, next⟩, -, ran⟩ := bind_eq_ok.mp ran
  obtain ⟨w₁, inserted, ran⟩ := bind_eq_ok.mp ran
  rw [plistDictInsertItem, tree_of_find located, ok_bind] at inserted
  cases inserted
  simp only [deleteBinding, binding_of_unbound unbound, pure_eq_ok, ok_bind] at ran
  cases ran
  have isTarget : Wrapper.typed target .dict holder.1 = true := by
    simp [Wrapper.typed, node_of_find found, isDict]
  have amended := Siblings.find_amend (f := fun held =>
    (unbind held key).append (.cons { made.1 with key := key } made.2 .nil))
    (fun _ => Wrapper.at_of_typed) found isTarget
  obtain ⟨_, -, -, mirrored⟩ := agree'.mirrors.find target agree'.apart _ amended
  exact mirrored.nul_free_of_mem isDict (by simp) nul

theorem fine_of_dictionaryInsert (agree : Agree w) {key : List UInt8}
    (holds : Holds w target .dict fun _ => True)
    (ran : dictionaryInsert w target key source = .ok w') (agree' : Agree w') :
    Holds w target .dict (key ∉ keysOf ·) ∧ 0 ∉ key ∧ Copyable w source := by
  obtain ⟨holder, tree, found, located, typed, mirrors, -⟩ := structure_of_holds agree holds
  obtain ⟨holder', found', isDict, -⟩ := id holds
  cases found.symm.trans found'
  have nulFree := nul_free_of_dictionaryInsert agree found isDict ran agree'
  rw [dictionaryInsert, wrapper_of_find found, ok_bind] at ran
  obtain ⟨node, named, ran⟩ := bind_eq_ok.mp ran
  obtain ⟨⟨made, item, next⟩, cloned, ran⟩ := bind_eq_ok.mp ran
  have copyable := copyable_of_clone agree named cloned
  refine ⟨?_, nulFree, copyable⟩
  obtain ⟨wrapper, isSource, cloneable⟩ := copyable
  cases named.symm.trans (wrapper_of_find isSource)
  obtain ⟨_, _, made', item', next', cloned', fresh, _⟩ := clone_spec agree isSource cloneable
  cases cloned.symm.trans cloned'
  refine ⟨holder, found, isDict, fun isKey => ?_⟩
  obtain ⟨w₁, inserted, ran⟩ := bind_eq_ok.mp ran
  rw [plistDictInsertItem, tree_of_find located, ok_bind] at inserted
  cases inserted
  obtain ⟨w₂, deleted, ran⟩ := bind_eq_ok.mp ran
  cases ran
  obtain ⟨children, keyNode, placed, root, earlier, isText, root'⟩ :=
    two_keys agree located typed mirrors isKey fresh rfl
      (insertion_ledger agree holds _ _ _ (labels_append_pair _ item)
        (fresh.ledger_pair (cStr key))) deleted
  obtain ⟨held, mirrored⟩ := agree'.mirrors.held_of_find placed typed
  have same := mirrored.key_unique rfl root root' isText rfl
  rw [(Prod.mk.inj same).1] at earlier
  have later := fresh.lt
  exact Nat.lt_irrefl _ (Nat.lt_trans earlier later)

end Inserting

/-- **A well-formed operation that keeps the two sides together is fine.** -/
theorem fine_of_kept {w : World V} (agree : Agree w) {op : Op V} (wellFormed : WellFormed w op)
    (kept : Kept w op) : Fine w op := by
  obtain ⟨w', ran, agree', -⟩ := kept
  cases op with
  | create content => exact wellFormed
  | dictionaryInsert target key source =>
    exact fine_of_dictionaryInsert agree wellFormed.1 ran agree'
  | dictionaryRemoveNode target node => exact dictionaryRemoveNode_fails agree wellFormed ran
  | dictionaryRemoveKey target key => exact dictionaryRemoveKey_fails agree wellFormed ran
  | arrayAppend target source =>
    obtain ⟨array, -, inserted⟩ := bind_eq_ok.mp ran
    exact ⟨wellFormed.1, fine_of_arrayInsert agree inserted⟩
  | arrayInsert target source pos => exact ⟨wellFormed.1, fine_of_arrayInsert agree ran⟩
  | arrayRemoveNode target node => exact arrayRemoveNode_fails agree wellFormed ran
  | arrayRemoveAt target pos => exact arrayRemoveAt_fails agree wellFormed ran
  | copy source =>
    obtain ⟨node, named, ran⟩ := bind_eq_ok.mp ran
    obtain ⟨made, cloned, -⟩ := bind_eq_ok.mp ran
    exact copyable_of_clone agree named cloned
  | dictionaryAssign target source =>
    exact dictionaryAssign_breaks agree wellFormed.1 ran agree'
  | arrayAssign target source =>
    obtain ⟨isObject, other⟩ := fine_of_arrayAssign agree wellFormed.1 ran agree'
    exact ⟨isObject, other, wellFormed.2⟩
  | destroy object => exact wellFormed

end Irestore.PlistCpp
