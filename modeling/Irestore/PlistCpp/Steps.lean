/-
# PlistCpp.Steps — operations that keep the two sides together

`WellFormed` says of an operation that its wrappers are there and its indices, keys and
nodes in range.  `Fine` leaves out those that free a node on the plist side and delete
its wrapper after, those that break the mirror (under a key with a NUL, for one), and the copies
that ask for a NULL key.

* `kept_of_fine` — a fine operation ends, and the two sides agree again.
-/
import Irestore.PlistCpp.Copies
import Irestore.PlistCpp.Freeing

namespace Irestore.PlistCpp

open Irestore.Library Irestore.Library.CMemory

set_option autoImplicit false

variable {V : Type}

/-! ## What a program may do -/

def Known (w : World V) (source : Nat) : Prop :=
  ∃ wrapper, w.objects.find (Wrapper.at source) = some wrapper

def IsObject (w : World V) (object : Nat) (P : Tree Wrapper → Prop) : Prop :=
  ∃ root ∈ w.objects.toList, root.1.node = object ∧ P root

/-- The wrappers are there, the indices in range, the keys and nodes present. -/
def WellFormed (w : World V) : Op V → Prop
  | .create content => content.kind? ≠ none
  | .dictionaryInsert target _ source => Holds w target .dict (fun _ => True) ∧ Known w source
  | .dictionaryRemoveNode target node =>
      Holds w target .dict fun held => ∃ bound ∈ held.toList, bound.1.node = node
  | .dictionaryRemoveKey target key => Holds w target .dict (key ∈ keysOf ·)
  | .arrayAppend target source => Holds w target .array (fun _ => True) ∧ Known w source
  | .arrayInsert target source pos => Holds w target .array (pos ≤ ·.length) ∧ Known w source
  | .arrayRemoveNode target node =>
      Holds w target .array fun held => ∃ item ∈ held.toList, item.1.node = node
  | .arrayRemoveAt target pos => Holds w target .array (pos < ·.length)
  | .copy source => Known w source
  | .dictionaryAssign target source =>
      Holds w target .dict (fun _ => True) ∧ Holds w source .dict (fun _ => True)
  | .arrayAssign target source =>
      Holds w target .array (fun _ => True) ∧ Holds w source .array (fun _ => True)
  | .destroy object => IsObject w object fun _ => True

/-- The wrapper can be cloned. -/
def Copyable (w : World V) (source : Nat) : Prop :=
  ∃ wrapper, w.objects.find (Wrapper.at source) = some wrapper ∧ Cloneable wrapper

/-- The operations that keep the two sides together. -/
def Fine (w : World V) : Op V → Prop
  | .create content => content.kind? ≠ none
  | .dictionaryInsert target key source =>
      Holds w target .dict (key ∉ keysOf ·) ∧ 0 ∉ key ∧ Copyable w source
  | .arrayAppend target source => Holds w target .array (fun _ => True) ∧ Copyable w source
  | .arrayInsert target source pos => Holds w target .array (pos ≤ ·.length) ∧ Copyable w source
  | .copy source => Copyable w source
  | .arrayAssign target source =>
      IsObject w target (fun root => root.1.kind = .array ∧ root.2 = .nil) ∧
        target ≠ source ∧ Holds w source .array (fun _ => True)
  | .destroy object => IsObject w object fun _ => True
  | .dictionaryRemoveNode _ _ | .dictionaryRemoveKey _ _ | .arrayRemoveNode _ _
  | .arrayRemoveAt _ _ | .dictionaryAssign _ _ => False

/-- A copy has the contents of its source. -/
def Copies (w w' : World V) : Op V → Prop
  | .copy source | .dictionaryAssign _ source | .arrayAssign _ source =>
      ∃ tree item, w.tree source = .ok tree ∧ w'.tree w.next = .ok item ∧
        item.contents = tree.contents
  | _ => True

/-- The operation ends, the two sides agree after it, and a copy it made is one. -/
def Kept (w : World V) (op : Op V) : Prop :=
  ∃ w', step w op = .ok w' ∧ Agree w' ∧ Copies w w' op

/-! ## Steps -/

section Steps

variable {w : World V} {target source : Nat}

theorem wrapper_of_find {wrapper : Tree Wrapper}
    (found : w.objects.find (Wrapper.at source) = some wrapper) :
    w.wrapper source = .ok wrapper := by
  rw [World.wrapper, found]
  rfl

theorem create_kept (agree : Agree w) {content : Content V} (some : content.kind? ≠ none) :
    Kept w (.create content) := by
  obtain ⟨kind, typed⟩ := Option.ne_none_iff_exists'.mp some
  refine ⟨_, ?_, (addObject_agrees agree (Fresh.scalar typed)).1, trivial⟩
  show create w content = _
  rw [create, typed]
  rfl

theorem copy_kept (agree : Agree w) (copyable : Copyable w source) : Kept w (.copy source) := by
  obtain ⟨wrapper, found, cloneable⟩ := copyable
  obtain ⟨tree, here, made, item, next, ran, fresh, same⟩ := clone_spec agree found cloneable
  obtain ⟨agrees, placed⟩ := addObject_agrees agree fresh
  refine ⟨_, ?_, agrees, tree, item, here, placed, same⟩
  show copy w source = _
  rw [copy, wrapper_of_find found, ok_bind, ran, ok_bind]
  rfl

theorem unbind_of_unbound {held : Siblings Wrapper} {key : List UInt8}
    (unbound : key ∉ keysOf held) : unbind held key = held := by
  rw [unbind, List.filter_eq_self.mpr, Siblings.ofList_toList]
  intro tree member
  rw [decide_eq_true_eq]
  rintro rfl
  exact unbound (List.mem_map_of_mem (f := fun tree => tree.1.key) member)

theorem binding_of_unbound {held : Siblings Wrapper} {key : List UInt8}
    (unbound : key ∉ keysOf held) : binding held key = none := by
  rw [binding, List.find?_eq_none]
  intro tree member
  rw [decide_eq_true_eq]
  rintro rfl
  exact unbound (List.mem_map_of_mem (f := fun tree => tree.1.key) member)

theorem dictionaryInsert_kept {key : List UInt8} (agree : Agree w)
    (holds : Holds w target .dict (key ∉ keysOf ·)) (nulFree : 0 ∉ key)
    (copyable : Copyable w source) : Kept w (.dictionaryInsert target key source) := by
  obtain ⟨wrapper, found, cloneable⟩ := copyable
  obtain ⟨_, _, made, item, next, ran, fresh, _⟩ := clone_spec agree found cloneable
  obtain ⟨tree, here, -⟩ := tree_of_holds agree holds
  obtain ⟨dictionary, named, isKind, unbound⟩ := id holds
  refine ⟨_, ?_, insertion_agrees agree holds
    (fun held => (unbind held key).append (.cons { made.1 with key := key } made.2 .nil))
    (fun below => below.append (.cons ⟨next, .key (cStr key)⟩ .nil item.chain))
    (⟨next, .key (cStr key)⟩ :: item.chain.labels) (next + 1) ?_ (labels_append_pair _ item)
    (fresh.ledger_pair (cStr key)), trivial⟩
  · show dictionaryInsert w target key source = _
    rw [dictionaryInsert, wrapper_of_find named, wrapper_of_find found, ok_bind, ok_bind, ran,
      ok_bind]
    simp only [plistDictInsertItem, here, ok_bind, pure_eq_ok, deleteBinding,
      binding_of_unbound unbound]
  · intro held below mirrors unbound
    rw [unbind_of_unbound unbound]
    exact mirrors.append_binding rfl rfl (cString_of_nul_free nulFree).symm unbound fresh.same
      fresh.typed fresh.mirrors

theorem arrayInsert_kept {pos : Nat} (agree : Agree w)
    (holds : Holds w target .array (pos ≤ ·.length)) (copyable : Copyable w source) :
    ∃ w', arrayInsert w target source pos = .ok w' ∧ Agree w' := by
  obtain ⟨wrapper, found, cloneable⟩ := copyable
  obtain ⟨_, _, made, item, next, ran, fresh, _⟩ := clone_spec agree found cloneable
  obtain ⟨tree, here, -⟩ := tree_of_holds agree holds
  obtain ⟨array, named, isKind, within⟩ := id holds
  refine ⟨_, ?_, insertion_agrees agree holds (.insertAt pos made.chain) (.insertAt pos item.chain)
    item.chain.labels next ?_ ?_ fresh.ledger⟩
  · rw [arrayInsert, wrapper_of_find named, wrapper_of_find found, ok_bind, ok_bind, ran, ok_bind]
    simp only [plistArrayInsertItem, here, ok_bind, pure_eq_ok, if_neg (Nat.not_lt.mpr within)]
  · intro held below mirrors _
    exact mirrors.insert_items rfl (.item fresh.same fresh.typed fresh.mirrors .nil) pos
  · intro below
    exact Siblings.labels_insertAt pos item.chain below

theorem arrayAppend_kept (agree : Agree w) (holds : Holds w target .array fun _ => True)
    (copyable : Copyable w source) : Kept w (.arrayAppend target source) := by
  obtain ⟨array, named, isKind, -⟩ := holds
  obtain ⟨w', ran, agrees⟩ := arrayInsert_kept agree
    (⟨array, named, isKind, Nat.le_refl array.2.length⟩) copyable
  refine ⟨w', ?_, agrees, trivial⟩
  show arrayAppend w target source = _
  rw [arrayAppend, wrapper_of_find named, ok_bind, ran]

theorem find_object {P : Tree Wrapper → Prop} (isObject : IsObject w target P) :
    ∃ root, (w.objects.toList.find? fun tree => tree.1.node = target) = some root ∧
      root ∈ w.objects.toList ∧ root.1.node = target := by
  obtain ⟨object, member, isNode, -⟩ := isObject
  cases found : w.objects.toList.find? fun tree => tree.1.node = target with
  | none =>
    exact absurd (List.find?_eq_none.mp found object member) (by simp [isNode])
  | some root =>
    exact ⟨root, rfl, List.mem_of_find?_eq_some found, by simpa using List.find?_some found⟩

theorem destroy_kept (agree : Agree w) (isObject : IsObject w target fun _ => True) :
    Kept w (.destroy target) := by
  obtain ⟨object, found, member, isNode⟩ := find_object isObject
  obtain ⟨node, below, next, root⟩ := root_of_mem agree.mirrors rfl agree.apart member
  have stands : Stands [] (.cons node below next) w.heap :=
    ⟨root.exposed, agree.apart, fun _ _ => List.not_mem_nil⟩
  obtain ⟨w', ran, heap, next', objects, ledger⟩ :=
    deletes_item root.same root.mirrors (deleteWrappers_spec root.mirrors) deletes_nil stands
      (without_eq_self fun _ _ => List.not_mem_nil).symm
  refine ⟨{ w' with objects := withoutObject w'.objects target }, ?_, ⟨?_, ?_⟩, trivial⟩
  · show destroy w target = _
    rw [destroy, found]
    show (deleteWrappers (.cons object.1 object.2 .nil) w >>= _) = _
    rw [ran, ok_bind, pure_eq_ok]
  · show Mirrors .array (withoutObject w'.objects target) w'.heap
    rw [heap, objects, ← isNode]
    refine root.rest _ (by simp) ?_
    rw [nodesOf_cons, nodesOf_nil, List.append_nil, List.append_nil, root.same, addresses_cons,
      addresses_nil, List.append_nil]
    exact List.cons_subset_cons _ root.mirrors.nodes_subset
  · show w'.ledger = Multiset.range w'.next
    rw [ledger, next']
    exact agree.ledger

theorem arrayAssign_kept (agree : Agree w)
    (isObject : IsObject w target fun root => root.1.kind = .array ∧ root.2 = .nil)
    (other : target ≠ source) (holds : Holds w source .array fun _ => True) :
    Kept w (.arrayAssign target source) := by
  obtain ⟨object, member, isNode, isArray, empty⟩ := isObject
  obtain ⟨node, below, next, root⟩ := root_of_mem agree.mirrors rfl agree.apart member
  have named : w.wrapper target = .ok object := wrapper_of_find
    (Siblings.find_of_root member (decide_eq_true isNode) (agree.wrappers_once target))
  obtain ⟨wrapper, found, isKind, -⟩ := holds
  obtain ⟨tree, located, typed, mirrors⟩ := agree.mirrors.find source agree.apart wrapper found
  have here : w.tree source = .ok tree := by rw [World.tree, located]; rfl
  have isAddress : node.address = target := root.same.symm.trans isNode
  have leaf : (node, Siblings.nil) ∈ w.heap.toList := by
    have mirrored := root.mirrors
    rw [empty] at mirrored
    exact mirrored.below_nil ▸ root.isRoot
  have live : target ∈ addresses w.heap := by
    rw [← isAddress]
    exact List.mem_map_of_mem (Siblings.root_mem_labels leaf)
  obtain ⟨w₁, freed, heap₁, next₁, objects₁, ledger₁⟩ := plistFree_of_mem live
  -- the source is not the old node, which has nothing below it
  have still : w₁.tree source = .ok tree := by
    rw [World.tree, heap₁, Siblings.find_prune_leaf _ leaf (decide_eq_true isAddress)
      (agree.nodes_once target) located]
    · rfl
    · intro a isTarget
      rw [PNode.at, decide_eq_true_eq] at isTarget
      exact decide_eq_false (isTarget ▸ other)
  rw [isKind] at typed mirrors
  obtain ⟨made, item, later, ran, fresh, same⟩ := copyStructure_spec w₁ typed mirrors
  have agree₁ : Agree { w₁ with objects := withoutObject w₁.objects target } := by
    refine ⟨?_, ?_⟩
    · show Mirrors .array (withoutObject w₁.objects target) w₁.heap
      have removed := root.rest [target] (by simp [isNode]) (by simp [isAddress])
      rw [isNode, ← without_at, without_eq_self fun _ _ => List.not_mem_nil] at removed
      rw [objects₁, heap₁]
      exact removed
    · show w₁.ledger = Multiset.range w₁.next
      rw [ledger₁, next₁]
      exact agree.ledger
  obtain ⟨agrees, placed⟩ := addObject_agrees agree₁ fresh
  refine ⟨_, ?_, agrees, tree, item, here, by rw [← next₁]; exact placed, same⟩
  have isThere : (w₁.objects.toList.any fun root => root.1.node = object.1.node) = true := by
    rw [objects₁, List.any_eq_true]
    exact ⟨object, member, decide_eq_true rfl⟩
  show arrayAssign w target source = _
  rw [arrayAssign, named, wrapper_of_find found, ok_bind, ok_bind, freed, ok_bind, empty,
    deleteWrappers, pure_eq_ok, ok_bind, node_of_find found, still, ok_bind, ran, ok_bind]
  show (Except.ok (reassign w₁ object.1 made item later) : Checked (World V)) = _
  rw [reassign, if_pos isThere, isNode]

end Steps

/-- **Fine operations keep the two sides together.** -/
theorem kept_of_fine {w : World V} (agree : Agree w) {op : Op V} (fine : Fine w op) :
    Kept w op := by
  cases op with
  | create content => exact create_kept agree fine
  | dictionaryInsert target key source =>
    exact dictionaryInsert_kept agree fine.1 fine.2.1 fine.2.2
  | arrayAppend target source => exact arrayAppend_kept agree fine.1 fine.2
  | arrayInsert target source pos =>
    obtain ⟨w', ran, agrees⟩ := arrayInsert_kept agree fine.1 fine.2
    exact ⟨w', ran, agrees, trivial⟩
  | copy source => exact copy_kept agree fine
  | arrayAssign target source => exact arrayAssign_kept agree fine.1 fine.2.1 fine.2.2
  | destroy object => exact destroy_kept agree fine
  | dictionaryRemoveNode | dictionaryRemoveKey | arrayRemoveNode | arrayRemoveAt
  | dictionaryAssign => exact fine.elim

end Irestore.PlistCpp
