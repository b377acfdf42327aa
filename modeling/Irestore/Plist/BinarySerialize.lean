/-
# Plist.BinarySerialize — which nodes `serialize_plist` numbers

* `serializePlist_spec` — one walk: what it numbers is part of the tree in walking
  order, the numbered nodes stay apart for the hash table, and every node it meets,
  and every child of a node it numbers, has a numbered node that stands for it.
* `index_found` — after the walk a lookup that ends gives the number of a node that
  stands for the one looked up.
-/
import Irestore.Plist.BinaryCompareLaws
import Irestore.Plist.BinaryWrite
import Mathlib.Data.List.Nodup

namespace Irestore.Plist

open Irestore.Library Irestore.Library.Bytes Irestore.Library.CMemory

set_option autoImplicit false

/-! ## The state of the walk -/

/-- The keys and values of the table: the numbered nodes and their numbers. -/
def numbered (objects : List (HeapNode × Siblings HeapNode)) : List (HeapNode × Nat) :=
  objects.zipIdx.map fun entry => (entry.1.1, entry.2)

namespace Serialize

/-- The table has the numbers of the objects, and its keys are apart. -/
structure Consistent (ser : Serialize) : Prop where
  table : ser.refTable = numbered ser.objects
  apart : HashTable.Apart plistDataHash plistDataCompare ser.refTable

/-- The table takes the numbered node for the other one. -/
def StandsFor (stored node : HeapNode) : Prop :=
  plistDataHash stored = plistDataHash node ∧ plistDataCompare stored node = .ok true

/-- A numbered node stands for the node. -/
def Covers (ser : Serialize) (node : HeapNode) : Prop :=
  ∃ (i : Nat) (stored : HeapNode) (children : Siblings HeapNode),
    ser.objects[i]? = some (stored, children) ∧ StandsFor stored node

theorem mem_numbered {objects : List (HeapNode × Siblings HeapNode)} {stored : HeapNode} {i : Nat} :
    (stored, i) ∈ numbered objects ↔ ∃ children, objects[i]? = some (stored, children) := by
  simp only [numbered, List.mem_map, Prod.mk.injEq, Prod.exists, List.mk_mem_zipIdx_iff_getElem?]
  constructor
  · rintro ⟨stored', children, i', found, rfl, rfl⟩
    exact ⟨children, found⟩
  · rintro ⟨children, found⟩
    exact ⟨stored, children, i, found, rfl, rfl⟩

theorem numbered_append (objects : List (HeapNode × Siblings HeapNode))
    (object : HeapNode × Siblings HeapNode) :
    numbered (objects ++ [object]) = numbered objects ++ [(object.1, objects.length)] := by
  simp [numbered, List.zipIdx_append]

variable {probing : RefProbing} {ser ser' : Serialize} {node : HeapNode}

theorem consistent_empty : Consistent {} := ⟨rfl, List.Pairwise.nil⟩

theorem Consistent.add (consistent : ser.Consistent)
    (absent : ser.lookup probing node = .ok none) (children : Siblings HeapNode) :
    (ser.add node children).Consistent := by
  refine ⟨?_, consistent.apart.insert probing absent ser.objects.length⟩
  show ser.refTable ++ _ = numbered (ser.objects ++ _)
  rw [numbered_append, consistent.table]

theorem Consistent.covers_of_lookup (consistent : ser.Consistent) {i : Nat}
    (known : ser.lookup probing node = .ok (some i)) : ser.Covers node := by
  obtain ⟨stored, member, stands⟩ := HashTable.lookup_eq_some probing known
  rw [consistent.table] at member
  obtain ⟨children, found⟩ := mem_numbered.mp member
  exact ⟨i, stored, children, found, stands⟩

theorem Covers.append {new : List (HeapNode × Siblings HeapNode)} (covers : ser.Covers node)
    (grown : ser'.objects = ser.objects ++ new) : ser'.Covers node := by
  obtain ⟨i, stored, children, found, stands⟩ := covers
  refine ⟨i, stored, children, ?_, stands⟩
  rw [grown, List.getElem?_append_left (List.getElem?_eq_some_iff.mp found).1]
  exact found

/-- A node of a defined type stands for itself. -/
theorem covers_add (defined : node.data.Defined) (children : Siblings HeapNode) :
    (ser.add node children).Covers node := by
  refine ⟨ser.objects.length, node, children, by simp [Serialize.add], rfl, ?_⟩
  exact (HeapNode.compare_accepts_iff defined defined).mpr node.begins_refl

end Serialize

open Serialize

variable {probing : RefProbing}

/-! ## The walk -/

/-- What a walk over a chain leaves behind. -/
structure Walked (chain : Siblings HeapNode) (ser ser' : Serialize)
    (new : List (HeapNode × Siblings HeapNode)) : Prop where
  consistent : ser'.Consistent
  objects : ser'.objects = ser.objects ++ new
  walked : new.Sublist chain.subtrees
  tops : ∀ node ∈ chain.tops, ser'.Covers node
  children : ∀ object ∈ new, ∀ child ∈ object.2.tops, ser'.Covers child

/-- **One walk.** -/
theorem serializePlist_spec : ∀ {chain : Siblings HeapNode} {ser ser' : Serialize},
    (∀ node ∈ chain.labels, node.data.Defined) → ser.Consistent →
      serializePlist probing chain ser = .ok ser' → ∃ new, Walked chain ser ser' new
  | .nil, ser, ser', _, consistent, run => by
      cases run
      exact ⟨[], consistent, by simp, List.Sublist.refl _, by simp [Siblings.tops], by simp⟩
  | .cons node children next, ser, ser', defined, consistent, run => by
      simp only [Siblings.labels, List.mem_cons, List.mem_append] at defined
      have later := fun other inside => defined other (.inr (.inr inside))
      rw [serializePlist] at run
      obtain ⟨val, known, run⟩ := bind_eq_ok.mp run
      obtain ⟨mid, inner, outer⟩ := bind_eq_ok.mp run
      cases val with
      | some i =>
        -- the node and all below it are left out
        cases inner
        obtain ⟨new, rest⟩ := serializePlist_spec later consistent outer
        refine ⟨new, rest.consistent, rest.objects, ?_, ?_, rest.children⟩
        · exact (rest.walked.trans (List.sublist_append_right _ _)).cons _
        · intro top member
          rcases List.mem_cons.mp member with rfl | later
          · exact (consistent.covers_of_lookup known).append rest.objects
          · exact rest.tops top later
      | none =>
        obtain ⟨below, inside⟩ := serializePlist_spec
          (fun other inside => defined other (.inr (.inl inside))) (consistent.add known children)
          inner
        obtain ⟨new, rest⟩ := serializePlist_spec later inside.consistent outer
        have objects : ser'.objects = ser.objects ++ (node, children) :: (below ++ new) := by
          rw [rest.objects, inside.objects]
          simp [Serialize.add]
        refine ⟨(node, children) :: (below ++ new), rest.consistent, objects, ?_, ?_, ?_⟩
        · exact (inside.walked.append rest.walked).cons_cons _
        · intro top member
          rcases List.mem_cons.mp member with rfl | later
          · have self : (ser.add top children).Covers top :=
              covers_add (defined top (.inl rfl)) children
            exact (self.append inside.objects).append rest.objects
          · exact rest.tops top later
        · intro object member child isChild
          rcases List.mem_cons.mp member with rfl | member
          · exact (inside.tops child isChild).append rest.objects
          · rcases List.mem_append.mp member with early | late
            · exact (inside.children object early child isChild).append rest.objects
            · exact rest.children object late child isChild

/-! ## The numbers of a tree -/

/-- The tree below a root. -/
abbrev rooted (plist : HeapNode) (children : Siblings HeapNode) : Siblings HeapNode :=
  .cons plist children .nil

/-- The nodes of a tree are made for items, each at an address of its own. -/
structure Placed (chain : Siblings HeapNode) : Prop where
  held : ∀ node ∈ chain.labels, ∃ item, node.Holds item
  distinct : (chain.labels.map HeapNode.address).Nodup

theorem Placed.defined {chain : Siblings HeapNode} (placed : Placed chain) :
    ∀ node ∈ chain.labels, node.data.Defined := by
  intro node inTree
  obtain ⟨item, holds⟩ := placed.held node inTree
  exact holds.defined

/-- The numbers the walk over a whole tree gives: the root has number 0. -/
structure Numbering (plist : HeapNode) (children : Siblings HeapNode) (ser : Serialize) : Prop where
  consistent : ser.Consistent
  walked : ser.objects.Sublist (rooted plist children).subtrees
  root : ser.objects[0]? = some (plist, children)
  children : ∀ object ∈ ser.objects, ∀ child ∈ object.2.tops, ser.Covers child

variable {plist : HeapNode} {children : Siblings HeapNode} {ser : Serialize}

theorem numbering_of_run (defined : ∀ node ∈ (rooted plist children).labels, node.data.Defined)
    (run : serializePlist probing (rooted plist children) {} = .ok ser) :
    Numbering plist children ser := by
  obtain ⟨new, whole⟩ := serializePlist_spec defined consistent_empty run
  have all : ser.objects = new := by
    rw [whole.objects]
    rfl
  have absent : Serialize.lookup probing {} plist = .ok none :=
    (HashTable.lookup_eq_none probing).mpr (by simp)
  have inner : ∀ node ∈ children.labels, node.data.Defined := by
    intro node member
    exact defined node (by simp [Siblings.labels, member])
  rw [rooted, serializePlist, absent, ok_bind] at run
  obtain ⟨mid, walk, done⟩ := bind_eq_ok.mp run
  cases done
  obtain ⟨below, inside⟩ := serializePlist_spec inner (consistent_empty.add absent children) walk
  refine ⟨whole.consistent, ?_, ?_, ?_⟩
  · rw [all]
    exact whole.walked
  · rw [inside.objects]
    rfl
  · rw [all]
    exact whole.children

namespace Numbering

/-- The nodes with a number are nodes of the tree. -/
theorem mem_labels (numbering : Numbering plist children ser)
    {object : HeapNode × Siblings HeapNode} (member : object ∈ ser.objects) :
    object.1 ∈ (rooted plist children).labels := by
  rw [Siblings.labels_eq_map_subtrees]
  exact List.mem_map_of_mem (numbering.walked.subset member)

/-- The children of a node with a number are nodes of the tree. -/
theorem child_mem_labels (numbering : Numbering plist children ser)
    {object : HeapNode × Siblings HeapNode} (member : object ∈ ser.objects) {child : HeapNode}
    (isChild : child ∈ object.2.tops) : child ∈ (rooted plist children).labels := by
  have deeper := Siblings.subtrees_trans (numbering.walked.subset member)
  have top := Siblings.tops_subset_labels object.2 isChild
  rw [Siblings.labels_eq_map_subtrees] at top ⊢
  exact List.map_subset Prod.fst deeper top

end Numbering

/-! ## What stands for what -/

theorem Serialize.StandsFor.begins {stored node : HeapNode} {i j : Item} (left : stored.Holds i)
    (right : node.Holds j) (stands : StandsFor stored node) : stored.Begins node :=
  (HeapNode.compare_accepts_iff left.defined right.defined).mp stands.2

/-- **Only a data blob may stand for another one; anything else stands for its own
item.** -/
theorem item_of_standsFor {stored node : HeapNode} {i j : Item} (left : stored.Holds i)
    (right : node.Holds j) (stands : StandsFor stored node) :
    i = j ∨ ∃ u v, i = .data u ∧ j = .data v ∧ u <+: v := by
  have begins := stands.begins left right
  have outline := begins.outline
  have start := begins.bytes
  have nulFree := left.nulFree
  have nulFree' := right.nulFree
  unfold HeapNode.outline at outline
  unfold HeapNode.bytes at start
  rw [left.data, right.data] at outline start
  cases i with
  | boolean x =>
    cases j with
    | boolean y => cases x <;> cases y <;> first | exact .inl rfl | cases outline
    | _ => cases outline
  | uint n =>
    cases j with
    | uint m =>
      cases outline
      exact .inl rfl
    | _ => cases outline
  | string text =>
    cases j with
    | string text' =>
      have whole : cString text = text := cString_of_nul_free nulFree
      have whole' : cString text' = text' := cString_of_nul_free nulFree'
      simp only [Item.made, plistNewString, whole, whole'] at outline
      cases outline
      exact .inl rfl
    | _ => cases outline
  | key text =>
    cases j with
    | key text' =>
      have whole : cString text = text := cString_of_nul_free nulFree
      have whole' : cString text' = text' := cString_of_nul_free nulFree'
      simp only [Item.made, plistNewKey, whole, whole'] at outline
      cases outline
      exact .inl rfl
    | _ => cases outline
  | data bytes =>
    cases j with
    | data bytes' => exact .inr ⟨bytes, bytes', rfl, rfl, start⟩
    | _ => cases outline
  | array =>
    cases j with
    | array => exact .inl rfl
    | _ => cases outline
  | dict =>
    cases j with
    | dict => exact .inl rfl
    | _ => cases outline

/-- An array or a dictionary. -/
def Item.isContainer : Item → Bool
  | .array | .dict => true
  | _ => false

/-- Nodes of one tree at one address are one node. -/
theorem Placed.eq_of_address {chain : Siblings HeapNode} (placed : Placed chain) {a b : HeapNode}
    (left : a ∈ chain.labels) (right : b ∈ chain.labels) (same : a.address = b.address) : a = b :=
  List.inj_on_of_nodup_map placed.distinct left right same

/-- **Only itself stands for a container.** -/
theorem Placed.eq_of_standsFor {chain : Siblings HeapNode} (placed : Placed chain)
    {stored node : HeapNode} (left : stored ∈ chain.labels) (right : node ∈ chain.labels)
    {item : Item} (holds : node.Holds item) (container : item.isContainer = true)
    (stands : StandsFor stored node) : stored = node := by
  obtain ⟨item', holds'⟩ := placed.held stored left
  have outline := (stands.begins holds' holds).outline
  unfold HeapNode.outline at outline
  rw [holds.data, holds'.data] at outline
  apply placed.eq_of_address left right
  cases item with
  | array =>
    cases item' with
    | array => simpa [Item.made, plistNewArray] using outline
    | _ => cases outline
  | dict =>
    cases item' with
    | dict => simpa [Item.made, plistNewDict] using outline
    | _ => cases outline
  | _ => cases container

theorem Placed.labels_nodup {chain : Siblings HeapNode} (placed : Placed chain) :
    chain.labels.Nodup := List.Nodup.of_map HeapNode.address placed.distinct

/-- One node has one chain of children. -/
theorem Placed.children_unique {chain : Siblings HeapNode} (placed : Placed chain)
    {node : HeapNode} {below below' : Siblings HeapNode} (left : (node, below) ∈ chain.subtrees)
    (right : (node, below') ∈ chain.subtrees) : below = below' := by
  have nodup := placed.labels_nodup
  rw [Siblings.labels_eq_map_subtrees] at nodup
  exact congrArg Prod.snd (List.inj_on_of_nodup_map nodup left right rfl)

/-- **A child that has a number of its own has a later one than its parent.** -/
theorem Numbering.parent_lt (numbering : Numbering plist children ser)
    (placed : Placed (rooted plist children)) {k j : Nat} {object inner : HeapNode × Siblings HeapNode}
    (found : ser.objects[k]? = some object) (found' : ser.objects[j]? = some inner)
    (isChild : inner.1 ∈ object.2.tops) : k < j := by
  have nodup := placed.labels_nodup
  have order := (Siblings.no_child_before_parent nodup).sublist numbering.walked
  obtain ⟨inside, rfl⟩ := List.getElem?_eq_some_iff.mp found
  obtain ⟨inside', rfl⟩ := List.getElem?_eq_some_iff.mp found'
  rcases Nat.lt_trichotomy k j with before | same | after
  · exact before
  · subst same
    have walked := numbering.walked.subset (List.getElem_mem inside)
    exact absurd (Siblings.tops_subset_labels _ isChild)
      (Siblings.not_mem_own_labels nodup walked)
  · exact absurd isChild (List.pairwise_iff_getElem.mp order j k inside' inside after)

/-! ## Numbers -/

/-- The number the table gives for a node. -/
def Serialize.index (probing : RefProbing) (ser : Serialize) (node : HeapNode) : Nat :=
  match ser.lookup probing node with
  | .ok (some i) => i
  | _ => 0

/-- **A lookup that ends gives the number of a node that stands for the one looked up.** -/
theorem Numbering.index_found (numbering : Numbering plist children ser) {probing : RefProbing}
    {node : HeapNode} (ends : Ends (ser.lookup probing node)) (covered : ser.Covers node) :
    ser.lookup probing node = .ok (some (ser.index probing node)) ∧
      ∃ stored below, ser.objects[ser.index probing node]? = some (stored, below) ∧
        StandsFor stored node := by
  obtain ⟨i, stored, below, found, sameHash, accepted⟩ := covered
  have entry : (stored, i) ∈ ser.refTable := by
    rw [numbering.consistent.table]
    exact mem_numbered.mpr ⟨below, found⟩
  obtain ⟨k, known⟩ := HashTable.lookup_found probing entry sameHash accepted ends
  have known : ser.lookup probing node = .ok (some k) := known
  have index : ser.index probing node = k := by rw [Serialize.index, known]
  obtain ⟨stored', member, stands⟩ := HashTable.lookup_eq_some probing known
  rw [numbering.consistent.table] at member
  obtain ⟨below', found'⟩ := mem_numbered.mp member
  rw [index]
  exact ⟨known, stored', below', found', stands⟩

end Irestore.Plist
