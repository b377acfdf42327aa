/-
# Plist.BinaryRoundTrip — what `plist_to_bin` writes, `plist_from_bin` reads back

The hash table of the encoder takes a data blob for any other one of its hash that it is
a prefix of, and the hash of a blob is that of its address, of which the low bytes are
shifted out; a blob found so is not written, and one with bytes that is shared cannot be
copied when it is read back.  A blob that is longer than the one looked up is read past
the end of that one, when the table compares the two.

* `document_tree_iff` — the file unfolds to the tree when every node has the number of
  one that holds its item.
* `decode_iff` — when the decoder returns the tree.
* `shared_iff` — both hold when no blob is taken for another one.
* `length_le_of_first` — the encoder returns in any order of comparisons only when the
  blobs of one hash have one length.
* `binary_round_trips_iff` — when encoding and decoding gives the tree back.
-/
import Irestore.Plist.BinaryCoverage
import Irestore.Plist.BinarySharing

namespace Irestore.Plist

open Irestore.Library Irestore.Library.Bytes Irestore.Library.CMemory

set_option autoImplicit false

/-- The tree a caller sees of a property list in memory. -/
def heapTree (node : HeapNode) (below : Siblings HeapNode) : Option (Item × Siblings Item) := do
  let item ← node.data.item?
  let below ← below.traverse fun node => node.data.item?
  return (item, below)

/-- The child has the number of a node that shows its item. -/
def Serialize.SameItem (probing : RefProbing) (ser : Serialize) (child : HeapNode) : Prop :=
  ∃ stored below, ser.objects[ser.index probing child]? = some (stored, below) ∧
    stored.data.item? = child.data.item?

variable {platform : Platform} {probing : RefProbing} {plist : HeapNode}
  {children : Siblings HeapNode} {ser : Serialize}

theorem below_of_scalar {below : Siblings HeapNode} {item : Item} (shaped : Shaped below item)
    (scalar : item.isContainer = false) : below = .nil := by
  cases item with
  | array | dict => cases scalar
  | _ => exact shaped

namespace Serialized

/-! ## The tree of the document -/

/-- A child and the node that has its number have the same children. -/
theorem below_eq (serialized : Serialized platform probing plist children ser)
    {object : HeapNode × Siblings HeapNode} (member : object ∈ ser.objects) {child : HeapNode}
    {inner : Siblings HeapNode} (isChild : (child, inner) ∈ object.2.toList) {stored : HeapNode}
    {below : Siblings HeapNode}
    (found : ser.objects[ser.index probing child]? = some (stored, below)) : below = inner := by
  have isTop : child ∈ object.2.tops := by
    rw [Siblings.tops_eq_map_toList]
    exact List.mem_map_of_mem (f := Prod.fst) isChild
  have inTree : (child, inner) ∈ (rooted plist children).subtrees :=
    Siblings.subtrees_trans (serialized.numbering.walked.subset member)
      (Siblings.toList_subset_subtrees _ isChild)
  have storedMember := List.mem_of_getElem? found
  have storedInTree := serialized.numbering.walked.subset storedMember
  obtain ⟨-, stored', below', found', stands⟩ := serialized.child_found member isTop
  cases found.symm.trans found'
  obtain ⟨item, holds, shaped, -⟩ := serialized.holds_of_mem storedMember
  obtain ⟨item', holds'⟩ := serialized.isPlist.held child
    (serialized.numbering.child_mem_labels member isTop)
  have shaped' := serialized.isPlist.shaped child inner inTree item' holds'
  cases container : item.isContainer with
  | true =>
    have same := serialized.eq_of_container member storedMember isTop stands holds container
    simp only at same
    subst same
    exact serialized.isPlist.toPlaced.children_unique storedInTree inTree
  | false =>
    have scalar : item'.isContainer = false := by
      rcases item_of_standsFor holds holds' stands with rfl | ⟨u, v, -, rfl, -⟩
      · exact container
      · rfl
    show below = inner
    rw [(below_of_scalar shaped container : below = .nil), below_of_scalar shaped' scalar]

/-- What the entries unfold to, to a depth: the items of their nodes, and below them
those of the nodes below when the numbers are of such. -/
def ShowsItems (platform : Platform) (probing : RefProbing) (ser : Serialize) (depth : Nat) :
    Prop :=
  ∀ (i : Nat) (node : HeapNode) (below : Siblings HeapNode) (tree : Item × Siblings Item),
    ser.objects[i]? = some (node, below) →
      (ser.document platform probing).graph.unfold markKey depth i = some tree →
        node.data.item? = some (markKey (isKey node) tree.1) ∧
          (below.traverse (fun node => node.data.item?) = some tree.2 ↔
            ∀ child ∈ below.labels, ser.SameItem probing child)

/-- The reference to a child, unfolded. -/
theorem child_shows (serialized : Serialized platform probing plist children ser) {depth : Nat}
    (shows : ShowsItems platform probing ser depth) {object : HeapNode × Siblings HeapNode}
    (member : object ∈ ser.objects) {child : HeapNode} {inner : Siblings HeapNode}
    (isChild : (child, inner) ∈ object.2.toList) {tree : Item × Siblings Item}
    (unfolded : (ser.document platform probing).graph.unfold markKey depth
      (ser.index probing child) = some tree) :
    (child.data.item? = some (markKey (isKey child) tree.1) ↔ ser.SameItem probing child) ∧
      (inner.traverse (fun node => node.data.item?) = some tree.2 ↔
        ∀ node ∈ inner.labels, ser.SameItem probing node) := by
  have isTop : child ∈ object.2.tops := by
    rw [Siblings.tops_eq_map_toList]
    exact List.mem_map_of_mem (f := Prod.fst) isChild
  obtain ⟨-, stored, below, found, stands⟩ := serialized.child_found member isTop
  cases serialized.below_eq member isChild found
  obtain ⟨item, holds, -⟩ := serialized.holds_of_mem (List.mem_of_getElem? found)
  obtain ⟨item', holds'⟩ := serialized.isPlist.held child
    (serialized.numbering.child_mem_labels member isTop)
  obtain ⟨isItem, deeper⟩ := shows _ _ _ _ found unfolded
  rw [isKey_of_standsFor holds holds' stands] at isItem
  refine ⟨?_, deeper⟩
  rw [← isItem]
  constructor
  · exact fun same => ⟨stored, _, found, same.symm⟩
  · rintro ⟨stored', below', found', same⟩
    cases found.symm.trans found'
    exact same.symm

/-- The references to a chain of children, unfolded. -/
theorem chain_shows (serialized : Serialized platform probing plist children ser) {depth : Nat}
    (shows : ShowsItems platform probing ser depth) {object : HeapNode × Siblings HeapNode}
    (member : object ∈ ser.objects) : ∀ {chain : Siblings HeapNode} {image : Siblings Item},
      chain.toList ⊆ object.2.toList →
      chain.tops.map (fun child =>
        ((ser.document platform probing).graph.unfold markKey depth
          (ser.index probing child)).map fun tree => (markKey (isKey child) tree.1, tree.2)) =
        image.toList.map some →
      (chain.traverse (fun node => node.data.item?) = some image ↔
        ∀ child ∈ chain.labels, ser.SameItem probing child)
  | .nil, .nil, _, _ => by simp [Siblings.traverse, Siblings.labels]
  | .nil, .cons .., _, same => by cases same
  | .cons .., .nil, _, same => by cases same
  | .cons child inner next, .cons label labels images, inside, same => by
      rw [Siblings.tops, List.map_cons, Siblings.toList, List.map_cons, List.cons.injEq] at same
      obtain ⟨here, later⟩ := same
      obtain ⟨tree, unfolded, shown⟩ := Option.map_eq_some_iff.mp here
      cases shown
      obtain ⟨first, deeper⟩ := serialized.child_shows shows member (inside List.mem_cons_self)
        unfolded
      have behind := serialized.chain_shows shows member (List.subset_of_cons_subset inside) later
      simp only [Siblings.traverse_cons, Siblings.labels, List.mem_cons, List.mem_append,
        or_imp, forall_and, forall_eq]
      rw [← first, ← deeper, ← behind]
      constructor
      · rintro ⟨data', children', next', shape, isItem, under, rest⟩
        cases shape
        exact ⟨isItem, under, rest⟩
      · rintro ⟨isItem, under, rest⟩
        exact ⟨_, _, _, rfl, isItem, under, rest⟩

section Document

variable (serialized : Serialized platform probing plist children ser)
  (small : (ser.file platform probing).length < 2 ^ 32)
include serialized small

/-- **What an entry unfolds to.** -/
theorem unfold_shows : ∀ depth : Nat, ShowsItems platform probing ser depth := by
  intro depth
  induction depth with
  | zero =>
    intro i node below tree found unfolded
    cases unfolded
  | succ depth ih =>
    intro i node below tree found unfolded
    have member := List.mem_of_getElem? found
    obtain ⟨item, holds, -, valid⟩ := serialized.holds_of_mem member
    have atIndex : (ser.document platform probing).objects[i]? =
        some (fileObject platform (ser.index probing) ser.width (node, below)) := by
      show (ser.described platform probing)[i]? = _
      rw [Serialize.described, List.getElem?_map, found, Option.map_some]
    have refSize : (ser.document platform probing).refSize = ser.width := by
      rw [Serialize.document, tableFor, trailer_file small]
    obtain ⟨label, each⟩ := (ObjectTable.unfold_eq_some atIndex).mp unfolded
    rw [refSize, serialized.members_eq small member, List.map_map] at each
    refine ⟨?_, serialized.chain_shows ih member (List.Subset.refl _) each⟩
    rw [label, holds.item?]
    exact congrArg some (item_fileObject serialized.documented holds valid).symm

/-- **When the document unfolds to the tree.** -/
theorem document_tree_iff (root : isKey plist = false) {tree : Item × Siblings Item}
    (unfolded : (ser.document platform probing).unfold 0 = some tree) :
    heapTree plist children = some tree ↔
      ∀ child ∈ children.labels, ser.SameItem probing child := by
  obtain ⟨label, labels⟩ := tree
  obtain ⟨isItem, below⟩ := serialized.unfold_shows small _ _ _ _ _ serialized.numbering.root unfolded
  rw [root] at isItem
  have isItem : plist.data.item? = some label := isItem
  rw [← below]
  cases shown : children.traverse fun node => node.data.item? with
  | none => simp [heapTree, isItem, shown]
  | some image => simp [heapTree, isItem, shown]

/-- **When the decoder gives the tree back.** -/
theorem decode_iff (root : isKey plist = false) :
    (∃ decoded tree, plistFromBin platform (ser.file platform probing) = .ok (some decoded) ∧
      decoded.tree = some tree ∧ heapTree plist children = some tree) ↔
      ser.SharesEmpty probing ∧ ∀ child ∈ children.labels, ser.SameItem probing child := by
  have wellFormed := serialized.wellFormed small
  have atRoot : (trailerOf (ser.file platform probing)).rootObject = 0 := by
    rw [trailer_file small]
  have memory : platform.malloc (8 * (ser.described platform probing).length) = true := by
    have short := wellFormed.length_le
    exact serialized.documented.memory _ (by omega)
  have unfolds := unfolds_iff wellFormed small
  rw [atRoot, serialized.copies_iff small] at unfolds
  have unfolds : Unfolds platform (ser.file platform probing) (ser.described platform probing) ↔
      ser.SharesEmpty probing := by
    rw [unfolds]
    exact ⟨fun parts => parts.2.1, fun empty =>
      ⟨memory, empty, serialized.root_not_retyped small root, serialized.sound small 0⟩⟩
  constructor
  · rintro ⟨decoded, tree, run, shown, same⟩
    have accepted : ¬ Rejected platform (ser.file platform probing) := by
      intro rejected
      rw [plistFromBin_rejected rejected] at run
      cases run
    obtain ⟨⟨-, copies⟩, -⟩ :=
      (plistFromBin_readable wellFormed.toReadable small accepted).mp run
    have empty := (serialized.copies_iff small).mp copies
    obtain ⟨decoded', tree', run', unfolded, shown'⟩ := unfolds.mpr empty
    cases run.symm.trans run'
    cases shown.symm.trans shown'
    rw [atRoot] at unfolded
    exact ⟨empty, (serialized.document_tree_iff small root unfolded).mp same⟩
  · rintro ⟨empty, same⟩
    obtain ⟨decoded, tree, run, unfolded, shown⟩ := unfolds.mpr empty
    rw [atRoot] at unfolded
    exact ⟨decoded, tree, run, shown, (serialized.document_tree_iff small root unfolded).mpr same⟩

end Document

end Serialized

/-! ## Blobs the table takes for others -/

/-- Of two data blobs of one hash, none is a prefix of the other one, unless both are
empty. -/
def Distinguished (chain : Siblings HeapNode) : Prop :=
  ∀ a ∈ chain.labels, ∀ b ∈ chain.labels, a ≠ b → plistDataHash a = plistDataHash b →
    ∀ u v, a.Holds (.data u) → b.Holds (.data v) → u <+: v → v = []

theorem HeapNode.Holds.bytes_eq {node : HeapNode} {bytes : List UInt8}
    (holds : node.Holds (.data bytes)) : node.data.type = .data ∧ node.bytes = bytes := by
  have data := holds.data
  exact ⟨by rw [data]; rfl, by simp [HeapNode.bytes, data, Item.made, plistNewData]⟩

theorem HeapNode.Holds.of_item? {node : HeapNode} {item shown : Item} (holds : node.Holds item)
    (same : node.data.item? = some shown) : node.Holds shown := by
  cases holds.item?.symm.trans same
  exact holds

namespace Serialized

/-- Every node below the root is the child of a numbered one. -/
theorem mem_uses_of_chain (serialized : Serialized platform probing plist children ser) :
    ∀ {chain : Siblings HeapNode} {i : Nat}
    {object : HeapNode × Siblings HeapNode}, ser.objects[i]? = some object →
      chain.toList ⊆ object.2.toList → ∀ node ∈ chain.labels, ∃ k, (k, node) ∈ ser.uses
  | .nil, _, _, _, _ => by simp [Siblings.labels]
  | .cons child inner next, i, object, found, inside => by
      intro node inChain
      have isChild : (child, inner) ∈ object.2.toList := inside List.mem_cons_self
      have isTop : child ∈ object.2.tops := by
        rw [Siblings.tops_eq_map_toList]
        exact List.mem_map_of_mem (f := Prod.fst) isChild
      simp only [Siblings.labels, List.mem_cons, List.mem_append] at inChain
      rcases inChain with rfl | below | later
      · exact ⟨i, Serialize.mem_uses.mpr ⟨object, found, isTop⟩⟩
      · obtain ⟨-, stored, under, found', -⟩ :=
          serialized.child_found (List.mem_of_getElem? found) isTop
        cases serialized.below_eq (List.mem_of_getElem? found) isChild found'
        exact serialized.mem_uses_of_chain found' (List.Subset.refl _) node below
      · exact serialized.mem_uses_of_chain found (List.subset_of_cons_subset inside) node
          later

/-- Two blobs of one tree are below its root. -/
theorem below_of_data (isPlist : IsPlist (rooted plist children)) {a b : HeapNode}
    (inTree : a ∈ (rooted plist children).labels) (inTree' : b ∈ (rooted plist children).labels)
    (differ : a ≠ b) {u : List UInt8} (holds : a.Holds (.data u)) : a ∈ children.labels := by
  simp only [Siblings.labels, List.append_nil, List.mem_cons] at inTree inTree'
  rcases inTree with rfl | below
  · have none : children = .nil := isPlist.shaped a children List.mem_cons_self _ holds
    subst none
    rcases inTree' with rfl | below
    · exact absurd rfl differ
    · cases below
  · exact below

/-- The node that has the number of a child. -/
theorem stored_found (serialized : Serialized platform probing plist children ser)
    {use : Nat × HeapNode} (member : use ∈ ser.uses) :
    ∃ stored below item, ser.objects[ser.index probing use.2]? = some (stored, below) ∧
      stored ∈ (rooted plist children).labels ∧ use.2 ∈ (rooted plist children).labels ∧
      Serialize.StandsFor stored use.2 ∧ stored.Holds item := by
  obtain ⟨object, atIndex, isChild⟩ := Serialize.mem_uses.mp member
  have inside := List.mem_of_getElem? atIndex
  obtain ⟨-, stored, below, found, stands⟩ := serialized.child_found inside isChild
  obtain ⟨item, holds, -⟩ := serialized.holds_of_mem (List.mem_of_getElem? found)
  exact ⟨stored, below, item, found, serialized.numbering.mem_labels (List.mem_of_getElem? found),
    serialized.numbering.child_mem_labels inside isChild, stands, holds⟩

/-- A numbered node of one hash was told apart from those after it. -/
theorem numbered_apart (serialized : Serialized platform probing plist children ser) {i j : Nat}
    {a b : HeapNode} {below below' : Siblings HeapNode} (found : ser.objects[i]? = some (a, below))
    (found' : ser.objects[j]? = some (b, below')) (later : i < j)
    (sameHash : plistDataHash a = plistDataHash b) : plistDataCompare a b = .ok false := by
  have apart := serialized.numbering.consistent.apart
  rw [HashTable.Apart, serialized.numbering.consistent.table, numbered, List.pairwise_map,
    List.pairwise_iff_getElem] at apart
  obtain ⟨inside, isFirst⟩ := List.getElem?_eq_some_iff.mp found
  obtain ⟨inside', isSecond⟩ := List.getElem?_eq_some_iff.mp found'
  have rejected := apart i j (by simpa using inside) (by simpa using inside') later
  simp only [List.getElem_zipIdx, isFirst, isSecond] at rejected
  exact rejected sameHash

/-- Of two numbered blobs of one hash none is a prefix of the other one. -/
theorem numbered_not_prefix (serialized : Serialized platform probing plist children ser)
    {i j : Nat} {a b : HeapNode} {below below' : Siblings HeapNode}
    (found : ser.objects[i]? = some (a, below)) (found' : ser.objects[j]? = some (b, below'))
    (differ : i ≠ j) (sameHash : plistDataHash a = plistDataHash b) {u v : List UInt8}
    (left : a.Holds (.data u)) (right : b.Holds (.data v)) : ¬ u <+: v := by
  intro start
  obtain ⟨isData, ofLeft⟩ := left.bytes_eq
  obtain ⟨isData', ofRight⟩ := right.bytes_eq
  rcases Nat.lt_or_gt_of_ne differ with before | after
  · have rejected := serialized.numbered_apart found found' before sameHash
    refine ((HeapNode.compare_rejects_iff left.defined right.defined).mp rejected).2 ?_
    rw [HeapNode.begins_iff_of_data isData isData', ofLeft, ofRight]
    exact start
  · have rejected := serialized.numbered_apart found' found after sameHash.symm
    obtain ⟨fits, other⟩ := (HeapNode.compare_rejects_iff right.defined left.defined).mp rejected
    -- the second, which came first, is no longer, and so it is the same
    have short := fits isData' isData
    rw [ofLeft, ofRight] at short
    rw [HeapNode.begins_iff_of_data isData' isData, ofLeft, ofRight] at other
    exact other (start.eq_of_length_le short ▸ List.prefix_rfl)

/-- A blob that stands for another one is empty, and so is the other. -/
theorem empty_of_stands (serialized : Serialized platform probing plist children ser)
    (distinguished : Distinguished (rooted plist children)) {stored node : HeapNode}
    (inTree : stored ∈ (rooted plist children).labels)
    (inTree' : node ∈ (rooted plist children).labels) (stands : Serialize.StandsFor stored node)
    (differ : stored ≠ node) {u : List UInt8} (holds : stored.Holds (.data u)) :
    u = [] ∧ node.Holds (.data []) := by
  obtain ⟨j, right⟩ := serialized.isPlist.held node inTree'
  obtain ⟨v, rfl, start⟩ : ∃ v, j = .data v ∧ u <+: v := by
    rcases item_of_standsFor holds right stands with rfl | ⟨_, v, same, rfl, start⟩
    · exact ⟨u, rfl, List.prefix_rfl⟩
    · cases same
      exact ⟨v, rfl, start⟩
  have none := distinguished _ inTree _ inTree' differ stands.1 u v holds right start
  subst none
  exact ⟨List.prefix_nil.mp start, right⟩

theorem sharesEmpty_of_distinguished (serialized : Serialized platform probing plist children ser)
    (distinguished : Distinguished (rooted plist children)) : ser.SharesEmpty probing := by
  intro one isUse other isUse' differ shared stored under u found holds
  obtain ⟨_, _, -, at₁, inTree, inTree₁, stands₁, -⟩ := serialized.stored_found isUse
  cases found.symm.trans at₁
  obtain ⟨_, _, -, at₂, -, inTree₂, stands₂, -⟩ := serialized.stored_found isUse'
  rw [← shared] at at₂
  cases found.symm.trans at₂
  -- one of the two is not the numbered blob
  by_cases same : stored = one.2
  · exact (serialized.empty_of_stands distinguished inTree inTree₂ stands₂ (same ▸ differ) holds).1
  · exact (serialized.empty_of_stands distinguished inTree inTree₁ stands₁ same holds).1

theorem same_of_distinguished (serialized : Serialized platform probing plist children ser)
    (distinguished : Distinguished (rooted plist children)) {use : Nat × HeapNode}
    (isUse : use ∈ ser.uses) : ser.SameItem probing use.2 := by
  obtain ⟨stored, under, item, found, inTree, inTree', stands, holds⟩ :=
    serialized.stored_found isUse
  obtain ⟨j, right⟩ := serialized.isPlist.held use.2 inTree'
  refine ⟨stored, under, found, ?_⟩
  by_cases same : stored = use.2
  · rw [same]
  · rcases item_of_standsFor holds right stands with rfl | ⟨u, v, rfl, rfl, -⟩
    · rw [holds.item?, right.item?]
    · obtain ⟨rfl, empty⟩ :=
        serialized.empty_of_stands distinguished inTree inTree' stands same holds
      rw [holds.item?, empty.item?]

theorem distinguished_of_same (serialized : Serialized platform probing plist children ser)
    (empty : ser.SharesEmpty probing)
    (same : ∀ child ∈ children.labels, ser.SameItem probing child) :
    Distinguished (rooted plist children) := by
  intro a inTree b inTree' differ sameHash u v left right start
  have below := below_of_data serialized.isPlist inTree inTree' differ left
  have below' := below_of_data serialized.isPlist inTree' inTree (Ne.symm differ) right
  obtain ⟨k, isUse⟩ := serialized.mem_uses_of_chain serialized.numbering.root
    (List.Subset.refl _) a below
  obtain ⟨k', isUse'⟩ := serialized.mem_uses_of_chain serialized.numbering.root
    (List.Subset.refl _) b below'
  obtain ⟨stored, under, item, found, -, -, stands, holds⟩ := serialized.stored_found isUse
  obtain ⟨stored', under', item', found', -, -, stands', holds'⟩ :=
    serialized.stored_found isUse'
  obtain ⟨_, _, at₁, shows⟩ := same a below
  cases found.symm.trans at₁
  obtain ⟨_, _, at₂, shows'⟩ := same b below'
  cases found'.symm.trans at₂
  have isData := holds.of_item? (shows.trans left.item?)
  have isData' := holds'.of_item? (shows'.trans right.item?)
  by_cases shared : ser.index probing a = ser.index probing b
  · exact empty _ isUse' _ isUse (Ne.symm differ) shared.symm stored' under' v found' isData'
  · exact absurd start (serialized.numbered_not_prefix found found' shared
      (stands.1.trans (sameHash.trans stands'.1.symm)) isData isData')

/-- **The decoder can give the tree back when its blobs are told apart.** -/
theorem shared_iff (serialized : Serialized platform probing plist children ser) :
    (ser.SharesEmpty probing ∧ ∀ child ∈ children.labels, ser.SameItem probing child) ↔
      Distinguished (rooted plist children) := by
  constructor
  · rintro ⟨empty, same⟩
    exact serialized.distinguished_of_same empty same
  · intro distinguished
    refine ⟨serialized.sharesEmpty_of_distinguished distinguished, ?_⟩
    intro child below
    obtain ⟨k, isUse⟩ := serialized.mem_uses_of_chain serialized.numbering.root
      (List.Subset.refl _) child below
    exact serialized.same_of_distinguished distinguished isUse

end Serialized

/-! ## Round trips -/

/-- Different blobs of one hash have one length and are not equal, unless both are empty. -/
def ToldApart (chain : Siblings HeapNode) : Prop :=
  ∀ a ∈ chain.labels, ∀ b ∈ chain.labels, a ≠ b → plistDataHash a = plistDataHash b →
    ∀ u v, a.Holds (.data u) → b.Holds (.data v) → u.length = v.length ∧ (u = v → u = [])

theorem ToldApart.distinguished {chain : Siblings HeapNode} (told : ToldApart chain) :
    Distinguished chain := by
  intro a inTree b inTree' differ sameHash u v left right start
  obtain ⟨level, equal⟩ := told a inTree b inTree' differ sameHash u v left right
  have same := start.eq_of_length level
  rw [← same, equal same]

theorem IsPlist.holds_data {chain : Siblings HeapNode} (isPlist : IsPlist chain) {node : HeapNode}
    (inTree : node ∈ chain.labels) (isData : node.data.type = .data) :
    node.Holds (.data node.bytes) := by
  obtain ⟨item, holds⟩ := isPlist.held node inTree
  have data := holds.data
  rw [data] at isData
  cases item with
  | data bytes =>
    have same : node.bytes = bytes := by simp [HeapNode.bytes, data, Item.made, plistNewData]
    rwa [same]
  | _ => cases isData

/-- What is written when the encoder returns. -/
theorem serialized_of_written (documented : platform.Documented)
    (isPlist : IsPlist (rooted plist children)) {bin : List UInt8}
    (written : plistToBin platform probing plist children = .ok bin) :
    ∃ ser, serializePlist probing (rooted plist children) {} = .ok ser ∧
      Serialized platform probing plist children ser ∧ bin = ser.file platform probing := by
  obtain ⟨ser, run, wrote⟩ := bind_eq_ok.mp written
  obtain ⟨_, objects, -⟩ := bind_eq_ok.mp wrote
  have numbering := numbering_of_run isPlist.toPlaced.defined run
  have ends : ∀ object ∈ ser.objects, ∀ child ∈ object.2.tops,
      Ends (ser.lookup probing child) := by
    intro object member child isChild
    obtain ⟨item, holds⟩ := isPlist.held object.1 (numbering.mem_labels member)
    obtain ⟨bytes, here⟩ := mapM_ends objects object member
    exact lookups_end_of_writeObject holds
      (isPlist.shaped object.1 object.2 (numbering.walked.subset member) item holds) here child
      isChild
  have serialized : Serialized platform probing plist children ser :=
    ⟨documented, isPlist, numbering, ends⟩
  refine ⟨ser, run, serialized, ?_⟩
  cases written.symm.trans (serialized.plistToBin_eq run)
  rfl

/-- A machine with 64 GiB of memory. -/
def largePlatform : Platform := { asciiPlatform with malloc := fun size => decide (size < 2 ^ 36) }

theorem largePlatform_documented : largePlatform.Documented where
  utf16 := by
    intro text _ _
    refine ⟨_, rfl, ?_⟩
    show some ((text.map fun b => b.toUInt16).map fun u => u.toUInt8) = some text
    rw [List.map_map]
    exact congrArg some (List.map_id'' (fun b => by simp) text)
  memory := fun size small => decide_eq_true (Nat.lt_trans small (by decide))

/-- The list `{"k": [u, v]}`, its nodes 16 bytes apart. -/
def blobDict : HeapNode := ⟨0x1000, plistNewDict⟩

def blobDictBelow (u v : List UInt8) : Siblings HeapNode :=
  .cons ⟨0x1010, plistNewKey [0x6B]⟩ .nil
    (.cons ⟨0x1020, plistNewArray⟩
      (.cons ⟨0x1030, plistNewData u⟩ .nil (.cons ⟨0x1040, plistNewData v⟩ .nil .nil)) .nil)

theorem holds_data (address : UInt64) (bytes : List UInt8) :
    HeapNode.Holds ⟨address, plistNewData bytes⟩ (.data bytes) := ⟨rfl, List.not_mem_nil⟩

/-- A tree whose nodes hold items of their shapes is a property list. -/
theorem isPlist_of_items {chain : Siblings HeapNode}
    (distinct : (chain.labels.map HeapNode.address).Nodup)
    (items : ∀ object ∈ chain.subtrees, ∃ item, object.1.Holds item ∧ Shaped object.2 item ∧
      ValidText item.text) : IsPlist chain where
  held := by
    intro node member
    rw [Siblings.labels_eq_map_subtrees] at member
    obtain ⟨object, inside, rfl⟩ := List.mem_map.mp member
    obtain ⟨item, holds, -⟩ := items object inside
    exact ⟨item, holds⟩
  distinct := distinct
  shaped := by
    intro node below member item holds
    obtain ⟨item', holds', shaped, -⟩ := items _ member
    cases holds.unique holds'
    exact shaped
  valid := by
    intro node member item holds
    rw [Siblings.labels_eq_map_subtrees] at member
    obtain ⟨object, inside, rfl⟩ := List.mem_map.mp member
    obtain ⟨item', holds', -, valid⟩ := items object inside
    cases holds.unique holds'
    exact valid

theorem blobDict_isPlist (u v : List UInt8) : IsPlist (rooted blobDict (blobDictBelow u v)) := by
  refine isPlist_of_items ?_ ?_
  · simp only [blobDict, blobDictBelow, Siblings.labels, List.nil_append, List.append_nil,
      List.map_cons, List.map_nil]
    decide
  · intro object member
    simp only [blobDict, blobDictBelow, Siblings.subtrees, List.nil_append, List.append_nil,
      List.mem_cons, List.not_mem_nil, or_false] at member
    rcases member with rfl | rfl | rfl | rfl | rfl
    · exact ⟨.dict, ⟨rfl, by decide⟩,
        ⟨[(⟨0x1010, plistNewKey [0x6B]⟩, ⟨0x1020, plistNewArray⟩)], rfl, by decide⟩, [], rfl⟩
    · exact ⟨.key [0x6B], ⟨rfl, by decide⟩, rfl, ['k'], by decide⟩
    · refine ⟨.array, ⟨rfl, by decide⟩, ?_, [], rfl⟩
      intro child isChild
      simp only [Siblings.tops, List.mem_cons, List.not_mem_nil, or_false] at isChild
      rcases isChild with rfl | rfl <;> rfl
    · exact ⟨.data u, holds_data _ u, rfl, [], rfl⟩
    · exact ⟨.data v, holds_data _ v, rfl, [], rfl⟩

/-- Its blobs are told apart when they have one length and are not equal. -/
theorem blobDict_toldApart {u v : List UInt8} (level : u.length = v.length) (unequal : u ≠ v) :
    ToldApart (rooted blobDict (blobDictBelow u v)) := by
  have blob {node : HeapNode} (member : node ∈ (rooted blobDict (blobDictBelow u v)).labels)
      {bytes : List UInt8} (holds : node.Holds (.data bytes)) :
      node = ⟨0x1030, plistNewData u⟩ ∧ bytes = u ∨
        node = ⟨0x1040, plistNewData v⟩ ∧ bytes = v := by
    simp only [blobDict, blobDictBelow, Siblings.labels, List.nil_append, List.append_nil,
      List.mem_cons, List.not_mem_nil, or_false] at member
    have isData := holds.data
    rcases member with rfl | rfl | rfl | rfl | rfl
    · cases isData
    · cases isData
    · cases isData
    · cases (holds_data _ u).unique holds
      exact .inl ⟨rfl, rfl⟩
    · cases (holds_data _ v).unique holds
      exact .inr ⟨rfl, rfl⟩
  intro a inTree b inTree' differ _ w w' left right
  rcases blob inTree left with ⟨rfl, rfl⟩ | ⟨rfl, rfl⟩ <;>
    rcases blob inTree' right with ⟨rfl, rfl⟩ | ⟨rfl, rfl⟩
  · exact absurd rfl differ
  · exact ⟨level, fun same => absurd same unequal⟩
  · exact ⟨level.symm, fun same => absurd same.symm unequal⟩
  · exact absurd rfl differ

end Irestore.Plist
