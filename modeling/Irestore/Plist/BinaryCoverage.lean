/-
# Plist.BinaryCoverage — every child of a numbered node has a number

`serialize_plist` goes below a node only when it is not known, so what it comes to
(`reached`) may leave out a part of the tree: what is below a node that is equal to one
before it.  It numbers the nodes it comes to and does not know (`entered`).  In which
order a lookup meets the numbered nodes of one hash is not documented, so the results
are about every order.

* `walk_spec` — what a walk that ends has numbered, and of whom it is the children.
* `walk_ends` — a walk ends when each node it comes to has the bytes of the numbered
  ones of its hash.
* `reached_eq_labels` — it comes to every node when only containers have children.
* `complete_of_run` — after it every child has a number, and the numbers come back from
  their bytes.
* `covered_iff` — the whole, for any tree of nodes of defined types.
-/
import Irestore.Plist.BinaryEncode

namespace Irestore.Plist

open Irestore.Library Irestore.Library.Bytes Irestore.Library.CMemory

set_option autoImplicit false

/-! ## Nodes met by the walk -/

/-- A node met before has the hash of this one, and begins it. -/
def Known (met : List HeapNode) (node : HeapNode) : Prop :=
  ∃ stored ∈ met, plistDataHash stored = plistDataHash node ∧ stored.Begins node

instance (a b : HeapNode) : Decidable (a.Begins b) :=
  decidable_of_iff (a.outline = b.outline ∧ a.bytes <+: b.bytes)
    ⟨fun begins => ⟨begins.1, begins.2⟩, fun begins => ⟨begins.outline, begins.bytes⟩⟩

instance (met : List HeapNode) (node : HeapNode) : Decidable (Known met node) :=
  inferInstanceAs (Decidable (∃ stored ∈ met, _))

/-- The nodes the walk over a chain comes to: not those below a node that is known. -/
def reached : List HeapNode → Siblings HeapNode → List HeapNode
  | _, .nil => []
  | met, .cons node children next =>
      let here := node :: if Known met node then [] else reached (met ++ [node]) children
      here ++ reached (met ++ here) next

theorem tops_subset_reached : ∀ {chain : Siblings HeapNode} {met : List HeapNode},
    chain.tops ⊆ reached met chain
  | .nil, _ => List.Subset.refl []
  | .cons node children next, met => by
      rw [Siblings.tops, reached, List.cons_append]
      refine List.cons_subset_cons node ?_
      exact List.Subset.trans tops_subset_reached (List.subset_append_right _ _)

/-- The nodes met that are numbered: those not known before. -/
def entered : List HeapNode → List HeapNode → List HeapNode
  | _, [] => []
  | met, node :: rest => (if Known met node then [] else [node]) ++ entered (met ++ [node]) rest

theorem entered_append : ∀ {front met back : List HeapNode},
    entered met (front ++ back) = entered met front ++ entered (met ++ front) back
  | [], met, back => by simp [entered]
  | node :: front, met, back => by
      rw [List.cons_append, entered, entered, entered_append, List.append_assoc, List.append_assoc]
      rfl

theorem entered_sublist : ∀ {nodes met : List HeapNode}, (entered met nodes).Sublist nodes
  | [], _ => List.Sublist.refl []
  | node :: rest, met => by
      have here : (if Known met node then [] else [node]).Sublist [node] := by
        split
        · exact List.nil_sublist _
        · exact List.Sublist.refl _
      exact here.append entered_sublist

/-- What the walk has recorded of the nodes it has met. -/
structure Recorded (ser : Serialize) (met : List HeapNode) : Prop where
  consistent : ser.Consistent
  defined : ∀ node ∈ met, node.data.Defined
  keys : ser.objects.map Prod.fst = entered [] met
  covered : ∀ node ∈ met, ser.Covers node

namespace Recorded

variable {ser : Serialize} {met : List HeapNode} {node : HeapNode} {probing : RefProbing}

theorem mem_of_object (recorded : Recorded ser met) {object : HeapNode × Siblings HeapNode}
    (member : object ∈ ser.objects) : object.1 ∈ met := by
  have isKey : object.1 ∈ entered [] met := recorded.keys ▸ List.mem_map_of_mem member
  exact entered_sublist.subset isKey

theorem key_of_table (recorded : Recorded ser met) {entry : HeapNode × Nat}
    (member : entry ∈ ser.refTable) : entry.1 ∈ entered [] met := by
  rw [recorded.consistent.table] at member
  obtain ⟨below, found⟩ := Serialize.mem_numbered.mp member
  exact recorded.keys ▸ List.mem_map_of_mem (List.mem_of_getElem? found)

theorem mem_of_table (recorded : Recorded ser met) {entry : HeapNode × Nat}
    (member : entry ∈ ser.refTable) : entry.1 ∈ met :=
  entered_sublist.subset (recorded.key_of_table member)

theorem table_of_key (recorded : Recorded ser met) {key : HeapNode} (isKey : key ∈ entered [] met) :
    ∃ i, (key, i) ∈ ser.refTable := by
  rw [← recorded.keys] at isKey
  obtain ⟨object, member, rfl⟩ := List.mem_map.mp isKey
  obtain ⟨i, found⟩ := List.getElem?_of_mem member
  rw [recorded.consistent.table]
  exact ⟨i, Serialize.mem_numbered.mpr ⟨object.2, found⟩⟩

/-- A key of the table begins each node met. -/
theorem begins_of_mem (recorded : Recorded ser met) (member : node ∈ met) :
    ∃ entry ∈ ser.refTable, plistDataHash entry.1 = plistDataHash node ∧ entry.1.Begins node := by
  obtain ⟨i, stored, below, found, sameHash, accepted⟩ := recorded.covered node member
  have isStored := recorded.mem_of_object (List.mem_of_getElem? found)
  refine ⟨(stored, i), ?_, sameHash, ?_⟩
  · rw [recorded.consistent.table]
    exact Serialize.mem_numbered.mpr ⟨below, found⟩
  · exact (HeapNode.compare_accepts_iff (recorded.defined _ isStored)
      (recorded.defined node member)).mp accepted

/-- A lookup ends when the node has the bytes of the numbered ones of its hash. -/
theorem lookup_ends (recorded : Recorded ser met) (defined : node.data.Defined)
    (fits : ∀ key ∈ entered [] met, plistDataHash key = plistDataHash node → key.Fits node) :
    Ends (ser.lookup probing node) := by
  refine HashTable.lookup_ends probing fun entry member sameHash => ?_
  exact (HeapNode.compare_ends_iff (recorded.defined _ (recorded.mem_of_table member)) defined).mpr
    (fits entry.1 (recorded.key_of_table member) sameHash)

/-- **A lookup that meets a numbered node of its hash first ends only when the node has the
bytes of that one.** -/
theorem fits_of_first (recorded : Recorded ser met) (defined : node.data.Defined) {key : HeapNode}
    (isKey : key ∈ entered [] met) (sameHash : plistDataHash key = plistDataHash node)
    (ends : Ends (ser.lookup (.first Nat plistDataHash key) node)) : key.Fits node := by
  obtain ⟨i, member⟩ := recorded.table_of_key isKey
  exact (HeapNode.compare_ends_iff (recorded.defined key (recorded.mem_of_table member))
    defined).mp (HashTable.ends_of_first member sameHash ends)

/-- What the table gives is known. -/
theorem known_of_lookup (recorded : Recorded ser met) (defined : node.data.Defined) {i : Nat}
    (found : ser.lookup probing node = .ok (some i)) : Known met node := by
  obtain ⟨_, stored, below, atIndex, sameHash, accepted⟩ :=
    recorded.consistent.covers_of_lookup found
  have isStored := recorded.mem_of_object (List.mem_of_getElem? atIndex)
  exact ⟨stored, isStored, sameHash,
    (HeapNode.compare_accepts_iff (recorded.defined _ isStored) defined).mp accepted⟩

/-- What it does not give is not. -/
theorem not_known_of_lookup (recorded : Recorded ser met) (defined : node.data.Defined)
    (absent : ser.lookup probing node = .ok none) : ¬ Known met node := by
  rintro ⟨stored, member, sameHash, begins⟩
  obtain ⟨entry, isEntry, hashed, first⟩ := recorded.begins_of_mem member
  have rejected := (HashTable.lookup_eq_none probing).mp absent entry isEntry
    (hashed.trans sameHash)
  have entryDefined := recorded.defined _ (recorded.mem_of_table isEntry)
  exact ((HeapNode.compare_rejects_iff entryDefined defined).mp rejected).2 (first.trans begins)

/-- A node that is known is left out. -/
theorem skip (recorded : Recorded ser met) (defined : node.data.Defined) {i : Nat}
    (found : ser.lookup probing node = .ok (some i)) : Recorded ser (met ++ [node]) := by
  refine ⟨recorded.consistent, ?_, ?_, ?_⟩
  · intro other member
    rcases List.mem_append.mp member with old | new
    · exact recorded.defined other old
    · exact List.mem_singleton.mp new ▸ defined
  · rw [entered_append, entered, List.nil_append, if_pos (recorded.known_of_lookup defined found),
      recorded.keys]
    simp [entered]
  · intro other member
    rcases List.mem_append.mp member with old | new
    · exact recorded.covered other old
    · exact List.mem_singleton.mp new ▸ recorded.consistent.covers_of_lookup found

/-- One that is not known gets a number. -/
theorem add (recorded : Recorded ser met) (defined : node.data.Defined)
    (absent : ser.lookup probing node = .ok none) (children : Siblings HeapNode) :
    Recorded (ser.add node children) (met ++ [node]) := by
  refine ⟨recorded.consistent.add absent children, ?_, ?_, ?_⟩
  · intro other member
    rcases List.mem_append.mp member with old | new
    · exact recorded.defined other old
    · exact List.mem_singleton.mp new ▸ defined
  · rw [entered_append, entered, List.nil_append,
      if_neg (recorded.not_known_of_lookup defined absent), ← recorded.keys]
    simp [Serialize.add, entered]
  · intro other member
    rcases List.mem_append.mp member with old | new
    · exact (recorded.covered other old).append rfl
    · rw [List.mem_singleton.mp new]
      exact Serialize.covers_add defined children

/-- The root is numbered first. -/
theorem root {plist : HeapNode} (defined : plist.data.Defined) (children : Siblings HeapNode) :
    Recorded (Serialize.add {} plist children) [plist] := by
  have empty : Recorded {} [] := ⟨Serialize.consistent_empty, by simp, rfl, by simp⟩
  have absent : Serialize.lookup (.insertion HeapNode Nat plistDataHash) {} plist = .ok none :=
    (HashTable.lookup_eq_none _).mpr (by simp)
  exact empty.add defined absent children

end Recorded

/-! ## The walk -/

/-- What a walk over a chain leaves behind, after some nodes were met: what it has come to,
which are its tops and the children of what it has numbered. -/
structure Walks (chain : Siblings HeapNode) (ser ser' : Serialize) (met : List HeapNode)
    (new : List (HeapNode × Siblings HeapNode)) : Prop where
  recorded : Recorded ser' (met ++ reached met chain)
  objects : ser'.objects = ser.objects ++ new
  inside : ∀ object ∈ new, object.2.tops ⊆ reached met chain
  parents : ∀ node ∈ reached met chain, node ∈ chain.tops ∨ ∃ object ∈ new, node ∈ object.2.tops

/-- **One walk that ends.** -/
theorem walk_spec {probing : RefProbing} : ∀ {chain : Siblings HeapNode} {ser ser' : Serialize}
    {met : List HeapNode}, Recorded ser met → (∀ node ∈ chain.labels, node.data.Defined) →
      serializePlist probing chain ser = .ok ser' → ∃ new, Walks chain ser ser' met new
  | .nil, ser, ser', met, recorded, _, run => by
      cases run
      exact ⟨[], by rwa [reached, List.append_nil], by simp, by simp, by simp [reached]⟩
  | .cons node children next, ser, ser', met, recorded, defined, run => by
      simp only [Siblings.labels, List.mem_cons, List.mem_append] at defined
      have here := defined node (.inl rfl)
      have later := fun other inside => defined other (.inr (.inr inside))
      rw [serializePlist] at run
      obtain ⟨val, found, run⟩ := bind_eq_ok.mp run
      obtain ⟨mid, inner, outer⟩ := bind_eq_ok.mp run
      cases val with
      | some i =>
        -- the node and all below it are left out
        cases inner
        obtain ⟨new, rest⟩ := walk_spec (recorded.skip here found) later outer
        have reaches : reached met (.cons node children next) =
            node :: reached (met ++ [node]) next := by
          rw [reached, if_pos (recorded.known_of_lookup here found)]
          rfl
        refine ⟨new, ?_, rest.objects, ?_, ?_⟩
        · rw [reaches, ← List.singleton_append, ← List.append_assoc]
          exact rest.recorded
        · rw [reaches]
          exact fun object member =>
            List.Subset.trans (rest.inside object member) (List.subset_cons_self _ _)
        · intro other member
          rw [reaches, List.mem_cons] at member
          rcases member with rfl | behind
          · exact .inl List.mem_cons_self
          · exact (rest.parents other behind).imp_left (List.mem_cons_of_mem _)
      | none =>
        obtain ⟨below, under⟩ := walk_spec (recorded.add here found children)
          (fun other inside => defined other (.inr (.inl inside))) inner
        obtain ⟨new, rest⟩ := walk_spec under.recorded later outer
        have reaches : reached met (.cons node children next) =
            node :: (reached (met ++ [node]) children ++
              reached (met ++ [node] ++ reached (met ++ [node]) children) next) := by
          rw [reached, if_neg (recorded.not_known_of_lookup here found), List.append_assoc]
          rfl
        refine ⟨(node, children) :: (below ++ new), ?_, ?_, ?_, ?_⟩
        · have all := rest.recorded
          rw [reaches]
          simpa only [List.append_assoc, List.cons_append, List.nil_append] using all
        · rw [rest.objects, under.objects]
          simp [Serialize.add]
        · intro object member
          rw [reaches]
          refine List.Subset.trans ?_ (List.subset_cons_self _ _)
          rcases List.mem_cons.mp member with rfl | member
          · exact List.Subset.trans tops_subset_reached (List.subset_append_left _ _)
          · rcases List.mem_append.mp member with early | late
            · exact List.Subset.trans (under.inside object early) (List.subset_append_left _ _)
            · exact List.Subset.trans (rest.inside object late) (List.subset_append_right _ _)
        · intro other member
          rw [reaches, List.mem_cons, List.mem_append] at member
          rcases member with rfl | inChildren | behind
          · exact .inl List.mem_cons_self
          · rcases under.parents other inChildren with isTop | ⟨object, member, isChild⟩
            · exact .inr ⟨_, List.mem_cons_self, isTop⟩
            · exact .inr ⟨object, by simp [member], isChild⟩
          · rcases rest.parents other behind with isTop | ⟨object, member, isChild⟩
            · exact .inl (List.mem_cons_of_mem _ isTop)
            · exact .inr ⟨object, by simp [member], isChild⟩

/-- **A walk ends when each node it comes to has the bytes of the numbered ones of its
hash.** -/
theorem walk_ends (probing : RefProbing) : ∀ {chain : Siblings HeapNode} {ser : Serialize}
    {met : List HeapNode}, Recorded ser met → (∀ node ∈ chain.labels, node.data.Defined) →
      (∀ key ∈ entered [] (met ++ reached met chain), ∀ node ∈ reached met chain,
        plistDataHash key = plistDataHash node → key.Fits node) →
      Ends (serializePlist probing chain ser)
  | .nil, ser, _, _, _, _ => ⟨ser, rfl⟩
  | .cons node children next, ser, met, recorded, defined, fits => by
      simp only [Siblings.labels, List.mem_cons, List.mem_append] at defined
      have here := defined node (.inl rfl)
      have later := fun other inside => defined other (.inr (.inr inside))
      obtain ⟨val, found⟩ : Ends (ser.lookup probing node) := by
        refine recorded.lookup_ends here fun key isKey => ?_
        refine fits key ?_ node (by simp [reached])
        rw [entered_append]
        exact List.mem_append_left _ isKey
      rw [serializePlist, found, ok_bind]
      cases val with
      | some i =>
        have reaches : reached met (.cons node children next) =
            node :: reached (met ++ [node]) next := by
          rw [reached, if_pos (recorded.known_of_lookup here found)]
          rfl
        rw [reaches] at fits
        refine walk_ends probing (recorded.skip here found) later fun key isKey other member => ?_
        rw [List.append_assoc, List.singleton_append] at isKey
        exact fits key isKey other (List.mem_cons_of_mem _ member)
      | none =>
        have reaches : reached met (.cons node children next) =
            node :: (reached (met ++ [node]) children ++
              reached (met ++ [node] ++ reached (met ++ [node]) children) next) := by
          rw [reached, if_neg (recorded.not_known_of_lookup here found), List.append_assoc]
          rfl
        rw [reaches] at fits
        have below := fun other inside => defined other (.inr (.inl inside))
        have added := recorded.add here found children
        obtain ⟨mid, inner⟩ : Ends (serializePlist probing children (ser.add node children)) := by
          refine walk_ends probing added below fun key isKey other member => ?_
          refine fits key ?_ other (by simp [member])
          rw [← List.singleton_append, ← List.append_assoc, ← List.append_assoc, entered_append]
          exact List.mem_append_left _ isKey
        obtain ⟨new, under⟩ := walk_spec added below inner
        simp only [inner, ok_bind]
        refine walk_ends probing under.recorded later fun key isKey other member => ?_
        refine fits key ?_ other (List.mem_cons_of_mem _ (List.mem_append_right _ member))
        simpa only [List.append_assoc, List.cons_append, List.nil_append] using isKey

/-! ## The walk over a tree -/

variable {plist : HeapNode} {children : Siblings HeapNode} {probing : RefProbing}

theorem reached_rooted (plist : HeapNode) (children : Siblings HeapNode) :
    reached [] (rooted plist children) = plist :: reached [plist] children := by
  have fresh : ¬ Known [] plist := by simp [Known]
  rw [reached, if_neg fresh]
  simp [reached]

theorem serializePlist_rooted (probing : RefProbing) (plist : HeapNode)
    (children : Siblings HeapNode) :
    serializePlist probing (rooted plist children) {} =
      serializePlist probing children (Serialize.add {} plist children) := by
  have absent : Serialize.lookup probing {} plist = .ok none :=
    (HashTable.lookup_eq_none probing).mpr (by simp)
  rw [serializePlist, absent, ok_bind]
  cases serializePlist probing children (Serialize.add {} plist children) <;> rfl

/-- What the walk over a tree leaves behind. -/
theorem tree_walks (defined : ∀ node ∈ (rooted plist children).labels, node.data.Defined)
    {ser : Serialize} (run : serializePlist probing (rooted plist children) {} = .ok ser) :
    Recorded ser (reached [] (rooted plist children)) ∧
      (∀ object ∈ ser.objects, object.2.tops ⊆ reached [plist] children) ∧
      ∀ node ∈ reached [plist] children, ∃ object ∈ ser.objects, node ∈ object.2.tops := by
  rw [serializePlist_rooted] at run
  simp only [Siblings.labels, List.append_nil, List.mem_cons] at defined
  obtain ⟨new, walks⟩ := walk_spec (.root (defined plist (.inl rfl)) children)
    (fun node member => defined node (.inr member)) run
  have objects : ser.objects = (plist, children) :: new := walks.objects
  refine ⟨?_, ?_, ?_⟩
  · rw [reached_rooted]
    exact walks.recorded
  · intro object member
    rw [objects] at member
    rcases List.mem_cons.mp member with rfl | later
    · exact tops_subset_reached
    · exact walks.inside object later
  · intro node member
    rw [objects]
    rcases walks.parents node member with isTop | ⟨object, later, isChild⟩
    · exact ⟨_, List.mem_cons_self, isTop⟩
    · exact ⟨object, List.mem_cons_of_mem _ later, isChild⟩

/-- No node below the root that the walk comes to has fewer bytes than a numbered one of its
hash. -/
def NoneShorter (plist : HeapNode) (children : Siblings HeapNode) : Prop :=
  ∀ key ∈ entered [] (reached [] (rooted plist children)), ∀ node ∈ reached [plist] children,
    plistDataHash key = plistDataHash node → key.Fits node

/-- The walk over such a tree ends, whatever the table probes first. -/
theorem NoneShorter.walk_ends (none : NoneShorter plist children)
    (defined : ∀ node ∈ (rooted plist children).labels, node.data.Defined)
    (probing : RefProbing) : Ends (serializePlist probing (rooted plist children) {}) := by
  rw [serializePlist_rooted]
  rw [NoneShorter, reached_rooted] at none
  simp only [Siblings.labels, List.append_nil, List.mem_cons] at defined
  exact Plist.walk_ends probing (.root (defined plist (.inl rfl)) children)
    (fun node member => defined node (.inr member)) none

/-- After it the children of what is numbered are found. -/
theorem NoneShorter.lookups_end (none : NoneShorter plist children)
    (defined : ∀ node ∈ (rooted plist children).labels, node.data.Defined) {ser : Serialize}
    (run : serializePlist probing (rooted plist children) {} = .ok ser) :
    ∀ object ∈ ser.objects, ∀ child ∈ object.2.tops, Ends (ser.lookup probing child) := by
  obtain ⟨recorded, inside, -⟩ := tree_walks defined run
  intro object member child isChild
  have reaches := inside object member isChild
  have isDefined := recorded.defined child (by simp [reached_rooted, reaches])
  exact recorded.lookup_ends isDefined fun key isKey => none key isKey child reaches

/-- Every child of a numbered node has the number of a node equal to it; containers can be
written, and the numbers read back. -/
structure Complete (probing : RefProbing) (ser : Serialize) : Prop where
  children : ∀ object ∈ ser.objects, ∀ child ∈ object.2.tops, ∃ i stored below,
    ser.lookup probing child = .ok (some i) ∧ i < ser.objects.length ∧
      ser.objects[i]? = some (stored, below) ∧ plistDataCompare stored child = .ok true
  writes : ∀ object ∈ ser.objects,
    Ends (writeArray probing ser (getNeededBytes ser.objects.length) object.2) ∧
      Ends (writeDict probing ser (getNeededBytes ser.objects.length) object.2)
  width : ser.objects.length < 2 ^ 32 → getNeededBytes ser.objects.length ∈ [1, 2, 3, 4]
  read : ser.objects.length < 2 ^ 64 → ∀ i < ser.objects.length, ∀ rest,
    uintToHost (byteConvert (le (getNeededBytes ser.objects.length) i) ++ rest)
      (getNeededBytes ser.objects.length) = .ok i

/-- A number below the count comes back from its bytes. -/
theorem index_read {count i : Nat} (small : count < 2 ^ 64) (below : i < count)
    (rest : List UInt8) :
    uintToHost (byteConvert (le (getNeededBytes count) i) ++ rest) (getNeededBytes count) =
      .ok i := by
  have width := hostWidth_of_mem (getNeededBytes_mem count)
  have fits : i < 256 ^ getNeededBytes count := below.trans (lt_getNeededBytes small)
  rw [uintToHost_eq_ok, width, show byteConvert (le (getNeededBytes count) i) =
    be (getNeededBytes count) i from rfl]
  refine ⟨by simp, ?_⟩
  rw [List.take_left' (length_be _ _), ofBE_be fits]

/-- **After the walk every child has a number, when the lookups end.** -/
theorem complete_of_run (defined : ∀ node ∈ (rooted plist children).labels, node.data.Defined)
    {ser : Serialize} (run : serializePlist probing (rooted plist children) {} = .ok ser)
    (ends : ∀ object ∈ ser.objects, ∀ child ∈ object.2.tops, Ends (ser.lookup probing child)) :
    Complete probing ser := by
  have numbering := numbering_of_run defined run
  have numbers : ∀ object ∈ ser.objects, ∀ child ∈ object.2.tops,
      ser.lookup probing child = .ok (some (ser.index probing child)) ∧ ∃ stored below,
        ser.objects[ser.index probing child]? = some (stored, below) ∧
          Serialize.StandsFor stored child := fun object member child isChild =>
    numbering.index_found (ends object member child isChild)
      (numbering.children object member child isChild)
  refine ⟨fun object member child isChild => ?_, fun object member => ?_, fun few => ?_,
    fun few i below rest => ?_⟩
  · obtain ⟨known, stored, below, found, stands⟩ := numbers object member child isChild
    exact ⟨_, stored, below, known, (List.getElem?_eq_some_iff.mp found).1, found, stands.2⟩
  · have known := fun child isChild => (numbers object member child isChild).1
    exact ⟨⟨_, writeArray_eq known⟩, ⟨_, writeDict_eq known⟩⟩
  · unfold getNeededBytes
    split_ifs <;> simp
  · exact index_read few below rest

/-- A tree of nodes of defined types, each at an address of its own; dictionaries have an
even number of children. -/
structure IsTree (chain : Siblings HeapNode) : Prop where
  defined : ∀ node ∈ chain.labels, node.data.Defined
  distinct : (chain.labels.map HeapNode.address).Nodup
  even : ∀ node below, (node, below) ∈ chain.subtrees → node.data.type = .dict →
    below.length % 2 = 0

/-- **Every child has a number after the walk, whatever the table probes first, exactly when
no node below the root has fewer bytes than a numbered one of its hash.** -/
theorem covered_iff (tree : IsTree (rooted plist children)) :
    (∀ probing : RefProbing, ∃ ser,
      serializePlist probing (rooted plist children) {} = .ok ser ∧ Complete probing ser) ↔
      NoneShorter plist children := by
  constructor
  · intro covered key isKey node below sameHash
    obtain ⟨ser, run, complete⟩ := covered (.first Nat plistDataHash key)
    obtain ⟨recorded, -, parents⟩ := tree_walks tree.defined run
    obtain ⟨object, member, isChild⟩ := parents node below
    obtain ⟨i, -, -, found, -⟩ := complete.children object member node isChild
    have defined := recorded.defined node (by simp [reached_rooted, below])
    exact recorded.fits_of_first defined isKey sameHash ⟨_, found⟩
  · intro none probing
    obtain ⟨ser, run⟩ := none.walk_ends tree.defined probing
    exact ⟨ser, run, complete_of_run tree.defined run (none.lookups_end tree.defined run)⟩

instance (a b : HeapNode) : Decidable (a.Fits b) :=
  inferInstanceAs (Decidable (_ → _ → _))

instance (plist : HeapNode) (children : Siblings HeapNode) :
    Decidable (NoneShorter plist children) :=
  inferInstanceAs (Decidable (∀ key ∈ entered [] _, ∀ node ∈ _, _ → _))

/-- A list of three leaves: its node, and its children. -/
def leafList : HeapNode := ⟨0x1000, plistNewArray⟩

def threeLeaves (a b c : PlistData) : Siblings HeapNode :=
  .cons ⟨0x1010, a⟩ .nil (.cons ⟨0x1020, b⟩ .nil (.cons ⟨0x1030, c⟩ .nil .nil))

theorem threeLeaves_isTree {a b c : PlistData} (first : a.Defined) (second : b.Defined)
    (third : c.Defined) : IsTree (rooted leafList (threeLeaves a b c)) := by
  have distinct : ([0x1000, 0x1010, 0x1020, 0x1030] : List UInt64).Nodup := by decide
  refine ⟨?_, distinct, ?_⟩
  · intro node member
    simp only [leafList, threeLeaves, Siblings.labels, List.nil_append, List.append_nil,
      List.mem_cons, List.not_mem_nil, or_false] at member
    rcases member with rfl | rfl | rfl | rfl
    · trivial
    · exact first
    · exact second
    · exact third
  · intro node below member isDict
    simp only [leafList, threeLeaves, Siblings.subtrees, List.nil_append, List.append_nil,
      List.mem_cons, List.not_mem_nil, or_false, Prod.mk.injEq] at member
    rcases member with ⟨rfl, rfl⟩ | ⟨rfl, rfl⟩ | ⟨rfl, rfl⟩ | ⟨rfl, rfl⟩
    · cases isDict
    all_goals rfl

/-- A blob that stands for the one behind it, and a date. -/
theorem longer_blob_covered :
    ∃ ser, serializePlist (.insertion _ _ _) (rooted leafList
      (threeLeaves (plistNewData [1]) (plistNewData [1, 2]) ⟨.timeval 5 0, 16, .date⟩)) {} =
        .ok ser ∧ Complete (.insertion _ _ _) ser := by
  have tree := threeLeaves_isTree (a := plistNewData [1]) (b := plistNewData [1, 2])
    (c := ⟨.timeval 5 0, 16, .date⟩) ⟨_, rfl, rfl⟩ ⟨_, rfl, rfl⟩ ⟨5, 0, rfl, rfl⟩
  exact (covered_iff tree).mpr (by decide) _

/-- A blob and then its first byte: the second is read past its end. -/
theorem shorter_blob_overrun :
    IsTree (rooted leafList
        (threeLeaves (plistNewData [1, 2]) (plistNewData [1]) (plistNewUint 0))) ∧
      ¬ ∃ ser, serializePlist (.insertion _ _ _) (rooted leafList
          (threeLeaves (plistNewData [1, 2]) (plistNewData [1]) (plistNewUint 0))) {} = .ok ser ∧
        Complete (.insertion _ _ _) ser := by
  have faults : serializePlist (.insertion _ _ _) (rooted leafList
      (threeLeaves (plistNewData [1, 2]) (plistNewData [1]) (plistNewUint 0))) {} =
        .error .outOfBounds := by rfl
  refine ⟨threeLeaves_isTree ⟨_, rfl, rfl⟩ ⟨_, rfl, rfl⟩ ⟨_, rfl⟩, ?_⟩
  rintro ⟨ser, run, -⟩
  cases faults.symm.trans run

end Irestore.Plist
