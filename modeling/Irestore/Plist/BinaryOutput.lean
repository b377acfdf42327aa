/-
# Plist.BinaryOutput — what `plist_to_bin` writes is a well-formed document

* `Serialized` — a property list and the numbering of its nodes.
* `plistToBin_eq` — the file of a property list.
* `wellFormed` — it is a well-formed document, of the objects of the numbered nodes.
* `history_eq` — the references of that document are the children of these nodes.
-/
import Irestore.Plist.BinaryEncode
import Mathlib.Algebra.Group.Action.Defs
import Mathlib.Algebra.Order.BigOperators.Group.List

namespace Irestore.Plist

open Irestore.Library Irestore.Library.Bytes Irestore.Library.CMemory

set_option autoImplicit false

/-- A property list and the numbers its nodes are given; the lookups of its children end. -/
structure Serialized (platform : Platform) (probing : RefProbing) (plist : HeapNode)
    (children : Siblings HeapNode) (ser : Serialize) : Prop where
  documented : platform.Documented
  isPlist : IsPlist (rooted plist children)
  numbering : Numbering plist children ser
  ends : ∀ object ∈ ser.objects, ∀ child ∈ object.2.tops, Ends (ser.lookup probing child)

/-- The width of the references. -/
def Serialize.width (ser : Serialize) : Nat := getNeededBytes ser.objects.length

/-- The objects in the file. -/
def Serialize.described (platform : Platform) (probing : RefProbing) (ser : Serialize) :
    List Object :=
  ser.objects.map (fileObject platform (ser.index probing) ser.width)

def Serialize.file (platform : Platform) (probing : RefProbing) (ser : Serialize) : List UInt8 :=
  binaryFile ser.width (ser.objects.map (objectBytes platform (ser.index probing) ser.width))

variable {platform : Platform} {probing : RefProbing} {plist : HeapNode}
  {children : Siblings HeapNode} {ser : Serialize}

/-! ## References -/

theorem Object.mem_members_of_refValues {w value : Nat} {object : Object}
    (member : value ∈ object.refValues w) : ∃ key, (key, value) ∈ object.members w := by
  cases object with
  | array count refs =>
    obtain ⟨j, inside, rfl⟩ := List.mem_map.mp member
    exact ⟨false, List.mem_map.mpr ⟨j, inside, rfl⟩⟩
  | dict count refs =>
    obtain ⟨j, inside, rfl⟩ := List.mem_map.mp member
    rw [List.mem_range] at inside
    by_cases isKey : j < count
    · exact ⟨true, List.mem_flatMap.mpr ⟨j, List.mem_range.mpr isKey, by simp⟩⟩
    · refine ⟨false, List.mem_flatMap.mpr ⟨j - count, List.mem_range.mpr (by omega), ?_⟩⟩
      rw [Nat.sub_add_cancel (by omega)]
      simp
  | _ => cases member

/-- When references to entries with references go forward there is no cycle. -/
theorem ObjectTable.acyclic_of_inner {doc : ObjectTable}
    (later : ∀ i t u, doc.Refers i t → doc.Refers t u → i < t) : doc.Acyclic := by
  have below {i t : Nat} (path : Relation.TransGen doc.Refers i t) :
      ∀ u, doc.Refers t u → i < t := by
    induction path with
    | single edge => exact fun u onward => later _ _ u edge onward
    | tail _ edge ih =>
      exact fun u onward => Nat.lt_trans (ih _ edge) (later _ _ u edge onward)
  intro i path
  obtain ⟨t, edge, -⟩ := Relation.TransGen.head'_iff.mp path
  exact Nat.lt_irrefl i (below path t edge)

/-- The references of the entries in turn. -/
theorem ObjectTable.Regular.history_eq {doc : ObjectTable} (regular : doc.Regular) :
    ∀ n : Nat, doc.history n = (List.range n).flatMap doc.references
  | 0 => rfl
  | n + 1 => by
      rw [ObjectTable.history, regular.followed_eq, regular.history_eq n, List.range_succ,
        List.flatMap_append, List.flatMap_singleton]

/-- The children of the numbered nodes, each with the number of its parent. -/
def Serialize.uses (ser : Serialize) : List (Nat × HeapNode) :=
  (List.range ser.objects.length).flatMap fun i =>
    ((ser.objects[i]?.map fun object => object.2.tops).getD []).map fun child => (i, child)

/-- The reference to a child. -/
def Serialize.referenceOf (probing : RefProbing) (ser : Serialize) (use : Nat × HeapNode) :
    Reference := ⟨use.1, isKey use.2, ser.index probing use.2⟩

theorem Serialize.mem_uses {i : Nat} {child : HeapNode} :
    (i, child) ∈ ser.uses ↔ ∃ object, ser.objects[i]? = some object ∧ child ∈ object.2.tops := by
  rw [Serialize.uses, List.mem_flatMap]
  constructor
  · rintro ⟨j, inside, member⟩
    obtain ⟨top, isTop, same⟩ := List.mem_map.mp member
    cases same
    cases found : ser.objects[i]? with
    | none =>
      rw [found] at isTop
      cases isTop
    | some object =>
      rw [found] at isTop
      exact ⟨object, rfl, isTop⟩
  · rintro ⟨object, found, isChild⟩
    refine ⟨i, List.mem_range.mpr (List.getElem?_eq_some_iff.mp found).1, ?_⟩
    rw [found]
    exact List.mem_map.mpr ⟨child, isChild, rfl⟩

namespace Serialized

/-! ## Numbered nodes -/

theorem holds_of_mem (serialized : Serialized platform probing plist children ser)
    {object : HeapNode × Siblings HeapNode} (member : object ∈ ser.objects) :
    ∃ item, object.1.Holds item ∧ Shaped object.2 item ∧ ValidText item.text := by
  have inTree := serialized.numbering.mem_labels member
  obtain ⟨item, holds⟩ := serialized.isPlist.held object.1 inTree
  exact ⟨item, holds,
    serialized.isPlist.shaped object.1 object.2 (serialized.numbering.walked.subset member) item holds,
    serialized.isPlist.valid object.1 inTree item holds⟩

/-- A child of a numbered node has the number of a node that stands for it. -/
theorem child_found (serialized : Serialized platform probing plist children ser)
    {object : HeapNode × Siblings HeapNode} (member : object ∈ ser.objects) {child : HeapNode}
    (isChild : child ∈ object.2.tops) :
    ser.lookup probing child = .ok (some (ser.index probing child)) ∧
      ∃ stored below, ser.objects[ser.index probing child]? = some (stored, below) ∧
        Serialize.StandsFor stored child :=
  serialized.numbering.index_found (serialized.ends object member child isChild)
    (serialized.numbering.children object member child isChild)

theorem index_lt (serialized : Serialized platform probing plist children ser)
    {object : HeapNode × Siblings HeapNode} (member : object ∈ ser.objects) {child : HeapNode}
    (isChild : child ∈ object.2.tops) : ser.index probing child < ser.objects.length := by
  obtain ⟨-, stored, below, found, -⟩ := serialized.child_found member isChild
  exact (List.getElem?_eq_some_iff.mp found).1

/-- **The file of a property list.** -/
theorem plistToBin_eq (serialized : Serialized platform probing plist children ser)
    (run : serializePlist probing (rooted plist children) {} = .ok ser) :
    plistToBin platform probing plist children = .ok (ser.file platform probing) := by
  have objects : ser.objects.mapM (writeObject platform probing ser ser.width) =
      .ok (ser.objects.map (objectBytes platform (ser.index probing) ser.width)) := by
    refine mapM_eq_map fun object member => ?_
    obtain ⟨item, holds, shaped, valid⟩ := serialized.holds_of_mem member
    exact writeObject_eq serialized.documented holds shaped valid
      fun child isChild => (serialized.child_found member isChild).1
  rw [plistToBin, run, ok_bind]
  show (ser.objects.mapM (writeObject platform probing ser ser.width) >>= _) = _
  rw [objects, ok_bind]
  rfl

/-- The node that stands for a key is a key. -/
theorem isKey_of_standsFor {stored node : HeapNode} {i j : Item} (left : stored.Holds i)
    (right : node.Holds j) (stands : Serialize.StandsFor stored node) :
    isKey stored = isKey node := by
  rw [isKey_of_holds left, isKey_of_holds right,
    ← left.data, ← right.data, (stands.begins left right).type]

/-- A container with a number, and anything with children, has it for itself. -/
theorem eq_of_container (serialized : Serialized platform probing plist children ser)
    {object inner : HeapNode × Siblings HeapNode} (member : object ∈ ser.objects)
    (found : inner ∈ ser.objects) {child : HeapNode} (isChild : child ∈ object.2.tops)
    (stands : Serialize.StandsFor inner.1 child) {item : Item} (holds : inner.1.Holds item)
    (container : item.isContainer = true) : inner.1 = child := by
  have inTree := serialized.numbering.child_mem_labels member isChild
  obtain ⟨item', holds'⟩ := serialized.isPlist.held child inTree
  refine serialized.isPlist.toPlaced.eq_of_standsFor (serialized.numbering.mem_labels found) inTree
    holds' ?_ stands
  rcases item_of_standsFor holds holds' stands with rfl | ⟨u, v, rfl, rfl, -⟩
  · exact container
  · cases container

theorem container_of_children {below : Siblings HeapNode} {item : Item} (shaped : Shaped below item)
    {child : HeapNode} (isChild : child ∈ below.tops) : item.isContainer = true := by
  cases item with
  | array | dict => rfl
  | _ =>
    cases shaped
    cases isChild

/-! ## The document -/

section Document

theorem length_file (platform : Platform) (probing : RefProbing) (ser : Serialize) :
    2 * ser.objects.length + 32 ≤ (ser.file platform probing).length + ser.objects.length := by
  have length := length_binaryFile ser.width
    (ser.objects.map (objectBytes platform (ser.index probing) ser.width))
  have positive := refWidth_pos (getNeededBytes_mem (fileBody
    (ser.objects.map (objectBytes platform (ser.index probing) ser.width))).length)
  rw [List.length_map] at length
  have each := Nat.le_mul_of_pos_right ser.objects.length positive
  rw [Serialize.file, length]
  omega

theorem width_mem (ser : Serialize) : ser.width ∈ [1, 2, 3, 4, 8] := getNeededBytes_mem _

theorem width_lt (ser : Serialize) : ser.width < 256 := by
  have known := width_mem ser
  simp only [List.mem_cons, List.not_mem_nil, or_false] at known
  omega

theorem trailer_file (small : (ser.file platform probing).length < 2 ^ 32) :
    trailerOf (ser.file platform probing) =
      { offsetSize := getNeededBytes (fileBody
          (ser.objects.map (objectBytes platform (ser.index probing) ser.width))).length
        dictParamSize := ser.width
        numObjects := ser.objects.length
        rootObject := 0
        offsetTableIndex := (fileBody
          (ser.objects.map (objectBytes platform (ser.index probing) ser.width))).length } := by
  have trailer := trailerOf_binaryFile (width_lt ser) (Nat.lt_trans small (by decide))
  rwa [List.length_map] at trailer

variable (serialized : Serialized platform probing plist children ser)
  (small : (ser.file platform probing).length < 2 ^ 32)
include serialized small

theorem members_eq {object : HeapNode × Siblings HeapNode} (member : object ∈ ser.objects) :
    (fileObject platform (ser.index probing) ser.width object).members ser.width =
      object.2.tops.map fun child => (isKey child, ser.index probing child) := by
  obtain ⟨item, holds, shaped, -⟩ := serialized.holds_of_mem member
  refine members_fileObject (width_mem ser) holds shaped fun child isChild => ?_
  have short := length_file platform probing ser
  exact Nat.lt_of_lt_of_le (serialized.index_lt member isChild)
    (Nat.le_of_lt (lt_getNeededBytes (by omega)))

/-- A reference names the number of a child. -/
theorem refers_inv {i t : Nat}
    (refers : (tableFor platform (ser.file platform probing)
      (ser.described platform probing)).Refers i t) :
    ∃ object child, ser.objects[i]? = some object ∧ child ∈ object.2.tops ∧
      t = ser.index probing child := by
  obtain ⟨r, member, rfl⟩ := refers
  obtain ⟨-, described, -, found, -, isReference⟩ := ObjectTable.container_of_mem member
  have atIndex : (ser.described platform probing)[i]? = some described := found
  rw [Serialize.described, List.getElem?_map, Option.map_eq_some_iff] at atIndex
  obtain ⟨object, found', rfl⟩ := atIndex
  have inside := List.mem_of_getElem? found'
  obtain ⟨value, isValue, target⟩ := Object.target_of_mem isReference
  obtain ⟨key, named⟩ := Object.mem_members_of_refValues isValue
  have refSize : (tableFor platform (ser.file platform probing)
      (ser.described platform probing)).refSize = ser.width := by
    rw [tableFor, trailer_file small]
  rw [refSize, serialized.members_eq small inside] at named
  obtain ⟨child, isChild, same⟩ := List.mem_map.mp named
  cases same
  have short := length_file platform probing ser
  have below : ser.index probing child < ser.objects.length := serialized.index_lt inside isChild
  exact ⟨object, child, found', isChild, by rw [target, Nat.mod_eq_of_lt (by omega)]⟩

/-- An entry that has references itself comes after those that refer to it. -/
theorem later_of_refers {i t u : Nat}
    (refers : (tableFor platform (ser.file platform probing)
      (ser.described platform probing)).Refers i t)
    (onward : (tableFor platform (ser.file platform probing)
      (ser.described platform probing)).Refers t u) : i < t := by
  obtain ⟨object, child, found, isChild, rfl⟩ := serialized.refers_inv small refers
  obtain ⟨inner, grandchild, found', isInner, -⟩ := serialized.refers_inv small onward
  have member := List.mem_of_getElem? found
  obtain ⟨-, stored, below, atIndex, stands⟩ := serialized.child_found member isChild
  cases found'.symm.trans atIndex
  have member' := List.mem_of_getElem? atIndex
  obtain ⟨item, holds, shaped, -⟩ := serialized.holds_of_mem member'
  have same := serialized.eq_of_container member member' isChild stands holds
    (container_of_children shaped isInner)
  refine serialized.numbering.parent_lt serialized.isPlist.toPlaced found atIndex ?_
  rw [same]
  exact isChild

theorem described_readable :
    Readable platform (ser.file platform probing) (ser.described platform probing) where
  describes := by
    refine describes_binaryFile (width_lt ser) (Nat.lt_trans small (by decide))
      (by rw [Serialize.described, List.length_map, List.length_map]) ?_
    intro i object bytes found isBytes rest
    rw [Serialize.described, List.getElem?_map, Option.map_eq_some_iff] at found
    obtain ⟨numbered, found, rfl⟩ := found
    rw [List.getElem?_map, found, Option.map_some, Option.some.injEq] at isBytes
    subst isBytes
    have member := List.mem_of_getElem? found
    obtain ⟨item, holds, shaped, -⟩ := serialized.holds_of_mem member
    refine objectBytes_written (refWidth_pos (width_mem ser)) holds shaped ?_ rest
    have inFile := length_binaryFile ser.width
      (ser.objects.map (objectBytes platform (ser.index probing) ser.width))
    have piece : (objectBytes platform (ser.index probing) ser.width numbered).length ≤
        (fileBody (ser.objects.map
          (objectBytes platform (ser.index probing) ser.width))).length := by
      rw [fileBody, List.length_append]
      have sub := (List.sublist_flatten_of_mem (List.mem_map_of_mem
        (f := objectBytes platform (ser.index probing) ser.width) member)).length_le
      omega
    rw [Serialize.file] at small
    show (objectBytes platform (ser.index probing) ser.width numbered).length < 2 ^ 64
    omega
  width := by
    intro object member none
    rw [trailer_file small]
    exact refWidth_pos (width_mem ser)
  inRange := by
    intro object member value isValue
    rw [trailer_file small] at isValue
    obtain ⟨numbered, inside, rfl⟩ := List.mem_map.mp member
    obtain ⟨key, named⟩ := Object.mem_members_of_refValues isValue
    rw [serialized.members_eq small inside] at named
    obtain ⟨child, isChild, same⟩ := List.mem_map.mp named
    cases same
    rw [Serialize.described, List.length_map]
    exact serialized.index_lt inside isChild
  root := by
    rw [trailer_file small, Serialize.described, List.length_map]
    exact (List.getElem?_eq_some_iff.mp serialized.numbering.root).1
  acyclic := ObjectTable.acyclic_of_inner fun i t u => serialized.later_of_refers small

/-- **The file is a well-formed document.** -/
theorem wellFormed :
    WellFormed platform (ser.file platform probing) (ser.described platform probing) where
  toReadable := serialized.described_readable small
  long := by
    rw [Serialize.file, length_binaryFile, fileBody, List.length_append]
    have header : bplistHeader.length = 8 := rfl
    omega
  header := by
    rw [Serialize.file, binaryFile_eq, fileBody, List.append_assoc]
    exact List.take_left' rfl
  offsetWidth := by
    rw [trailer_file small]
    exact getNeededBytes_mem _
  refWidth := by
    rw [trailer_file small]
    exact width_mem ser
  basic := by
    intro object member
    obtain ⟨numbered, -, rfl⟩ := List.mem_map.mp member
    exact isBasic_fileObject numbered
  units := by
    intro block member
    obtain ⟨numbered, inside, isUnicode⟩ := List.mem_map.mp member
    obtain ⟨item, holds, -, valid⟩ := serialized.holds_of_mem inside
    exact units_fileObject serialized.documented holds valid isUnicode
  keys := by
    intro object member t named
    obtain ⟨numbered, inside, rfl⟩ := List.mem_map.mp member
    rw [trailer_file small, serialized.members_eq small inside] at named
    obtain ⟨child, isChild, same⟩ := List.mem_map.mp named
    obtain ⟨isKey', rfl⟩ := Prod.mk.inj same
    obtain ⟨-, stored, below, found, stands⟩ := serialized.child_found inside isChild
    obtain ⟨item, holds, -⟩ := serialized.holds_of_mem (List.mem_of_getElem? found)
    obtain ⟨item', holds'⟩ := serialized.isPlist.held child
      (serialized.numbering.child_mem_labels inside isChild)
    rw [Serialize.described, List.getElem?_map, found, Option.map_some, Option.any_some]
    exact isString_fileObject holds ((isKey_of_standsFor holds holds' stands).trans isKey')

/-! ## Its references -/

theorem regular : (tableFor platform (ser.file platform probing)
    (ser.described platform probing)).Regular :=
  (serialized.wellFormed small).regular small

/-- **The references followed are the children of the numbered nodes.** -/
theorem history_eq : (tableFor platform (ser.file platform probing)
    (ser.described platform probing)).history (ser.described platform probing).length =
      ser.uses.map (ser.referenceOf probing) := by
  have regular := serialized.regular small
  have length : (ser.described platform probing).length = ser.objects.length := by
    rw [Serialize.described, List.length_map]
  rw [regular.history_eq, length, Serialize.uses, List.map_flatMap]
  refine List.flatMap_congr fun i inside => ?_
  obtain ⟨object, found⟩ : ∃ object, ser.objects[i]? = some object :=
    ⟨_, List.getElem?_eq_getElem (List.mem_range.mp inside)⟩
  have atIndex : (tableFor platform (ser.file platform probing)
      (ser.described platform probing)).objects[i]? =
        some (fileObject platform (ser.index probing) ser.width object) := by
    show (ser.described platform probing)[i]? = _
    rw [Serialize.described, List.getElem?_map, found, Option.map_some]
  have refSize : (tableFor platform (ser.file platform probing)
      (ser.described platform probing)).refSize = ser.width := by
    rw [tableFor, trailer_file small]
  rw [regular.references_eq atIndex, refSize,
    serialized.members_eq small (List.mem_of_getElem? found), found, Option.map_some,
    Option.getD_some, List.map_map, List.map_map]
  rfl

end Document

/-- No node is a child twice. -/
theorem uses_nodup (serialized : Serialized platform probing plist children ser) :
    (ser.uses.map Prod.snd).Nodup := by
  have tops : ser.uses.map Prod.snd = ser.objects.flatMap fun object => object.2.tops := by
    rw [Serialize.uses, List.map_flatMap]
    refine flatMap_range fun i object found => ?_
    rw [found, Option.map_some, Option.getD_some, List.map_map]
    exact List.map_id _
  rw [tops]
  exact Siblings.children_nodup serialized.isPlist.toPlaced.labels_nodup serialized.numbering.walked

end Serialized

end Irestore.Plist
