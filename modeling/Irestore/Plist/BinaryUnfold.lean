/-
# Plist.BinaryUnfold — does `plist_from_bin` unfold the reference graph?

A well-formed property list is a graph of objects; its tree replaces every reference
by the subtree of the object it names.

* `WellFormed` — the documents, `ObjectTable.graph` — their graphs.
* `unfolding_exists` — every well-formed document has a tree.
* `unfolds_iff` — when the decoder returns that tree: the object a reference names is
  moved by the first reference and copied by the later ones without its children, and
  it is a key from the moment some dictionary has used it as one.
-/
import Irestore.Library.RefGraph
import Irestore.Plist.BinarySafety

namespace Irestore.Plist

open Irestore.Library Irestore.Library.Bytes Irestore.Library.CMemory

set_option autoImplicit false

/-! ## The graph of a document -/

/-- The text of a string object. -/
def Object.text (platform : Platform) : Object → List UInt8
  | .string block => block
  | .unicode block => (platform.utf16ToUtf8 (codeUnits block)).getD []
  | _ => []

def Object.isString : Object → Bool
  | .string _ | .unicode _ => true
  | _ => false

/-- The object is of a kind the accessors show: no real number and no date. -/
def Object.isBasic : Object → Bool
  | .real _ | .date _ => false
  | _ => true

/-- What an object stands for; the last case is for objects that are not basic. -/
def Object.item (platform : Platform) : Object → Item
  | .boolean b => .boolean b
  | .uint n => .uint n
  | .string block => .string (Object.text platform (.string block))
  | .unicode block => .string (Object.text platform (.unicode block))
  | .data bytes => .data bytes
  | .array .. => .array
  | .dict .. => .dict
  | .real bytes | .date bytes => .data bytes

/-- The objects a container names: whether as a key, and which. -/
def Object.members (w : Nat) : Object → List (Bool × Nat)
  | .array count refs => (List.range count).map fun j => (false, refAt refs w j)
  | .dict count refs => (List.range count).flatMap fun j =>
      [(true, refAt refs w j), (false, refAt refs w (j + count))]
  | _ => []

/-- A string used as a key. -/
def Item.asKey : Item → Item
  | .string text => .key text
  | item => item

/-- The first half of a dictionary's references are keys. -/
def markKey (key : Bool) (item : Item) : Item := if key then item.asKey else item

def ObjectTable.graph (doc : ObjectTable) : RefGraph Item Bool :=
  ⟨doc.objects.map fun object => (object.item doc.platform, object.members doc.refSize)⟩

/-- The tree of an entry, every reference replaced by the tree of the object it
names. -/
def ObjectTable.unfold (doc : ObjectTable) (i : Nat) : Option (Item × Siblings Item) :=
  doc.graph.unfold markKey doc.objects.length i

/-- A well-formed document: header and trailer, widths that exist, objects of the
seven kinds, texts in valid UTF-16, and strings as keys. -/
structure WellFormed (platform : Platform) (bin : List UInt8) (objects : List Object) : Prop
    extends Readable platform bin objects where
  long : 34 ≤ bin.length
  header : bin.take 8 = bplistHeader
  offsetWidth : (trailerOf bin).offsetSize ∈ [1, 2, 3, 4, 8]
  refWidth : (trailerOf bin).dictParamSize ∈ [1, 2, 3, 4, 8]
  basic : ∀ object ∈ objects, object.isBasic = true
  units : ∀ block, .unicode block ∈ objects → (platform.utf16ToUtf8 (codeUnits block)).isSome
  keys : ∀ object ∈ objects, ∀ t, (true, t) ∈ object.members (trailerOf bin).dictParamSize →
    objects[t]?.any Object.isString = true

/-- The decoder returns the tree of the document. -/
def Unfolds (platform : Platform) (bin : List UInt8) (objects : List Object) : Prop :=
  ∃ plist tree, plistFromBin platform bin = .ok (some plist) ∧
    (tableFor platform bin objects).unfold (trailerOf bin).rootObject = some tree ∧
    plist.tree = some tree

/-! ## When it does -/

namespace ObjectTable

variable (doc : ObjectTable)

/-- A reference followed after `before` shows its object: an object that has a
parent by then has no references of its own, and one that is no key here has not
become one, by then or, when it is moved and not copied, ever. -/
structure Shown (before : List Reference) (r : Reference) : Prop where
  whole : attached before r.target = true → doc.references r.target = []
  typed : r.key = false →
    retyped (if attached before r.target then before else doc.history doc.objects.length)
      r.target = false

/-- The entry and every entry below it: its text has no NUL, and its references
show their objects. -/
structure Sound (i : Nat) : Prop where
  texts : ∀ j, Relation.ReflTransGen doc.Refers i j → ∀ object, doc.objects[j]? = some object →
    0 ∉ object.text doc.platform
  shown : ∀ j, Relation.ReflTransGen doc.Refers i j → ∀ before r after,
    doc.references j = before ++ r :: after → doc.Shown (doc.history j ++ before) r

theorem sound_iff {i : Nat} {object : Object} (found : doc.objects[i]? = some object) :
    doc.Sound i ↔ 0 ∉ object.text doc.platform ∧ ∀ before r after,
      doc.references i = before ++ r :: after →
        doc.Shown (doc.history i ++ before) r ∧ doc.Sound r.target := by
  constructor
  · intro sound
    refine ⟨sound.texts i .refl object found, fun before r after split => ?_⟩
    have edge : doc.Refers i r.target := ⟨r, by rw [split]; simp, rfl⟩
    exact ⟨sound.shown i .refl before r after split,
      fun j path => sound.texts j (.head edge path), fun j path => sound.shown j (.head edge path)⟩
  · rintro ⟨text, below⟩
    have step {t : Nat} (edge : doc.Refers i t) : doc.Sound t := by
      obtain ⟨r, member, rfl⟩ := edge
      obtain ⟨before, after, split⟩ := List.append_of_mem member
      exact (below before r after split).2
    refine ⟨fun j path object' found' => ?_, fun j path before r after split => ?_⟩
    · rcases path.cases_head with rfl | ⟨t, edge, path⟩
      · cases found.symm.trans found'
        exact text
      · exact (step edge).texts j path object' found'
    · rcases path.cases_head with rfl | ⟨t, edge, path⟩
      · exact (below before r after split).1
      · exact (step edge).shown j path before r after split

/-! ## Documents whose keys are strings -/

/-- A table that can be linked, of basic objects, with strings as keys; an index into
it fits 32 bits. -/
structure Regular : Prop where
  linkable : doc.Linkable
  short : doc.objects.length ≤ 2 ^ 32
  basic : ∀ object ∈ doc.objects, object.isBasic = true
  keys : ∀ object ∈ doc.objects, ∀ t, (true, t) ∈ object.members doc.refSize →
    doc.objects[t]?.any Object.isString = true

variable {doc}

/-- The references of an entry are what its object names. -/
theorem Regular.references_eq (regular : doc.Regular) {i : Nat} {object : Object}
    (found : doc.objects[i]? = some object) :
    doc.references i = (object.members doc.refSize).map fun member => ⟨i, member.1, member.2⟩ := by
  have facts := (regular.linkable.linkable object (List.mem_of_getElem? found)).inRange
  have index : ∀ value ∈ object.refValues doc.refSize, value % 2 ^ 32 = value :=
    fun value member => Nat.mod_eq_of_lt (Nat.lt_of_lt_of_le (facts value member) regular.short)
  rw [references, found]
  cases object with
  | array count refs =>
    simp only [Object.references, Object.members, List.map_map]
    refine List.map_congr_left fun j inside => ?_
    rw [index _ (List.mem_map.mpr ⟨j, inside, rfl⟩)]
    rfl
  | dict count refs =>
    simp only [Object.references, Object.members, List.map_flatMap, List.map_cons, List.map_nil]
    refine List.flatMap_congr fun j inside => ?_
    rw [List.mem_range] at inside
    rw [index (refAt refs doc.refSize j) (List.mem_map.mpr ⟨j, by simp; omega, rfl⟩),
      index (refAt refs doc.refSize (j + count)) (List.mem_map.mpr ⟨j + count, by simp; omega, rfl⟩)]
  | _ => rfl

theorem Regular.key_isString (regular : doc.Regular) {i : Nat} {r : Reference}
    (member : r ∈ doc.references i) (key : r.key = true) :
    doc.objects[r.target]?.any Object.isString = true := by
  obtain ⟨-, object, inside, found, -⟩ := container_of_mem member
  rw [regular.references_eq found] at member
  obtain ⟨⟨isKey, t⟩, named, rfl⟩ := List.mem_map.mp member
  cases key
  exact regular.keys object inside t named

/-- Only strings become keys. -/
theorem Regular.isString_of_retyped (regular : doc.Regular) {past : List Reference}
    (real : ∀ r ∈ past, r ∈ doc.references r.container) {t : Nat} (isKey : retyped past t = true) :
    doc.objects[t]?.any Object.isString = true := by
  obtain ⟨r, member, isKey⟩ := List.any_eq_true.mp isKey
  simp only [Bool.and_eq_true, decide_eq_true_eq] at isKey
  obtain ⟨key, rfl⟩ := isKey
  exact regular.key_isString (real r member) key

theorem history_real {i : Nat} : ∀ r ∈ doc.history i, r ∈ doc.references r.container :=
  fun _ member => (mem_history member).2.2

/-- So every reference is followed. -/
theorem Regular.followed_eq (regular : doc.Regular) (i : Nat) :
    doc.followed (doc.history i) i = doc.references i := by
  unfold followed
  split
  · rename_i isKey
    have isString := regular.isString_of_retyped history_real isKey
    cases found : doc.objects[i]? with
    | none => simp [references, found]
    | some object =>
      rw [found] at isString
      cases object <;> simp_all [references, Object.references, Object.isString]
  · rfl

/-- What is followed after the turn of entry `i` belongs to later entries. -/
theorem Regular.history_split (regular : doc.Regular) {i : Nat} : ∀ {n : Nat}, i < n →
    ∃ rest, doc.history n = doc.history i ++ doc.references i ++ rest ∧
      ∀ r ∈ rest, i < r.container
  | n + 1, below => by
      rcases Nat.lt_or_ge i n with inside | last
      · obtain ⟨rest, split, later⟩ := regular.history_split (n := n) inside
        refine ⟨rest ++ doc.references n, ?_, fun r member => ?_⟩
        · rw [history, regular.followed_eq, split, List.append_assoc]
        · rcases List.mem_append.mp member with before | here
          · exact later r before
          · rwa [(container_of_mem here).1]
      · cases Nat.le_antisymm (Nat.lt_succ_iff.mp below) last
        exact ⟨[], by rw [history, regular.followed_eq, List.append_nil], by simp⟩

/-! ## The children of an entry -/

theorem childrenFrom_append_list (i : Nat) : ∀ seen past rest : List Reference,
    doc.childrenFrom i seen (past ++ rest) =
      doc.childrenFrom i seen past ++ doc.childrenFrom i (seen ++ past) rest
  | seen, [], rest => by simp [childrenFrom]
  | seen, p :: past, rest => by
      rw [List.cons_append, childrenFrom, childrenFrom, childrenFrom_append_list i (seen ++ [p])]
      simp

/-- The children of an entry come from its own references. -/
theorem Regular.children_eq (regular : doc.Regular) {i : Nat} (inside : i < doc.objects.length) :
    doc.childrenFrom i [] (doc.history doc.objects.length) =
      doc.childrenFrom i (doc.history i) (doc.references i) := by
  obtain ⟨rest, split, later⟩ := regular.history_split inside
  have before : doc.childrenFrom i [] (doc.history i) = [] :=
    doc.childrenFrom_eq_nil fun r member => Nat.ne_of_lt (mem_history member).1
  have after : ∀ seen, doc.childrenFrom i seen rest = [] := fun seen =>
    doc.childrenFrom_eq_nil fun r member => Nat.ne_of_gt (later r member)
  rw [split, childrenFrom_append_list, childrenFrom_append_list, before, after]
  simp

/-! ## Items -/

/-- A string or key shows its text up to a NUL, anything else what it stands for. -/
theorem item_dataAfter_iff {past : List Reference} {i : Nat} {object : Object}
    (basic : object.isBasic = true)
    (typed : retyped past i = true → object.isString = true) (key : Bool)
    (keyed : key = true → object.isString = true) :
    (doc.dataAfter past i object).item? = some (markKey key (object.item doc.platform)) ↔
      0 ∉ object.text doc.platform ∧ retyped past i = key := by
  unfold dataAfter
  cases object with
  | boolean b =>
    cases isKey : retyped past i
    · cases key
      · cases b <;> simp [PlistData.item?, Object.node, markKey, Object.item, Object.text]
      · cases keyed rfl
    · cases typed isKey
  | uint n | data bytes | array count refs | dict count refs =>
    cases isKey : retyped past i
    · cases key
      · simp [PlistData.item?, Object.node, markKey, Object.item, Object.text]
      · cases keyed rfl
    · cases typed isKey
  | string block | unicode block =>
    cases retyped past i <;> cases key <;>
      simp [PlistData.item?, Object.node, markKey, Object.item, Object.text, Item.asKey,
        Platform.textOfUnits, cString_eq_self]
  | real bytes | date bytes => cases basic

theorem copyBuff_type {d copied : PlistData} {freed : Bool} {bytes : Nat}
    (run : copyBuff d freed bytes = .ok copied) : copied.type = d.type := by
  unfold copyBuff at run
  split at run
  · split at run
    · cases run
      rfl
    · split at run
      · cases run
      · obtain ⟨block, -, run⟩ := bind_eq_ok.mp run
        cases run
        rfl
  · cases run

/-- A copy that ends shows what its original shows. -/
theorem item_of_copied (linkable : doc.Linkable) {past : List Reference} {r : Reference}
    {object : Object} (found : doc.objects[r.target]? = some object)
    (basic : object.isBasic = true)
    (typed : retyped (past ++ [r]) r.target = true → object.isString = true) {data : PlistData}
    (copied : doc.copyOf past r = .ok data) :
    data.item? = (doc.dataAfter (past ++ [r]) r.target object).item? := by
  rw [copyOf, found] at copied
  have plain (other : object.isString = false) : retyped (past ++ [r]) r.target = false := by
    cases isKey : retyped (past ++ [r]) r.target with
    | false => rfl
    | true => cases other.symm.trans (typed isKey)
  unfold dataAfter at copied ⊢
  cases object with
  | string block | unicode block =>
    cases isKey : retyped (past ++ [r]) r.target <;>
      simp only [isKey, if_true, Bool.false_eq_true, if_false, Object.node, copyPlistData,
        Except.ok.injEq] at copied ⊢ <;>
      rw [← copied]
  | uint n =>
    simp only [plain rfl, Bool.false_eq_true, if_false, Object.node, copyPlistData,
      Except.ok.injEq] at copied ⊢
    rw [← copied]
  | boolean b =>
    simp only [plain rfl, Bool.false_eq_true, if_false, Object.node, copyPlistData,
      Except.ok.injEq] at copied ⊢
    rw [← copied]
    cases b <;> rfl
  | data bytes =>
    simp only [plain rfl, Bool.false_eq_true, if_false, Object.node, copyPlistData] at copied ⊢
    have small := linkable.smallData bytes (List.mem_of_getElem? found)
    have ends := (copyBuff_ends_iff rfl (by omega)).mp ⟨_, copied⟩
    have empty : bytes = [] := by
      rw [← List.length_eq_zero_iff]
      omega
    subst empty
    cases copied
    rfl
  | array count refs | dict count refs =>
    simp only [plain rfl, Bool.false_eq_true, if_false, Object.node, copyPlistData] at copied ⊢
    have type := copyBuff_type copied
    simp only [PlistData.item?, type]
  | real bytes | date bytes => cases basic

/-! ## The tree below an entry -/

/-- The table the second pass leaves. -/
def linkedTable (doc : ObjectTable) : NodeTable :=
  doc.tableOf doc.objects.length (doc.history doc.objects.length) (doc.history doc.objects.length)

theorem unfold_eq_some {depth i : Nat} {tree : Item × Siblings Item} {object : Object}
    (found : doc.objects[i]? = some object) :
    doc.graph.unfold markKey (depth + 1) i = some tree ↔
      tree.1 = object.item doc.platform ∧
        (object.members doc.refSize).map (fun member =>
          (doc.graph.unfold markKey depth member.2).map fun below =>
            (markKey member.1 below.1, below.2)) = tree.2.toList.map some := by
  rw [RefGraph.unfold_succ]
  simp only [graph, List.getElem?_map, found, Option.map_some, Option.some.injEq, Prod.mk.injEq]
  constructor
  · rintro ⟨edges, ⟨label, rfl⟩, each⟩
    exact ⟨label.symm, each⟩
  · rintro ⟨label, each⟩
    exact ⟨_, ⟨label.symm, rfl⟩, each⟩

theorem unfold_found {depth i : Nat} {tree : Item × Siblings Item}
    (unfolded : doc.graph.unfold markKey depth i = some tree) :
    ∃ below object, depth = below + 1 ∧ doc.objects[i]? = some object := by
  cases depth with
  | zero => cases unfolded
  | succ below =>
    obtain ⟨edges, found, -⟩ := RefGraph.unfold_succ.mp unfolded
    rw [graph, List.getElem?_map, Option.map_eq_some_iff] at found
    obtain ⟨object, found, -⟩ := found
    exact ⟨below, object, rfl, found⟩

/-- What holds of the tree of an entry, and of no other label of it. -/
def TreeIff (doc : ObjectTable) (depth i : Nat) (tree : Item × Siblings Item) : Prop :=
  ∀ key, (key = true → doc.objects[i]?.any Object.isString = true) →
    (doc.linkedTable.treeAt depth i = some (markKey key tree.1, tree.2) ↔
      doc.Sound i ∧ retyped (doc.history doc.objects.length) i = key)

/-- An entry whose tree has no children has no references. -/
theorem childless_iff (regular : doc.Regular) {depth i : Nat} {object : Object}
    (found : doc.objects[i]? = some object) {tree : Item × Siblings Item}
    (unfolded : doc.graph.unfold markKey (depth + 1) i = some tree) :
    tree.2 = .nil ↔ doc.references i = [] := by
  obtain ⟨-, each⟩ := (unfold_eq_some found).mp unfolded
  rw [regular.references_eq found, List.map_eq_nil_iff]
  cases chain : tree.2 with
  | nil =>
    rw [chain] at each
    simpa [Siblings.toList] using each
  | cons label children next =>
    rw [chain] at each
    constructor
    · intro absurd'
      cases absurd'
    · intro none
      rw [none] at each
      cases each

/-- A reference to an entry without a parent: the entry itself is moved. -/
theorem moved_iff (regular : doc.Regular) {depth : Nat} {before after : List Reference}
    {r : Reference} (member : r ∈ doc.references r.container)
    (whole : doc.history doc.objects.length = before ++ r :: after)
    (free : attached before r.target = false) {tree : Item × Siblings Item}
    (ih : doc.TreeIff depth r.target tree) :
    (doc.childFor before r).tree (doc.linkedTable.treeAt depth) =
        some (markKey r.key tree.1, tree.2) ↔ doc.Shown before r ∧ doc.Sound r.target := by
  have inHistory : r.key = true → retyped (doc.history doc.objects.length) r.target = true := by
    intro key
    rw [whole, retyped]
    simp [key]
  have shown : doc.Shown before r ↔
      (r.key = false → retyped (doc.history doc.objects.length) r.target = false) :=
    ⟨fun shown plain => by simpa [free] using shown.typed plain,
      fun typed => ⟨by simp [free], by simpa [free] using typed⟩⟩
  rw [childFor, free, shown, and_comm]
  refine (ih r.key (regular.key_isString member)).trans (and_congr_right fun _ => ?_)
  cases key : r.key with
  | false => simp
  | true => simp [inHistory key]

/-- A reference to an entry with a parent: the entry is copied, as it is by now. -/
theorem copied_iff (regular : doc.Regular) (copies : doc.Copies) {depth : Nat}
    {before after : List Reference} {r : Reference} (member : r ∈ doc.references r.container)
    (whole : doc.history doc.objects.length = before ++ r :: after)
    (already : attached before r.target = true) {tree : Item × Siblings Item}
    (unfolded : doc.graph.unfold markKey depth r.target = some tree) :
    (doc.childFor before r).tree (doc.linkedTable.treeAt depth) =
        some (markKey r.key tree.1, tree.2) ↔ doc.Shown before r ∧ doc.Sound r.target := by
  obtain ⟨below, object, rfl, found⟩ := unfold_found unfolded
  obtain ⟨label, -⟩ := (unfold_eq_some found).mp unfolded
  obtain ⟨object', found', copyable⟩ := copies _ r _ whole already
  cases found.symm.trans found'
  obtain ⟨data, copied⟩ := (copyOf_ends_iff regular.linkable found).mpr copyable
  have basic := regular.basic object (List.mem_of_getElem? found)
  have real : ∀ p ∈ before ++ [r], p ∈ doc.references p.container := by
    have all : ∀ p ∈ doc.history doc.objects.length, p ∈ doc.references p.container := history_real
    intro p inside
    refine all p ?_
    rw [whole]
    simp only [List.mem_append, List.mem_cons, List.not_mem_nil, or_false] at inside ⊢
    rcases inside with inside | inside <;> simp [inside]
  have typed : retyped (before ++ [r]) r.target = true → object.isString = true := by
    intro isKey
    simpa [found] using regular.isString_of_retyped real isKey
  have shows := @item_dataAfter_iff doc _ _ _ basic typed r.key
    (fun key => by simpa [found] using regular.key_isString member key)
  rw [← label, retyped_append] at shows
  have leaf (none : doc.references r.target = []) :
      doc.Sound r.target ↔ 0 ∉ object.text doc.platform := by
    rw [doc.sound_iff found, none]
    simp
  simp only [childFor, already, if_true, copied]
  rw [Child.tree_copy_nil, item_of_copied regular.linkable found basic typed copied, shows,
    childless_iff regular found unfolded]
  constructor
  · rintro ⟨⟨text, type⟩, none⟩
    refine ⟨⟨fun _ => none, fun plain => ?_⟩, (leaf none).mpr text⟩
    simpa [already, plain] using type
  · rintro ⟨⟨whole', typed'⟩, sound⟩
    refine ⟨⟨sound.texts r.target .refl object found, ?_⟩, whole' already⟩
    cases key : r.key with
    | true => simp
    | false => simpa [already] using typed' key

/-- **One reference of the unfolding.** -/
theorem child_iff (regular : doc.Regular) (copies : doc.Copies) {depth : Nat}
    {before after : List Reference} {r : Reference}
    (split : doc.references r.container = before ++ r :: after) {tree : Item × Siblings Item}
    (unfolded : doc.graph.unfold markKey depth r.target = some tree)
    (ih : doc.TreeIff depth r.target tree) :
    (doc.childFor (doc.history r.container ++ before) r).tree (doc.linkedTable.treeAt depth) =
        some (markKey r.key tree.1, tree.2) ↔
      doc.Shown (doc.history r.container ++ before) r ∧ doc.Sound r.target := by
  have member : r ∈ doc.references r.container := by
    rw [split]
    simp
  obtain ⟨-, object, -, atContainer, -⟩ := container_of_mem member
  obtain ⟨rest, whole, -⟩ :=
    regular.history_split (List.getElem?_eq_some_iff.mp atContainer).1
  rw [split, List.append_assoc, List.append_assoc, List.cons_append, ← List.append_assoc] at whole
  cases already : attached (doc.history r.container ++ before) r.target with
  | false => exact moved_iff regular member whole already ih
  | true => exact copied_iff regular copies member whole already unfolded

/-- The references of an entry, one by one. -/
theorem children_iff (regular : doc.Regular) (copies : doc.Copies) {depth i : Nat}
    (trees : ∀ r ∈ doc.references i, ∀ tree,
      doc.graph.unfold markKey depth r.target = some tree → doc.TreeIff depth r.target tree) :
    ∀ {before rest : List Reference}, doc.references i = before ++ rest →
      (∀ r ∈ rest, ∃ tree, doc.graph.unfold markKey depth r.target = some tree) →
      ((doc.childrenFrom i (doc.history i ++ before) rest).map
          (Child.tree (doc.linkedTable.treeAt depth)) =
        rest.map (fun r => (doc.graph.unfold markKey depth r.target).map fun below =>
          (markKey r.key below.1, below.2)) ↔
        ∀ front r after, rest = front ++ r :: after →
          doc.Shown (doc.history i ++ before ++ front) r ∧ doc.Sound r.target)
  | before, [], _, _ => by simp [childrenFrom]
  | before, r :: rest, split, unfolds => by
      have member : r ∈ doc.references i := by
        rw [split]
        simp
      obtain ⟨rfl, -⟩ := container_of_mem member
      obtain ⟨tree, unfolded⟩ := unfolds r (by simp)
      have first := child_iff regular copies split unfolded (trees r member tree unfolded)
      have later := @children_iff regular copies _ _ trees (before ++ [r]) rest
        (by rw [split, List.append_assoc, List.singleton_append])
        (fun r' inside => unfolds r' (by simp [inside]))
      rw [← List.append_assoc] at later
      rw [childrenFrom, if_pos rfl, List.singleton_append, List.map_cons, List.map_cons,
        List.cons.injEq, later, unfolded, Option.map_some, first]
      constructor
      · rintro ⟨here, others⟩ front r' after split'
        cases front with
        | nil =>
          cases split'
          simpa using here
        | cons p front =>
          cases split'
          simpa using others front r' after rfl
      · intro all
        refine ⟨by simpa using all [] r rest rfl, fun front r' after split' => ?_⟩
        have := all (r :: front) r' after (by rw [split', List.cons_append])
        simpa using this

/-- **The tree below an entry of the linked table is its unfolding exactly when the
entry is sound; it is a key exactly when it was used as one.** -/
theorem treeAt_iff (regular : doc.Regular) (copies : doc.Copies) :
    ∀ (depth : Nat) {i : Nat} {tree : Item × Siblings Item},
      doc.graph.unfold markKey depth i = some tree → doc.TreeIff depth i tree := by
  intro depth
  induction depth with
  | zero =>
    intro i tree unfolded
    cases unfolded
  | succ depth ih =>
    intro i tree unfolded key keyed
    obtain ⟨-, object, -, found⟩ := unfold_found unfolded
    obtain ⟨label, each⟩ := (unfold_eq_some found).mp unfolded
    have inside := (List.getElem?_eq_some_iff.mp found).1
    have references := regular.references_eq found
    have children := @children_iff doc regular copies depth i
      (fun r _ tree => ih) [] (doc.references i) rfl (by
        intro r member
        rw [references] at member
        obtain ⟨named, inMembers, rfl⟩ := List.mem_map.mp member
        have mapped := List.mem_map_of_mem (f := fun member =>
          (doc.graph.unfold markKey depth member.2).map fun below =>
            (markKey member.1 below.1, below.2)) inMembers
        rw [each] at mapped
        obtain ⟨below, -, unfolded⟩ := List.mem_map.mp mapped
        obtain ⟨tree, unfolded, -⟩ := Option.map_eq_some_iff.mp unfolded.symm
        exact ⟨tree, unfolded⟩)
    have same : (doc.references i).map (fun r =>
        (doc.graph.unfold markKey depth r.target).map fun below =>
          (markKey r.key below.1, below.2)) = tree.2.toList.map some := by
      rw [references, List.map_map, ← each]
      rfl
    rw [same, List.append_nil, ← regular.children_eq inside] at children
    have shows := @item_dataAfter_iff doc
      (doc.history doc.objects.length) i _
      (regular.basic object (List.mem_of_getElem? found))
      (fun isKey => by simpa [found] using regular.isString_of_retyped history_real isKey) key
      (fun isKey => by simpa [found] using keyed isKey)
    rw [NodeTable.treeAt_succ, doc.sound_iff found]
    simp only [linkedTable, tableOf, slotOf, found, Option.map_some, Option.some.injEq,
      exists_eq_left', label, shows]
    constructor
    · rintro ⟨⟨text, isKey⟩, below⟩
      exact ⟨⟨text, children.mp below⟩, isKey⟩
    · rintro ⟨⟨text, below⟩, isKey⟩
      exact ⟨⟨text, isKey⟩, children.mpr below⟩

/-! ## Documents in which keys are keys only, and containers have one parent -/

/-- An entry that no earlier reference names has no parent. -/
theorem not_attached_of_pairwise {all before after : List Reference} {r : Reference}
    (once : all.Pairwise (·.target ≠ ·.target)) (split : all = before ++ r :: after) :
    attached before r.target = false := by
  rw [split, List.pairwise_append] at once
  rw [attached, List.any_eq_false]
  intro p member same
  exact once.2.2 p member r (by simp) (by simpa using same)

/-- **Such a document is sound.** -/
theorem Regular.sound_of (regular : doc.Regular)
    (separate : ∀ r ∈ doc.history doc.objects.length, ∀ r' ∈ doc.history doc.objects.length,
      r.target = r'.target → r.key = r'.key)
    (whole : ∀ before r after, doc.history doc.objects.length = before ++ r :: after →
      attached before r.target = true → doc.references r.target = [])
    (texts : ∀ object ∈ doc.objects, 0 ∉ object.text doc.platform) (i : Nat) : doc.Sound i := by
  refine ⟨fun j _ object found => texts object (List.mem_of_getElem? found), ?_⟩
  intro j _ before r after split
  have member : r ∈ doc.references j := by
    rw [split]
    simp
  obtain ⟨-, object, -, found, -⟩ := container_of_mem member
  obtain ⟨rest, history, -⟩ := regular.history_split (List.getElem?_eq_some_iff.mp found).1
  rw [split, List.append_assoc, List.append_assoc, List.cons_append, ← List.append_assoc] at history
  refine ⟨whole _ r _ history, fun plain => ?_⟩
  have noKey : ∀ p ∈ doc.history doc.objects.length, p.target = r.target → p.key = false := by
    intro p inside same
    rw [← plain]
    exact separate p inside r (by rw [history]; simp) same
  rw [retyped, List.any_eq_false]
  intro p inside
  have inHistory : p ∈ doc.history doc.objects.length := by
    split at inside
    · rw [history]
      exact List.mem_append_left _ inside
    · exact inside
  by_cases same : p.target = r.target
  · simp [noKey p inHistory same]
  · simp [same]

end ObjectTable

/-! ## Well-formed documents -/

section Documents

variable {platform : Platform} {bin : List UInt8} {objects : List Object}

theorem refWidth_pos {w : Nat} (known : w ∈ [1, 2, 3, 4, 8]) : 0 < w := by
  simp only [List.mem_cons, List.not_mem_nil, or_false] at known
  omega

/-- The offset table alone has a byte for each object. -/
theorem WellFormed.length_le (wellFormed : WellFormed platform bin objects) :
    objects.length ≤ bin.length := by
  rcases Nat.eq_zero_or_pos objects.length with none | some'
  · omega
  · have last := wellFormed.describes.offsets (objects.length - 1) (by omega)
    have width := refWidth_pos wellFormed.offsetWidth
    have positive := hostWidth_pos (trailerOf bin).offsetSize
    have : objects.length - 1 ≤ (objects.length - 1) * (trailerOf bin).offsetSize :=
      Nat.le_mul_of_pos_right _ width
    omega

theorem WellFormed.regular (wellFormed : WellFormed platform bin objects)
    (small : bin.length < 2 ^ 32) : (tableFor platform bin objects).Regular where
  linkable := wellFormed.linkable small
  short := Nat.le_trans wellFormed.length_le (Nat.le_of_lt small)
  basic := wellFormed.basic
  keys := wellFormed.keys

/-- Edges of the graph are references of the table. -/
theorem ObjectTable.Regular.edge_iff {doc : ObjectTable} (regular : doc.Regular) {i t : Nat} :
    doc.graph.Edge i t ↔ doc.Refers i t := by
  unfold RefGraph.Edge Refers
  cases found : doc.objects[i]? with
  | none => simp [graph, references, found]
  | some object =>
    rw [regular.references_eq found]
    simp only [graph, List.getElem?_map, found, Option.map_some, Option.some.injEq, Prod.mk.injEq,
      List.mem_map]
    constructor
    · rintro ⟨label, edges, kind, ⟨-, rfl⟩, member⟩
      exact ⟨_, ⟨_, member, rfl⟩, rfl⟩
    · rintro ⟨r, ⟨⟨kind, t'⟩, member, rfl⟩, rfl⟩
      exact ⟨_, _, kind, ⟨rfl, rfl⟩, member⟩

/-- **Every well-formed document has a tree.** -/
theorem unfolding_exists (wellFormed : WellFormed platform bin objects)
    (small : bin.length < 2 ^ 32) :
    ∃ tree, (tableFor platform bin objects).unfold (trailerOf bin).rootObject = some tree := by
  have regular := wellFormed.regular small
  have length : (tableFor platform bin objects).graph.nodes.length = objects.length := by
    simp [ObjectTable.graph, tableFor]
  have edges : (tableFor platform bin objects).graph.Edge =
      (tableFor platform bin objects).Refers := by
    funext i t
    exact propext regular.edge_iff
  have closed : (tableFor platform bin objects).graph.Closed := by
    intro i t edge
    obtain ⟨r, member, rfl⟩ := regular.edge_iff.mp edge
    rw [length]
    exact regular.linkable.target_lt member
  have acyclic : (tableFor platform bin objects).graph.Acyclic := by
    intro i path
    rw [edges] at path
    exact wellFormed.acyclic i path
  have unfolded := @RefGraph.unfold_total _ _ _ markKey closed acyclic
    (i := (trailerOf bin).rootObject) (by rw [length]; exact wellFormed.root)
  rwa [length] at unfolded

/-- **The decoder returns the tree of a well-formed document exactly when its node
table can be allocated, every copy it makes ends, the root is no key of a dictionary,
and every entry below the root shows what its references name.** -/
theorem unfolds_iff (wellFormed : WellFormed platform bin objects) (small : bin.length < 2 ^ 32) :
    Unfolds platform bin objects ↔
      platform.malloc (8 * objects.length) = true ∧
        (tableFor platform bin objects).Copies ∧
        retyped ((tableFor platform bin objects).history objects.length)
          (trailerOf bin).rootObject = false ∧
        (tableFor platform bin objects).Sound (trailerOf bin).rootObject := by
  have regular := wellFormed.regular small
  have short := wellFormed.length_le
  have some' : (trailerOf bin).numObjects ≠ 0 := by
    have := wellFormed.root
    have := wellFormed.describes.count
    omega
  have rejected : Rejected platform bin ↔ platform.malloc (8 * objects.length) = false := by
    rw [Rejected, ← wellFormed.describes.count, Nat.mod_eq_of_lt (by omega)]
    have long := wellFormed.long
    have count := wellFormed.describes.count
    simp only [wellFormed.header, ne_eq, not_true_eq_false, false_or, count, some']
    rw [or_iff_right (by omega)]
  obtain ⟨tree, unfolded⟩ := unfolding_exists wellFormed small
  by_cases memory : platform.malloc (8 * objects.length) = true
  · have accepted : ¬ Rejected platform bin := by
      rw [rejected, memory]
      decide
    have decoded (plist : PlistPtr) := @plistFromBin_readable _ _ _ wellFormed.toReadable small accepted
      (some plist)
    have size : 8 * objects.length < 2 ^ 64 := by omega
    simp only [size, true_and, Option.some.injEq] at decoded
    have root (copies : (tableFor platform bin objects).Copies) :
        (tableFor platform bin objects).linkedTable.treeAt objects.length
          (trailerOf bin).rootObject = some tree ↔ _ :=
      ObjectTable.treeAt_iff regular copies objects.length unfolded false (by simp)
    constructor
    · rintro ⟨plist, tree', run, unfolded', shown⟩
      cases unfolded.symm.trans unfolded'
      obtain ⟨copies, rfl⟩ := (decoded plist).mp run
      obtain ⟨sound, isRoot⟩ := (root copies).mp shown
      exact ⟨memory, copies, isRoot, sound⟩
    · rintro ⟨-, copies, isRoot, sound⟩
      exact ⟨_, tree, (decoded _).mpr ⟨copies, rfl⟩, unfolded, (root copies).mpr ⟨sound, isRoot⟩⟩
  · constructor
    · rintro ⟨plist, tree', run, -⟩
      rw [plistFromBin_rejected (rejected.mpr (by simpa using memory))] at run
      cases run
    · rintro ⟨isServed, -⟩
      exact absurd isServed memory

end Documents

/-! ## Two documents -/

theorem arrayOfTwo_wellFormed :
    WellFormed asciiPlatform arrayOfTwo [.array 2 [1, 2], .boolean true, .uint 7] where
  toReadable := arrayOfTwo_readable
  long := by decide
  header := by decide
  offsetWidth := by decide
  refWidth := by decide
  basic := by decide
  units := by simp
  keys := by
    have noKeys : ∀ object ∈ [Object.array 2 [1, 2], .boolean true, .uint 7],
        ∀ member ∈ object.members (trailerOf arrayOfTwo).dictParamSize, member.1 = false := by
      decide
    exact fun object inside t member => by cases noKeys object inside _ member

/-- The decoder returns its tree. -/
theorem arrayOfTwo_unfolds :
    Unfolds asciiPlatform arrayOfTwo [.array 2 [1, 2], .boolean true, .uint 7] := by
  refine (unfolds_iff arrayOfTwo_wellFormed (by decide)).mpr
    ⟨by decide, arrayOfTwo_copies, by decide +kernel, ?_⟩
  refine (arrayOfTwo_wellFormed.regular (by decide)).sound_of ?_ ?_ (by decide) _
  · show ∀ r ∈ ObjectTable.history _ 3, ∀ r' ∈ ObjectTable.history _ 3, _
    rw [arrayOfTwo_history]
    decide
  · intro before r after split already
    have once : (ObjectTable.history (tableFor asciiPlatform arrayOfTwo
        [.array 2 [1, 2], .boolean true, .uint 7]) 3).Pairwise (·.target ≠ ·.target) := by
      rw [arrayOfTwo_history]
      decide
    cases already.symm.trans (ObjectTable.not_attached_of_pairwise once split)

/-- The dictionary of one string as key and as value. -/
def keyAndValue : List UInt8 := smallList [0xD1, 1, 1, 0x51, 0x61] [8, 11]

theorem keyAndValue_wellFormed :
    WellFormed asciiPlatform keyAndValue [.dict 1 [1, 1], .string [0x61]] where
  describes := by
    refine ⟨by decide, by decide, fun i object found => ?_⟩
    match i, found with
    | 0, found =>
      cases found
      exact .dict (.inl rfl) (.short (by decide)) rfl
    | 1, found =>
      cases found
      exact .string (.short (by decide))
  width := by decide
  inRange := by decide
  root := by decide
  acyclic := ObjectTable.acyclic_of_lt (by decide +kernel)
  long := by decide
  header := by decide
  offsetWidth := by decide
  refWidth := by decide
  basic := by decide
  units := by simp
  keys := by
    have strings : ∀ object ∈ [Object.dict 1 [1, 1], .string [0x61]],
        ∀ member ∈ object.members (trailerOf keyAndValue).dictParamSize,
          [Object.dict 1 [1, 1], .string [0x61]][member.2]?.any Object.isString = true := by
      decide
    exact fun object inside t member => strings object inside _ member

/-- Its value becomes a key. -/
theorem keyAndValue_not_unfolded :
    WellFormed asciiPlatform keyAndValue [.dict 1 [1, 1], .string [0x61]] ∧
      ¬ Unfolds asciiPlatform keyAndValue [.dict 1 [1, 1], .string [0x61]] := by
  refine ⟨keyAndValue_wellFormed, ?_⟩
  rintro ⟨plist, tree, run, unfolded, shown⟩
  have value : (plistFromBin asciiPlatform keyAndValue).toOption.map (Option.map PlistPtr.tree) =
      some (some (some (.dict, .cons (.key [0x61]) .nil (.cons (.key [0x61]) .nil .nil)))) := by
    decide +kernel
  have right : (tableFor asciiPlatform keyAndValue [.dict 1 [1, 1], .string [0x61]]).unfold
      (trailerOf keyAndValue).rootObject =
      some (.dict, .cons (.key [0x61]) .nil (.cons (.string [0x61]) .nil .nil)) := by
    decide +kernel
  rw [run] at value
  cases unfolded.symm.trans right
  cases shown.symm.trans (Option.some.inj (Option.some.inj value))

end Irestore.Plist
