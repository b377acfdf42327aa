/-
# Plist.BinarySafety — which byte strings `plist_from_bin` reads safely

`Readable` says that a byte string is a property list: every offset, object, length
and reference is in range, and no object contains itself.

* `copyOf_ends_iff` — which copies end.
* `plistFromBin_readable` — on a readable input the first pass ends, and the second
  does exactly when every copy it makes ends.
* `safe_iff` — the decoder ends within its input, and rejects what cannot be read,
  exactly on inputs that its header checks reject and on readable ones whose copies
  end: no check of offsets, references or the root is made in time.
-/
import Irestore.Plist.BinaryLink
import Mathlib.Logic.Relation

namespace Irestore.Plist

open Irestore.Library Irestore.Library.Bytes Irestore.Library.CMemory

set_option autoImplicit false

/-! ## Copies -/

/-- The object can be copied: `copy_plist_data` takes 8 bytes for each byte or
reference of a block, and a key's block for a string. -/
def Object.Copyable (w : Nat) (keyed freed : Bool) : Object → Prop
  | .boolean _ | .uint _ | .real _ | .date _ => keyed = false
  | .string _ | .unicode _ => True
  | .data bytes => if keyed then 0 ∈ bytes else bytes = []
  | .array count refs | .dict count refs =>
      if keyed then freed = false ∧ 0 ∈ refs else count = 0 ∨ (freed = false ∧ 8 ≤ w)

/-- Copying eight bytes for each of `count` references ends. -/
theorem copyBuff_ends_iff {d : PlistData} {block : List UInt8} (isBlock : d.value = .buff block)
    {freed : Bool} {bytes : Nat} (small : bytes < 2 ^ 64) :
    (∃ copied, copyBuff d freed bytes = .ok copied) ↔
      bytes = 0 ∨ (freed = false ∧ bytes ≤ block.length) := by
  simp only [copyBuff, isBlock, Nat.mod_eq_of_lt small]
  by_cases zero : bytes = 0
  · simp [zero]
  · cases freed with
    | true => simp [zero]
    | false =>
      by_cases fits : bytes ≤ block.length
      · simp [zero, memcpy, fits]
      · simp [zero, memcpy, fits]

theorem strdup_ends_iff {block : List UInt8} {length : Nat} :
    (∃ copied : PlistData, (do
      let text ← strdup block
      return ⟨.strval text, length, .key⟩ : Checked PlistData) = .ok copied) ↔ 0 ∈ block := by
  by_cases nul : 0 ∈ block
  · simp [strdup, nul]
  · simp [strdup, nul]

/-- Copying eight bytes for each `w`-byte reference of a whole block. -/
theorem copyBlock_ends_iff {d : PlistData} {block : List UInt8} (isBlock : d.value = .buff block)
    {count w factor : Nat} (factors : factor = 1 ∨ factor = 2)
    (whole : block.length = count * w * factor) (small : block.length < 2 ^ 32)
    (width : 0 < count → 0 < w) {freed : Bool} :
    (∃ copied, copyBuff d freed (8 * count * factor) = .ok copied) ↔
      count = 0 ∨ (freed = false ∧ 8 ≤ w) := by
  rcases Nat.eq_zero_or_pos count with zero | positive
  · subst zero
    rw [copyBuff_ends_iff isBlock (by omega)]
    simp
  · have countLe : count ≤ count * w := Nat.le_mul_of_pos_right count (width positive)
    have bound : 8 * count * factor < 2 ^ 64 := by
      rcases factors with rfl | rfl <;> omega
    have fits : 8 * count * factor ≤ block.length ↔ 8 ≤ w := by
      rw [whole, Nat.mul_comm 8 count]
      rcases factors with rfl | rfl
      · rw [Nat.mul_one, Nat.mul_one, Nat.mul_le_mul_left_iff positive]
      · rw [Nat.mul_le_mul_right_iff (by decide), Nat.mul_le_mul_left_iff positive]
    have some8 : ¬ 8 * count * factor = 0 := by
      rcases factors with rfl | rfl <;> omega
    rw [copyBuff_ends_iff isBlock bound, fits]
    simp only [some8, Nat.ne_of_gt positive, false_or]

/-- **An object's data can be copied exactly when `Copyable` says so.** -/
theorem copyPlistData_ends_iff {platform : Platform} {object : Object} {w n : Nat}
    (linkable : object.Linkable w n) (small : ∀ count refs,
      object = .array count refs ∨ object = .dict count refs → refs.length < 2 ^ 32)
    (smallData : ∀ bytes, object = .data bytes → bytes.length < 2 ^ 32) {keyed freed : Bool}
    (scalar : object.isContainer = false → freed = false) :
    (∃ copied, copyPlistData (if keyed then { object.node platform with type := .key }
      else object.node platform) freed = .ok copied) ↔ object.Copyable w keyed freed := by
  cases object with
  | boolean b | uint n | real bytes | date bytes =>
    cases keyed <;> simp [copyPlistData, Object.node, Object.Copyable]
  | string block | unicode block =>
    cases keyed <;> simp [copyPlistData, Object.node, Object.Copyable]
  | data bytes =>
    cases scalar rfl
    have bound := smallData bytes rfl
    cases keyed with
    | true =>
      simp only [copyPlistData, Object.node, Object.Copyable, if_true, Bool.false_eq_true, if_false]
      exact strdup_ends_iff
    | false =>
      simp only [copyPlistData, Object.node, Object.Copyable, if_false, Bool.false_eq_true]
      rw [copyBuff_ends_iff rfl (by omega)]
      have positive := List.length_eq_zero_iff (l := bytes)
      simp only [true_and, ← positive]
      omega
  | array count refs =>
    have whole := (linkable.blockLength count refs).1 rfl
    have bound := small count refs (.inl rfl)
    have width : 0 < count → 0 < w := linkable.width_pos (.inl rfl)
    cases keyed with
    | true =>
      simp only [copyPlistData, Object.node, Object.Copyable, if_true]
      cases freed with
      | true => simp
      | false =>
        simp only [Bool.false_eq_true, if_false, true_and]
        exact strdup_ends_iff
    | false =>
      simp only [copyPlistData, Object.node, Object.Copyable, if_false, Bool.false_eq_true]
      rw [← copyBlock_ends_iff (d := ⟨.buff refs, count, .array⟩) rfl (.inl rfl)
        (whole.trans (Nat.mul_one _).symm) bound width, Nat.mul_one]
  | dict count refs =>
    have whole := (linkable.blockLength count refs).2 rfl
    have bound := small count refs (.inr rfl)
    have width : 0 < count → 0 < w := linkable.width_pos (.inr rfl)
    cases keyed with
    | true =>
      simp only [copyPlistData, Object.node, Object.Copyable, if_true]
      cases freed with
      | true => simp
      | false =>
        simp only [Bool.false_eq_true, if_false, true_and]
        exact strdup_ends_iff
    | false =>
      simp only [copyPlistData, Object.node, Object.Copyable, if_false, Bool.false_eq_true]
      exact copyBlock_ends_iff rfl (.inr rfl) whole bound width

namespace ObjectTable

variable {doc : ObjectTable}

theorem freedAfter_of_not_container {done i : Nat} {object : Object}
    (found : doc.objects[i]? = some object) (scalar : object.isContainer = false) :
    doc.freedAfter done i = false := by
  simp [freedAfter, linked, found, scalar]

/-- **The copy a reference needs ends exactly when its target can be copied.** -/
theorem copyOf_ends_iff (linkable : doc.Linkable) {past : List Reference} {r : Reference}
    {object : Object} (found : doc.objects[r.target]? = some object) :
    (∃ data, doc.copyOf past r = .ok data) ↔
      object.Copyable doc.refSize (retyped (past ++ [r]) r.target)
        (doc.freedAfter r.container r.target) := by
  have inside := List.mem_of_getElem? found
  rw [copyOf, found]
  refine copyPlistData_ends_iff (linkable.linkable object inside) ?_ ?_
    (freedAfter_of_not_container found)
  · rintro count refs (rfl | rfl)
    · exact linkable.small count refs (.inl inside)
    · exact linkable.small count refs (.inr inside)
  · rintro bytes rfl
    exact linkable.smallData bytes inside

/-- Every reference to an entry that has a parent already finds it copyable. -/
def Copies (doc : ObjectTable) : Prop :=
  ∀ before r after, doc.history doc.objects.length = before ++ r :: after →
    attached before r.target = true →
      ∃ object, doc.objects[r.target]? = some object ∧
        object.Copyable doc.refSize (retyped (before ++ [r]) r.target)
          (doc.freedAfter r.container r.target)

theorem copiesOk_iff_splits {past rest : List Reference} :
    doc.CopiesOk past rest ↔
      ∀ before r after, rest = before ++ r :: after → doc.CopyOk (past ++ before) r := by
  induction rest generalizing past with
  | nil => simp [CopiesOk]
  | cons p rest ih =>
    rw [CopiesOk, ih]
    constructor
    · rintro ⟨first, later⟩ before r after split
      cases before with
      | nil =>
        cases split
        rwa [List.append_nil]
      | cons q before =>
        cases split
        have := later before r after rfl
        rwa [List.append_assoc] at this
    · intro all
      refine ⟨by simpa using all [] p rest rfl, fun before r after split => ?_⟩
      rw [List.append_assoc]
      exact all (p :: before) r after (by rw [split]; rfl)

theorem mem_followed_target (linkable : doc.Linkable) {i : Nat} {r : Reference}
    (member : r ∈ doc.history i) : ∃ object, doc.objects[r.target]? = some object := by
  obtain ⟨-, -, isReference⟩ := mem_history member
  exact ⟨_, List.getElem?_eq_getElem (linkable.target_lt isReference)⟩

theorem copiesOk_iff (linkable : doc.Linkable) :
    doc.CopiesOk [] (doc.history doc.objects.length) ↔ doc.Copies := by
  rw [copiesOk_iff_splits]
  refine forall₄_congr fun before r after split => ?_
  obtain ⟨object, found⟩ := mem_followed_target linkable
    (show r ∈ doc.history doc.objects.length by rw [split]; simp)
  refine imp_congr_right fun _ => ?_
  rw [List.nil_append, copyOf_ends_iff linkable found]
  simp [found]

end ObjectTable

/-! ## Readable property lists -/

/-- The offset of an object, as the offset table has it. -/
def entryOffset (bin : List UInt8) (i : Nat) : Nat :=
  ofBE (slice bin ((trailerOf bin).offsetTableIndex + i * (trailerOf bin).offsetSize)
    (hostWidth (trailerOf bin).offsetSize))

/-- The offset table and the objects are inside the byte string. -/
structure Describes (bin : List UInt8) (objects : List Object) : Prop where
  count : objects.length = (trailerOf bin).numObjects
  offsets : ∀ i < objects.length, (trailerOf bin).offsetTableIndex +
    i * (trailerOf bin).offsetSize + hostWidth (trailerOf bin).offsetSize ≤ bin.length
  written : ∀ i object, objects[i]? = some object →
    Written (trailerOf bin).dictParamSize object (bin.drop (entryOffset bin i))

/-- The objects of a byte string as a table. -/
def tableFor (platform : Platform) (bin : List UInt8) (objects : List Object) : ObjectTable :=
  ⟨platform, (trailerOf bin).dictParamSize, objects⟩

/-- Entry `i` has a reference to entry `t`. -/
def ObjectTable.Refers (doc : ObjectTable) (i t : Nat) : Prop :=
  ∃ r ∈ doc.references i, r.target = t

/-- No entry refers to itself, through others or at once. -/
def ObjectTable.Acyclic (doc : ObjectTable) : Prop :=
  ∀ i, ¬ Relation.TransGen doc.Refers i i

/-- References to later entries only make no cycle. -/
theorem ObjectTable.acyclic_of_lt {doc : ObjectTable}
    (later : ∀ i < doc.objects.length, ∀ r ∈ doc.references i, i < r.target) : doc.Acyclic := by
  have edge_lt {i t : Nat} (edge : doc.Refers i t) : i < t := by
    obtain ⟨r, member, rfl⟩ := edge
    obtain ⟨-, object, -, found, -⟩ := container_of_mem member
    exact later i (List.getElem?_eq_some_iff.mp found).1 r member
  have below {i t : Nat} (path : Relation.TransGen doc.Refers i t) : i < t := by
    induction path with
    | single edge => exact edge_lt edge
    | tail _ edge ih => exact Nat.lt_trans ih (edge_lt edge)
  exact fun i path => Nat.lt_irrefl i (below path)

/-- A byte string whose offsets, objects, lengths, references and root are all in
range, without a reference cycle. -/
structure Readable (platform : Platform) (bin : List UInt8) (objects : List Object) : Prop where
  describes : Describes bin objects
  width : ∀ object ∈ objects, object.refValues (trailerOf bin).dictParamSize ≠ [] →
    0 < (trailerOf bin).dictParamSize
  inRange : ∀ object ∈ objects, ∀ value ∈ object.refValues (trailerOf bin).dictParamSize,
    value < objects.length
  root : (trailerOf bin).rootObject < objects.length
  acyclic : (tableFor platform bin objects).Acyclic

/-- The blocks of a written object are whole, and no longer than its bytes. -/
theorem Written.block {w : Nat} {object : Object} {bytes : List UInt8}
    (written : Written w object bytes) :
    (∀ count refs, object = .array count refs →
      refs.length = count * w ∧ refs.length ≤ bytes.length) ∧
    (∀ count refs, object = .dict count refs →
      refs.length = count * w * 2 ∧ refs.length ≤ bytes.length) ∧
    ∀ data, object = .data data → data.length ≤ bytes.length := by
  cases written <;> refine ⟨?_, ?_, ?_⟩ <;> intros <;> simp_all <;> omega

/-! ## The decoder on readable input -/

section Readable

variable {platform : Platform} {bin : List UInt8} {objects : List Object}

theorem Readable.linkable (readable : Readable platform bin objects)
    (small : bin.length < 2 ^ 32) : (tableFor platform bin objects).Linkable := by
  have written : ∀ object ∈ objects, ∃ bytes,
      Written (trailerOf bin).dictParamSize object bytes ∧ bytes.length ≤ bin.length := by
    intro object member
    obtain ⟨i, found⟩ := List.mem_iff_getElem?.mp member
    exact ⟨_, readable.describes.written i object found, by simp⟩
  refine ⟨fun object member => ⟨?_, readable.width object member, readable.inRange object member⟩,
    ?_, ?_, ?_⟩
  · obtain ⟨bytes, isWritten, -⟩ := written object member
    obtain ⟨array, dict, -⟩ := isWritten.block
    exact fun count refs => ⟨fun shape => (array count refs shape).1,
      fun shape => (dict count refs shape).1⟩
  · rintro count refs (member | member)
    · obtain ⟨bytes, isWritten, below⟩ := written _ member
      exact Nat.lt_of_le_of_lt (Nat.le_trans (isWritten.block.1 count refs rfl).2 below) small
    · obtain ⟨bytes, isWritten, below⟩ := written _ member
      exact Nat.lt_of_le_of_lt (Nat.le_trans (isWritten.block.2.1 count refs rfl).2 below) small
  · intro data member
    obtain ⟨bytes, isWritten, below⟩ := written _ member
    exact Nat.lt_of_le_of_lt (Nat.le_trans (isWritten.block.2.2 data rfl) below) small
  · exact fun i r member same =>
      readable.acyclic i (Relation.TransGen.single ⟨r, member, same⟩)

/-- One entry of the first pass. -/
theorem parseEntry_described (describes : Describes bin objects) (small : bin.length < 2 ^ 32)
    {i : Nat} {object : Object} (found : objects[i]? = some object) (allocated : Nat) :
    parseEntry platform bin (trailerOf bin) allocated i =
      if 8 * (i + 1) ≤ allocated then .ok (some (object.node platform))
      else .error .outOfBounds := by
  have inside := describes.offsets i (List.getElem?_eq_some_iff.mp found).1
  have offset : uintToHost (bin.drop ((trailerOf bin).offsetTableIndex +
      i * (trailerOf bin).offsetSize)) (trailerOf bin).offsetSize = .ok (entryOffset bin i) := by
    rw [uintToHost_eq_ok]
    refine ⟨?_, rfl⟩
    rw [List.length_drop]
    omega
  obtain ⟨next, parsed⟩ := @parse_written platform _ _ _
    (describes.written i object found) (by rw [List.length_drop]; omega)
  rw [parseEntry, offset, ok_bind, parsed, ok_bind]
  rfl

theorem tableOf_start (doc : ObjectTable) : doc.tableOf 0 [] [] =
    NodeTable.ofNodes (doc.objects.map fun object => some (object.node doc.platform)) := by
  simp only [ObjectTable.tableOf, NodeTable.ofNodes, List.length_map, NodeTable.mk.injEq, true_and]
  funext i
  simp only [ObjectTable.slotOf, List.getElem?_map]
  cases doc.objects[i]? with
  | none => rfl
  | some object =>
    simp [ObjectTable.dataAfter, retyped, attached, ObjectTable.freedAfter,
      ObjectTable.childrenFrom]

/-- Input that the decoder rejects before it looks at an object. -/
def Rejected (platform : Platform) (bin : List UInt8) : Prop :=
  bin.length < 34 ∨ bin.take 8 ≠ bplistHeader ∨ (trailerOf bin).numObjects = 0 ∨
    platform.malloc (8 * (trailerOf bin).numObjects % 2 ^ 64) = false

theorem plistFromBin_rejected (rejected : Rejected platform bin) :
    plistFromBin platform bin = .ok none := by
  unfold plistFromBin
  split_ifs with short header
  · rfl
  · rfl
  · rcases rejected with tooShort | differs | empty | full
    · exact absurd tooShort short
    · exact absurd differs header
    · simp only [empty, if_true]
    · by_cases empty : (trailerOf bin).numObjects = 0
      · simp only [empty, if_true]
      · simp only [empty, if_false, full, if_true]

/-- The two passes of an input that was not rejected. -/
theorem plistFromBin_eq (accepted : ¬ Rejected platform bin) :
    plistFromBin platform bin = (do
      let nodes ← (List.range (trailerOf bin).numObjects).mapM
        (parseEntry platform bin (trailerOf bin) (8 * (trailerOf bin).numObjects % 2 ^ 64))
      let table ← (List.range (trailerOf bin).numObjects).foldlM
        (linkObject (trailerOf bin).dictParamSize) (NodeTable.ofNodes nodes)
      if (trailerOf bin).rootObject < (trailerOf bin).numObjects then
        return some { table := table, root := (trailerOf bin).rootObject }
      else .error .outOfBounds) := by
  simp only [Rejected, not_or, ne_eq, not_not, Bool.not_eq_false] at accepted
  obtain ⟨long, header, some', memory⟩ := accepted
  unfold plistFromBin
  rw [if_neg long, if_neg (not_not_intro header)]
  simp only [some', if_false, memory, Bool.true_eq_false]

/-- **What the decoder returns for a readable input.** -/
theorem plistFromBin_readable (readable : Readable platform bin objects)
    (small : bin.length < 2 ^ 32) (accepted : ¬ Rejected platform bin) {result : Option PlistPtr} :
    plistFromBin platform bin = .ok result ↔
      (8 * objects.length < 2 ^ 64 ∧ (tableFor platform bin objects).Copies) ∧
        result = some
          { table := (tableFor platform bin objects).tableOf objects.length
              ((tableFor platform bin objects).history objects.length)
              ((tableFor platform bin objects).history objects.length)
            root := (trailerOf bin).rootObject } := by
  have linkable := readable.linkable small
  have start := tableOf_start (tableFor platform bin objects)
  have pass {table : NodeTable} := @ObjectTable.linkObjects_iff _ linkable table _
    (Nat.le_refl objects.length)
  rw [start] at pass
  have entry {i : Nat} {object : Object} (found : objects[i]? = some object) :=
    @parseEntry_described platform _ _ readable.describes small _ _ found
      (8 * objects.length % 2 ^ 64)
  rw [plistFromBin_eq accepted, ← readable.describes.count, ← ObjectTable.copiesOk_iff linkable]
  simp only [if_pos readable.root]
  by_cases fits : 8 * objects.length < 2 ^ 64
  · have parsed : (List.range objects.length).mapM (parseEntry platform bin (trailerOf bin)
        (8 * objects.length % 2 ^ 64)) =
        .ok (objects.map fun object => some (object.node platform)) := by
      rw [List.range_eq_range']
      refine mapM_range' fun i object found => ?_
      have inside := (List.getElem?_eq_some_iff.mp found).1
      rw [Nat.zero_add, entry found, Nat.mod_eq_of_lt fits, if_pos (by omega)]
    rw [parsed, ok_bind, bind_eq_ok]
    constructor
    · rintro ⟨table, run, done⟩
      obtain ⟨copies, rfl⟩ := pass.mp run
      exact ⟨⟨fits, copies⟩, (Except.ok.inj done).symm⟩
    · rintro ⟨⟨-, copies⟩, rfl⟩
      exact ⟨_, pass.mpr ⟨copies, rfl⟩, rfl⟩
  · -- the last entry is stored outside of what was allocated
    constructor
    · intro run
      obtain ⟨nodes, parsed, -⟩ := bind_eq_ok.mp run
      have some' : objects.length ≠ 0 := by omega
      have last : objects.length - 1 < objects.length := by omega
      obtain ⟨node, stored⟩ := mapM_ends parsed (objects.length - 1) (List.mem_range.mpr last)
      rw [entry (List.getElem?_eq_getElem last)] at stored
      split at stored
      · omega
      · cases stored
    · rintro ⟨⟨fits', -⟩, -⟩
      exact absurd fits' fits

end Readable

/-! ## Safety -/

/-- The decoder ends without leaving its input, its table or its blocks, and rejects
what is no readable property list. -/
def Safe (platform : Platform) (bin : List UInt8) : Prop :=
  ∃ result, plistFromBin platform bin = .ok result ∧
    ((¬ ∃ objects, Readable platform bin objects) → result = none)

/-- **The decoder is safe exactly on inputs that its header checks reject, and on
readable ones with a node table that was allocated in full and copies that end.** -/
theorem safe_iff {platform : Platform} {bin : List UInt8} (small : bin.length < 2 ^ 32) :
    Safe platform bin ↔ Rejected platform bin ∨
      ∃ objects, Readable platform bin objects ∧ 8 * objects.length < 2 ^ 64 ∧
        (tableFor platform bin objects).Copies := by
  by_cases rejected : Rejected platform bin
  · exact ⟨fun _ => .inl rejected, fun _ => ⟨none, plistFromBin_rejected rejected, fun _ => rfl⟩⟩
  · constructor
    · rintro ⟨result, run, rejects⟩
      by_cases exists' : ∃ objects, Readable platform bin objects
      · obtain ⟨objects, readable⟩ := exists'
        obtain ⟨⟨fits, copies⟩, -⟩ := (plistFromBin_readable readable small rejected).mp run
        exact .inr ⟨objects, readable, fits, copies⟩
      · -- past its checks the decoder never returns without a tree
        cases rejects exists'
        rw [plistFromBin_eq rejected] at run
        obtain ⟨nodes, -, run⟩ := bind_eq_ok.mp run
        obtain ⟨table, -, run⟩ := bind_eq_ok.mp run
        split at run <;> cases run
    · rintro (isRejected | ⟨objects, readable, fits, copies⟩)
      · exact absurd isRejected rejected
      · exact ⟨_, (plistFromBin_readable readable small rejected).mpr ⟨⟨fits, copies⟩, rfl⟩,
          fun unreadable => absurd ⟨objects, readable⟩ unreadable⟩

/-! ## Two inputs -/

/-- A machine with 4 GiB of memory and ASCII text. -/
def asciiPlatform : Platform where
  malloc size := decide (size < 2 ^ 32)
  utf8ToUtf16 text := some (text.map fun b => b.toUInt16)
  utf16ToUtf8 units := some (units.map fun u => u.toUInt8)
  doubleOfFloat bits := bits.toUInt64
  floatOfDouble _ := none
  timeOfDouble bits := (bits.toNat, 0)
  doubleOfTime time := UInt64.ofNat time.1.toNat

/-- A property list of the given bytes between the header and the trailer, with
offsets and references of one byte. -/
def smallList (objects offsets : List UInt8) : List UInt8 :=
  bplistHeader ++ objects ++ offsets ++ List.replicate 6 0 ++ [1, 1] ++ be 8 offsets.length ++
    be 8 0 ++ be 8 (8 + objects.length)

/-- The array of true and 7. -/
def arrayOfTwo : List UInt8 := smallList [0xA2, 1, 2, 9, 0x10, 7] [8, 11, 12]

theorem arrayOfTwo_readable :
    Readable asciiPlatform arrayOfTwo [.array 2 [1, 2], .boolean true, .uint 7] where
  describes := by
    refine ⟨by decide, by decide, fun i object found => ?_⟩
    match i, found with
    | 0, found =>
      cases found
      exact .array (.inl rfl) (.short (by decide)) rfl
    | 1, found =>
      cases found
      exact .true
    | 2, found =>
      cases found
      exact @Written.uint _ 0 [7] _ (by decide) rfl
  width := by decide
  inRange := by decide
  root := by decide
  acyclic := ObjectTable.acyclic_of_lt (by decide +kernel)

theorem arrayOfTwo_history :
    (tableFor asciiPlatform arrayOfTwo [.array 2 [1, 2], .boolean true, .uint 7]).history 3 =
      [⟨0, false, 1⟩, ⟨0, false, 2⟩] := by
  decide +kernel

theorem arrayOfTwo_copies :
    (tableFor asciiPlatform arrayOfTwo [.array 2 [1, 2], .boolean true, .uint 7]).Copies := by
  refine (ObjectTable.copiesOk_iff (arrayOfTwo_readable.linkable (by decide))).mp ?_
  show ObjectTable.CopiesOk _ [] (ObjectTable.history _ 3)
  rw [arrayOfTwo_history]
  exact ⟨fun first => by simp [attached] at first, fun second => by simp [attached] at second,
    trivial⟩

/-- It is decoded safely. -/
theorem arrayOfTwo_safe : Safe asciiPlatform arrayOfTwo :=
  (safe_iff (by decide)).mpr (.inr ⟨_, arrayOfTwo_readable, by decide, arrayOfTwo_copies⟩)

/-- A dictionary whose key names entry 5 of two. -/
def keyOutOfRange : List UInt8 := smallList [0xD1, 5, 1, 9] [8, 11]

theorem keyOutOfRange_unsafe : ¬ Safe asciiPlatform keyOutOfRange := by
  rintro ⟨result, run, -⟩
  have fault : (plistFromBin asciiPlatform keyOutOfRange).toBool = false := by
    decide +kernel
  rw [run] at fault
  cases fault

end Irestore.Plist
