/-
# Plist.BinaryCompareLaws — what the hash table asks of its comparison

`g_hash_table_new(plist_data_hash, plist_data_compare)` takes the comparison for an
equality: an equivalence that the hash respects.

* `compare_accepts_iff`, `compare_ends_iff` — the comparison of any two nodes of a
  defined type: blobs by prefix, containers by pointer, the others by value; a blob that
  is longer than the second one is read past that one's end.
* `hash_pointer` — of a pointer only the upper five bytes are hashed.
* `lawful_iff_clear` — the laws hold of the nodes in memory exactly when all blobs have
  one length and equal blobs have pointers of one hash.
-/
import Irestore.Plist.BinaryCompare
import Mathlib.Data.Set.Insert

namespace Irestore.Plist

open Irestore.Library Irestore.Library.Bytes Irestore.Library.CMemory

set_option autoImplicit false

/-! ## Nodes of a defined type -/

/-- The data carries a value of its type, which is not PLIST_NONE. -/
def PlistData.Defined (d : PlistData) : Prop :=
  match d.type with
  | .boolean | .uint | .real => ∃ bits, d.value = .word bits
  | .string | .key => ∃ text, d.value = .strval text ∧ 0 ∉ text
  | .data => ∃ bytes, d.value = .buff bytes ∧ d.length = bytes.length
  | .date => ∃ sec usec, d.value = .timeval sec usec ∧ d.length = 16
  | .array | .dict => True
  | .none => False

/-- A node made for an item has a defined type. -/
theorem HeapNode.Holds.defined {node : HeapNode} {item : Item} (holds : node.Holds item) :
    node.data.Defined := by
  have nulFree (text : List UInt8) : 0 ∉ cString text := by
    intro member
    simpa using List.mem_takeWhile_imp member
  rw [holds.data]
  cases item with
  | boolean b => exact ⟨_, rfl⟩
  | uint n => exact ⟨_, rfl⟩
  | string text | key text => exact ⟨_, rfl, nulFree text⟩
  | data bytes => exact ⟨_, rfl, rfl⟩
  | array | dict => trivial

/-- The bytes of a blob; no other node has any. -/
def HeapNode.bytes (node : HeapNode) : List UInt8 :=
  match node.data.type, node.data.value with
  | .data, .buff bytes => bytes
  | _, _ => []

/-- What a node is told by besides its bytes: its type, and the pointer of a container or
the value of a node that is neither a container nor a blob. -/
def HeapNode.outline (node : HeapNode) : PlistType × Option UInt64 × Option PlistValue :=
  match node.data.type with
  | .data => (.data, none, none)
  | .array => (.array, some node.address, none)
  | .dict => (.dict, some node.address, none)
  | type => (type, none, some node.data.value)

/-- The first node is all that a comparison with its length sees of the second. -/
structure HeapNode.Begins (a b : HeapNode) : Prop where
  outline : a.outline = b.outline
  bytes : a.bytes <+: b.bytes

/-- The second node has all the bytes that a comparison with the length of the first one
reads of it. -/
def HeapNode.Fits (a b : HeapNode) : Prop :=
  a.data.type = .data → b.data.type = .data → a.bytes.length ≤ b.bytes.length

namespace HeapNode

variable {a b c : HeapNode}

theorem begins_refl (a : HeapNode) : a.Begins a := ⟨rfl, List.prefix_rfl⟩

theorem Begins.trans (first : a.Begins b) (second : b.Begins c) : a.Begins c :=
  ⟨first.outline.trans second.outline, first.bytes.trans second.bytes⟩

theorem outline_type (node : HeapNode) : node.outline.1 = node.data.type := by
  unfold outline
  split <;> simp_all

theorem Begins.type (begins : a.Begins b) : a.data.type = b.data.type := by
  rw [← a.outline_type, ← b.outline_type, begins.outline]

theorem bytes_of_type_ne (other : a.data.type ≠ .data) : a.bytes = [] := by
  unfold bytes
  split
  · exact absurd ‹a.data.type = .data› other
  · rfl

theorem Begins.fits (begins : a.Begins b) : a.Fits b := fun _ _ => begins.bytes.length_le

theorem outline_of_data (isData : a.data.type = .data) : a.outline = (.data, none, none) := by
  simp [outline, isData]

/-- Among nodes that are no blobs, to begin another one is to be like it. -/
theorem begins_iff_of_type_ne (other : a.data.type ≠ .data) :
    a.Begins b ↔ a.outline = b.outline := by
  constructor
  · exact Begins.outline
  · intro same
    refine ⟨same, ?_⟩
    rw [bytes_of_type_ne other]
    exact List.nil_prefix

/-- Among blobs, it is to have the first bytes of the other one. -/
theorem begins_iff_of_data (isData : a.data.type = .data) (isData' : b.data.type = .data) :
    a.Begins b ↔ a.bytes <+: b.bytes := by
  constructor
  · exact Begins.bytes
  · intro start
    refine ⟨?_, start⟩
    rw [outline_of_data isData, outline_of_data isData']

/-! ## What the comparison says of them -/

variable (left : a.data.Defined) (right : b.data.Defined)
include left right

/-- **Nodes of one type: a `memcmp` over the first blob, or a test that they are one.** -/
theorem compare_eq (same : a.data.type = b.data.type) :
    plistDataCompare a b =
      if a.data.type = .data then memcmp a.bytes b.bytes a.bytes.length
      else .ok (decide (a.outline = b.outline)) := by
  rw [plistDataCompare, if_neg (not_not_intro same)]
  unfold PlistData.Defined at left right
  rw [← same] at right
  cases type : a.data.type with
  | boolean | uint | real =>
    rw [type] at left right same
    obtain ⟨bits, value⟩ := left
    obtain ⟨bits', value'⟩ := right
    simp [outline, type, ← same, value, value']
  | string | key =>
    rw [type] at left right same
    obtain ⟨text, value, -⟩ := left
    obtain ⟨text', value', -⟩ := right
    simp [outline, type, ← same, value, value']
  | date =>
    rw [type] at left right same
    obtain ⟨sec, usec, value, -⟩ := left
    obtain ⟨sec', usec', value', -⟩ := right
    simp [outline, type, ← same, value, value']
  | data =>
    rw [type] at left right same
    obtain ⟨bytes, value, length⟩ := left
    obtain ⟨bytes', value', -⟩ := right
    simp [HeapNode.bytes, type, ← same, value, value', length]
  | array | dict =>
    rw [type] at same
    simp [outline, type, ← same]
  | none =>
    rw [type] at left
    exact left.elim

/-- **A node is accepted when the first one begins it.** -/
theorem compare_accepts_iff : plistDataCompare a b = .ok true ↔ a.Begins b := by
  by_cases same : a.data.type = b.data.type
  · rw [compare_eq left right same]
    split
    · rename_i isData
      rw [memcmp_length_eq_true, begins_iff_of_data isData (same ▸ isData)]
    · rename_i other
      simp [begins_iff_of_type_ne other]
  · rw [plistDataCompare, if_pos same]
    exact iff_of_false (fun ended => by cases ended) fun begins => same begins.type

/-- **The comparison has an answer when the second node has the bytes of the first.** -/
theorem compare_ends_iff : Ends (plistDataCompare a b) ↔ a.Fits b := by
  by_cases same : a.data.type = b.data.type
  · rw [compare_eq left right same]
    split
    · rename_i isData
      rw [memcmp_length_ends]
      exact ⟨fun fits _ _ => fits, fun fits => fits isData (same ▸ isData)⟩
    · rename_i other
      exact iff_of_true ⟨_, rfl⟩ fun isData => absurd isData other
  · rw [plistDataCompare, if_pos same]
    exact iff_of_true ⟨_, rfl⟩ fun isData isData' => absurd (isData.trans isData'.symm) same

/-- A node is rejected when it has the bytes of the first one, which does not begin it. -/
theorem compare_rejects_iff : plistDataCompare a b = .ok false ↔ a.Fits b ∧ ¬ a.Begins b := by
  rw [← compare_ends_iff left right, ← compare_accepts_iff left right]
  constructor
  · intro rejected
    exact ⟨⟨false, rejected⟩, fun accepted => by cases rejected.symm.trans accepted⟩
  · rintro ⟨⟨answer, run⟩, rejected⟩
    cases answer with
    | false => exact run
    | true => exact absurd run rejected

end HeapNode

/-! ## What the hash keeps of a pointer -/

/-- A byte of a pointer as the signed `char` the hash reads. -/
def pointerChar (address : UInt64) (i : Nat) : UInt32 :=
  (UInt8.ofNat (address.toNat / 256 ^ i)).toInt8.toInt32.toUInt32

/-- What is left of a pointer in its hash: its five upper bytes. -/
def pointerHash (address : UInt64) : UInt32 :=
  pointerChar address 3 <<< 28 ^^^ pointerChar address 4 <<< 21 ^^^ pointerChar address 5 <<< 14 ^^^
    pointerChar address 6 <<< 7 ^^^ pointerChar address 7

theorem shifted_out (h : UInt32) : h <<< 28 <<< 7 = 0 := by
  apply UInt32.toNat_inj.mp
  have first : UInt32.toNat 28 % 32 = 28 := rfl
  have second : UInt32.toNat 7 % 32 = 7 := rfl
  rw [UInt32.toNat_shiftLeft, UInt32.toNat_shiftLeft, first, second, Nat.shiftLeft_eq,
    Nat.shiftLeft_eq, UInt32.toNat_zero]
  omega

/-- Five more bytes shift out what was hashed before them. -/
theorem hashBytes_five (h : UInt32) (b c d e f : UInt8) :
    hashBytes h [b, c, d, e, f] = b.toInt8.toInt32.toUInt32 <<< 28 ^^^
      c.toInt8.toInt32.toUInt32 <<< 21 ^^^ d.toInt8.toInt32.toUInt32 <<< 14 ^^^
      e.toInt8.toInt32.toUInt32 <<< 7 ^^^ f.toInt8.toInt32.toUInt32 := by
  have two (x : UInt32) : x <<< 7 <<< 7 = x <<< 14 :=
    (UInt32.shiftLeft_add (by decide) (by decide) (by decide)).symm
  have three (x : UInt32) : x <<< 14 <<< 7 = x <<< 21 :=
    (UInt32.shiftLeft_add (by decide) (by decide) (by decide)).symm
  have four (x : UInt32) : x <<< 21 <<< 7 = x <<< 28 :=
    (UInt32.shiftLeft_add (by decide) (by decide) (by decide)).symm
  simp only [hashBytes, List.foldl_cons, List.foldl_nil, UInt32.shiftLeft_xor, two, three, four,
    shifted_out, UInt32.zero_xor]

/-- **Of a pointer only the upper five bytes are hashed.** -/
theorem hash_pointer (h : UInt32) (address : UInt64) :
    hashBytes h (le 8 address.toNat) = pointerHash address := by
  have lower : hashBytes h (le 8 address.toNat) =
      hashBytes (hashBytes h ((le 8 address.toNat).take 3)) ((le 8 address.toNat).drop 3) := by
    rw [hashBytes, hashBytes, hashBytes, ← List.foldl_append, List.take_append_drop]
  have upper : (le 8 address.toNat).drop 3 =
      [3, 4, 5, 6, 7].map fun i => UInt8.ofNat (address.toNat / 256 ^ i) := by
    simp only [le, Nat.div_div_eq_div_mul]
    rfl
  rw [lower, upper]
  exact hashBytes_five _ _ _ _ _ _

/-! ## The laws of the table -/

/-- The first node has the value of the second: the same bytes and length for a blob, the
same node for a container. -/
def HeapNode.SameValue (a b : HeapNode) : Prop :=
  a.data.type = b.data.type ∧
    match a.data.type with
    | .data => a.data.value = b.data.value ∧ a.data.length = b.data.length
    | .array | .dict => a = b
    | _ => a.data.value = b.data.value

/-- The nodes of defined types that are in memory at one time. -/
structure NodeHeap where
  nodes : Set HeapNode
  defined : ∀ a ∈ nodes, a.data.Defined
  distinct : ∀ a ∈ nodes, ∀ b ∈ nodes, a.address = b.address → a = b

namespace NodeHeap

/-- What `g_hash_table_new` takes for granted, and that comparing stays in the two nodes. -/
structure Lawful (heap : NodeHeap) : Prop where
  inside : ∀ a ∈ heap.nodes, ∀ b ∈ heap.nodes, Ends (plistDataCompare a b)
  refl : ∀ a ∈ heap.nodes, plistDataCompare a a = .ok true
  symm : ∀ a ∈ heap.nodes, ∀ b ∈ heap.nodes, plistDataCompare a b = .ok true →
    plistDataCompare b a = .ok true
  trans : ∀ a ∈ heap.nodes, ∀ b ∈ heap.nodes, ∀ c ∈ heap.nodes, plistDataCompare a b = .ok true →
    plistDataCompare b c = .ok true → plistDataCompare a c = .ok true
  value : ∀ a ∈ heap.nodes, ∀ b ∈ heap.nodes, plistDataCompare a b = .ok true → a.SameValue b
  hash : ∀ a ∈ heap.nodes, ∀ b ∈ heap.nodes, plistDataCompare a b = .ok true →
    plistDataHash a = plistDataHash b

/-- All blobs have one length, and equal blobs have pointers of one hash. -/
def Clear (heap : NodeHeap) : Prop :=
  ∀ a ∈ heap.nodes, ∀ b ∈ heap.nodes, a.data.type = .data → b.data.type = .data →
    a.bytes.length = b.bytes.length ∧
      (a.bytes = b.bytes → pointerHash a.address = pointerHash b.address)

variable {heap : NodeHeap} {a b : HeapNode}

theorem Clear.fits (clear : heap.Clear) (left : a ∈ heap.nodes) (right : b ∈ heap.nodes) :
    a.Fits b := fun isData isData' => (clear a left b right isData isData').1.le

/-- A blob that begins another one is equal to it. -/
theorem Clear.bytes_eq (clear : heap.Clear) (left : a ∈ heap.nodes) (right : b ∈ heap.nodes)
    (begins : a.Begins b) (isData : a.data.type = .data) : a.bytes = b.bytes :=
  begins.bytes.eq_of_length (clear a left b right isData (begins.type ▸ isData)).1

theorem Clear.begins_symm (clear : heap.Clear) (left : a ∈ heap.nodes) (right : b ∈ heap.nodes)
    (begins : a.Begins b) : b.Begins a := by
  refine ⟨begins.outline.symm, ?_⟩
  by_cases isData : a.data.type = .data
  · exact ⟨[], by rw [List.append_nil, clear.bytes_eq left right begins isData]⟩
  · rw [HeapNode.bytes_of_type_ne (begins.type ▸ isData)]
    exact List.nil_prefix

/-- The nodes the comparison accepts have one value. -/
theorem Clear.sameValue (clear : heap.Clear) (left : a ∈ heap.nodes) (right : b ∈ heap.nodes)
    (begins : a.Begins b) : a.SameValue b := by
  have typed := begins.type
  have outline := begins.outline
  have defined := heap.defined a left
  have defined' := heap.defined b right
  refine ⟨typed, ?_⟩
  unfold HeapNode.outline at outline
  unfold PlistData.Defined at defined defined'
  rw [← typed] at outline defined'
  cases type : a.data.type with
  | data =>
    have same := clear.bytes_eq left right begins type
    rw [type] at defined defined'
    obtain ⟨bytes, value, length⟩ := defined
    obtain ⟨bytes', value', length'⟩ := defined'
    simp only [HeapNode.bytes, type, ← typed, value, value'] at same
    exact ⟨by rw [value, value', same], by rw [length, length', same]⟩
  | array | dict =>
    rw [type] at outline
    exact heap.distinct a left b right (by simpa using outline)
  | none =>
    rw [type] at defined
    exact defined.elim
  | _ =>
    rw [type] at outline
    simpa using outline

/-- They have one hash. -/
theorem Clear.sameHash (clear : heap.Clear) (left : a ∈ heap.nodes) (right : b ∈ heap.nodes)
    (begins : a.Begins b) : plistDataHash a = plistDataHash b := by
  have typed := begins.type
  have same := (clear.sameValue left right begins).2
  have defined := heap.defined a left
  have defined' := heap.defined b right
  unfold PlistData.Defined at defined defined'
  rw [← typed] at defined'
  cases type : a.data.type with
  | data =>
    have pointer := (clear a left b right type (typed ▸ type)).2
      (clear.bytes_eq left right begins type)
    simp only [plistDataHash, hashedBytes, type, ← typed, hash_pointer, pointer]
  | array | dict =>
    rw [type] at same
    rw [same]
  | none =>
    rw [type] at defined
    exact defined.elim
  | date =>
    rw [type] at same defined defined'
    obtain ⟨sec, usec, value, length⟩ := defined
    have value' : b.data.value = .timeval sec usec := same.symm.trans value
    obtain ⟨_, _, -, length'⟩ := defined'
    simp only [plistDataHash, hashedBytes, type, ← typed, value, value', length, length']
  | string | key =>
    rw [type] at same defined
    obtain ⟨text, value, -⟩ := defined
    have value' : b.data.value = .strval text := same.symm.trans value
    simp only [plistDataHash, hashedBytes, type, ← typed, value, value']
  | boolean | uint | real =>
    rw [type] at same defined
    obtain ⟨bits, value⟩ := defined
    have value' : b.data.value = .word bits := same.symm.trans value
    simp only [plistDataHash, hashedBytes, type, ← typed, value, value']

/-- **The comparison is an equality for the hash table exactly when all blobs have one
length.** -/
theorem lawful_iff_clear (heap : NodeHeap) : heap.Lawful ↔ heap.Clear := by
  have accepts {a b : HeapNode} (left : a ∈ heap.nodes) (right : b ∈ heap.nodes) :
      plistDataCompare a b = .ok true ↔ a.Begins b :=
    HeapNode.compare_accepts_iff (heap.defined a left) (heap.defined b right)
  have ends {a b : HeapNode} (left : a ∈ heap.nodes) (right : b ∈ heap.nodes) :
      Ends (plistDataCompare a b) ↔ a.Fits b :=
    HeapNode.compare_ends_iff (heap.defined a left) (heap.defined b right)
  constructor
  · intro lawful a left b right isData isData'
    have short := (ends left right).mp (lawful.inside a left b right) isData isData'
    have long := (ends right left).mp (lawful.inside b right a left) isData' isData
    refine ⟨le_antisymm short long, fun same => ?_⟩
    have accepted := (accepts left right).mpr
      ((HeapNode.begins_iff_of_data isData isData').mpr (same ▸ List.prefix_rfl))
    have hash := lawful.hash a left b right accepted
    simp only [plistDataHash, hashedBytes, isData, isData', hash_pointer] at hash
    exact hash
  · intro clear
    refine ⟨?_, ?_, ?_, ?_, ?_, ?_⟩
    · intro a left b right
      exact (ends left right).mpr (clear.fits left right)
    · intro a left
      exact (accepts left left).mpr a.begins_refl
    · intro a left b right accepted
      have begins := (accepts left right).mp accepted
      exact (accepts right left).mpr (clear.begins_symm left right begins)
    · intro a left b middle c right accepted accepted'
      exact (accepts left right).mpr
        (((accepts left middle).mp accepted).trans ((accepts middle right).mp accepted'))
    · intro a left b right accepted
      exact clear.sameValue left right ((accepts left right).mp accepted)
    · intro a left b right accepted
      exact clear.sameHash left right ((accepts left right).mp accepted)

/-- A blob of one byte and one that goes on behind it. -/
def twoBlobs : NodeHeap where
  nodes := {⟨0x1000, plistNewData [1]⟩, ⟨0x1010, plistNewData [1, 2]⟩}
  defined := by
    rintro a (rfl | rfl)
    · exact ⟨_, rfl, rfl⟩
    · exact ⟨_, rfl, rfl⟩
  distinct := by
    rintro a (rfl | rfl) b (rfl | rfl) same
    · rfl
    · exact absurd same (by decide)
    · exact absurd same (by decide)
    · rfl

/-- The longer blob is taken for the shorter one, and the shorter one read past its end. -/
theorem shorter_blob_accepts_longer :
    plistDataCompare ⟨0x1000, plistNewData [1]⟩ ⟨0x1010, plistNewData [1, 2]⟩ = .ok true ∧
      plistDataCompare ⟨0x1010, plistNewData [1, 2]⟩ ⟨0x1000, plistNewData [1]⟩ =
        .error .outOfBounds ∧ ¬ twoBlobs.Lawful := by
  refine ⟨by decide, by decide, ?_⟩
  intro lawful
  obtain ⟨accepted, ended⟩ := lawful.inside ⟨0x1010, plistNewData [1, 2]⟩ (.inr rfl)
    ⟨0x1000, plistNewData [1]⟩ (.inl rfl)
  cases ended

end NodeHeap

end Irestore.Plist
