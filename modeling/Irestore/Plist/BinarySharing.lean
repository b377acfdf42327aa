/-
# Plist.BinarySharing — nodes that are written once and decoded as copies

A number given to several children is a scalar's.  The decoder moves its node under the
first of them and copies it for the others; it copies eight bytes for each byte of a
blob, so only an empty blob can be copied.

* `sound` — the document of a property list shows what its references name.
* `copies_iff` — its copies end when no blob with bytes is shared.
-/
import Irestore.Plist.BinaryOutput

namespace Irestore.Plist

open Irestore.Library Irestore.Library.Bytes Irestore.Library.CMemory

set_option autoImplicit false

theorem exists_split_of_ne {α : Type} {a b : α} {xs : List α} (left : a ∈ xs) (right : b ∈ xs)
    (differ : a ≠ b) : ∃ front back, (xs = front ++ b :: back ∧ a ∈ front) ∨
      (xs = front ++ a :: back ∧ b ∈ front) := by
  obtain ⟨front, back, rfl⟩ := List.append_of_mem left
  rw [List.mem_append, List.mem_cons] at right
  rcases right with inFront | same | inBack
  · exact ⟨front, back, .inr ⟨rfl, inFront⟩⟩
  · exact absurd same.symm differ
  · obtain ⟨mid, rest, rfl⟩ := List.append_of_mem inBack
    exact ⟨front ++ a :: mid, rest, .inl ⟨by simp, by simp⟩⟩

/-- The objects of the file as the decoder has them. -/
abbrev Serialize.document (platform : Platform) (probing : RefProbing) (ser : Serialize) :
    ObjectTable :=
  tableFor platform (ser.file platform probing) (ser.described platform probing)

/-- No blob with bytes has the number of two children. -/
def Serialize.SharesEmpty (probing : RefProbing) (ser : Serialize) : Prop :=
  ∀ one ∈ ser.uses, ∀ other ∈ ser.uses, one.2 ≠ other.2 →
    ser.index probing one.2 = ser.index probing other.2 →
      ∀ stored below u, ser.objects[ser.index probing one.2]? = some (stored, below) →
        stored.Holds (.data u) → u = []

variable {platform : Platform} {probing : RefProbing} {plist : HeapNode}
  {children : Siblings HeapNode} {ser : Serialize}

namespace Serialized

/-- What has the number of two children is a scalar. -/
theorem scalar_of_shared (serialized : Serialized platform probing plist children ser)
    {one other : Nat × HeapNode} (left : one ∈ ser.uses) (right : other ∈ ser.uses)
    (differ : one.2 ≠ other.2) (same : ser.index probing one.2 = ser.index probing other.2)
    {stored : HeapNode} {below : Siblings HeapNode}
    (found : ser.objects[ser.index probing one.2]? = some (stored, below)) {item : Item}
    (holds : stored.Holds item) : item.isContainer = false := by
  by_contra container
  rw [Bool.not_eq_false] at container
  have isChild {use : Nat × HeapNode} (member : use ∈ ser.uses)
      (isIndex : ser.index probing use.2 = ser.index probing one.2) : stored = use.2 := by
    obtain ⟨object, atIndex, isChild⟩ := Serialize.mem_uses.mp member
    have inside := List.mem_of_getElem? atIndex
    obtain ⟨-, stored', below', found', stands⟩ := serialized.child_found inside isChild
    rw [isIndex] at found'
    cases found.symm.trans found'
    exact serialized.eq_of_container inside (List.mem_of_getElem? found) isChild stands holds
      container
  exact differ ((isChild left rfl).symm.trans (isChild right same.symm))

/-- A reference to an entry that has a parent is to one shared by two children. -/
theorem shared_of_attached (serialized : Serialized platform probing plist children ser)
    {before after : List Reference} {r : Reference}
    (split : ser.uses.map (ser.referenceOf probing) = before ++ r :: after)
    (already : attached before r.target = true) :
    ∃ one ∈ ser.uses, ∃ other ∈ ser.uses, one.2 ≠ other.2 ∧
      ser.index probing one.2 = r.target ∧ ser.index probing other.2 = r.target := by
  obtain ⟨front, rest, uses, rfl, later⟩ := List.map_eq_append_iff.mp split
  obtain ⟨one, back, rfl, rfl, -⟩ := List.map_eq_cons_iff.mp later
  obtain ⟨p, member, target⟩ := List.any_eq_true.mp already
  obtain ⟨other, inFront, rfl⟩ := List.mem_map.mp member
  have nodup := serialized.uses_nodup
  rw [uses, List.map_append, List.map_cons, List.nodup_append] at nodup
  refine ⟨one, by simp [uses], other, by simp [uses, inFront], ?_, rfl, of_decide_eq_true target⟩
  exact (nodup.2.2 _ (List.mem_map_of_mem inFront) _ List.mem_cons_self).symm

/-- The entry at the number of a child. -/
theorem entry_found (serialized : Serialized platform probing plist children ser)
    {use : Nat × HeapNode} (member : use ∈ ser.uses) :
    ∃ stored below item, ser.objects[ser.index probing use.2]? = some (stored, below) ∧
      (ser.described platform probing)[ser.index probing use.2]? =
        some (fileObject platform (ser.index probing) ser.width (stored, below)) ∧
      stored.Holds item ∧ Shaped below item ∧ isKey stored = isKey use.2 := by
  obtain ⟨object, atIndex, isChild⟩ := Serialize.mem_uses.mp member
  have inside := List.mem_of_getElem? atIndex
  obtain ⟨-, stored, below, found, stands⟩ := serialized.child_found inside isChild
  obtain ⟨item, holds, shaped, -⟩ := serialized.holds_of_mem (List.mem_of_getElem? found)
  obtain ⟨item', holds'⟩ := serialized.isPlist.held use.2
    (serialized.numbering.child_mem_labels inside isChild)
  refine ⟨stored, below, item, found, ?_, holds, shaped, isKey_of_standsFor holds holds' stands⟩
  rw [Serialize.described, List.getElem?_map, found, Option.map_some]

section Document

variable (serialized : Serialized platform probing plist children ser)
  (small : (ser.file platform probing).length < 2 ^ 32)
include serialized small

/-- **The document shows what its references name.** -/
theorem sound (i : Nat) : (ser.document platform probing).Sound i := by
  have regular := serialized.regular small
  have history := serialized.history_eq small
  refine regular.sound_of ?_ ?_ ?_ i
  · intro r member r' member' same
    change r ∈ (ser.document platform probing).history
      (ser.described platform probing).length at member
    change r' ∈ (ser.document platform probing).history
      (ser.described platform probing).length at member'
    rw [history] at member member'
    obtain ⟨use, inUses, rfl⟩ := List.mem_map.mp member
    obtain ⟨use', inUses', rfl⟩ := List.mem_map.mp member'
    obtain ⟨stored, below, -, found, -, -, -, kind⟩ := serialized.entry_found inUses
    obtain ⟨stored', below', -, found', -, -, -, kind'⟩ := serialized.entry_found inUses'
    have index : ser.index probing use.2 = ser.index probing use'.2 := same
    rw [index] at found
    cases found.symm.trans found'
    exact kind.symm.trans kind'
  · intro before r after split already
    change (ser.document platform probing).history
      (ser.described platform probing).length = _ at split
    rw [history] at split
    obtain ⟨one, left, other, right, differ, target, target'⟩ :=
      serialized.shared_of_attached split already
    obtain ⟨stored, below, item, found, atIndex, holds, shaped, -⟩ :=
      serialized.entry_found left
    have scalar := serialized.scalar_of_shared left right differ (target.trans target'.symm) found
      holds
    rw [target] at atIndex
    have named := regular.references_eq atIndex
    have refSize : (ser.document platform probing).refSize = ser.width := by
      rw [Serialize.document, tableFor, trailer_file small]
    rw [refSize, serialized.members_eq small (List.mem_of_getElem? found)] at named
    have none : below.tops = [] := by
      rw [List.eq_nil_iff_forall_not_mem]
      intro child isChild
      cases scalar.symm.trans (container_of_children shaped isChild)
    rw [named, none]
    rfl
  · intro object member
    obtain ⟨numbered, inside, rfl⟩ := List.mem_map.mp member
    obtain ⟨item, holds, -, valid⟩ := serialized.holds_of_mem inside
    show 0 ∉ (fileObject platform (ser.index probing) ser.width (numbered.1, numbered.2)).text platform
    rw [text_fileObject serialized.documented holds valid]
    exact holds.nulFree

/-- The root, which no key stands for, is no key. -/
theorem root_not_retyped (root : isKey plist = false) :
    retyped ((ser.document platform probing).history (ser.described platform probing).length) 0 =
      false := by
  rw [serialized.history_eq small, retyped, List.any_eq_false]
  intro r member
  obtain ⟨use, inUses, rfl⟩ := List.mem_map.mp member
  obtain ⟨stored, below, -, found, -, -, -, kind⟩ :=
    @entry_found platform probing _ _ _ serialized _ inUses
  intro isKey'
  simp only [Bool.and_eq_true, decide_eq_true_eq] at isKey'
  obtain ⟨key, target⟩ := isKey'
  have index : ser.index probing use.2 = 0 := target
  rw [index] at found
  cases serialized.numbering.root.symm.trans found
  cases root.symm.trans (kind.trans key)

/-- Only a string is ever retyped. -/
theorem not_retyped {before after : List Reference} {r : Reference}
    (split : (ser.document platform probing).history (ser.described platform probing).length =
      before ++ r :: after) {object : Object}
    (found : (ser.document platform probing).objects[r.target]? = some object)
    (other : object.isString = false) : retyped (before ++ [r]) r.target = false := by
  by_contra isKey'
  rw [Bool.not_eq_false] at isKey'
  have isString := (serialized.regular small).isString_of_retyped (fun p member => by
    refine ObjectTable.history_real (i := (ser.described platform probing).length) p ?_
    show p ∈ (ser.document platform probing).history (ser.described platform probing).length
    rw [split]
    rcases List.mem_append.mp member with before | last
    · exact List.mem_append_left _ before
    · rw [List.mem_singleton.mp last]
      exact List.mem_append_right _ List.mem_cons_self) isKey'
  rw [found, Option.any_some, other] at isString
  cases isString

/-- **The copies end when no blob with bytes is shared.** -/
theorem copies_iff : (ser.document platform probing).Copies ↔ ser.SharesEmpty probing := by
  have regular := serialized.regular small
  have history := serialized.history_eq small
  constructor
  · intro copies one left other right differ same stored below u found holds
    -- the later of the two is copied
    have later : ∀ front back use, ser.uses = front ++ use :: back →
        (∃ earlier ∈ front, ser.index probing earlier.2 = ser.index probing use.2) →
        ser.index probing use.2 = ser.index probing one.2 → u = [] := by
      rintro front back use uses ⟨earlier, inFront, index⟩ isIndex
      have split : ser.uses.map (ser.referenceOf probing) = front.map (ser.referenceOf probing) ++
          ser.referenceOf probing use :: back.map (ser.referenceOf probing) := by
        rw [uses, List.map_append, List.map_cons]
      obtain ⟨object, atTarget, copyable⟩ := copies _ _ _ (history.trans split) (by
        rw [attached, List.any_eq_true]
        exact ⟨_, List.mem_map_of_mem inFront, decide_eq_true index⟩)
      have isObject : (ser.described platform probing)[ser.index probing use.2]? = some object :=
        atTarget
      rw [isIndex, Serialize.described, List.getElem?_map, found, Option.map_some,
        Option.some.injEq] at isObject
      have isItem := holds.item?
      have isData : object = .data u := by
        rw [← isObject]
        simp only [fileObject, isItem]
      subst isData
      rw [serialized.not_retyped small (history.trans split) atTarget rfl] at copyable
      exact copyable
    have apart : one ≠ other := fun equal => differ (congrArg Prod.snd equal)
    obtain ⟨front, back, ⟨uses, earlier⟩ | ⟨uses, earlier⟩⟩ := exists_split_of_ne left right apart
    · exact later front back other uses ⟨one, earlier, same⟩ same.symm
    · exact later front back one uses ⟨other, earlier, same.symm⟩ rfl
  · intro empty before r after split already
    change (ser.document platform probing).history
      (ser.described platform probing).length = _ at split
    have parts := split
    rw [history] at parts
    obtain ⟨one, left, other, right, differ, target, target'⟩ :=
      serialized.shared_of_attached parts already
    obtain ⟨stored, below, item, found, atIndex, holds, -, -⟩ := serialized.entry_found left
    have scalar := serialized.scalar_of_shared left right differ (target.trans target'.symm) found
      holds
    rw [target] at atIndex
    refine ⟨_, atIndex, ?_⟩
    have isItem := holds.item?
    have plain := serialized.not_retyped small split atIndex
    cases item with
    | boolean b | uint n =>
      simp only [fileObject, isItem] at plain ⊢
      exact plain rfl
    | string text | key text =>
      simp only [fileObject, isItem, textObject]
      split <;> trivial
    | data bytes =>
      simp only [fileObject, isItem] at plain ⊢
      rw [plain rfl]
      exact empty one left other right differ (target.trans target'.symm) stored below bytes found
        holds
    | array | dict => cases scalar

end Document

end Serialized

end Irestore.Plist
