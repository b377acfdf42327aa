/-
# Plist.BinaryLink — the second pass of `plist_from_bin`, as a history of references

The whole effect of the second pass is the list of the references it has followed
so far: an entry has a parent once it has been followed, it is a key once it has
been followed as one, and a container has one child for each reference of its own.
`tableOf` says so, entry by entry; `history i` is the list after the containers
below `i`.  A container that was retyped as a key before its turn is skipped, so it
is the history itself that decides which references are followed.

* `linkReference_iff` — one reference: linking ends exactly when the copy it may
  have to make ends, and leaves the table of the longer history.
* `linkObjects_iff` — the whole pass.

Copying never descends: a container with children has been linked, its reference
block is freed, and copying the freed block is a fault (`barren_of_copied`).
-/
import Irestore.Plist.BinaryHistory

namespace Irestore.Plist

open Irestore.Library Irestore.Library.Bytes Irestore.Library.CMemory

set_option autoImplicit false

/-! ## Histories -/

/-- Has the entry been followed as a key? -/
def retyped (past : List Reference) (i : Nat) : Bool :=
  past.any fun r => r.key && decide (r.target = i)

/-- Has the entry been followed? -/
def attached (past : List Reference) (i : Nat) : Bool := past.any fun r => decide (r.target = i)

theorem retyped_append (past : List Reference) (r : Reference) (i : Nat) :
    retyped (past ++ [r]) i = (retyped past i || (r.key && decide (r.target = i))) := by
  simp [retyped]

theorem attached_append (past : List Reference) (r : Reference) (i : Nat) :
    attached (past ++ [r]) i = (attached past i || decide (r.target = i)) := by
  simp [attached]

/-- The objects of a property list, its references `refSize` bytes wide. -/
structure ObjectTable where
  platform : Platform
  refSize : Nat
  objects : List Object

namespace ObjectTable

variable (doc : ObjectTable)

/-- The references of entry `i`. -/
def references (i : Nat) : List Reference :=
  match doc.objects[i]? with
  | some object => object.references doc.refSize i
  | none => []

/-- The references followed at the turn of entry `i`: none when it is a key by now. -/
def followed (past : List Reference) (i : Nat) : List Reference :=
  if retyped past i then [] else doc.references i

/-- The references followed before the turn of entry `i`. -/
def history : Nat → List Reference
  | 0 => []
  | i + 1 => history i ++ doc.followed (history i) i

/-- Is the entry a container whose references are followed? -/
def linked (i : Nat) : Bool :=
  doc.objects[i]?.any Object.isContainer && !retyped (doc.history i) i

/-- Its reference block is freed at the end of its turn. -/
def freedAfter (done i : Nat) : Bool := decide (i < done) && doc.linked i

/-- The data of an entry. -/
def dataAfter (past : List Reference) (i : Nat) (object : Object) : PlistData :=
  if retyped past i then { object.node doc.platform with type := .key }
  else object.node doc.platform

/-- The data of the copy that reference `r` makes of its target, should it need one. -/
def copyOf (past : List Reference) (r : Reference) : Checked PlistData :=
  match doc.objects[r.target]? with
  | some object =>
      copyPlistData (doc.dataAfter (past ++ [r]) r.target object)
        (doc.freedAfter r.container r.target)
  | none => .error .outOfBounds

/-- The child a reference makes. -/
def childFor (past : List Reference) (r : Reference) : Child :=
  if attached past r.target then
    match doc.copyOf past r with
    | .ok data => .copy data .nil
    | .error _ => .table r.target
  else .table r.target

/-- The children that the references `rest` make for entry `i`, after `seen`. -/
def childrenFrom (i : Nat) (seen : List Reference) : List Reference → List Child
  | [] => []
  | r :: rest =>
      (if r.container = i then [doc.childFor seen r] else []) ++
        childrenFrom i (seen ++ [r]) rest

/-- Entry `i` after the turns of the entries below `done`, types as after `typed`
and links as after `past`. -/
def slotOf (done : Nat) (typed past : List Reference) (i : Nat) : Option Slot :=
  doc.objects[i]?.map fun object =>
    { data := doc.dataAfter typed i object
      freed := doc.freedAfter done i
      attached := attached past i
      children := doc.childrenFrom i [] past }

def tableOf (done : Nat) (typed past : List Reference) : NodeTable :=
  ⟨doc.objects.length, doc.slotOf done typed past⟩

/-- A reference to an entry that has a parent needs a copy that ends. -/
def CopyOk (past : List Reference) (r : Reference) : Prop :=
  attached past r.target = true → ∃ data, doc.copyOf past r = .ok data

theorem childrenFrom_append (i : Nat) (r : Reference) : ∀ seen past : List Reference,
    doc.childrenFrom i seen (past ++ [r]) = doc.childrenFrom i seen past ++
      if r.container = i then [doc.childFor (seen ++ past) r] else []
  | seen, [] => by simp [childrenFrom]
  | seen, p :: past => by
      rw [List.cons_append, childrenFrom, childrenFrom, childrenFrom_append i r (seen ++ [p]) past]
      simp

theorem childrenFrom_eq_nil {i : Nat} : ∀ {seen past : List Reference},
    (∀ r ∈ past, r.container ≠ i) → doc.childrenFrom i seen past = []
  | _, [], _ => rfl
  | seen, r :: past, others => by
      rw [childrenFrom, if_neg (others r (by simp)), List.nil_append]
      exact childrenFrom_eq_nil fun r' member => others r' (by simp [member])

/-! ## One reference -/

section Step

variable {doc}

theorem deref_tableOf {done i : Nat} {typed past : List Reference} {object : Object}
    (found : doc.objects[i]? = some object) :
    (doc.tableOf done typed past).deref i = .ok
      { data := doc.dataAfter typed i object
        freed := doc.freedAfter done i
        attached := attached past i
        children := doc.childrenFrom i [] past } := by
  have inside : i < doc.objects.length := (List.getElem?_eq_some_iff.mp found).1
  simp only [NodeTable.deref, tableOf, if_pos inside, slotOf, found, Option.map_some]

/-- Retyping the target is what a key reference does first. -/
theorem retype_tableOf (done : Nat) (past : List Reference) (r : Reference) :
    (if r.key then (doc.tableOf done past past).update r.target Slot.retype
      else doc.tableOf done past past) = doc.tableOf done (past ++ [r]) past := by
  have typed (i : Nat) (object : Object) : doc.dataAfter (past ++ [r]) i object =
      if r.key = true ∧ r.target = i then { doc.dataAfter past i object with type := .key }
      else doc.dataAfter past i object := by
    simp only [dataAfter, retyped_append]
    cases retyped past i <;> cases r.key <;> by_cases same : r.target = i <;> simp [same]
  cases isKey : r.key with
  | false =>
    simp only [Bool.false_eq_true, if_false, tableOf, NodeTable.mk.injEq, true_and]
    funext i
    simp only [slotOf, typed, isKey, Bool.false_eq_true, false_and, if_false]
  | true =>
    simp only [if_true, tableOf, NodeTable.update, NodeTable.mk.injEq, true_and]
    funext i
    by_cases same : i = r.target
    · subst same
      simp only [if_true, slotOf, Option.map_map, typed, isKey, and_self]
      rfl
    · simp only [if_neg same, slotOf, typed, isKey, true_and, if_neg (Ne.symm same)]

/-- Appending the child, and giving the target a parent when it has none. -/
theorem append_tableOf {done : Nat} {past typed : List Reference} {r : Reference}
    (differ : r.target ≠ r.container) :
    ((if attached past r.target then doc.tableOf done typed past
      else (doc.tableOf done typed past).update r.target Slot.attach).update r.container
        (Slot.append (doc.childFor past r))) = doc.tableOf done typed (past ++ [r]) := by
  have slots : ∀ i, doc.slotOf done typed (past ++ [r]) i =
      if i = r.container then (doc.slotOf done typed past i).map (Slot.append (doc.childFor past r))
      else if i = r.target then (doc.slotOf done typed past i).map Slot.attach
      else doc.slotOf done typed past i := by
    intro i
    simp only [slotOf, childrenFrom_append, attached_append, List.nil_append]
    by_cases isContainer : i = r.container
    · subst isContainer
      simp only [if_true, Option.map_map, decide_eq_false differ, Bool.or_false]
      rfl
    · rw [if_neg isContainer, if_neg (Ne.symm isContainer), List.append_nil]
      by_cases isTarget : i = r.target
      · subst isTarget
        simp only [if_true, Option.map_map, decide_true, Bool.or_true]
        rfl
      · simp only [if_neg isTarget, decide_eq_false (Ne.symm isTarget), Bool.or_false]
  have attach : ∀ i, attached past r.target = true → i = r.target →
      (doc.slotOf done typed past i).map Slot.attach = doc.slotOf done typed past i := by
    rintro i already rfl
    simp only [slotOf, Option.map_map, already]
    rfl
  cases already : attached past r.target with
  | true =>
    simp only [if_true, tableOf, NodeTable.update, NodeTable.mk.injEq, true_and]
    funext i
    rw [slots]
    by_cases isContainer : i = r.container
    · rw [if_pos isContainer, if_pos isContainer]
    · rw [if_neg isContainer, if_neg isContainer]
      by_cases isTarget : i = r.target
      · rw [if_pos isTarget, attach i already isTarget]
      · rw [if_neg isTarget]
  | false =>
    simp only [Bool.false_eq_true, if_false, tableOf, NodeTable.update, NodeTable.mk.injEq,
      true_and]
    funext i
    rw [slots]
    by_cases isContainer : i = r.container
    · have other : i ≠ r.target := fun same => differ (same.symm.trans isContainer)
      rw [if_pos isContainer, if_pos isContainer, if_neg other]
    · rw [if_neg isContainer, if_neg isContainer]

/-- **One reference.**  Its target has no children when it is copied (`barren`). -/
theorem linkReference_iff {past : List Reference} {r : Reference} {next : NodeTable}
    (target : r.target < doc.objects.length) (differ : r.target ≠ r.container)
    (barren : (∃ data, doc.copyOf past r = .ok data) → doc.childrenFrom r.target [] past = []) :
    linkReference (doc.tableOf r.container past past) r = .ok next ↔
      doc.CopyOk past r ∧ next = doc.tableOf r.container (past ++ [r]) (past ++ [r]) := by
  obtain ⟨object, found⟩ : ∃ object, doc.objects[r.target]? = some object :=
    ⟨_, List.getElem?_eq_getElem target⟩
  have read := @deref_tableOf doc r.container _ past past _ found
  -- a key reference retypes its target first
  have typed : linkReference (doc.tableOf r.container past past) r =
      linkNode r.container r.target (doc.tableOf r.container (past ++ [r]) past) := by
    rw [← retype_tableOf]
    unfold linkReference linkKey
    cases r.key with
    | false => rfl
    | true => simp only [if_true, read, ok_bind]
  have copied : doc.copyOf past r =
      copyPlistData (doc.dataAfter (past ++ [r]) r.target object)
        (doc.freedAfter r.container r.target) := by
    rw [copyOf, found]
  have linked := @append_tableOf doc r.container past (past ++ [r]) r differ
  rw [typed, linkNode, if_pos (show r.target < (doc.tableOf _ _ _).size from target),
    deref_tableOf found, ok_bind]
  dsimp only
  cases already : attached past r.target with
  | false =>
    have first : doc.childFor past r = .table r.target := by
      rw [childFor, already]
      rfl
    rw [already, first] at linked
    simp only [Bool.false_eq_true, if_false] at linked ⊢
    rw [linked]
    simp only [pure_eq_ok, Except.ok.injEq, CopyOk, already, Bool.false_eq_true, false_imp_iff,
      true_and, eq_comm]
  | true =>
    rw [already] at linked
    simp only [if_true] at linked ⊢
    rw [NodeTable.copyDeep, deref_tableOf found, ok_bind, ← copied]
    cases outcome : doc.copyOf past r with
    | error fault =>
      simp only [error_bind, reduceCtorEq, CopyOk, already, outcome, exists_false, imp_false,
        not_true_eq_false, false_and]
    | ok data =>
      have second : doc.childFor past r = .copy data .nil := by
        rw [childFor, already, outcome]
        rfl
      rw [barren ⟨data, outcome⟩, ok_bind, List.foldrM_nil]
      rw [second] at linked
      simp only [pure_eq_ok, ok_bind, linked, Except.ok.injEq, CopyOk, already, outcome,
        exists_eq', true_imp_iff, true_and, eq_comm]

end Step

/-! ## Tables whose references can all be followed -/

/-- Every reference block is whole and every block below 4 GiB, every reference names
an entry, and none its own container. -/
structure Linkable : Prop where
  linkable : ∀ object ∈ doc.objects, object.Linkable doc.refSize doc.objects.length
  small : ∀ count refs, .array count refs ∈ doc.objects ∨ .dict count refs ∈ doc.objects →
    refs.length < 2 ^ 32
  smallData : ∀ bytes, .data bytes ∈ doc.objects → bytes.length < 2 ^ 32
  irreflexive : ∀ i, ∀ r ∈ doc.references i, r.target ≠ i

/-- Every copy that following the references takes ends. -/
def CopiesOk : List Reference → List Reference → Prop
  | _, [] => True
  | past, r :: rest => doc.CopyOk past r ∧ CopiesOk (past ++ [r]) rest

variable {doc}

theorem container_of_mem {i : Nat} {r : Reference} (member : r ∈ doc.references i) :
    r.container = i ∧ ∃ object ∈ doc.objects, doc.objects[i]? = some object ∧
      object.isContainer = true ∧ r ∈ object.references doc.refSize i := by
  unfold references at member
  cases found : doc.objects[i]? with
  | none =>
    rw [found] at member
    cases member
  | some object =>
    rw [found] at member
    obtain ⟨container, isContainer⟩ := Object.container_of_mem member
    exact ⟨container, object, List.mem_of_getElem? found, rfl, isContainer, member⟩

theorem Linkable.target_lt (linkable : doc.Linkable) {i : Nat} {r : Reference}
    (member : r ∈ doc.references i) : r.target < doc.objects.length := by
  obtain ⟨-, object, inside, -, -, isReference⟩ := container_of_mem member
  exact (linkable.linkable object inside).target_lt isReference

theorem mem_references_of_followed {past : List Reference} {i : Nat} {r : Reference}
    (member : r ∈ doc.followed past i) : retyped past i = false ∧ r ∈ doc.references i := by
  unfold followed at member
  split at member
  · cases member
  · rename_i plain
    exact ⟨by simpa using plain, member⟩

theorem mem_history {r : Reference} : ∀ {i : Nat}, r ∈ doc.history i →
    r.container < i ∧ retyped (doc.history r.container) r.container = false ∧
      r ∈ doc.references r.container
  | i + 1, member => by
      rcases List.mem_append.mp member with before | here
      · obtain ⟨below, rest⟩ := mem_history before
        exact ⟨by omega, rest⟩
      · obtain ⟨plain, isReference⟩ := mem_references_of_followed here
        obtain ⟨container, -⟩ := container_of_mem isReference
        rw [container]
        exact ⟨by omega, plain, isReference⟩

/-- The count of a container that is not empty is positive and below `2^32`. -/
theorem Linkable.count_lt (linkable : doc.Linkable) {count : Nat} {refs : List UInt8}
    {object : Object} (inside : object ∈ doc.objects)
    (shape : object = .array count refs ∨ object = .dict count refs) {i : Nat} {r : Reference}
    (member : r ∈ object.references doc.refSize i) : 0 < count ∧ count < 2 ^ 32 := by
  have positive : 0 < count := by
    rcases Nat.eq_zero_or_pos count with zero | positive
    · subst zero
      rcases shape with rfl | rfl <;> cases member
    · exact positive
  have facts := linkable.linkable object inside
  have width : 0 < doc.refSize := facts.width_pos shape positive
  refine ⟨positive, ?_⟩
  rcases shape with rfl | rfl
  · have block := (facts.blockLength count refs).1 rfl
    have bytes := linkable.small count refs (.inl inside)
    have := Nat.le_mul_of_pos_right count width
    omega
  · have block := (facts.blockLength count refs).2 rfl
    have bytes := linkable.small count refs (.inr inside)
    have := Nat.le_mul_of_pos_right count width
    omega

/-- A freed block with references in it is not copied. -/
theorem copyPlistData_freed {object : Object} {count : Nat} {refs : List UInt8}
    (shape : object = .array count refs ∨ object = .dict count refs) (positive : 0 < count)
    (small : count < 2 ^ 32) (past : List Reference) (i : Nat) (copied : PlistData) :
    copyPlistData (doc.dataAfter past i object) true ≠ .ok copied := by
  have some8 : 8 * count % 2 ^ 64 ≠ 0 := by omega
  have some16 : 8 * count * 2 % 2 ^ 64 ≠ 0 := by omega
  unfold dataAfter
  rcases shape with rfl | rfl <;> split <;>
    simp only [copyPlistData, Object.node, copyBuff, some8, some16, if_true, if_false, ne_eq,
      reduceCtorEq, not_false_eq_true]

/-- **An entry with children is not copied.** -/
theorem barren_of_copied (linkable : doc.Linkable) {past : List Reference} {r : Reference}
    (before : ∀ p ∈ past, p.container ≠ r.container → p ∈ doc.history r.container)
    (differ : r.target ≠ r.container) (copied : ∃ data, doc.copyOf past r = .ok data) :
    doc.childrenFrom r.target [] past = [] := by
  refine doc.childrenFrom_eq_nil fun p member isChild => ?_
  obtain ⟨data, copied⟩ := copied
  have earlier := before p member fun same => differ (isChild.symm.trans same)
  obtain ⟨below, plain, isReference⟩ := mem_history earlier
  rw [isChild] at below plain isReference
  obtain ⟨-, object, inside, found, isContainer, isReference⟩ := container_of_mem isReference
  have freed : doc.freedAfter r.container r.target = true := by
    simp [freedAfter, linked, found, isContainer, plain, below]
  rw [copyOf, found] at copied
  dsimp only at copied
  rw [freed] at copied
  have shaped : ∃ count refs, object = .array count refs ∨ object = .dict count refs := by
    cases object <;> first
      | exact ⟨_, _, .inl rfl⟩
      | exact ⟨_, _, .inr rfl⟩
      | cases isContainer
  obtain ⟨count, refs, shape⟩ := shaped
  obtain ⟨positive, small⟩ := linkable.count_lt inside shape isReference
  exact copyPlistData_freed shape positive small _ _ data copied

/-! ## The whole pass -/

/-- Following references of one container. -/
theorem linkReferences_iff (linkable : doc.Linkable) {i : Nat} {next : NodeTable}
    {rest : List Reference} : ∀ {past : List Reference},
      (∀ r ∈ rest, r ∈ doc.references i) →
      (∀ p ∈ past, p.container ≠ i → p ∈ doc.history i) →
      (rest.foldlM linkReference (doc.tableOf i past past) = .ok next ↔
        doc.CopiesOk past rest ∧ next = doc.tableOf i (past ++ rest) (past ++ rest)) := by
  induction rest with
  | nil =>
    intro past _ _
    rw [List.foldlM_nil, List.append_nil, pure_eq_ok, Except.ok.injEq, CopiesOk, true_and, eq_comm]
  | cons r rest ih =>
    intro past own before
    have member := own r (by simp)
    obtain ⟨container, -⟩ := container_of_mem member
    have differ : r.target ≠ r.container := by
      rw [container]
      exact linkable.irreflexive i r member
    have here {mid : NodeTable} := @linkReference_iff doc past r mid (linkable.target_lt member) differ
      (barren_of_copied linkable (by rw [container]; exact before) differ)
    have later := @ih (past ++ [r]) (fun r' inside => own r' (by simp [inside])) (by
      intro p inside other
      rcases List.mem_append.mp inside with old | new
      · exact before p old other
      · rw [List.mem_singleton.mp new] at other
        exact absurd container other)
    rw [container] at here
    rw [List.foldlM_cons, bind_eq_ok, CopiesOk]
    constructor
    · rintro ⟨mid, step, run⟩
      obtain ⟨ok, rfl⟩ := here.mp step
      obtain ⟨oks, rfl⟩ := later.mp run
      exact ⟨⟨ok, oks⟩, by simp⟩
    · rintro ⟨⟨ok, oks⟩, rfl⟩
      exact ⟨_, here.mpr ⟨ok, rfl⟩, later.mpr ⟨oks, by simp⟩⟩

/-- Only the block of a linked entry is freed at its turn. -/
theorem freedAfter_succ (done i : Nat) :
    doc.freedAfter (done + 1) i = (doc.freedAfter done i || (decide (i = done) && doc.linked i)) := by
  unfold freedAfter
  by_cases before : i < done
  · have later : i < done + 1 := by omega
    have other : i ≠ done := by omega
    simp [before, later, other]
  · by_cases here : i = done
    · simp [here]
    · have later : ¬ i < done + 1 := by omega
      simp [before, later, here]

/-- The turn of an entry that is not linked changes nothing. -/
theorem tableOf_succ_of_not_linked {i : Nat} (idle : doc.linked i = false)
    (typed past : List Reference) : doc.tableOf (i + 1) typed past = doc.tableOf i typed past := by
  simp only [tableOf, NodeTable.mk.injEq, true_and]
  funext j
  simp only [slotOf, freedAfter_succ]
  by_cases here : j = i
  · subst here
    simp [idle]
  · simp [here]

/-- The turn of a linked entry ends with freeing its block. -/
theorem tableOf_succ_of_linked {i : Nat} (linked : doc.linked i = true)
    (typed past : List Reference) :
    (doc.tableOf i typed past).update i Slot.free = doc.tableOf (i + 1) typed past := by
  simp only [tableOf, NodeTable.update, NodeTable.mk.injEq, true_and]
  funext j
  simp only [slotOf, freedAfter_succ]
  by_cases here : j = i
  · subst here
    simp [linked, Slot.free, Function.comp_def]
  · simp [here]

/-- **One turn of the second pass.** -/
theorem linkObject_iff (linkable : doc.Linkable) {i : Nat} (inside : i < doc.objects.length)
    {next : NodeTable} :
    linkObject doc.refSize (doc.tableOf i (doc.history i) (doc.history i)) i = .ok next ↔
      doc.CopiesOk (doc.history i) (doc.followed (doc.history i) i) ∧
        next = doc.tableOf (i + 1) (doc.history (i + 1)) (doc.history (i + 1)) := by
  obtain ⟨object, found⟩ : ∃ object, doc.objects[i]? = some object :=
    ⟨_, List.getElem?_eq_getElem inside⟩
  have member := List.mem_of_getElem? found
  have facts := linkable.linkable object member
  rw [linkObject, deref_tableOf found, ok_bind]
  have idle (skipped : doc.followed (doc.history i) i = []) (unlinked : doc.linked i = false) :
      (Except.ok (doc.tableOf i (doc.history i) (doc.history i)) = (.ok next : Checked NodeTable) ↔
        doc.CopiesOk (doc.history i) (doc.followed (doc.history i) i) ∧
          next = doc.tableOf (i + 1) (doc.history (i + 1)) (doc.history (i + 1))) := by
    have same : doc.history (i + 1) = doc.history i := by
      rw [history, skipped, List.append_nil]
    rw [same, skipped, tableOf_succ_of_not_linked unlinked, CopiesOk, true_and, Except.ok.injEq,
      eq_comm]
  cases isKey : retyped (doc.history i) i with
  | true =>
    have skipped : doc.followed (doc.history i) i = [] := by rw [followed, isKey]; rfl
    have unlinked : doc.linked i = false := by simp [linked, isKey]
    simpa only [dataAfter, isKey, if_true, pure_eq_ok] using idle skipped unlinked
  | false =>
    have all : doc.followed (doc.history i) i = object.references doc.refSize i := by
      simp [followed, isKey, references, found]
    have turn (isContainer : object.isContainer = true) :
        ((object.references doc.refSize i).foldlM linkReference
            (doc.tableOf i (doc.history i) (doc.history i)) >>= fun table =>
          Except.ok (table.update i Slot.free)) = .ok next ↔
        doc.CopiesOk (doc.history i) (doc.followed (doc.history i) i) ∧
          next = doc.tableOf (i + 1) (doc.history (i + 1)) (doc.history (i + 1)) := by
      have isLinked : doc.linked i = true := by simp [linked, isKey, found, isContainer]
      have run {mid : NodeTable} := @linkReferences_iff doc linkable i mid
        (object.references doc.refSize i) (doc.history i)
        (fun r own => by simpa [references, found] using own) (fun p old _ => old)
      have grown : doc.history i ++ object.references doc.refSize i = doc.history (i + 1) := by
        rw [history, all]
      rw [grown] at run
      rw [all, bind_eq_ok]
      constructor
      · rintro ⟨mid, steps, freed⟩
        obtain ⟨oks, rfl⟩ := run.mp steps
        rw [tableOf_succ_of_linked isLinked] at freed
        exact ⟨oks, (Except.ok.inj freed).symm⟩
      · rintro ⟨oks, rfl⟩
        exact ⟨_, run.mpr ⟨oks, rfl⟩, by rw [tableOf_succ_of_linked isLinked]⟩
    cases object with
    | array count refs =>
      have loop := @linkArray_eq _ _ i _ _ (doc.tableOf i (doc.history i) (doc.history i)) facts
        (linkable.small count refs (.inl member))
      simpa only [dataAfter, isKey, Bool.false_eq_true, if_false, Object.node, loop,
        pure_eq_ok] using turn rfl
    | dict count refs =>
      have loop := @linkDict_eq _ _ i _ _ (doc.tableOf i (doc.history i) (doc.history i)) facts
        (linkable.small count refs (.inr member))
      simpa only [dataAfter, isKey, Bool.false_eq_true, if_false, Object.node, loop,
        pure_eq_ok] using turn rfl
    | boolean b | uint n | real bytes | date bytes | string block | unicode block | data bytes =>
      have unlinked : doc.linked i = false := by simp [linked, found, Object.isContainer]
      simpa only [dataAfter, isKey, Bool.false_eq_true, if_false, Object.node, pure_eq_ok]
        using idle (all.trans rfl) unlinked

theorem copiesOk_append {past front back : List Reference} :
    doc.CopiesOk past (front ++ back) ↔
      doc.CopiesOk past front ∧ doc.CopiesOk (past ++ front) back := by
  induction front generalizing past with
  | nil => simp [CopiesOk]
  | cons r front ih =>
    rw [List.cons_append, CopiesOk, CopiesOk, ih, and_assoc, List.append_assoc,
      List.singleton_append]

/-- **The whole second pass.** -/
theorem linkObjects_iff (linkable : doc.Linkable) {next : NodeTable} :
    ∀ {k : Nat}, k ≤ doc.objects.length →
      ((List.range k).foldlM (linkObject doc.refSize) (doc.tableOf 0 [] []) = .ok next ↔
        doc.CopiesOk [] (doc.history k) ∧ next = doc.tableOf k (doc.history k) (doc.history k))
  | 0, _ => by
      simp only [List.range_zero, List.foldlM_nil, pure_eq_ok, Except.ok.injEq, history, CopiesOk,
        true_and, eq_comm]
  | k + 1, within => by
      rw [List.range_succ, List.foldlM_append, bind_eq_ok]
      simp only [List.foldlM_cons, List.foldlM_nil, bind_pure,
        linkObjects_iff linkable (show k ≤ doc.objects.length by omega)]
      rw [show doc.CopiesOk [] (doc.history (k + 1)) ↔ _ from copiesOk_append, List.nil_append]
      constructor
      · rintro ⟨mid, ⟨oks, rfl⟩, turn⟩
        obtain ⟨ok, rfl⟩ := (linkObject_iff linkable (by omega)).mp turn
        exact ⟨⟨oks, ok⟩, rfl⟩
      · rintro ⟨⟨oks, ok⟩, rfl⟩
        exact ⟨_, ⟨oks, rfl⟩, (linkObject_iff linkable (by omega)).mpr ⟨ok, rfl⟩⟩

end ObjectTable

end Irestore.Plist
