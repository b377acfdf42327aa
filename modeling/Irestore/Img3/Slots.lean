/-
# Img3.Slots — what the slots hold after a parse, and what is written from them

* `Holds` — each slot holds the last element of its kind; of the KBAG elements, one slot
  holds the first and one the last of the others.
* `Holds.put` — putting an element into its slot keeps that.
* `parseElements_whole` — the loop puts whole elements in their places, one by one.
* `img3ParseFile_image` — the C parser puts the elements of an image into the slots.
-/
import Irestore.Img3.File

namespace Irestore.Img3

open Irestore.Library.Bytes Irestore.Library.CMemory

set_option autoImplicit false

/-! ## Parsing one element -/

/-- The C element of an element. -/
def Element.parsed (e : Element) : Img3Element := ⟨e.bytes, e.signature⟩

theorem readField_append {front : List UInt8} {off : Nat} (inside : off + 4 ≤ front.length)
    (back : List UInt8) : readField (front ++ back) off = .ok (field front off) := by
  have fits : 4 ≤ ((front ++ back).drop off).length := by
    rw [List.length_drop, List.length_append]
    omega
  rw [← @field_append _ back _ inside]
  simp only [readField, memcpy, if_pos fits]
  rfl

theorem readField_eq {data : List UInt8} {off : Nat} (inside : off + 4 ≤ data.length) :
    readField data off = .ok (field data off) := by
  simpa using readField_append inside []

/-- A field is read exactly where its four bytes are. -/
theorem readField_eq_ok {data : List UInt8} {off value : Nat} :
    readField data off = .ok value ↔ off + 4 ≤ data.length ∧ value = field data off := by
  constructor
  · intro run
    obtain ⟨bytes, copied, -⟩ := bind_eq_ok.mp run
    have fits := (memcpy_eq_ok.mp copied).1
    rw [List.length_drop] at fits
    have inside : off + 4 ≤ data.length := by omega
    exact ⟨inside, Except.ok.inj (run.symm.trans (readField_eq inside))⟩
  · rintro ⟨inside, rfl⟩
    exact readField_eq inside

/-- An element is parsed exactly where its size and its type can be read, and its block. -/
theorem img3ParseElement_eq_ok {data : List UInt8} {e : Img3Element} :
    img3ParseElement data = .ok e ↔
      8 ≤ data.length ∧ 4 ≤ field data 4 ∧ field data 4 ≤ data.length ∧
        e = ⟨data.take (field data 4), field data 0⟩ := by
  unfold img3ParseElement
  constructor
  · intro run
    obtain ⟨fullSize, size, run⟩ := bind_eq_ok.mp run
    obtain ⟨block, copied, run⟩ := bind_eq_ok.mp run
    obtain ⟨type', read, run⟩ := bind_eq_ok.mp run
    obtain ⟨eight, rfl⟩ := readField_eq_ok.mp size
    obtain ⟨fits, rfl⟩ := memcpy_eq_ok.mp copied
    obtain ⟨four, rfl⟩ := readField_eq_ok.mp read
    rw [List.length_take] at four
    cases run
    exact ⟨eight, by omega, fits, by rw [field_take (by omega)]⟩
  · rintro ⟨eight, four, fits, rfl⟩
    rw [readField_eq eight, ok_bind, memcpy, if_pos fits, ok_bind,
      readField_eq (by rw [List.length_take]; omega), ok_bind, field_take four]
    rfl

/-- A C element holds what its block says: at least the size, which is that of the block, and
the type. -/
structure Img3Element.Whole (e : Img3Element) : Prop where
  header_le : 8 ≤ e.data.length
  delimited : field e.data 4 = e.data.length
  typed : e.type = field e.data 0

theorem Element.whole (e : Element) : e.parsed.Whole :=
  ⟨Nat.le_trans (by decide) e.header_le, e.delimited, rfl⟩

theorem img3ParseElement_whole {e : Img3Element} (whole : e.Whole) (back : List UInt8) :
    img3ParseElement (e.data ++ back) = .ok e := by
  have header := whole.header_le
  unfold img3ParseElement
  rw [readField_append (by omega), whole.delimited, ok_bind, memcpy_append rfl, ok_bind,
    readField_eq (by omega), ok_bind, ← whole.typed]
  rfl

theorem img3ParseElement_append (e : Element) (back : List UInt8) :
    img3ParseElement (e.bytes ++ back) = .ok e.parsed :=
  img3ParseElement_whole e.whole back

/-! ## The slots after a parse -/

/-- The elements of one kind. -/
def ofKind (kind : Slot) (es : List Element) : List Element :=
  es.filter fun e => slotOf e.signature = some kind

theorem ofKind_append (kind : Slot) (es : List Element) (e : Element) :
    ofKind kind (es ++ [e]) =
      ofKind kind es ++ if slotOf e.signature = some kind then [e] else [] := by
  simp [ofKind, List.filter_append, List.filter_cons]

/-- The slot of a kind; the KBAGs have a second one. -/
def Img3File.slot (file : Img3File) : Slot → Option Img3Element
  | .type => file.typeElement
  | .data => file.dataElement
  | .vers => file.versElement
  | .sepo => file.sepoElement
  | .bord => file.bordElement
  | .kbag => file.kbag1Element
  | .ecid => file.ecidElement
  | .shsh => file.shshElement
  | .cert => file.certElement
  | .unkn => file.unknElement

theorem Img3File.slot_put {file : Img3File} {element : Img3Element} {kind other : Slot}
    (single : other ≠ .kbag) :
    (file.put element kind).slot other =
      if kind = other then some element else file.slot other := by
  cases kind <;> cases other <;> first
    | exact absurd rfl single
    | rfl
    | (dsimp only [put]; split <;> rfl)

theorem Img3File.kbags_put {file : Img3File} {element : Img3Element} {kind : Slot}
    (other : kind ≠ .kbag) :
    (file.put element kind).kbag1Element = file.kbag1Element ∧
      (file.put element kind).kbag2Element = file.kbag2Element := by
  cases kind <;> first
    | exact absurd rfl other
    | exact ⟨rfl, rfl⟩

@[simp] theorem Img3File.header_put (file : Img3File) (element : Img3Element) (kind : Slot) :
    (file.put element kind).header = file.header := by
  cases kind <;> first
    | rfl
    | (dsimp only [put]; split <;> rfl)

/-- The slots of a file into which a list of elements was parsed. -/
structure Holds (file : Img3File) (es : List Element) : Prop where
  single : ∀ kind ≠ .kbag, file.slot kind = (ofKind kind es).getLast?.map Element.parsed
  kbag1 : file.kbag1Element = (ofKind .kbag es).head?.map Element.parsed
  kbag2 : file.kbag2Element = (ofKind .kbag es).tail.getLast?.map Element.parsed

theorem holds_nil (header : List UInt8) : Holds { header := header } [] where
  single kind _ := by cases kind <;> rfl
  kbag1 := rfl
  kbag2 := rfl

/-- Placing one more element. -/
theorem Holds.put {file : Img3File} {es : List Element} {e : Element} {kind : Slot}
    (holds : Holds file es) (known : slotOf e.signature = some kind) :
    Holds (file.put e.parsed kind) (es ++ [e]) := by
  have single : ∀ other ≠ .kbag,
      (file.put e.parsed kind).slot other =
        (ofKind other (es ++ [e])).getLast?.map Element.parsed := by
    intro other isSingle
    rw [Img3File.slot_put isSingle, ofKind_append, known]
    by_cases same : kind = other
    · simp [same]
    · simp [same, holds.single other isSingle]
  by_cases isKbag : kind = .kbag
  · subst isKbag
    have kbags : ofKind .kbag (es ++ [e]) = ofKind .kbag es ++ [e] := by
      rw [ofKind_append, if_pos known]
    refine ⟨single, ?_, ?_⟩
    · rw [kbags]
      have first := holds.kbag1
      cases found : ofKind .kbag es with
      | nil => simp [Img3File.put, first, found]
      | cons k ks =>
        rw [found] at first
        simp [Img3File.put, first]
    · rw [kbags]
      have first := holds.kbag1
      have second := holds.kbag2
      cases found : ofKind .kbag es with
      | nil => simp_all [Img3File.put]
      | cons k ks =>
        rw [found] at first
        simp [Img3File.put, first]
  · have same : ofKind .kbag (es ++ [e]) = ofKind .kbag es := by
      rw [ofKind_append, known, if_neg (by simpa using isKbag), List.append_nil]
    obtain ⟨first, second⟩ := @Img3File.kbags_put file e.parsed _ isKbag
    exact ⟨single, by rw [first, same, holds.kbag1], by rw [second, same, holds.kbag2]⟩

/-- Put a parsed element into the slot of its type. -/
def Img3File.place (file : Img3File) (e : Img3Element) : Img3File :=
  match slotOf e.type with
  | none => file
  | some kind => file.put e kind

theorem Img3File.place_eq {file : Img3File} {e : Img3Element} {kind : Slot}
    (known : slotOf e.type = some kind) : file.place e = file.put e kind := by
  rw [place, known]

/-- The parse of whole elements, all of known kinds, puts one after the other in its place. -/
theorem parseElements_whole {es : List Img3Element} : ∀ {fuel : Nat} {file : Img3File},
    (∀ e ∈ es, e.Whole) → (∀ e ∈ es, slotOf e.type ≠ none) →
      (es.flatMap Img3Element.data).length ≤ fuel →
        parseElements fuel file (es.flatMap Img3Element.data) =
          .ok (some (es.foldl Img3File.place file)) := by
  induction es with
  | nil =>
    intro fuel file _ _ _
    cases fuel <;> rfl
  | cons e es ih =>
    intro fuel file whole known enough
    have here := whole e (by simp)
    have header := here.header_le
    obtain ⟨kind, isKind⟩ := Option.ne_none_iff_exists'.mp (known e (by simp))
    rw [List.flatMap_cons] at enough ⊢
    rw [List.length_append] at enough
    obtain ⟨fuel, rfl⟩ : ∃ more, fuel = more + 1 := ⟨fuel - 1, by omega⟩
    have read := readField_append (show 0 + 4 ≤ e.data.length by omega)
      (es.flatMap Img3Element.data)
    have parsed := img3ParseElement_whole here (es.flatMap Img3Element.data)
    have size := readField_append (show 4 + 4 ≤ e.data.length by omega)
      (es.flatMap Img3Element.data)
    have skipped : (e.data ++ es.flatMap Img3Element.data).drop e.data.length =
        es.flatMap Img3Element.data := List.drop_left
    rw [← here.typed] at read
    rw [here.delimited] at size
    have later : ∀ file', parseElements fuel file' (es.flatMap Img3Element.data) =
        .ok (some (es.foldl Img3File.place file')) := fun file' =>
      ih (fun e' member => whole e' (by simp [member])) (fun e' member => known e' (by simp [member]))
        (by omega)
    generalize e.data ++ es.flatMap Img3Element.data = data at read parsed size skipped ⊢
    match data with
    | [] => cases read
    | b :: bs =>
      rw [parseElements, read, ok_bind, isKind]
      simp only [parsed, size, ok_bind, skipped, later, List.foldl_cons, Img3File.place_eq isKind]

/-- An image of whole elements of known kinds, parsed. -/
theorem img3ParseFile_whole {header : List UInt8} {es : List Img3Element}
    (length : header.length = 20) (container : field header 0 = kImg3Container)
    (whole : ∀ e ∈ es, e.Whole) (known : ∀ e ∈ es, slotOf e.type ≠ none) :
    img3ParseFile (header ++ es.flatMap Img3Element.data) =
      .ok (some (es.foldl Img3File.place { header := header })) := by
  have signature := readField_append (show 0 + 4 ≤ header.length by omega)
    (es.flatMap Img3Element.data)
  unfold img3ParseFile
  rw [signature, container, ok_bind, if_neg (fun differ => differ rfl), memcpy_append length,
    ok_bind, ← length, List.drop_left, parseElements_whole whole known]
  rw [List.length_append]
  exact Nat.le_add_left _ _

theorem Holds.places {es : List Element} : ∀ {file : Img3File} {before : List Element},
    (∀ e ∈ es, slotOf e.signature ≠ none) → Holds file before →
      Holds ((es.map Element.parsed).foldl Img3File.place file) (before ++ es) := by
  induction es with
  | nil =>
    intro file before _ holds
    simpa using holds
  | cons e es ih =>
    intro file before known holds
    obtain ⟨kind, isKind⟩ := Option.ne_none_iff_exists'.mp (known e (by simp))
    have one : Holds (file.place e.parsed) (before ++ [e]) := by
      rw [@Img3File.place_eq file e.parsed kind isKind]
      exact holds.put isKind
    have all := ih (fun e' member => known e' (by simp [member])) one
    rwa [List.append_assoc, List.singleton_append] at all

@[simp] theorem Img3File.header_place (file : Img3File) (e : Img3Element) :
    (file.place e).header = file.header := by
  rw [place]
  split
  · rfl
  · rw [header_put]

theorem Img3File.header_places {es : List Img3Element} : ∀ {file : Img3File},
    (es.foldl Img3File.place file).header = file.header := by
  induction es with
  | nil => exact rfl
  | cons e es ih =>
    intro file
    rw [List.foldl_cons, ih, header_place]

theorem flatMap_parsed (es : List Element) :
    (es.map Element.parsed).flatMap Img3Element.data = es.flatMap Element.bytes := by
  rw [List.flatMap_map]
  rfl

theorem map_parsed_whole (es : List Element) : ∀ e ∈ es.map Element.parsed, e.Whole := by
  intro e member
  obtain ⟨element, -, rfl⟩ := List.mem_map.mp member
  exact element.whole

theorem Image.parsed_known (image : Image) :
    ∀ e ∈ image.elements.map Element.parsed, slotOf e.type ≠ none := by
  intro e member
  obtain ⟨element, inside, rfl⟩ := List.mem_map.mp member
  exact image.known element inside

/-- The parse of an image, one element after the other. -/
theorem img3ParseFile_places (image : Image) :
    img3ParseFile image.bytes = .ok (some
      ((image.elements.map Element.parsed).foldl Img3File.place { header := image.header })) := by
  have run := img3ParseFile_whole image.header_length image.container
    (map_parsed_whole image.elements) image.parsed_known
  rwa [flatMap_parsed] at run

/-- **The C parser accepts every image and puts its elements into the slots.** -/
theorem img3ParseFile_image (image : Image) :
    ∃ file, img3ParseFile image.bytes = .ok (some file) ∧ Holds file image.elements ∧
      file.header = image.header := by
  have holds := Holds.places image.known (holds_nil image.header)
  exact ⟨_, img3ParseFile_places image, holds, Img3File.header_places⟩

end Irestore.Img3
