/-
# Img3.Rewriting — an image written back, and parsed again

A file of slots comes from a parse, and its signature may have been replaced any number of
times, by blobs of any kind.

* `Stored` — what such a file's slots hold: whole elements, each of its slot's kind, and a
  second KBAG only behind a first.
* `Obtained.stored` — the invariant, over the parse and every replacement.
* `Stored.places` — putting what the slots hold into empty slots, in the order in which it is
  written, fills the same ones.
* `written_again` — what is written of it, below `2^31` bytes: the sizes, the offset of the
  SHSH, and the same bytes when it is parsed and written again.
* `large_certificate_not_written` — a blob whose certificate alone takes `2^31` bytes.
-/
import Irestore.Img3.Order

namespace Irestore.Img3

open Irestore.Library.Bytes Irestore.Library.CMemory

set_option autoImplicit false

/-! ## Files that can be reached -/

/-- A file that was parsed from an image, its signature replaced any number of times. -/
inductive Obtained : Img3File → Prop
  | parsed (image : Image) {file : Img3File}
      (run : img3ParseFile image.bytes = .ok (some file)) : Obtained file
  | replaced {file file' : Img3File} (obtained : Obtained file) (signature : List UInt8)
      (run : img3ReplaceSignature file signature = .ok (some file')) : Obtained file'

/-- A whole element of this kind. -/
def Fills (kind : Slot) (e : Img3Element) : Prop := e.Whole ∧ slotOf e.type = some kind

/-- What the slots of a file hold. -/
structure Stored (file : Img3File) : Prop where
  length : file.header.length = 20
  container : field file.header 0 = kImg3Container
  slot : ∀ kind, ∀ e ∈ file.slot kind, Fills kind e
  second : ∀ e ∈ file.kbag2Element, Fills .kbag e
  kbags : file.kbag1Element = none → file.kbag2Element = none

theorem Img3File.mem_slots {file : Img3File} {e : Img3Element} (member : e ∈ file.slots) :
    (∃ kind, e ∈ file.slot kind) ∨ e ∈ file.kbag2Element := by
  simp only [slots, beforeShsh, List.mem_append, List.mem_filterMap, id_eq, List.mem_cons,
    List.not_mem_nil, or_false, exists_eq_right] at member
  rcases member with (h | h | h | h | h | h | h | h) | h | h | h
  · exact .inl ⟨.type, h.symm⟩
  · exact .inl ⟨.data, h.symm⟩
  · exact .inl ⟨.vers, h.symm⟩
  · exact .inl ⟨.sepo, h.symm⟩
  · exact .inl ⟨.bord, h.symm⟩
  · exact .inl ⟨.kbag, h.symm⟩
  · exact .inr h.symm
  · exact .inl ⟨.ecid, h.symm⟩
  · exact .inl ⟨.shsh, h.symm⟩
  · exact .inl ⟨.cert, h.symm⟩
  · exact .inl ⟨.unkn, h.symm⟩

theorem Stored.fills {file : Img3File} (stored : Stored file) {e : Img3Element}
    (member : e ∈ file.slots) : ∃ kind, Fills kind e := by
  rcases Img3File.mem_slots member with ⟨kind, inside⟩ | inside
  · exact ⟨kind, stored.slot kind e inside⟩
  · exact ⟨.kbag, stored.second e inside⟩

theorem Stored.whole {file : Img3File} (stored : Stored file) : ∀ e ∈ file.slots, e.Whole := by
  intro e member
  obtain ⟨kind, fills⟩ := stored.fills member
  exact fills.1

theorem Stored.known {file : Img3File} (stored : Stored file) :
    ∀ e ∈ file.slots, slotOf e.type ≠ none := by
  intro e member
  obtain ⟨kind, fills⟩ := stored.fills member
  rw [fills.2]
  exact Option.some_ne_none kind

theorem stored_empty {header : List UInt8} (length : header.length = 20)
    (container : field header 0 = kImg3Container) : Stored { header := header } := by
  refine ⟨length, container, fun kind e member => ?_, fun e member => ?_, fun _ => rfl⟩
  · cases kind <;> cases member
  · cases member

/-- An element put into its slot. -/
theorem Stored.put {file : Img3File} (stored : Stored file) {kind : Slot} {e : Img3Element}
    (fills : Fills kind e) : Stored (file.put e kind) := by
  have length : (file.put e kind).header.length = 20 := by
    rw [Img3File.header_put]
    exact stored.length
  have container : field (file.put e kind).header 0 = kImg3Container := by
    rw [Img3File.header_put]
    exact stored.container
  have single : ∀ other ≠ .kbag, ∀ e' ∈ (file.put e kind).slot other, Fills other e' := by
    intro other isSingle e' member
    rw [Img3File.slot_put isSingle] at member
    split at member
    · rename_i same
      subst same
      cases member
      exact fills
    · exact stored.slot other e' member
  by_cases isKbag : kind = .kbag
  · subst isKbag
    by_cases first : file.kbag1Element = none
    · have put : file.put e .kbag = { file with kbag1Element := some e } := if_pos first
      rw [put] at single length container ⊢
      refine ⟨length, container, fun other e' member => ?_, stored.second, fun none => nomatch none⟩
      by_cases other' : other = .kbag
      · subst other'
        cases member
        exact fills
      · exact single other other' e' member
    · have put : file.put e .kbag = { file with kbag2Element := some e } := if_neg first
      rw [put] at single length container ⊢
      refine ⟨length, container, fun other e' member => ?_, fun e' member => ?_,
        fun none => absurd none first⟩
      · by_cases other' : other = .kbag
        · subst other'
          exact stored.slot .kbag e' member
        · exact single other other' e' member
      · cases member
        exact fills
  · obtain ⟨first, second⟩ := @Img3File.kbags_put file e kind isKbag
    refine ⟨length, container, fun other e' member => ?_, ?_, ?_⟩
    · by_cases other' : other = .kbag
      · subst other'
        have here : e' ∈ (file.put e kind).kbag1Element := member
        rw [first] at here
        exact stored.slot .kbag e' here
      · exact single other other' e' member
    · rw [second]
      exact stored.second
    · rw [first, second]
      exact stored.kbags

theorem Stored.foldl {es : List Img3Element} : ∀ {file : Img3File}, Stored file →
    (∀ e ∈ es, e.Whole) → (∀ e ∈ es, slotOf e.type ≠ none) →
      Stored (es.foldl Img3File.place file) := by
  induction es with
  | nil => exact fun stored _ _ => stored
  | cons e es ih =>
    intro file stored whole known
    obtain ⟨kind, isKind⟩ := Option.ne_none_iff_exists'.mp (known e (by simp))
    refine ih ?_ (fun e' member => whole e' (by simp [member]))
      fun e' member => known e' (by simp [member])
    rw [Img3File.place_eq isKind]
    exact stored.put ⟨whole e (by simp), isKind⟩

/-- An element of a blob whose size is read again is whole. -/
theorem parseElementAt_whole {signature : List UInt8} {offset size : Nat} {e : Img3Element}
    (parsed : parseElementAt signature offset = .ok e) (again : readField e.data 4 = .ok size) :
    e.Whole := by
  unfold parseElementAt at parsed
  split at parsed
  · obtain ⟨-, four, fits, rfl⟩ := img3ParseElement_eq_ok.mp parsed
    obtain ⟨eight, -⟩ := readField_eq_ok.mp again
    generalize signature.drop (offset % 2 ^ 32) = data at *
    dsimp only at eight
    have width : (data.take (field data 4)).length = field data 4 := by
      rw [List.length_take]
      omega
    rw [width] at eight
    exact ⟨by rw [width]; exact eight, by rw [field_take eight, width], (field_take four).symm⟩
  · cases parsed

theorem img3ReplaceSignature_eq_some {file file' : Img3File} {signature : List UInt8}
    (run : img3ReplaceSignature file signature = .ok (some file')) :
    ∃ ecid shsh cert, Fills .ecid ecid ∧ Fills .shsh shsh ∧ Fills .cert cert ∧
      file' = file.sign ecid shsh cert := by
  obtain ⟨ecid, ecidRun, run⟩ := bind_eq_ok.mp run
  split at run
  · cases run
  rename_i isEcid
  obtain ⟨ecidSize, ecidAgain, run⟩ := bind_eq_ok.mp run
  obtain ⟨shsh, shshRun, run⟩ := bind_eq_ok.mp run
  split at run
  · cases run
  rename_i isShsh
  obtain ⟨shshSize, shshAgain, run⟩ := bind_eq_ok.mp run
  obtain ⟨cert, certRun, run⟩ := bind_eq_ok.mp run
  split at run
  · cases run
  rename_i isCert
  obtain ⟨_, certAgain, run⟩ := bind_eq_ok.mp run
  cases run
  refine ⟨ecid, shsh, cert, ⟨parseElementAt_whole ecidRun ecidAgain, ?_⟩,
    ⟨parseElementAt_whole shshRun shshAgain, ?_⟩, ⟨parseElementAt_whole certRun certAgain, ?_⟩, rfl⟩
  · rw [not_not.mp isEcid]
    rfl
  · rw [not_not.mp isShsh]
    rfl
  · rw [not_not.mp isCert]
    rfl

/-- **What the slots hold, after a parse and any replacements.** -/
theorem Obtained.stored {file : Img3File} (obtained : Obtained file) : Stored file := by
  induction obtained with
  | parsed image run =>
    cases (img3ParseFile_places image).symm.trans run
    exact (stored_empty image.header_length image.container).foldl (map_parsed_whole _)
      image.parsed_known
  | replaced obtained signature run stored =>
    obtain ⟨ecid, shsh, cert, isEcid, isShsh, isCert, rfl⟩ := img3ReplaceSignature_eq_some run
    exact ((stored.put isEcid).put isShsh).put isCert

/-! ## The slots filled again -/

/-- Put an element, if there is one, into the slot of its type. -/
def Img3File.placeOption (file : Img3File) (e : Option Img3Element) : Img3File :=
  e.elim file file.place

/-- The file with this in the slot of a kind. -/
def Img3File.setSlot (file : Img3File) (e : Option Img3Element) : Slot → Img3File
  | .type => { file with typeElement := e }
  | .data => { file with dataElement := e }
  | .vers => { file with versElement := e }
  | .sepo => { file with sepoElement := e }
  | .bord => { file with bordElement := e }
  | .kbag => { file with kbag1Element := e }
  | .ecid => { file with ecidElement := e }
  | .shsh => { file with shshElement := e }
  | .cert => { file with certElement := e }
  | .unkn => { file with unknElement := e }

/-- An empty slot takes an element of its kind. -/
theorem placeOption_eq_setSlot {file : Img3File} (kind : Slot) {e : Option Img3Element}
    (free : file.slot kind = none) (fills : ∀ e' ∈ e, Fills kind e') :
    file.placeOption e = file.setSlot e kind := by
  cases e with
  | none =>
    obtain ⟨_, _, _, _, _, _, _, _, _, _, _, _⟩ := file
    cases kind <;> cases free <;> rfl
  | some e =>
    have placed : file.placeOption (some e) = file.put e kind :=
      Img3File.place_eq (fills e rfl).2
    rw [placed]
    cases kind with
    | kbag => exact if_pos free
    | type | data | vers | sepo | bord | ecid | shsh | cert | unkn => rfl

/-- Behind a first KBAG, the second slot takes one. -/
theorem placeOption_second {file : Img3File} {e : Option Img3Element}
    (free : file.kbag2Element = none) (behind : file.kbag1Element = none → e = none)
    (fills : ∀ e' ∈ e, Fills .kbag e') :
    file.placeOption e = { file with kbag2Element := e } := by
  cases e with
  | none =>
    obtain ⟨_, _, _, _, _, _, _, _, _, _, _, _⟩ := file
    cases free
    rfl
  | some e =>
    have placed : file.placeOption (some e) = file.put e .kbag :=
      Img3File.place_eq (fills e rfl).2
    have taken : ¬ file.kbag1Element = none := fun none => nomatch behind none
    rw [placed]
    exact if_neg taken

theorem foldl_filterMap_id (es : List (Option Img3Element)) (file : Img3File) :
    (es.filterMap id).foldl Img3File.place file = es.foldl Img3File.placeOption file := by
  induction es generalizing file with
  | nil => rfl
  | cons e es ih =>
    cases e with
    | none => exact ih file
    | some e => exact ih (file.place e)

/-- **What the slots hold, put into empty slots in the order in which it is written, fills
the same ones.** -/
theorem Stored.places {file : Img3File} (stored : Stored file) (header : List UInt8) :
    file.slots.foldl Img3File.place { header := header } = { file with header := header } := by
  rw [Img3File.slots, Img3File.beforeShsh, List.foldl_append, foldl_filterMap_id,
    foldl_filterMap_id]
  simp only [List.foldl_cons, List.foldl_nil]
  have second : ∀ file' : Img3File, file'.kbag1Element = file.kbag1Element →
      file'.kbag2Element = none →
        file'.placeOption file.kbag2Element = { file' with kbag2Element := file.kbag2Element } :=
    fun file' isFirst free =>
      placeOption_second free (fun none => stored.kbags (isFirst.symm.trans none)) stored.second
  rw [placeOption_eq_setSlot (e := file.typeElement) .type rfl (stored.slot .type),
    placeOption_eq_setSlot (e := file.dataElement) .data rfl (stored.slot .data),
    placeOption_eq_setSlot (e := file.versElement) .vers rfl (stored.slot .vers),
    placeOption_eq_setSlot (e := file.sepoElement) .sepo rfl (stored.slot .sepo),
    placeOption_eq_setSlot (e := file.bordElement) .bord rfl (stored.slot .bord),
    placeOption_eq_setSlot (e := file.kbag1Element) .kbag rfl (stored.slot .kbag),
    second,
    placeOption_eq_setSlot (e := file.ecidElement) .ecid rfl (stored.slot .ecid),
    placeOption_eq_setSlot (e := file.shshElement) .shsh rfl (stored.slot .shsh),
    placeOption_eq_setSlot (e := file.certElement) .cert rfl (stored.slot .cert),
    placeOption_eq_setSlot (e := file.unknElement) .unkn rfl (stored.slot .unkn)]
  · rfl
  · rfl
  · rfl

/-! ## What is written -/

theorem field_append_right {front back : List UInt8} {n : Nat} (width : front.length = n)
    (off : Nat) : field (front ++ back) (n + off) = field back off := by
  subst width
  rw [field, field, slice_append_right]

/-- The four bytes of a number, read back. -/
theorem field_le {n : Nat} (small : n < 2 ^ 32) (back : List UInt8) : field (le 4 n ++ back) 0 = n := by
  rw [field, slice, List.drop_zero, List.take_left' (length_le 4 n), ofLE_le small]

namespace Img3File

variable (file : Img3File) (shshOffset : Nat)

/-- The header that is written. -/
def writtenHeader : List UInt8 :=
  le 4 (field file.header 0) ++ (le 4 (20 + sizeOfBlocks file.slots) ++
    (le 4 (sizeOfBlocks file.slots) ++ (le 4 shshOffset ++ le 4 (field file.header 16))))

theorem length_writtenHeader : (file.writtenHeader shshOffset).length = 20 := by
  simp [writtenHeader]

theorem written_eq : file.written shshOffset =
    file.writtenHeader shshOffset ++ file.slots.flatMap Img3Element.data := by
  simp only [written, writtenHeader, List.append_assoc]

theorem length_written : (file.written shshOffset).length = 20 + sizeOfBlocks file.slots := by
  rw [written_eq, List.length_append, length_writtenHeader, sizeOfBlocks]

theorem writtenHeader_signature :
    field (file.writtenHeader shshOffset) 0 = field file.header 0 :=
  field_le (field_lt _ _) _

theorem writtenHeader_imageType :
    field (file.writtenHeader shshOffset) 16 = field file.header 16 := by
  have last := field_le (field_lt file.header 16) []
  rw [List.append_nil] at last
  rw [writtenHeader, field_append_right (length_le 4 _) 12, field_append_right (length_le 4 _) 8,
    field_append_right (length_le 4 _) 4, field_append_right (length_le 4 _) 0, last]

theorem written_fullSize (small : 20 + sizeOfBlocks file.slots < 2 ^ 32) :
    field (file.written shshOffset) 4 = 20 + sizeOfBlocks file.slots := by
  rw [written, field_append_right (length_le 4 _) 0, field_le small]

theorem written_dataSize (small : 20 + sizeOfBlocks file.slots < 2 ^ 32) :
    field (file.written shshOffset) 8 = sizeOfBlocks file.slots := by
  rw [written, field_append_right (length_le 4 _) 4, field_append_right (length_le 4 _) 0,
    field_le (by omega)]

theorem written_shshOffset (small : shshOffset < 2 ^ 32) :
    field (file.written shshOffset) 12 = shshOffset := by
  rw [written, field_append_right (length_le 4 _) 8, field_append_right (length_le 4 _) 4,
    field_append_right (length_le 4 _) 0, field_le small]

end Img3File

/-- The sum of the stored elements' `full_size`. -/
def Img3File.storedSize (file : Img3File) : Nat := (file.slots.map fun e => field e.data 4).sum

theorem sum_fullSize {es : List Img3Element} (whole : ∀ e ∈ es, e.Whole) :
    (es.map fun e => field e.data 4).sum = sizeOfBlocks es := by
  induction es with
  | nil => rfl
  | cons e es ih =>
    rw [List.map_cons, List.sum_cons, (whole e (by simp)).delimited, sizeOfBlocks_cons,
      ih fun e' member => whole e' (by simp [member])]

/-- The SHSH is written behind the slots before it. -/
theorem Img3File.shsh_written {file : Img3File} {shsh : Img3Element}
    (found : file.shshElement = some shsh) (shshOffset : Nat) :
    shsh.data <+: (file.written shshOffset).drop (20 + sizeOfBlocks file.beforeShsh) := by
  have behind : file.slots = file.beforeShsh ++
      (shsh :: [file.certElement, file.unknElement].filterMap id) := by
    rw [slots, found]
    rfl
  rw [written_eq, ← List.drop_drop, List.drop_left' (length_writtenHeader ..), behind,
    List.flatMap_append, sizeOfBlocks, List.drop_left, List.flatMap_cons]
  exact List.prefix_append _ _

/-- **A file that was obtained, of less than `2^31` bytes in all, is written with its sizes
and the offset of its SHSH; and parsed and written again, it is the same image.** -/
theorem written_again {file : Img3File} (obtained : Obtained file)
    (small : 20 + file.storedSize < 2 ^ 31) (unset : Nat) :
    ∃ out, img3GetData file unset = .ok (some out) ∧ out.length = 20 + file.storedSize ∧
      field out 4 = 20 + file.storedSize ∧ field out 8 = file.storedSize ∧
      ∀ shsh, file.shshElement = some shsh →
        shsh.data <+: out.drop (20 + field out 12) ∧
          ∃ again, img3ParseFile out = .ok (some again) ∧
            ∀ unset', img3GetData again unset' = .ok (some out) := by
  have stored := obtained.stored
  have whole := stored.whole
  have size : file.storedSize = sizeOfBlocks file.slots := sum_fullSize whole
  rw [size] at small ⊢
  have run := img3GetData_whole stored.length whole small
  refine ⟨_, run unset, file.length_written _, file.written_fullSize _ (by omega),
    file.written_dataSize _ (by omega), ?_⟩
  intro shsh found
  have some : ¬ file.shshElement = none := fun none => nomatch found.symm.trans none
  have before : sizeOfBlocks file.beforeShsh ≤ sizeOfBlocks file.slots := by
    rw [Img3File.slots, sizeOfBlocks, sizeOfBlocks, List.flatMap_append, List.length_append]
    exact Nat.le_add_right _ _
  rw [if_neg some, file.written_shshOffset _ (by omega)]
  refine ⟨Img3File.shsh_written found _, ?_⟩
  -- the parse fills the same slots, and the new header keeps what is written of the old
  generalize isHeader : file.writtenHeader (sizeOfBlocks file.beforeShsh) = header
  have length : header.length = 20 := isHeader ▸ file.length_writtenHeader _
  have signature : field header 0 = field file.header 0 :=
    isHeader ▸ file.writtenHeader_signature _
  have imageType : field header 16 = field file.header 16 :=
    isHeader ▸ file.writtenHeader_imageType _
  have parsed := img3ParseFile_whole length (signature.trans stored.container) whole stored.known
  rw [stored.places, ← isHeader, ← Img3File.written_eq, isHeader] at parsed
  refine ⟨{ file with header := header }, parsed, fun unset' => ?_⟩
  have again := @img3GetData_whole { file with header := header } length whole small unset'
  have same : ({ file with header := header } : Img3File).written (sizeOfBlocks file.beforeShsh) =
      file.written (sizeOfBlocks file.beforeShsh) := by
    rw [Img3File.written, Img3File.written, signature, imageType]
    rfl
  rw [← same]
  exact again.trans (by rw [if_neg some]; rfl)

/-! ## Two files -/

/-- The recorded image with the sample signature. -/
def signedSample : Img3File :=
  Img3File.sign ((batterycharging0.elements.map Element.parsed).foldl Img3File.place
    { header := batterycharging0.header }) sampleBlob.ecid.parsed sampleBlob.shsh.parsed
      sampleBlob.cert.parsed

theorem obtained_signedSample : Obtained signedSample :=
  .replaced (.parsed batterycharging0 (img3ParseFile_places batterycharging0)) sampleBlob.bytes
    (img3ReplaceSignature_ok (by decide))

theorem signedSample_written_again :
    ∃ out, img3GetData signedSample 0 = .ok (some out) ∧
      out.length = 20 + signedSample.storedSize ∧ field out 4 = 20 + signedSample.storedSize ∧
      field out 8 = signedSample.storedSize ∧
      ∀ shsh, signedSample.shshElement = some shsh →
        shsh.data <+: out.drop (20 + field out 12) ∧
          ∃ again, img3ParseFile out = .ok (some again) ∧
            ∀ unset', img3GetData again unset' = .ok (some out) :=
  written_again obtained_signedSample (by decide) 0

/-- An image without elements. -/
def bareImage : Image where
  header := le 4 kImg3Container ++ List.replicate 16 0
  elements := []
  header_length := by decide
  container := by decide
  known := by simp
  small := by decide

theorem ofData_signature {signature : Nat} (small : signature < 2 ^ 32) (data : List UInt8)
    (fits : 12 + data.length < 2 ^ 32) : (Element.ofData signature data fits).signature = signature :=
  field_le small _

/-- A blob with this certificate. -/
def certifying (certificate : List UInt8) (fits : 12 + certificate.length < 2 ^ 32) : Blob where
  ecid := .ofData kEcidElement [] no_data_small
  shsh := .ofData kShshElement [] no_data_small
  cert := .ofData kCertElement certificate fits
  ecid_signature := ofData_signature (by decide) _ _
  shsh_signature := ofData_signature (by decide) _ _
  cert_signature := ofData_signature (by decide) _ _

/-- What the slots of a bare image take when its signature is replaced by such a blob. -/
theorem storedSize_certifying {certificate : List UInt8}
    (fits : 12 + certificate.length < 2 ^ 32) :
    ∃ file, Obtained file ∧ totalSize file.slots = .ok (36 + certificate.length) := by
  have starts : (certifying certificate fits).ecid.bytes.length +
      (certifying certificate fits).shsh.bytes.length < 2 ^ 31 :=
    show 12 + 12 < 2 ^ 31 by decide
  refine ⟨_, .replaced (.parsed bareImage (img3ParseFile_places bareImage))
    (certifying certificate fits).bytes (img3ReplaceSignature_ok starts), ?_⟩
  have slots := totalSize_parsed (certifying certificate fits).elements
  have ecid := length_elementBytes kEcidElement []
  have shsh := length_elementBytes kShshElement []
  have cert := length_elementBytes kCertElement certificate
  simp only [Blob.elements, sizeOfElements_cons, sizeOfElements_nil, certifying, Element.ofData,
    ecid, shsh, cert] at slots
  refine slots.trans (congrArg Except.ok ?_)
  rw [List.length_nil]
  omega

/-- A blob whose CERT takes `2^31` bytes replaces the signature, and the image is then too
large to be written. -/
theorem large_certificate_not_written : ∃ file, Obtained file ∧
    ∀ unset, img3GetData file unset = .ok none := by
  obtain ⟨certificate, length⟩ : ∃ certificate : List UInt8, certificate.length = 2 ^ 31 - 12 :=
    ⟨List.replicate (2 ^ 31 - 12) 0, List.length_replicate⟩
  obtain ⟨file, obtained, total⟩ := storedSize_certifying
    (show 12 + certificate.length < 2 ^ 32 by omega)
  refine ⟨file, obtained, fun unset => ?_⟩
  have large : 2 ^ 31 ≤ (20 + (36 + certificate.length)) % 2 ^ 32 := by omega
  unfold img3GetData
  rw [total, ok_bind]
  exact if_pos large

end Irestore.Img3
