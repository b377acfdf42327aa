/-
# Img3.Signing — what signing an image writes

`img3_replace_signature` reads the blob's three elements one behind the other, and
`img3_get_data` writes the slots one behind the other, the unknown one last.

* `img3Sign_eq_some` — signing writes `signed`: what the slots kept, the blob, and
  the unknown element, and does so exactly when all that is below `2^31` bytes.
-/
import Irestore.Img3.Slots

namespace Irestore.Img3

open Irestore.Library.Bytes Irestore.Library.CMemory

set_option autoImplicit false

/-! ## Sizes -/

/-- The bytes a list of elements takes. -/
def sizeOfElements (es : List Element) : Nat := (es.flatMap Element.bytes).length

@[simp] theorem sizeOfElements_nil : sizeOfElements [] = 0 := rfl

@[simp] theorem sizeOfElements_cons (e : Element) (es : List Element) :
    sizeOfElements (e :: es) = e.bytes.length + sizeOfElements es := by
  simp [sizeOfElements]

@[simp] theorem sizeOfElements_append (es es' : List Element) :
    sizeOfElements (es ++ es') = sizeOfElements es + sizeOfElements es' := by
  simp [sizeOfElements]

theorem readField_parsed (e : Element) : readField e.parsed.data 4 = .ok e.bytes.length := by
  have header := e.header_le
  rw [← e.delimited]
  exact readField_eq (show 4 + 4 ≤ e.bytes.length by omega)

/-- The bytes the blocks of C elements take. -/
def sizeOfBlocks (es : List Img3Element) : Nat := (es.flatMap Img3Element.data).length

@[simp] theorem sizeOfBlocks_cons (e : Img3Element) (es : List Img3Element) :
    sizeOfBlocks (e :: es) = e.data.length + sizeOfBlocks es := by
  simp [sizeOfBlocks]

theorem sizeOfBlocks_parsed (es : List Element) :
    sizeOfBlocks (es.map Element.parsed) = sizeOfElements es := by
  rw [sizeOfBlocks, flatMap_parsed, sizeOfElements]

theorem readField_whole {e : Img3Element} (whole : e.Whole) :
    readField e.data 4 = .ok e.data.length := by
  have header := whole.header_le
  rw [readField_eq (by omega), whole.delimited]

theorem totalSize_whole {es : List Img3Element} (whole : ∀ e ∈ es, e.Whole) :
    totalSize es = .ok (sizeOfBlocks es) := by
  induction es with
  | nil => rfl
  | cons e es ih =>
    rw [totalSize, readField_whole (whole e (by simp)), ok_bind,
      ih fun e' member => whole e' (by simp [member]), ok_bind, sizeOfBlocks_cons]
    rfl

theorem copyElements_whole {size : Nat} {es : List Img3Element} (whole : ∀ e ∈ es, e.Whole) :
    ∀ {offset : Nat}, offset + sizeOfBlocks es ≤ size →
      copyElements size offset es = .ok (es.flatMap Img3Element.data) := by
  induction es with
  | nil => intro offset _; rfl
  | cons e es ih =>
    intro offset fits
    rw [sizeOfBlocks_cons] at fits
    have room : ¬ size < offset + e.data.length := by omega
    have piece : memcpy e.data e.data.length = .ok e.data := by simp [memcpy]
    rw [copyElements, readField_whole (whole e (by simp)), ok_bind, piece, ok_bind, if_neg room,
      ih (fun e' member => whole e' (by simp [member])) (by omega), ok_bind]
    rfl

theorem totalSize_parsed (es : List Element) :
    totalSize (es.map Element.parsed) = .ok (sizeOfElements es) := by
  rw [totalSize_whole (map_parsed_whole es), sizeOfBlocks_parsed]

/-- Elements that were copied had room. -/
theorem copyElements_fits {size : Nat} {es : List Img3Element} :
    ∀ {offset : Nat} {body : List UInt8}, copyElements size offset es = .ok body →
      ∀ {total : Nat}, totalSize es = .ok total → es = [] ∨ offset + total ≤ size := by
  induction es with
  | nil => exact fun _ _ _ => .inl rfl
  | cons e es ih =>
    intro offset body copied total sum
    obtain ⟨fullSize, read, copied⟩ := bind_eq_ok.mp copied
    obtain ⟨piece, -, copied⟩ := bind_eq_ok.mp copied
    obtain ⟨fullSize', read', sum⟩ := bind_eq_ok.mp sum
    obtain ⟨rest, sumRest, whole⟩ := bind_eq_ok.mp sum
    rw [read] at read'
    cases read'
    cases whole
    split at copied
    · cases copied
    · rename_i room
      obtain ⟨tail, copiedRest, -⟩ := bind_eq_ok.mp copied
      refine .inr ?_
      rcases ih copiedRest sumRest with empty | fits
      · subst empty
        cases sumRest
        omega
      · omega

theorem totalSize_sublist {xs ys : List Img3Element} (sub : xs.Sublist ys) :
    ∀ {total : Nat}, totalSize ys = .ok total → ∃ part ≤ total, totalSize xs = .ok part := by
  induction sub with
  | slnil => exact fun sum => ⟨_, Nat.le_refl _, sum⟩
  | cons y sub ih =>
    intro total sum
    obtain ⟨fullSize, -, sum⟩ := bind_eq_ok.mp sum
    obtain ⟨rest, sumRest, whole⟩ := bind_eq_ok.mp sum
    cases whole
    obtain ⟨part, below, partial'⟩ := ih sumRest
    exact ⟨part, by omega, partial'⟩
  | cons_cons y sub ih =>
    intro total sum
    obtain ⟨fullSize, read, sum⟩ := bind_eq_ok.mp sum
    obtain ⟨rest, sumRest, whole⟩ := bind_eq_ok.mp sum
    cases whole
    obtain ⟨part, below, partial'⟩ := ih sumRest
    refine ⟨fullSize + part, by omega, ?_⟩
    rw [totalSize, read, ok_bind, partial', ok_bind]
    rfl

/-! ## `img3_get_data` -/

/-- An image in bytes: its header, with the offset of the SHSH, and its elements. -/
def imageBytes (header : List UInt8) (beforeShsh es : List Element) : List UInt8 :=
  le 4 (field header 0) ++ (le 4 (20 + sizeOfElements es) ++ (le 4 (sizeOfElements es) ++
    (le 4 (sizeOfElements beforeShsh) ++ (le 4 (field header 16) ++ es.flatMap Element.bytes))))

theorem imageBytes_drop (header : List UInt8) (beforeShsh es : List Element) :
    (imageBytes header beforeShsh es).drop 20 = es.flatMap Element.bytes := by
  simp [imageBytes, List.drop_append, List.drop_eq_nil_of_le]

/-- Data that was written is below `2^31` bytes. -/
theorem img3GetData_small {file : Img3File} {unset : Nat} {out : List UInt8}
    (written : img3GetData file unset = .ok (some out)) :
    ∃ total, totalSize file.slots = .ok total ∧ 20 + total < 2 ^ 31 := by
  obtain ⟨total, sum, written⟩ := bind_eq_ok.mp written
  refine ⟨total, sum, ?_⟩
  dsimp only at written
  split at written
  · cases written
  · rename_i positive
    obtain ⟨_, -, written⟩ := bind_eq_ok.mp written
    obtain ⟨_, -, written⟩ := bind_eq_ok.mp written
    obtain ⟨body, copied, -⟩ := bind_eq_ok.mp written
    rcases copyElements_fits copied sum with empty | fits
    · rw [empty] at sum
      cases sum
      decide
    · omega

/-- What is written of a file, with an offset of the SHSH. -/
def Img3File.written (file : Img3File) (shshOffset : Nat) : List UInt8 :=
  le 4 (field file.header 0) ++ (le 4 (20 + sizeOfBlocks file.slots) ++
    (le 4 (sizeOfBlocks file.slots) ++ (le 4 shshOffset ++
      (le 4 (field file.header 16) ++ file.slots.flatMap Img3Element.data))))

/-- What is written of slots that hold whole elements. -/
theorem img3GetData_whole {file : Img3File} (length : file.header.length = 20)
    (whole : ∀ e ∈ file.slots, e.Whole) (small : 20 + sizeOfBlocks file.slots < 2 ^ 31)
    (unset : Nat) :
    img3GetData file unset = .ok (some (file.written
      (if file.shshElement = none then unset else sizeOfBlocks file.beforeShsh))) := by
  have size : (20 + sizeOfBlocks file.slots) % 2 ^ 32 = 20 + sizeOfBlocks file.slots :=
    Nat.mod_eq_of_lt (by omega)
  have positive : ¬ 2 ^ 31 ≤ 20 + sizeOfBlocks file.slots := by omega
  have count : ¬ 20 + (file.slots.flatMap Img3Element.data).length ≠ 20 + sizeOfBlocks file.slots :=
    fun differ => differ rfl
  have before : ∀ e ∈ file.beforeShsh, e.Whole := fun e member =>
    whole e (List.mem_append_left _ member)
  unfold img3GetData
  rw [totalSize_whole whole, ok_bind]
  simp only [size, if_neg positive]
  rw [readField_eq (by omega), ok_bind, readField_eq (by omega), ok_bind,
    copyElements_whole whole (Nat.le_refl _), ok_bind, totalSize_whole before, ok_bind, if_neg count,
    Nat.add_sub_cancel_left]
  rfl

/-- What is written of slots that hold elements. -/
theorem img3GetData_parsed {file : Img3File} {beforeShsh es : List Element}
    (length : file.header.length = 20) (front : file.beforeShsh = beforeShsh.map Element.parsed)
    (slots : file.slots = es.map Element.parsed) (shsh : file.shshElement ≠ none)
    (small : 20 + sizeOfElements es < 2 ^ 31) (unset : Nat) :
    img3GetData file unset = .ok (some (imageBytes file.header beforeShsh es)) := by
  have whole : ∀ e ∈ file.slots, e.Whole := slots ▸ map_parsed_whole es
  have written : file.written (sizeOfBlocks file.beforeShsh) =
      imageBytes file.header beforeShsh es := by
    rw [Img3File.written, slots, front, sizeOfBlocks_parsed, sizeOfBlocks_parsed, flatMap_parsed]
    rfl
  rw [img3GetData_whole length whole (by rw [slots, sizeOfBlocks_parsed]; exact small), if_neg shsh,
    written]

/-! ## The slots, written out -/

/-- What the slots before the ECID keep of a list of elements. -/
def kept (es : List Element) : List Element :=
  [(ofKind .type es).getLast?, (ofKind .data es).getLast?, (ofKind .vers es).getLast?,
    (ofKind .sepo es).getLast?, (ofKind .bord es).getLast?, (ofKind .kbag es).head?,
    (ofKind .kbag es).tail.getLast?].filterMap id

/-- What the slot behind the CERT keeps. -/
def behind (es : List Element) : List Element := (ofKind .unkn es).getLast?.toList

/-- The elements of a signed image. -/
def signed (es : List Element) (blob : Blob) : List Element :=
  kept es ++ [blob.ecid] ++ ([blob.shsh, blob.cert] ++ behind es)

/-- The file with the signature's elements in their slots. -/
def Img3File.sign (file : Img3File) (ecid shsh cert : Img3Element) : Img3File :=
  { file with ecidElement := some ecid, shshElement := some shsh, certElement := some cert }

theorem filterMap_id_map {α β : Type} (f : α → β) (xs : List (Option α)) :
    (xs.map (Option.map f)).filterMap id = (xs.filterMap id).map f := by
  induction xs with
  | nil => rfl
  | cons x xs ih =>
    cases x with
    | none => exact ih
    | some a => exact congrArg (f a :: ·) ih

theorem Holds.beforeShsh {file : Img3File} {es : List Element} (holds : Holds file es)
    (ecid : Element) (shsh cert : Img3Element) :
    (file.sign ecid.parsed shsh cert).beforeShsh = (kept es ++ [ecid]).map Element.parsed := by
  have single := fun kind differ => holds.single kind differ
  rw [kept, List.map_append, ← filterMap_id_map]
  simp only [Img3File.beforeShsh, Img3File.sign, List.map_cons, List.map_nil]
  rw [← single .type (by decide), ← single .data (by decide), ← single .vers (by decide),
    ← single .sepo (by decide), ← single .bord (by decide), ← holds.kbag1, ← holds.kbag2]
  rw [show ∀ a b c d e f g : Option Img3Element, [a, b, c, d, e, f, g, some ecid.parsed] =
    [a, b, c, d, e, f, g] ++ [some ecid.parsed] from fun _ _ _ _ _ _ _ => rfl,
    List.filterMap_append]
  rfl

theorem Holds.slots {file : Img3File} {es : List Element} (holds : Holds file es) (blob : Blob) :
    (file.sign blob.ecid.parsed blob.shsh.parsed blob.cert.parsed).slots =
      (signed es blob).map Element.parsed := by
  have unkn := holds.single .unkn (by decide)
  have last : ∀ found : Option Element,
      [some blob.shsh.parsed, some blob.cert.parsed, found.map Element.parsed].filterMap id =
        ([blob.shsh, blob.cert] ++ found.toList).map Element.parsed := by
    intro found
    cases found <;> rfl
  rw [Img3File.slots, holds.beforeShsh, signed, @List.map_append _ _ _ _ (_ ++ _), behind, ← last,
    ← unkn]
  rfl

/-! ## The signature -/

theorem parseElementAt_zero (e : Element) (back : List UInt8) :
    parseElementAt (e.bytes ++ back) 0 = .ok e.parsed :=
  img3ParseElement_append e back

theorem parseElementAt_append {front : List UInt8} {offset : Nat} (width : front.length = offset)
    (small : offset < 2 ^ 31) (e : Element) (back : List UInt8) :
    parseElementAt (front ++ (e.bytes ++ back)) offset = .ok e.parsed := by
  have inside : offset % 2 ^ 32 = offset := Nat.mod_eq_of_lt (by omega)
  rw [parseElementAt, inside, if_pos small, ← width, List.drop_left]
  exact img3ParseElement_append e back

theorem parseElementAt_small {signature : List UInt8} {offset : Nat} {element : Img3Element}
    (parsed : parseElementAt signature offset = .ok element) : offset % 2 ^ 32 < 2 ^ 31 := by
  unfold parseElementAt at parsed
  split at parsed
  · assumption
  · cases parsed

theorem Blob.bytes_eq (blob : Blob) :
    blob.bytes = blob.ecid.bytes ++ (blob.shsh.bytes ++ (blob.cert.bytes ++ [])) := rfl

/-- Replacing takes the ECID and the SHSH of the blob, and its CERT when that starts
below `2^31`. -/
theorem img3ReplaceSignature_blob {file : Img3File} {blob : Blob} {replaced : Option Img3File}
    (run : img3ReplaceSignature file blob.bytes = .ok replaced) {signed : Img3File}
    (success : replaced = some signed) :
    ∃ cert, signed = file.sign blob.ecid.parsed blob.shsh.parsed cert ∧
      (blob.ecid.bytes.length + blob.shsh.bytes.length < 2 ^ 31 → cert = blob.cert.parsed) := by
  have ecidSize : blob.ecid.bytes.length < 2 ^ 32 := by
    rw [← blob.ecid.delimited]
    exact field_lt _ _
  unfold img3ReplaceSignature at run
  rw [blob.bytes_eq, parseElementAt_zero, ok_bind, if_neg fun differ => differ blob.ecid_signature,
    readField_parsed, ok_bind] at run
  obtain ⟨shsh, shshRun, run⟩ := bind_eq_ok.mp run
  have start := parseElementAt_small shshRun
  rw [Nat.mod_eq_of_lt ecidSize] at start
  rw [parseElementAt_append rfl start] at shshRun
  cases shshRun
  rw [if_neg fun differ => differ blob.shsh_signature, readField_parsed, ok_bind] at run
  obtain ⟨cert, certRun, run⟩ := bind_eq_ok.mp run
  subst success
  split at run
  · cases run
  · obtain ⟨_, -, run⟩ := bind_eq_ok.mp run
    cases run
    refine ⟨cert, rfl, fun small => ?_⟩
    rw [← List.append_assoc, parseElementAt_append (List.length_append ..) small] at certRun
    cases certRun
    rfl

theorem img3ReplaceSignature_ok {file : Img3File} {blob : Blob}
    (small : blob.ecid.bytes.length + blob.shsh.bytes.length < 2 ^ 31) :
    img3ReplaceSignature file blob.bytes =
      .ok (some (file.sign blob.ecid.parsed blob.shsh.parsed blob.cert.parsed)) := by
  unfold img3ReplaceSignature
  rw [blob.bytes_eq, parseElementAt_zero, ok_bind, if_neg fun differ => differ blob.ecid_signature,
    readField_parsed, ok_bind, parseElementAt_append rfl (by omega), ok_bind,
    if_neg fun differ => differ blob.shsh_signature, readField_parsed, ok_bind,
    ← List.append_assoc, parseElementAt_append (List.length_append ..) small, ok_bind,
    if_neg fun differ => differ blob.cert_signature, readField_parsed, ok_bind]
  rfl

/-- **Signing an image writes what the slots kept, the blob and the unknown element,
exactly when that is below `2^31` bytes.** -/
theorem img3Sign_eq_some {image : Image} {blob : Blob} {unset : Nat} {out : List UInt8} :
    img3Sign image.bytes blob.bytes unset = .ok (some out) ↔
      20 + sizeOfElements (signed image.elements blob) < 2 ^ 31 ∧
        out = imageBytes image.header (kept image.elements ++ [blob.ecid])
          (signed image.elements blob) := by
  obtain ⟨file, parsed, holds, header⟩ := img3ParseFile_image image
  have length : file.header.length = 20 := header ▸ image.header_length
  unfold img3Sign
  rw [parsed, ok_bind]
  dsimp only
  have written (small : 20 + sizeOfElements (signed image.elements blob) < 2 ^ 31) :
      img3GetData (file.sign blob.ecid.parsed blob.shsh.parsed blob.cert.parsed) unset =
        .ok (some (imageBytes image.header (kept image.elements ++ [blob.ecid])
          (signed image.elements blob))) := by
    rw [← header]
    exact @img3GetData_parsed (file.sign _ _ _) _ _ length
      (holds.beforeShsh blob.ecid blob.shsh.parsed blob.cert.parsed) (holds.slots blob)
      (fun none => nomatch none) small unset
  constructor
  · intro run
    obtain ⟨replaced, replacing, run⟩ := bind_eq_ok.mp run
    cases replaced with
    | none => cases run
    | some signedFile =>
      obtain ⟨cert, rfl, isCert⟩ := img3ReplaceSignature_blob replacing rfl
      obtain ⟨total, sum, small⟩ := img3GetData_small run
      -- the ECID and the SHSH are among what was written, so the CERT starts below `2^31`
      have both : [blob.ecid.parsed, blob.shsh.parsed].Sublist
          (file.sign blob.ecid.parsed blob.shsh.parsed cert).slots := by
        rw [Img3File.slots, holds.beforeShsh, List.map_append, List.append_assoc]
        exact (List.nil_sublist _).append ((List.singleton_sublist.mpr (by simp)).append
          (List.singleton_sublist.mpr (by simp [Img3File.sign])))
      obtain ⟨part, below, partial'⟩ := totalSize_sublist both sum
      have sizes := totalSize_parsed [blob.ecid, blob.shsh]
      rw [List.map_cons, List.map_cons, List.map_nil, partial'] at sizes
      cases sizes
      simp only [sizeOfElements_cons, sizeOfElements_nil] at below
      rw [isCert (by omega), holds.slots, totalSize_parsed] at sum
      cases sum
      rw [isCert (by omega)] at run
      change img3GetData _ unset = _ at run
      rw [written small] at run
      cases run
      exact ⟨small, rfl⟩
  · rintro ⟨small, rfl⟩
    have starts : blob.ecid.bytes.length + blob.shsh.bytes.length < 2 ^ 31 := by
      simp only [signed, sizeOfElements_append, sizeOfElements_cons] at small
      omega
    rw [img3ReplaceSignature_ok starts, ok_bind]
    exact written small

end Irestore.Img3
