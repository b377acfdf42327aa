/-
# Img3.Safety — which buffers the parser can be given

The parser walks the elements by their sizes, and compares none of them with what is left of
the buffer; only an unknown signature makes it give up.

* `Tiles` — the elements take the buffer from one end to the other.
* `Stops` — the walk comes to an unknown signature.
* `parseElements_eq_none_iff` — the loop gives up exactly where the walk stops.
* `replaceSignature` — `img3_replace_signature` on the image it changes; `Chain` is what it
  reads of a blob.
* `parsed_and_replaced_iff` — when the parser stays inside its buffer and gives up what does
  not tile, and when the replacement stays inside the blob.
* `element_sizes_trusted` — a short size that is accepted, and an empty blob.
-/
import Irestore.Img3.Signing
import Irestore.Library.Program

namespace Irestore.Img3

open Irestore.Library Irestore.Library.Program Irestore.Library.Bytes Irestore.Library.CMemory

set_option autoImplicit false

/-! ## The walk over the elements -/

/-- The elements take the bytes from one end to the other. -/
def Tiles (data : List UInt8) : Prop := ∃ es : List Element, data = es.flatMap Element.bytes

/-- The walk over the elements comes to an unknown signature, behind known elements of which
each has the eight bytes that are read, and a size of at least four and not past the end. -/
inductive Stops : List UInt8 → Prop
  | here {data : List UInt8} (readable : 4 ≤ data.length) (unknown : slotOf (field data 0) = none) :
      Stops data
  | later {data : List UInt8} {kind : Slot} (known : slotOf (field data 0) = some kind)
      (header : 8 ≤ data.length) (four : 4 ≤ field data 4) (fits : field data 4 ≤ data.length)
      (rest : Stops (data.drop (field data 4))) : Stops data

/-- One round of the loop, at an element that can be parsed. -/
theorem parseElements_step {fuel : Nat} {image : Img3File} {data : List UInt8} {kind : Slot}
    (known : slotOf (field data 0) = some kind) (header : 8 ≤ data.length)
    (four : 4 ≤ field data 4) (fits : field data 4 ≤ data.length) :
    parseElements (fuel + 1) image data =
      parseElements fuel (image.put ⟨data.take (field data 4), field data 0⟩ kind)
        (data.drop (field data 4)) := by
  have signature : readField data 0 = .ok (field data 0) := readField_eq (by omega)
  have size : readField data 4 = .ok (field data 4) := readField_eq header
  have parsed := img3ParseElement_eq_ok.mpr ⟨header, four, fits, rfl⟩
  match data with
  | [] => exact absurd header (by decide)
  | b :: bs =>
    rw [parseElements, signature, ok_bind, known]
    simp only [parsed, size, ok_bind]

/-- A round of the loop that the program does not leave. -/
theorem parseElements_cons {fuel : Nat} {image : Img3File} {data : List UInt8}
    {result : Option Img3File} (some : data ≠ [])
    (run : parseElements (fuel + 1) image data = .ok result) :
    4 ≤ data.length ∧ (slotOf (field data 0) = none ∧ result = none ∨
      ∃ kind, slotOf (field data 0) = Option.some kind ∧ 8 ≤ data.length ∧ 4 ≤ field data 4 ∧
        field data 4 ≤ data.length) := by
  match data with
  | [] => exact absurd rfl some
  | b :: bs =>
    rw [parseElements] at run
    obtain ⟨signature, read, run⟩ := bind_eq_ok.mp run
    obtain ⟨readable, rfl⟩ := readField_eq_ok.mp read
    refine ⟨readable, ?_⟩
    cases found : slotOf (field (b :: bs) 0) with
    | none =>
      rw [found] at run
      cases run
      exact .inl ⟨rfl, rfl⟩
    | some kind =>
      rw [found] at run
      obtain ⟨element, parsed, -⟩ := bind_eq_ok.mp run
      obtain ⟨header, four, fits, -⟩ := img3ParseElement_eq_ok.mp parsed
      exact .inr ⟨kind, rfl, header, four, fits⟩

theorem stops_of_none : ∀ {fuel : Nat} {image : Img3File} {data : List UInt8},
    parseElements fuel image data = .ok none → Stops data
  | 0, _, [], run => by cases run
  | 0, _, _ :: _, run => by cases run
  | fuel + 1, _, [], run => by cases run
  | fuel + 1, image, b :: bs, run => by
      obtain ⟨readable, ⟨unknown, -⟩ | ⟨kind, known, header, four, fits⟩⟩ :=
        parseElements_cons (List.cons_ne_nil b bs) run
      · exact .here readable unknown
      · rw [parseElements_step known header four fits] at run
        exact .later known header four fits (stops_of_none run)

theorem Stops.none {data : List UInt8} (stops : Stops data) : ∀ {fuel : Nat} {image : Img3File},
    data.length ≤ fuel → parseElements fuel image data = .ok none := by
  induction stops with
  | @here data readable unknown =>
    intro fuel image enough
    obtain ⟨fuel, rfl⟩ : ∃ more, fuel = more + 1 := ⟨fuel - 1, by omega⟩
    have signature : readField data 0 = .ok (field data 0) := readField_eq readable
    match data with
    | [] => exact absurd readable (by decide)
    | b :: bs => rw [parseElements, signature, ok_bind, unknown]; rfl
  | later known header four fits rest ih =>
    intro fuel image enough
    obtain ⟨fuel, rfl⟩ : ∃ more, fuel = more + 1 := ⟨fuel - 1, by omega⟩
    rw [parseElements_step known header four fits]
    exact ih (by rw [List.length_drop]; omega)

/-- **The loop gives up exactly where the walk stops.** -/
theorem parseElements_eq_none_iff {fuel : Nat} {image : Img3File} {data : List UInt8}
    (enough : data.length ≤ fuel) : parseElements fuel image data = .ok none ↔ Stops data :=
  ⟨stops_of_none, fun stops => stops.none enough⟩

/-- Elements of which one is unknown. -/
theorem stops_of_unknown {es : List Element} (unknown : ¬ ∀ e ∈ es, slotOf e.signature ≠ none) :
    Stops (es.flatMap Element.bytes) := by
  induction es with
  | nil => exact absurd (by simp) unknown
  | cons e es ih =>
    have header := e.header_le
    have signature : field (e.bytes ++ es.flatMap Element.bytes) 0 = e.signature :=
      field_append (by omega)
    have size : field (e.bytes ++ es.flatMap Element.bytes) 4 = e.bytes.length := by
      rw [field_append (by omega), e.delimited]
    rw [List.flatMap_cons]
    cases known : slotOf e.signature with
    | none =>
      refine .here ?_ (signature ▸ known)
      rw [List.length_append]
      omega
    | some kind =>
      refine .later (signature ▸ known) ?_ ?_ ?_ ?_
      · rw [List.length_append]
        omega
      · omega
      · rw [size, List.length_append]
        omega
      · rw [size, List.drop_left]
        refine ih fun all => unknown fun e' member => ?_
        rcases List.mem_cons.mp member with rfl | inside
        · rw [known]
          exact Option.some_ne_none kind
        · exact all e' inside

/-- The loop ends on what tiles, and gives up on an unknown kind. -/
theorem Tiles.ends {data : List UInt8} (tiles : Tiles data) {fuel : Nat} {image : Img3File}
    (enough : data.length ≤ fuel) : Ends (parseElements fuel image data) := by
  obtain ⟨es, rfl⟩ := tiles
  by_cases known : ∀ e ∈ es, slotOf e.signature ≠ none
  · have parsed := @parseElements_whole (es.map Element.parsed) fuel image (map_parsed_whole es)
      (by simpa [Element.parsed] using known) (by rw [flatMap_parsed]; exact enough)
    rw [flatMap_parsed] at parsed
    exact ⟨_, parsed⟩
  · exact ⟨none, (stops_of_unknown known).none enough⟩

/-! ## The parser -/

/-- It ends without a read outside the buffer, and gives up when the elements do not tile what
is behind the header. -/
def Parses (data : List UInt8) : Prop :=
  Ends (img3ParseFile data) ∧
    (¬ (20 ≤ data.length ∧ Tiles (data.drop 20)) → img3ParseFile data = .ok none)

/-- The buffers it can be given. -/
def Parsable (data : List UInt8) : Prop :=
  4 ≤ data.length ∧ (field data 0 = kImg3Container →
    20 ≤ data.length ∧ (Tiles (data.drop 20) ∨ Stops (data.drop 20)))

theorem img3ParseFile_container {data : List UInt8} (container : field data 0 = kImg3Container)
    (length : 20 ≤ data.length) :
    img3ParseFile data = parseElements data.length { header := data.take 20 } (data.drop 20) := by
  unfold img3ParseFile
  rw [readField_eq (by omega), ok_bind, if_neg (not_not.mpr container), memcpy, if_pos length,
    ok_bind]

theorem img3ParseFile_other {data : List UInt8} (readable : 4 ≤ data.length)
    (other : field data 0 ≠ kImg3Container) : img3ParseFile data = .ok none := by
  unfold img3ParseFile
  rw [readField_eq readable, ok_bind, if_pos other]
  rfl

theorem parses_iff (data : List UInt8) : Parses data ↔ Parsable data := by
  constructor
  · rintro ⟨⟨result, run⟩, gives⟩
    obtain ⟨signature, read, rest⟩ := bind_eq_ok.mp run
    obtain ⟨readable, rfl⟩ := readField_eq_ok.mp read
    refine ⟨readable, fun container => ?_⟩
    rw [if_neg (not_not.mpr container)] at rest
    obtain ⟨header, copied, -⟩ := bind_eq_ok.mp rest
    have length := (memcpy_eq_ok.mp copied).1
    refine ⟨length, ?_⟩
    by_cases tiles : Tiles (data.drop 20)
    · exact .inl tiles
    · have none := gives fun both => tiles both.2
      rw [img3ParseFile_container container length] at none
      exact .inr (stops_of_none none)
  · rintro ⟨readable, image⟩
    by_cases container : field data 0 = kImg3Container
    · obtain ⟨length, walk⟩ := image container
      have enough : (data.drop 20).length ≤ data.length := by
        rw [List.length_drop]
        exact Nat.sub_le _ _
      rw [Parses, img3ParseFile_container container length]
      rcases walk with tiles | stops
      · exact ⟨tiles.ends enough, fun not => absurd ⟨length, tiles⟩ not⟩
      · have none : parseElements data.length { header := data.take 20 } (data.drop 20) =
            .ok none := stops.none enough
        exact ⟨⟨_, none⟩, fun _ => none⟩
    · have none := img3ParseFile_other readable container
      exact ⟨⟨_, none⟩, fun _ => none⟩

/-! ## The replacement -/

/-- `img3_replace_signature`, on the image that it changes; it returns its code. -/
def replaceSignature (signature : List UInt8) : Program Img3File Int := do
  let ecid ← Program.lift (parseElementAt signature 0)
  if ecid.type ≠ kEcidElement then return -1
  else do
    let ecidSize ← Program.lift (readField ecid.data 4)
    let shsh ← Program.lift (parseElementAt signature ecidSize)
    if shsh.type ≠ kShshElement then return -1
    else do
      let shshSize ← Program.lift (readField shsh.data 4)
      let cert ← Program.lift (parseElementAt signature (ecidSize + shshSize))
      if cert.type ≠ kCertElement then return -1
      else do
        let _ ← Program.lift (readField cert.data 4)
        Program.modify fun image => { image with ecidElement := some ecid }
        Program.modify fun image => { image with shshElement := some shsh }
        Program.modify fun image => { image with certElement := some cert }
        return 0

/-- It returns what `img3ReplaceSignature` does, and changes the image only when that gives a
new one. -/
theorem run_replaceSignature (signature : List UInt8) (image : Img3File) :
    (replaceSignature signature).run image =
      match img3ReplaceSignature image signature with
      | .ok none => (.ok (-1), image)
      | .ok (some image') => (.ok 0, image')
      | .error fault => (.error fault, image) := by
  unfold replaceSignature img3ReplaceSignature
  rw [run_bind_eq, run_lift]
  cases parseElementAt signature 0 with
  | error fault => rfl
  | ok ecid =>
  dsimp only
  rw [ok_bind]
  by_cases isEcid : ecid.type ≠ kEcidElement
  · rw [if_pos isEcid, if_pos isEcid]
    rfl
  rw [if_neg isEcid, if_neg isEcid, run_bind_eq, run_lift]
  cases readField ecid.data 4 with
  | error fault => rfl
  | ok ecidSize =>
  dsimp only
  rw [ok_bind, run_bind_eq, run_lift]
  cases parseElementAt signature ecidSize with
  | error fault => rfl
  | ok shsh =>
  dsimp only
  rw [ok_bind]
  by_cases isShsh : shsh.type ≠ kShshElement
  · rw [if_pos isShsh, if_pos isShsh]
    rfl
  rw [if_neg isShsh, if_neg isShsh, run_bind_eq, run_lift]
  cases readField shsh.data 4 with
  | error fault => rfl
  | ok shshSize =>
  dsimp only
  rw [ok_bind, run_bind_eq, run_lift]
  cases parseElementAt signature (ecidSize + shshSize) with
  | error fault => rfl
  | ok cert =>
  dsimp only
  rw [ok_bind]
  by_cases isCert : cert.type ≠ kCertElement
  · rw [if_pos isCert, if_pos isCert]
    rfl
  rw [if_neg isCert, if_neg isCert, run_bind_eq, run_lift]
  cases readField cert.data 4 with
  | error fault => rfl
  | ok certSize => rfl

/-- It reads nothing outside the blob, and leaves the image when it returns a negative code. -/
def Replaces (image : Img3File) (signature : List UInt8) : Prop :=
  Ends ((replaceSignature signature).run image).1 ∧
    ∀ ret, ((replaceSignature signature).run image).1 = .ok ret → ret < 0 →
      ((replaceSignature signature).run image).2 = image

/-- Elements of these kinds stand behind each other from an offset on, as far as they are
read: the first that is of another kind is the last. -/
def Chain (signature : List UInt8) : Nat → List Nat → Prop
  | _, [] => True
  | offset, kind :: kinds =>
      let rest := signature.drop (offset % 2 ^ 32)
      offset % 2 ^ 32 < 2 ^ 31 ∧ 8 ≤ rest.length ∧ 4 ≤ field rest 4 ∧ field rest 4 ≤ rest.length ∧
        (field rest 0 = kind → 8 ≤ field rest 4 ∧ Chain signature (offset + field rest 4) kinds)

/-- One element of the chain, whatever is done behind it. -/
theorem chain_cons_iff {α : Type} {signature : List UInt8} {offset kind : Nat} {kinds : List Nat}
    {refuse : Checked α} {next : Img3Element → Nat → Checked α} (refused : Ends refuse)
    (later : ∀ e size, Ends (next e size) ↔ Chain signature (offset + size) kinds) :
    Ends (do
      let e ← parseElementAt signature offset
      if e.type ≠ kind then refuse
      else do
        let size ← readField e.data 4
        next e size) ↔ Chain signature offset (kind :: kinds) := by
  rw [ends_bind_iff, Chain]
  generalize isRest : signature.drop (offset % 2 ^ 32) = rest
  have at_offset : ∀ e, parseElementAt signature offset = .ok e ↔
      offset % 2 ^ 32 < 2 ^ 31 ∧ img3ParseElement rest = .ok e := by
    intro e
    rw [parseElementAt, isRest]
    split
    · rename_i inside
      exact (and_iff_right inside).symm
    · rename_i outside
      exact iff_of_false (fun run => by cases run) fun both => outside both.1
  -- the size that is read again is that of the block
  have again : 4 ≤ field rest 4 → field rest 4 ≤ rest.length → ∀ size,
      readField (rest.take (field rest 4)) 4 = .ok size ↔
        8 ≤ field rest 4 ∧ size = field rest 4 := by
    intro four fits size
    have width : (rest.take (field rest 4)).length = field rest 4 := by
      rw [List.length_take]
      omega
    rw [readField_eq_ok, width]
    exact and_congr_right fun eight => by rw [field_take eight]
  constructor
  · rintro ⟨e, parsed, ends⟩
    obtain ⟨inside, parsed⟩ := (at_offset e).mp parsed
    obtain ⟨eight, four, fits, rfl⟩ := img3ParseElement_eq_ok.mp parsed
    refine ⟨inside, eight, four, fits, fun isKind => ?_⟩
    rw [if_neg (not_not.mpr isKind)] at ends
    obtain ⟨size, read, ends⟩ := ends_bind_iff.mp ends
    obtain ⟨whole, rfl⟩ := (again four fits size).mp read
    exact ⟨whole, (later _ _).mp ends⟩
  · rintro ⟨inside, eight, four, fits, chain⟩
    refine ⟨_, (at_offset _).mpr ⟨inside, img3ParseElement_eq_ok.mpr ⟨eight, four, fits, rfl⟩⟩, ?_⟩
    dsimp only
    split
    · exact refused
    · rename_i isKind
      obtain ⟨whole, chain⟩ := chain (not_not.mp isKind)
      exact ends_bind_iff.mpr ⟨_, (again four fits _).mpr ⟨whole, rfl⟩, (later _ _).mpr chain⟩

theorem img3ReplaceSignature_ends_iff (image : Img3File) (signature : List UInt8) :
    Ends (img3ReplaceSignature image signature) ↔
      Chain signature 0 [kEcidElement, kShshElement, kCertElement] := by
  have refused : Ends (pure none : Checked (Option Img3File)) := ⟨none, rfl⟩
  refine chain_cons_iff refused fun ecid ecidSize => ?_
  rw [Nat.zero_add]
  refine chain_cons_iff refused fun shsh shshSize => ?_
  refine chain_cons_iff refused fun cert certSize => ?_
  exact iff_of_true ⟨_, rfl⟩ trivial

theorem replaces_iff (image : Img3File) (signature : List UInt8) :
    Replaces image signature ↔ Chain signature 0 [kEcidElement, kShshElement, kCertElement] := by
  rw [← img3ReplaceSignature_ends_iff image, Replaces, run_replaceSignature]
  cases img3ReplaceSignature image signature with
  | error fault =>
    refine iff_of_false ?_ ?_
    · rintro ⟨⟨_, ended⟩, -⟩
      cases ended
    · rintro ⟨_, ended⟩
      cases ended
  | ok replaced =>
    refine iff_of_true ?_ ⟨_, rfl⟩
    cases replaced with
    | none => exact ⟨⟨_, rfl⟩, fun _ _ _ => rfl⟩
    | some image' =>
      refine ⟨⟨_, rfl⟩, fun ret same negative => ?_⟩
      cases same
      exact absurd negative (by decide)

/-- **When the parser stays inside its buffer and gives up what does not tile, and when the
replacement stays inside the blob and leaves the image**: the sizes that the elements state
are within what there is, and the parser is stopped by an unknown signature or not at all. -/
theorem parsed_and_replaced_iff (data : List UInt8) (image : Img3File) (signature : List UInt8) :
    (Parses data ↔ Parsable data) ∧
      (Replaces image signature ↔
        Chain signature 0 [kEcidElement, kShshElement, kCertElement]) :=
  ⟨parses_iff data, replaces_iff image signature⟩

/-- A header, and a TYPE element that says it takes eight bytes. -/
def shortElement : List UInt8 :=
  le 4 kImg3Container ++ (List.replicate 16 0 ++ (le 4 kTypeElement ++ le 4 8))

/-- It is accepted, and the parser and the replacement read past shorter buffers. -/
theorem element_sizes_trusted :
    ¬ Parses shortElement ∧
      img3ParseFile (shortElement.take 25) = .error .outOfBounds ∧ ¬ Parses (shortElement.take 25) ∧
      img3ReplaceSignature { header := [] } [] = .error .outOfBounds ∧
      ¬ Replaces { header := [] } [] := by
  have accepted : ∃ file, img3ParseFile shortElement = .ok (some file) := ⟨_, rfl⟩
  have outside : img3ParseFile (shortElement.take 25) = .error .outOfBounds := rfl
  refine ⟨?_, outside, ?_, rfl, ?_⟩
  · rintro ⟨-, gives⟩
    obtain ⟨file, parsed⟩ := accepted
    have untiled : ¬ (20 ≤ shortElement.length ∧ Tiles (shortElement.drop 20)) := by
      rintro ⟨-, es, tiled⟩
      cases es with
      | nil => cases tiled
      | cons e es =>
        have count := congrArg List.length tiled
        have header := e.header_le
        rw [List.flatMap_cons, List.length_append] at count
        have eight : (shortElement.drop 20).length = 8 := rfl
        omega
    cases parsed.symm.trans (gives untiled)
  · rintro ⟨⟨result, ended⟩, -⟩
    cases outside.symm.trans ended
  · rintro ⟨⟨ret, ended⟩, -⟩
    cases ended

end Irestore.Img3
