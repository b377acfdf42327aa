/-
# Img3.RubyFile — the Ruby signer against the C one

`Img3File` keeps an image as the list of its elements.  `update_elements` drops the
elements whose signature the blob has and puts the blob's elements last; its loop
starts counting at the size of a container header even on a bare blob, so it reads
the last element only when that is longer than a header.

* `parseElements_within` — the elements the Ruby loop reads.
* `ruby_sign_eq` — what the Ruby signer writes.
* `signers_agree_iff` — the two signers write the same bytes exactly for images in
  the order of the slots without a SALT element, with a certificate longer than a
  container header, when the result is below `2^31` bytes.
-/
import Irestore.Img3.Order

namespace Irestore.Img3

open Irestore.Library.Bytes Irestore.Library.CMemory

set_option autoImplicit false

/-! ## The `bit-struct` gem -/

/-- The structs of 32-bit unsigned native fields that the Ruby signer uses, and
what is documented of them. -/
structure BitStruct where
  /-- `new`: the string of a struct of some width made of some data. -/
  new : Nat → List UInt8 → List UInt8
  /-- The field at a byte offset of the string. -/
  get : List UInt8 → Nat → Nat
  /-- The bytes an assigned field has in the string. -/
  set : Nat → List UInt8
  /-- The bytes of a rest field that was assigned nil, unless that raises. -/
  restNil : Option (List UInt8)
  new_full : ∀ {width : Nat} {data : List UInt8}, data.length = width → new width data = data
  get_inside : ∀ {string : List UInt8} {off : Nat}, off + 4 ≤ string.length →
    get string off = field string off
  set_small : ∀ {n : Nat}, n < 2 ^ 32 → set n = le 4 n

/-! ## The Ruby signer -/

/-- `StringIO#read` of a length: it raises on a negative one, and is nil at the end. -/
def ioRead (length : Int) (input : List UInt8) : Option (Option (List UInt8) × List UInt8) :=
  if length < 0 then none
  else if 0 < length ∧ input = [] then some (none, [])
  else some (some (input.take length.toNat), input.drop length.toNat)

namespace Ruby

/-- `Element`: its header and its data. -/
structure Element where
  header : List UInt8
  data : List UInt8

def Element.toS (e : Element) : List UInt8 := e.header ++ e.data

/-- `Img3File`; `elementkeys` is the signatures of the elements. -/
structure Img3File where
  header : List UInt8
  elements : List Element

variable (gem : BitStruct)

def Element.signature (e : Element) : Nat := gem.get e.header 0

def Element.fullSize (e : Element) : Nat := gem.get e.header 4

/-- The loop of `parse_elements`; none when it raises.  Every round but the last
takes a byte at least. -/
def parseElements (totalLen : Nat) : Nat → Nat → List UInt8 → Option (List Element)
  | 0, _, _ => none
  | fuel + 1, pos, input =>
      if pos < totalLen then do
        let (data, input) ← ioRead 12 input
        match data with
        | none => return []
        | some data => do
            let header := gem.new 12 data
            let fullSize := gem.get header 4
            let (data, input) ← ioRead ((fullSize : Int) - 12) input
            let data ← data.or gem.restNil
            let elements ← parseElements totalLen fuel (pos + fullSize) input
            return ⟨header, data⟩ :: elements
      else some []

/-- `parse`. -/
def parse (input : List UInt8) : Option Img3File := do
  let header := gem.new 20 (input.take 20)
  let input := input.drop 20
  let elements ← parseElements gem (gem.get header 4) (input.length + 1) 20 input
  return ⟨header, elements⟩

/-- `update_elements`. -/
def Img3File.updateElements (file : Img3File) (input : List UInt8) (totalLen : Nat) :
    Option Img3File := do
  let elements ← parseElements gem totalLen (input.length + 1) 20 input
  let elementkeys := elements.map (Element.signature gem)
  let tmp := file.elements.filter fun e => !elementkeys.contains (e.signature gem)
  return { file with elements := tmp ++ elements }

/-- The position of the last SHSH element from `pos` on. -/
def shshOffset : Nat → List Element → Option Nat
  | _, [] => none
  | pos, e :: es =>
      (shshOffset (pos + e.fullSize gem) es).or
        (if e.signature gem = kShshElement then some pos else none)

/-- `to_s`. -/
def Img3File.toS (file : Img3File) : List UInt8 :=
  let pos := (file.elements.map (Element.fullSize gem)).sum
  let offset := match shshOffset gem 0 file.elements with
    | none => slice (gem.new 20 []) 12 4
    | some offset => gem.set offset
  gem.set (gem.get file.header 0) ++ (gem.set (pos + 20) ++ (gem.set pos ++ (offset ++
    (gem.set (gem.get file.header 16) ++ file.elements.flatMap Element.toS))))

/-- Parse an image, update it with a blob, and write it. -/
def sign (data blob : List UInt8) : Option (List UInt8) := do
  let file ← parse gem data
  let file ← file.updateElements gem blob blob.length
  return file.toS gem

end Ruby

/-! ## What the loop reads -/

/-- The elements that begin before a position. -/
def within (totalLen : Nat) : Nat → List Element → List Element
  | _, [] => []
  | pos, e :: es => if pos < totalLen then e :: within totalLen (pos + e.bytes.length) es else []

/-- The Ruby element of an element. -/
def Element.ruby (e : Element) : Ruby.Element := ⟨e.bytes.take 12, e.bytes.drop 12⟩

theorem Element.ruby_toS (e : Element) : e.ruby.toS = e.bytes := List.take_append_drop ..

theorem toS_ruby (es : List Element) :
    (es.map Element.ruby).flatMap Ruby.Element.toS = es.flatMap Element.bytes := by
  rw [List.flatMap_map]
  exact List.flatMap_congr fun e _ => e.ruby_toS

variable (gem : BitStruct)

theorem get_take {e : Element} {off : Nat} (inside : off + 4 ≤ 12) :
    gem.get (e.bytes.take 12) off = field e.bytes off := by
  have header := e.header_le
  have width : (e.bytes.take 12).length = 12 := by
    rw [List.length_take]
    omega
  rw [gem.get_inside (by omega), ← @field_append _ (e.bytes.drop 12) _ (by omega),
    List.take_append_drop]

theorem Element.ruby_fullSize (e : Element) : e.ruby.fullSize gem = e.bytes.length :=
  (get_take gem (by decide)).trans e.delimited

theorem Element.ruby_signature (e : Element) : e.ruby.signature gem = e.signature :=
  get_take gem (by decide)

theorem ioRead_append {front back : List UInt8} {length : Nat} (width : front.length = length) :
    ioRead length (front ++ back) = some (some front, back) := by
  subst width
  have positive : ¬ ((front.length : Nat) : Int) < 0 := by omega
  rw [ioRead, if_neg positive, if_neg]
  · simp
  · rintro ⟨more, empty⟩
    rw [(List.append_eq_nil_iff.mp empty).1] at more
    exact absurd more (by decide)

/-- **The Ruby loop reads the elements that begin before the given length.** -/
theorem parseElements_within {totalLen : Nat} {es : List Element} :
    ∀ {fuel pos : Nat}, (es.flatMap Element.bytes).length < fuel →
      Ruby.parseElements gem totalLen fuel pos (es.flatMap Element.bytes) =
        some ((within totalLen pos es).map Element.ruby) := by
  induction es with
  | nil =>
    intro fuel pos enough
    obtain ⟨fuel, rfl⟩ : ∃ more, fuel = more + 1 := ⟨fuel - 1, by omega⟩
    rw [Ruby.parseElements]
    split <;> rfl
  | cons e es ih =>
    intro fuel pos enough
    have header := e.header_le
    rw [List.flatMap_cons, List.length_append] at enough
    obtain ⟨fuel, rfl⟩ : ∃ more, fuel = more + 1 := ⟨fuel - 1, by omega⟩
    rw [Ruby.parseElements, within]
    split
    · have width : (e.bytes.take 12).length = 12 := by
        rw [List.length_take]
        omega
      have head : ioRead 12 ((e :: es).flatMap Element.bytes) =
          some (some (e.bytes.take 12), e.bytes.drop 12 ++ es.flatMap Element.bytes) := by
        rw [List.flatMap_cons, ← List.take_append_drop 12 e.bytes, List.append_assoc,
          List.take_append_drop]
        exact ioRead_append width
      have tail : ioRead ((e.bytes.length : Int) - 12)
          (e.bytes.drop 12 ++ es.flatMap Element.bytes) =
          some (some (e.bytes.drop 12), es.flatMap Element.bytes) := by
        have length : (e.bytes.length : Int) - 12 = ((e.bytes.drop 12).length : Nat) := by
          rw [List.length_drop]
          omega
        rw [length]
        exact ioRead_append rfl
      have size : gem.get (e.bytes.take 12) 4 = e.bytes.length := e.ruby_fullSize gem
      have rest := @ih _ (pos + e.bytes.length) (show _ < fuel by omega)
      rw [head]
      simp only [Option.bind_eq_bind, Option.bind_some, gem.new_full width, size, tail,
        Option.some_or, rest]
      rfl
    · rfl

theorem within_cons {totalLen pos : Nat} (before : pos < totalLen) (e : Element)
    (es : List Element) :
    within totalLen pos (e :: es) = e :: within totalLen (pos + e.bytes.length) es := by
  rw [within, if_pos before]

/-- What the loop reads of a bare blob: the CERT only when it is longer than a
container header. -/
def blobRead (blob : Blob) : List Element :=
  [blob.ecid, blob.shsh] ++ if 20 < blob.cert.bytes.length then [blob.cert] else []

theorem within_blob (blob : Blob) : within blob.bytes.length 20 blob.elements = blobRead blob := by
  have shsh := blob.shsh.header_le
  have cert := blob.cert.header_le
  have total : blob.bytes.length =
      blob.ecid.bytes.length + (blob.shsh.bytes.length + blob.cert.bytes.length) := by
    rw [blob.bytes_eq]
    simp
  rw [Blob.elements, within_cons (by omega), within_cons (by omega), blobRead, total]
  by_cases long : 20 < blob.cert.bytes.length
  · rw [if_pos long, within_cons (by omega)]
    rfl
  · rw [if_neg long, within, if_neg (by omega)]
    rfl

/-- The Ruby parser reads every byte of the image into its elements. -/
def ReadWhole (image : Image) : Prop :=
  ∃ file, Ruby.parse gem image.bytes = some file ∧
    file.elements.flatMap Ruby.Element.toS = image.elements.flatMap Element.bytes

theorem parse_image (image : Image) :
    Ruby.parse gem image.bytes = some
      ⟨image.header, (within (field image.header 4) 20 image.elements).map Element.ruby⟩ := by
  have length := image.header_length
  have front : image.bytes.take 20 = image.header := List.take_left' length
  have back : image.bytes.drop 20 = image.elements.flatMap Element.bytes := List.drop_left' length
  unfold Ruby.parse
  simp only [front, back, gem.new_full length, gem.get_inside (show 4 + 4 ≤ image.header.length by
    omega), parseElements_within gem (Nat.lt_succ_self _)]
  rfl

theorem ReadWhole.parse {gem : BitStruct} {image : Image} (whole : ReadWhole gem image) :
    Ruby.parse gem image.bytes = some ⟨image.header, image.elements.map Element.ruby⟩ := by
  obtain ⟨file, parsed, bytes⟩ := whole
  rw [parse_image] at parsed
  cases parsed
  rw [toS_ruby] at bytes
  rw [parse_image, elements_injective bytes]

/-! ## What the Ruby signer writes -/

/-- The elements after `update_elements`. -/
def updated (es : List Element) (blob : Blob) : List Element :=
  es.filter (fun e => !((blobRead blob).map Element.signature).contains e.signature) ++
    blobRead blob

theorem updateElements_blob (header : List UInt8) (es : List Element) (blob : Blob) :
    Ruby.Img3File.updateElements gem ⟨header, es.map Element.ruby⟩ blob.bytes blob.bytes.length =
      some ⟨header, (updated es blob).map Element.ruby⟩ := by
  have read := @parseElements_within gem blob.bytes.length blob.elements
    _ 20 (Nat.lt_succ_self _)
  rw [within_blob] at read
  have keys : ((blobRead blob).map Element.ruby).map (Ruby.Element.signature gem) =
      (blobRead blob).map Element.signature := by
    rw [List.map_map]
    exact List.map_congr_left fun e _ => e.ruby_signature gem
  unfold Ruby.Img3File.updateElements
  rw [show blob.bytes = blob.elements.flatMap Element.bytes from rfl] at read ⊢
  rw [read]
  simp only [Option.bind_eq_bind, Option.bind_some, keys, updated, List.map_append,
    List.filter_map, Function.comp_def, Element.ruby_signature]
  rfl

theorem shshOffset_append {front back : List Element} {shsh : Element}
    (isShsh : shsh.signature = kShshElement)
    (last : ∀ e ∈ back, e.signature ≠ kShshElement) :
    ∀ pos : Nat, Ruby.shshOffset gem pos ((front ++ shsh :: back).map Element.ruby) =
      some (pos + sizeOfElements front) := by
  have none : ∀ pos : Nat, Ruby.shshOffset gem pos (back.map Element.ruby) = none := by
    induction back with
    | nil => exact fun _ => rfl
    | cons e es ih =>
      intro pos
      rw [List.map_cons, Ruby.shshOffset, ih fun e' member => last e' (by simp [member]),
        e.ruby_signature, if_neg (last e (by simp)), Option.none_or]
  induction front with
  | nil =>
    intro pos
    rw [List.nil_append, List.map_cons, Ruby.shshOffset, none, shsh.ruby_signature, if_pos isShsh,
      Option.none_or, sizeOfElements_nil, Nat.add_zero]
  | cons e es ih =>
    intro pos
    rw [List.cons_append, List.map_cons, Ruby.shshOffset, ih, e.ruby_fullSize, Option.some_or,
      sizeOfElements_cons, Nat.add_assoc]

/-- `to_s` writes an image's bytes. -/
theorem toS_image {image : Image} {front back : List Element} {shsh : Element}
    (isShsh : shsh.signature = kShshElement) (last : ∀ e ∈ back, e.signature ≠ kShshElement)
    (small : 20 + sizeOfElements (front ++ shsh :: back) < 2 ^ 32) :
    Ruby.Img3File.toS gem ⟨image.header, (front ++ shsh :: back).map Element.ruby⟩ =
      imageBytes image.header front (front ++ shsh :: back) := by
  have length := image.header_length
  have sum : (((front ++ shsh :: back).map Element.ruby).map (Ruby.Element.fullSize gem)).sum =
      sizeOfElements (front ++ shsh :: back) := by
    rw [List.map_map, sizeOfElements, List.length_flatMap]
    exact congrArg List.sum (List.map_congr_left fun e _ => e.ruby_fullSize gem)
  have part : sizeOfElements front < 2 ^ 32 := by
    rw [sizeOfElements_append] at small
    omega
  simp only [Ruby.Img3File.toS, sum, shshOffset_append gem isShsh last, toS_ruby, imageBytes,
    Nat.zero_add]
  rw [gem.get_inside (by omega), gem.get_inside (by omega), gem.set_small (field_lt _ _),
    gem.set_small (field_lt _ _), gem.set_small part, gem.set_small (by omega),
    gem.set_small (show sizeOfElements (front ++ shsh :: back) < 2 ^ 32 by omega),
    Nat.add_comm (sizeOfElements _) 20]

theorem ruby_sign_eq {gem : BitStruct} {image : Image} (whole : ReadWhole gem image)
    (blob : Blob) : Ruby.sign gem image.bytes blob.bytes =
      some (Ruby.Img3File.toS gem
        ⟨image.header, (updated image.elements blob).map Element.ruby⟩) := by
  unfold Ruby.sign
  simp only [whole.parse, Option.bind_eq_bind, Option.bind_some, updateElements_blob]
  rfl

/-! ## The two signers -/

/-- The Ruby elements before the SHSH of the blob, and those behind it. -/
theorem updated_split (es : List Element) (blob : Blob) :
    ∃ kept : List Element, kept.Sublist es ∧
      updated es blob = (kept ++ [blob.ecid]) ++
        blob.shsh :: (if 20 < blob.cert.bytes.length then [blob.cert] else []) ∧
      (20 < blob.cert.bytes.length → kept = others es) := by
  refine ⟨es.filter fun e => !((blobRead blob).map Element.signature).contains e.signature,
    List.filter_sublist, ?_, fun long => List.filter_congr fun e _ => ?_⟩
  · rw [updated, List.append_assoc]
    rfl
  rw [blobRead, if_pos long]
  simp [Element.isSignature, blob.ecid_signature, blob.shsh_signature, blob.cert_signature,
    Bool.or_assoc, beq_eq_decide]

theorem sizeOfElements_sublist {xs ys : List Element} (sub : xs.Sublist ys) :
    sizeOfElements xs ≤ sizeOfElements ys := by
  induction sub with
  | slnil => exact Nat.le_refl _
  | cons e sub ih =>
    rw [sizeOfElements_cons]
    omega
  | cons_cons e sub ih =>
    rw [sizeOfElements_cons, sizeOfElements_cons]
    omega

/-- The elements the Ruby signer writes, when those of the C signer fit an `int`. -/
theorem ruby_sign_updated {gem : BitStruct} {image : Image} (whole : ReadWhole gem image)
    {blob : Blob} (small : 20 + sizeOfElements (signed image.elements blob) < 2 ^ 31) :
    ∃ kept : List Element,
      (20 < blob.cert.bytes.length → kept = others image.elements) ∧
      Ruby.sign gem image.bytes blob.bytes = some (imageBytes image.header (kept ++ [blob.ecid])
        ((kept ++ [blob.ecid]) ++
          blob.shsh :: (if 20 < blob.cert.bytes.length then [blob.cert] else []))) := by
  obtain ⟨kept, sub, split, all⟩ := updated_split image.elements blob
  refine ⟨kept, all, ?_⟩
  rw [ruby_sign_eq whole, split]
  refine congrArg some (toS_image gem blob.shsh_signature ?_ ?_)
  · intro e member isShsh
    split at member
    · rw [List.mem_singleton.mp member, blob.cert_signature] at isShsh
      exact absurd isShsh (by decide)
    · cases member
  · have below : sizeOfElements kept ≤ sizeOfElements image.elements := sizeOfElements_sublist sub
    have image_small : 20 + sizeOfElements image.elements < 2 ^ 31 := image.small
    have tail : sizeOfElements (if 20 < blob.cert.bytes.length then [blob.cert] else []) ≤
        blob.cert.bytes.length := by
      split <;> simp
    simp only [signed, sizeOfElements_append, sizeOfElements_cons, sizeOfElements_nil] at small ⊢
    omega

/-- The two signers write the same bytes. -/
def SignersAgree (image : Image) (blob : Blob) (unset : Nat) : Prop :=
  ∃ out, img3Sign image.bytes blob.bytes unset = .ok (some out) ∧
    Ruby.sign gem image.bytes blob.bytes = some out

/-- Signers that agree were given a long certificate, and kept every other element. -/
theorem kept_of_agree {gem : BitStruct} {image : Image} (whole : ReadWhole gem image) {blob : Blob}
    {unset : Nat} (agree : SignersAgree gem image blob unset) :
    20 < blob.cert.bytes.length ∧ kept image.elements = others image.elements ∧
      behind image.elements = [] ∧ 20 + sizeOfElements (signed image.elements blob) < 2 ^ 31 := by
  obtain ⟨out, written, ruby⟩ := agree
  obtain ⟨small, rfl⟩ := img3Sign_eq_some.mp written
  obtain ⟨keptByRuby, all, signs⟩ := ruby_sign_updated whole small
  rw [signs, Option.some_inj] at ruby
  have bytes := congrArg (List.drop 20) ruby
  rw [imageBytes_drop, imageBytes_drop] at bytes
  obtain ⟨front, back⟩ := signed_split (elements_injective bytes)
  by_cases long : 20 < blob.cert.bytes.length
  · rw [if_pos long] at back
    have same := List.append_cancel_right front
    exact ⟨long, same.symm.trans (all long), (List.cons.inj back).2.symm, small⟩
  · rw [if_neg long] at back
    cases back

theorem ordered_of_kept {image : Image} (same : kept image.elements = others image.elements)
    (none : behind image.elements = []) :
    Ordered image ∧ ∀ e ∈ image.elements, e.kind ≠ some .unkn := by
  constructor
  · rw [Ordered, ← same]
    exact (kept_kinds image.elements).trans (List.sublist_append_left _ [some Slot.unkn])
  · intro e member isSalt
    have found : e ∈ ofKind .unkn image.elements :=
      List.mem_filter.mpr ⟨member, decide_eq_true isSalt⟩
    have empty := List.getLast?_eq_none_iff.mp (Option.toList_eq_nil_iff.mp none)
    rw [empty] at found
    cases found

theorem behind_eq_nil {es : List Element} (known : ∀ e ∈ es, e.kind ≠ some .unkn) :
    behind es = [] := by
  have empty : ofKind .unkn es = [] :=
    List.filter_eq_nil_iff.mpr fun e member isSalt => known e member (of_decide_eq_true isSalt)
  rw [behind, empty]
  rfl

/-- **The two signers write the same bytes exactly when the image's other elements
are in the order of the slots, none is a SALT, the certificate is longer than a
container header, and the result is below `2^31` bytes.** -/
theorem signers_agree_iff {image : Image} (whole : ReadWhole gem image) (blob : Blob)
    (unset : Nat) :
    SignersAgree gem image blob unset ↔
      Ordered image ∧ (∀ e ∈ image.elements, e.kind ≠ some .unkn) ∧
        20 < blob.cert.bytes.length ∧
        20 + sizeOfElements (others image.elements ++ blob.elements) < 2 ^ 31 := by
  have elements (same : kept image.elements = others image.elements)
      (none : behind image.elements = []) :
      signed image.elements blob = others image.elements ++ blob.elements := by
    rw [signed, same, none]
    simp [Blob.elements]
  constructor
  · intro agree
    obtain ⟨long, same, none, small⟩ := kept_of_agree whole agree
    obtain ⟨ordered, known⟩ := ordered_of_kept same none
    exact ⟨ordered, known, long, elements same none ▸ small⟩
  · rintro ⟨ordered, known, long, small⟩
    have none := behind_eq_nil known
    have same := kept_append_behind ordered
    rw [none, List.append_nil] at same
    rw [← elements same none] at small
    obtain ⟨keptByRuby, all, signs⟩ := ruby_sign_updated whole small
    refine ⟨_, img3Sign_eq_some.mpr ⟨small, rfl⟩, ?_⟩
    rw [signs, all long, if_pos long, signed, same, none]
    rfl

/-! ## Recorded images -/

/-- The structs of the gem: a short string is filled up with zeros. -/
def nativeStructs : BitStruct where
  new width data := data ++ (List.replicate width 0).drop data.length
  get := field
  set := le 4
  restNil := none
  new_full := by
    rintro width data rfl
    simp
  get_inside _ := rfl
  set_small _ := rfl

/-- An image with the elements of `applelogo.s5l8920x.img3`, in their order. -/
def applelogo : Image where
  header := le 4 kImg3Container ++ (le 4 104 ++ List.replicate 12 0)
  elements :=
    [.ofData kTypeElement [] no_data_small, .ofData kDataElement [] no_data_small,
      .ofData kVersElement [] no_data_small, .ofData kSepoElement [] no_data_small,
      .ofData kKbagElement [] no_data_small, .ofData kShshElement [] no_data_small,
      .ofData kCertElement [] no_data_small]
  header_length := by decide
  container := by decide
  known := by decide
  small := by decide

/-- Both signers write it alike. -/
theorem applelogo_signed_alike : SignersAgree nativeStructs applelogo sampleBlob 0 := by
  have whole : ReadWhole nativeStructs applelogo := ⟨_, parse_image _ _, by decide⟩
  refine (signers_agree_iff nativeStructs whole sampleBlob 0).mpr ⟨?_, ?_, ?_, ?_⟩
  · exact List.isSublist_iff_sublist.mp (by decide)
  · decide
  · decide
  · decide

/-- The Ruby signer keeps the SALT of `batterycharging0` before the signature. -/
theorem batterycharging0_signed_apart :
    ReadWhole nativeStructs batterycharging0 ∧
      ¬ SignersAgree nativeStructs batterycharging0 sampleBlob 0 := by
  have whole : ReadWhole nativeStructs batterycharging0 := ⟨_, parse_image _ _, by decide⟩
  refine ⟨whole, fun agree => ?_⟩
  obtain ⟨-, same, none, -⟩ := kept_of_agree whole agree
  exact (ordered_of_kept same none).2 (.ofData kUnknElement [] no_data_small)
    (by simp [batterycharging0]) (by decide)

end Irestore.Img3
