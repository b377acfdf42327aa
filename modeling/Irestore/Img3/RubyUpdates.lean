/-
# Img3.RubyUpdates — the Ruby signer's updates, call after call

`update_elements` is given any blob of elements, any number of times.  Its loop begins to
count at the size of a container header, which a blob does not have, so it stops one
element early when the last one is no longer than that.

* `updateElements_elements` — what one call makes of the elements.
* `replaced_read_iff` — when that is what it is to make of them.
* `reparses_iff` — when the image written is read back as the same elements.
* `updates_iff` — both, for every sequence of calls.
* `short_last_element_dropped` — a blob that ends with an element of 12 bytes.
-/
import Irestore.Img3.Rewriting
import Irestore.Img3.RubyFile

namespace Irestore.Img3

open Irestore.Library.Bytes Irestore.Library.CMemory

set_option autoImplicit false

/-! ## Images and calls -/

/-- A header of an image that states the size of the elements behind it. -/
structure Container where
  header : List UInt8
  elements : List Element
  header_length : header.length = 20
  delimited : field header 4 = 20 + sizeOfElements elements

def Container.bytes (image : Container) : List UInt8 :=
  image.header ++ image.elements.flatMap Element.bytes

/-- The elements a call is to leave: those of other signatures than the blob's, and the
blob's. -/
def replaced (es blob : List Element) : List Element :=
  es.filter (fun e => !(blob.map Element.signature).contains e.signature) ++ blob

/-- What is documented of the gem beyond `BitStruct`: a struct made of no data has its width,
and an integer past 32 bits is packed as its low 32 bits. -/
structure BitStruct.Native (gem : BitStruct) : Prop where
  blank : (gem.new 20 []).length = 20
  wraps : ∀ n, gem.set n = gem.set (n % 2 ^ 32)

variable (gem : BitStruct)

/-- The string an image is written as is read back as the same elements, and the offset in
its header leads to the last SHSH element. -/
def Reparses (file : Ruby.Img3File) : Prop :=
  ∃ again, Ruby.parse gem (file.toS gem) = some again ∧ again.elements = file.elements ∧
    ∀ front shsh back, file.elements = front ++ shsh :: back →
      shsh.signature gem = kShshElement → (∀ e ∈ back, e.signature gem ≠ kShshElement) →
        gem.get again.header 12 = (front.map (Ruby.Element.fullSize gem)).sum

/-- Every call on a file of the elements leaves those it is to leave, and what is written
after the last one can be read back. -/
def Updates : Ruby.Img3File → List Element → List (List Element) → Prop
  | file, _, [] => Reparses gem file
  | file, es, blob :: blobs =>
      ∃ file', file.updateElements gem (blob.flatMap Element.bytes)
          (blob.flatMap Element.bytes).length = some file' ∧
        file'.elements = (replaced es blob).map Element.ruby ∧
          Updates file' (replaced es blob) blobs

/-! ## What the loop reads of a blob -/

/-- The elements the loop reads of a bare blob. -/
def readOf (blob : List Element) : List Element :=
  if ∀ e ∈ blob.getLast?, 20 < e.bytes.length then blob else blob.dropLast

/-- The position is 20 bytes ahead of what the loop has read. -/
theorem within_readOf {totalLen : Nat} :
    ∀ {es : List Element} {pos : Nat}, totalLen + 20 = pos + sizeOfElements es →
      within totalLen pos es = readOf es
  | [], _, _ => by simp [within, readOf]
  | [e], pos, ahead => by
      rw [sizeOfElements_cons, sizeOfElements_nil, Nat.add_zero] at ahead
      rw [within, within, readOf]
      simp only [List.getLast?_singleton, Option.mem_def, Option.some.injEq, forall_eq',
        List.dropLast_singleton]
      by_cases long : 20 < e.bytes.length
      · rw [if_pos (by omega), if_pos long]
      · rw [if_neg (by omega), if_neg long]
  | e :: e' :: es, pos, ahead => by
      have header := e.header_le
      have header' := e'.header_le
      have rest : within totalLen (pos + e.bytes.length) (e' :: es) = readOf (e' :: es) := by
        apply within_readOf
        rw [sizeOfElements_cons] at ahead
        omega
      rw [sizeOfElements_cons, sizeOfElements_cons] at ahead
      rw [within_cons (by omega), rest, readOf, readOf, List.getLast?_cons_cons,
        List.dropLast_cons_cons]
      split <;> rfl

/-- **One call of `update_elements`.** -/
theorem updateElements_elements (header : List UInt8) (es blob : List Element) :
    Ruby.Img3File.updateElements gem ⟨header, es.map Element.ruby⟩ (blob.flatMap Element.bytes)
      (blob.flatMap Element.bytes).length =
      some ⟨header, (replaced es (readOf blob)).map Element.ruby⟩ := by
  have read := @parseElements_within gem (blob.flatMap Element.bytes).length blob _ 20
    (Nat.lt_succ_self _)
  have total : (blob.flatMap Element.bytes).length + 20 = 20 + sizeOfElements blob :=
    Nat.add_comm _ _
  rw [within_readOf total] at read
  have keys : ((readOf blob).map Element.ruby).map (Ruby.Element.signature gem) =
      (readOf blob).map Element.signature := by
    rw [List.map_map]
    exact List.map_congr_left fun e _ => e.ruby_signature gem
  unfold Ruby.Img3File.updateElements
  rw [read]
  simp only [Option.bind_eq_bind, Option.bind_some, keys, replaced, List.map_append,
    List.filter_map, Function.comp_def, Element.ruby_signature]
  rfl

theorem map_ruby_injective {es es' : List Element}
    (same : es.map Element.ruby = es'.map Element.ruby) : es = es' := by
  apply elements_injective
  rw [← toS_ruby, ← toS_ruby, same]

/-- The blob is empty, or ends with an element longer than a container header, or is one
element that the image ends with and has no other of its signature. -/
def BlobRead (es blob : List Element) : Prop :=
  (∀ e ∈ blob.getLast?, 20 < e.bytes.length) ∨
    ∃ e, blob = [e] ∧ es.getLast? = some e ∧ ∀ e' ∈ es.dropLast, e'.signature ≠ e.signature

/-- An element that is put behind the others of other signatures, and was there before. -/
theorem replaced_single {es : List Element} {e : Element} :
    es = replaced es [e] ↔
      es.getLast? = some e ∧ ∀ e' ∈ es.dropLast, e'.signature ≠ e.signature := by
  have single : replaced es [e] = es.filter (fun e' => e'.signature ≠ e.signature) ++ [e] := by
    rw [replaced]
    congr 1
    exact List.filter_congr fun e' _ => by simp
  rw [single]
  constructor
  · intro same
    have last : es.getLast? = some e := by
      rw [same, List.getLast?_concat]
    have front : es.dropLast = es.filter (fun e' => e'.signature ≠ e.signature) := by
      conv_lhs => rw [same]
      exact List.dropLast_concat
    refine ⟨last, fun e' member => ?_⟩
    rw [front] at member
    exact of_decide_eq_true (List.mem_filter.mp member).2
  · rintro ⟨last, others⟩
    obtain ⟨front, rfl⟩ := List.getLast?_eq_some_iff.mp last
    rw [List.dropLast_concat] at others
    have kept : front.filter (fun e' => e'.signature ≠ e.signature) = front :=
      List.filter_eq_self.mpr fun e' member => decide_eq_true (others e' member)
    rw [List.filter_append, kept]
    simp

/-- **When what the loop reads of a blob gives the elements the blob is to give.** -/
theorem replaced_read_iff {es blob : List Element} :
    replaced es (readOf blob) = replaced es blob ↔ BlobRead es blob := by
  rw [BlobRead, readOf]
  by_cases long : ∀ e ∈ blob.getLast?, 20 < e.bytes.length
  · rw [if_pos long]
    exact iff_of_true rfl (.inl long)
  · rw [if_neg long]
    obtain ⟨front, x, rfl⟩ : ∃ front x, blob = front ++ [x] := by
      rcases List.eq_nil_or_concat blob with rfl | ⟨front, x, rfl⟩
      · simp at long
      · exact ⟨front, x, by simp⟩
    rw [List.dropLast_concat]
    rcases List.eq_nil_or_concat front with rfl | ⟨front, y, rfl⟩
    · have unread : replaced es [] = es := by simp [replaced]
      rw [unread, List.nil_append, replaced_single]
      constructor
      · exact fun ends => .inr ⟨x, rfl, ends⟩
      · rintro (all | ⟨e, same, ends⟩)
        · exact absurd all long
        · cases same
          exact ends
    · -- with another element before it, the last one cannot be missing unnoticed
      constructor
      · intro same
        exfalso
        simp only [replaced, List.concat_eq_append, ← List.append_assoc] at same
        have last : y = x := List.singleton_inj.mp (List.append_inj_right' same rfl)
        subst last
        have lengths := congrArg List.length same
        simp only [List.map_append, List.map_cons, List.map_nil, List.length_append,
          List.length_cons, List.length_nil] at lengths
        have keys : (fun e : Element => !(front.map Element.signature ++ [y.signature] ++
              [y.signature]).contains e.signature) =
            fun e => !(front.map Element.signature ++ [y.signature]).contains e.signature := by
          funext e
          simp
        rw [keys] at lengths
        omega
      · rintro (all | ⟨e, same, -⟩)
        · exact absurd all long
        · have lengths := congrArg List.length same
          simp at lengths

/-! ## Written and read back -/

theorem sum_fullSize_ruby (es : List Element) :
    ((es.map Element.ruby).map (Ruby.Element.fullSize gem)).sum = sizeOfElements es := by
  rw [List.map_map, sizeOfElements, List.length_flatMap]
  exact congrArg List.sum (List.map_congr_left fun e _ => e.ruby_fullSize gem)

/-- The offset `to_s` writes. -/
def offsetOf (es : List Element) : List UInt8 :=
  match Ruby.shshOffset gem 0 (es.map Element.ruby) with
  | none => slice (gem.new 20 []) 12 4
  | some offset => gem.set offset

/-- The header `to_s` writes. -/
def headerOf (header : List UInt8) (es : List Element) : List UInt8 :=
  gem.set (gem.get header 0) ++ (gem.set (sizeOfElements es + 20) ++
    (gem.set (sizeOfElements es) ++ (offsetOf gem es ++ gem.set (gem.get header 16))))

theorem toS_elements (header : List UInt8) (es : List Element) :
    Ruby.Img3File.toS gem ⟨header, es.map Element.ruby⟩ =
      headerOf gem header es ++ es.flatMap Element.bytes := by
  simp only [Ruby.Img3File.toS, sum_fullSize_ruby, toS_ruby, headerOf, List.append_assoc]
  rfl

/-- A loop that is given the whole length reads every element. -/
theorem within_whole {totalLen : Nat} :
    ∀ {es : List Element} {pos : Nat}, totalLen = pos + sizeOfElements es →
      within totalLen pos es = es
  | [], _, _ => rfl
  | e :: es, pos, whole => by
      have header := e.header_le
      rw [sizeOfElements_cons] at whole
      rw [within_cons (by omega), within_whole (by omega)]

/-- A loop that is given no more than what is before the last element misses that one. -/
theorem within_short {totalLen : Nat} {e : Element} :
    ∀ {front : List Element} {pos : Nat}, totalLen ≤ pos + sizeOfElements front →
      within totalLen pos (front ++ [e]) ≠ front ++ [e]
  | [], pos, short => by
      rw [sizeOfElements_nil] at short
      rw [List.nil_append, within, if_neg (by omega)]
      exact List.cons_ne_nil _ _ |>.symm
  | x :: front, pos, short => by
      rw [List.cons_append, within]
      split
      · rw [sizeOfElements_cons] at short
        intro same
        exact within_short (by omega) (List.cons.inj same).2
      · exact (List.cons_ne_nil _ _).symm

section Native

variable {gem} (native : gem.Native)

include native

theorem BitStruct.Native.length_set (n : Nat) : (gem.set n).length = 4 := by
  rw [native.wraps, gem.set_small (Nat.mod_lt _ (by decide)), length_le]

theorem length_offsetOf (es : List Element) : (offsetOf gem es).length = 4 := by
  rw [offsetOf]
  split
  · rw [slice, List.length_take, List.length_drop, native.blank]
    rfl
  · exact native.length_set _

theorem length_headerOf (header : List UInt8) (es : List Element) :
    (headerOf gem header es).length = 20 := by
  simp only [headerOf, List.length_append, native.length_set, length_offsetOf native]

theorem headerOf_fullSize (header : List UInt8) (es : List Element) :
    field (headerOf gem header es) 4 = (20 + sizeOfElements es) % 2 ^ 32 := by
  have small : (sizeOfElements es + 20) % 2 ^ 32 < 2 ^ 32 := Nat.mod_lt _ (by decide)
  rw [headerOf, field_append_right (native.length_set _) 0, native.wraps, gem.set_small small,
    field_le small, Nat.add_comm]

theorem headerOf_shshOffset (header : List UInt8) {es : List Element} {offset : Nat}
    (found : Ruby.shshOffset gem 0 (es.map Element.ruby) = some offset)
    (small : offset < 2 ^ 32) : field (headerOf gem header es) 12 = offset := by
  rw [headerOf, field_append_right (native.length_set _) 8,
    field_append_right (native.length_set _) 4, field_append_right (native.length_set _) 0,
    offsetOf, found]
  dsimp only
  rw [gem.set_small small, field_le small]

/-- The elements read back from the string of an image. -/
theorem parse_toS (header : List UInt8) (es : List Element) :
    Ruby.parse gem (Ruby.Img3File.toS gem ⟨header, es.map Element.ruby⟩) = some
      ⟨headerOf gem header es,
        (within ((20 + sizeOfElements es) % 2 ^ 32) 20 es).map Element.ruby⟩ := by
  have length := length_headerOf native header es
  have front : (headerOf gem header es ++ es.flatMap Element.bytes).take 20 =
      headerOf gem header es := List.take_left' length
  have back : (headerOf gem header es ++ es.flatMap Element.bytes).drop 20 =
      es.flatMap Element.bytes := List.drop_left' length
  have fullSize : gem.get (headerOf gem header es) 4 = (20 + sizeOfElements es) % 2 ^ 32 := by
    rw [gem.get_inside (by omega), headerOf_fullSize native]
  rw [toS_elements]
  unfold Ruby.parse
  simp only [front, back, gem.new_full length, fullSize,
    parseElements_within gem (Nat.lt_succ_self _)]
  rfl

/-- **What is written can be read back exactly when it is below `2^32` bytes.** -/
theorem reparses_iff (header : List UInt8) (es : List Element) :
    Reparses gem ⟨header, es.map Element.ruby⟩ ↔ 20 + sizeOfElements es < 2 ^ 32 := by
  constructor
  · rintro ⟨again, parsed, same, -⟩
    by_contra large
    rw [parse_toS native] at parsed
    cases parsed
    have all := map_ruby_injective same
    rcases List.eq_nil_or_concat es with rfl | ⟨front, e, rfl⟩
    · rw [sizeOfElements_nil] at large
      omega
    · -- the length wraps around by more than the size of the last element
      have last : e.bytes.length < 2 ^ 32 := e.delimited ▸ field_lt e.bytes 4
      rw [List.concat_eq_append] at all large
      rw [sizeOfElements_append, sizeOfElements_cons, sizeOfElements_nil] at all large
      exact within_short (by omega) all
  · intro small
    refine ⟨_, parse_toS native header es, ?_, ?_⟩
    · dsimp only
      rw [Nat.mod_eq_of_lt small, within_whole rfl]
    · intro front shsh back split isShsh last
      obtain ⟨esFront, esTail, rfl, rfl, tail⟩ := List.map_eq_append_iff.mp split
      obtain ⟨esShsh, esBack, rfl, rfl, rfl⟩ := List.map_eq_cons_iff.mp tail
      rw [esShsh.ruby_signature] at isShsh
      have other : ∀ e ∈ esBack, e.signature ≠ kShshElement := fun e member =>
        e.ruby_signature gem ▸ last e.ruby (List.mem_map_of_mem member)
      have found : Ruby.shshOffset gem 0 ((esFront ++ esShsh :: esBack).map Element.ruby) =
          some (0 + sizeOfElements esFront) := shshOffset_append gem isShsh other 0
      rw [Nat.zero_add] at found
      rw [sizeOfElements_append] at small
      have inside : 12 + 4 ≤ (headerOf gem header (esFront ++ esShsh :: esBack)).length := by
        rw [length_headerOf native]
        decide
      rw [sum_fullSize_ruby, gem.get_inside inside,
        headerOf_shshOffset native header found (by omega)]

end Native

/-! ## Calls -/

/-- Every blob is read as it is to be, and what is left at the end is below `2^32` bytes. -/
def BlobsRead : List Element → List (List Element) → Prop
  | es, [] => 20 + sizeOfElements es < 2 ^ 32
  | es, blob :: blobs => BlobRead es blob ∧ BlobsRead (replaced es blob) blobs

theorem updates_from {gem : BitStruct} (native : gem.Native) {blobs : List (List Element)} :
    ∀ (header : List UInt8) (es : List Element),
      Updates gem ⟨header, es.map Element.ruby⟩ es blobs ↔ BlobsRead es blobs := by
  induction blobs with
  | nil => exact fun header es => reparses_iff native header es
  | cons blob blobs ih =>
    intro header es
    rw [Updates, BlobsRead, updateElements_elements, ← replaced_read_iff]
    constructor
    · rintro ⟨file', ran, same, rest⟩
      cases ran
      have read := map_ruby_injective same
      rw [read] at rest
      exact ⟨read, (ih header _).mp rest⟩
    · rintro ⟨read, rest⟩
      refine ⟨_, rfl, by rw [read], ?_⟩
      rw [read]
      exact (ih header _).mpr rest

/-- A well-formed image is parsed into its elements, and every call leaves those it is to. -/
def ImageUpdates (image : Container) (blobs : List (List Element)) : Prop :=
  ∃ file, Ruby.parse gem image.bytes = some file ∧
    file.elements = image.elements.map Element.ruby ∧ Updates gem file image.elements blobs

theorem Container.parse (image : Container) :
    Ruby.parse gem image.bytes = some ⟨image.header, image.elements.map Element.ruby⟩ := by
  have length := image.header_length
  have front : image.bytes.take 20 = image.header := List.take_left' length
  have back : image.bytes.drop 20 = image.elements.flatMap Element.bytes := List.drop_left' length
  unfold Ruby.parse
  simp only [front, back, gem.new_full length, gem.get_inside (show 4 + 4 ≤ image.header.length by
    omega), image.delimited, parseElements_within gem (Nat.lt_succ_self _), within_whole rfl]
  rfl

/-- **The Ruby signer's calls do what they are to exactly when each blob is read whole, or its
one element was the last of the image already, and the result is below `2^32` bytes.** -/
theorem updates_iff (gem : BitStruct) (native : gem.Native) (image : Container)
    (blobs : List (List Element)) :
    ImageUpdates gem image blobs ↔ BlobsRead image.elements blobs := by
  constructor
  · rintro ⟨file, ran, -, updates⟩
    cases (image.parse gem).symm.trans ran
    exact (updates_from native _ _).mp updates
  · exact fun read => ⟨_, image.parse gem, rfl, (updates_from native _ _).mpr read⟩

theorem nativeStructs_native : nativeStructs.Native where
  blank := by decide
  wraps n := (le_mod 4 n).symm

/-- A container without elements. -/
def bareContainer : Container where
  header := le 4 kImg3Container ++ (le 4 20 ++ List.replicate 12 0)
  elements := []
  header_length := by decide
  delimited := by decide

/-- A blob whose one element is longer than a container header. -/
theorem long_element_updated :
    ImageUpdates nativeStructs bareContainer
      [[.ofData kCertElement (List.replicate 9 0) (by decide)]] := by
  refine (updates_iff nativeStructs nativeStructs_native _ _).mpr ⟨.inl ?_, ?_⟩
  · decide
  · show 20 + sizeOfElements _ < 2 ^ 32
    decide

/-- A blob that is a bare SHSH header: the call reads nothing. -/
theorem short_last_element_dropped :
    ¬ ImageUpdates nativeStructs bareContainer [[.ofData kShshElement [] no_data_small]] := by
  rintro ⟨file, parsed, -, file', ran, same, -⟩
  cases (bareContainer.parse nativeStructs).symm.trans parsed
  rw [updateElements_elements] at ran
  cases ran
  have lengths := congrArg List.length same
  revert lengths
  decide

end Irestore.Img3
