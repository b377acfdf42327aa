/-
# Plist.BinaryFile — markers, reference blocks and files in the format

* `counted_writeMarker`, `writeInt_eq` — markers and integers are in the format.
* `refAt_flatMap` — the references of a block read back.
* `trailerOf_binaryFile` — the trailer reads back.
* `describes_binaryFile` — a file of objects in the format describes these objects.
-/
import Irestore.Plist.BinaryUnfold
import Irestore.Plist.BinaryWrite

namespace Irestore.Plist

open Irestore.Library Irestore.Library.Bytes Irestore.Library.CMemory

set_option autoImplicit false

/-! ## Widths, integers and markers -/

theorem getNeededBytes_mem (x : Nat) : getNeededBytes x ∈ [1, 2, 3, 4, 8] := by
  unfold getNeededBytes
  split_ifs <;> decide

theorem hostWidth_of_mem {w : Nat} (known : w ∈ [1, 2, 3, 4, 8]) : hostWidth w = w := by
  simp only [List.mem_cons, List.not_mem_nil, or_false] at known
  rcases known with rfl | rfl | rfl | rfl | rfl <;> rfl

theorem lt_getNeededBytes {x : Nat} (small : x < 2 ^ 64) : x < 256 ^ getNeededBytes x := by
  unfold getNeededBytes
  split_ifs <;> omega

theorem or_mark {mark n : Nat} (kind : mark % 16 = 0) (low : n < 16) : mark ||| n = mark + n := by
  have high : mark = 2 ^ 4 * (mark / 16) := by omega
  rw [high]
  exact (Nat.two_pow_add_eq_or_of_lt (by omega) _).symm

/-- An integer is written in 1, 2, 4 or 8 bytes. -/
theorem writeInt_eq {val : Nat} (small : val < 2 ^ 64) :
    ∃ k ≤ 3, val < 256 ^ 2 ^ k ∧ writeInt val = UInt8.ofNat (0x10 + k) :: be (2 ^ k) val := by
  unfold writeInt getNeededBytes
  split_ifs with one two three four
  all_goals first
    | omega
    | exact ⟨0, by omega, by omega, rfl⟩
    | exact ⟨1, by omega, by omega, rfl⟩
    | exact ⟨2, by omega, by omega, rfl⟩
    | exact ⟨3, by omega, by omega, rfl⟩

theorem counted_writeMarker {mark size : Nat} (kind : mark % 16 = 0) (small : size < 2 ^ 64) :
    Counted mark size (writeMarker mark size) := by
  unfold writeMarker
  by_cases short : size < 15
  · rw [if_pos short, if_neg (by omega), or_mark kind (by omega)]
    exact .short short
  · obtain ⟨k, width, fits, written⟩ := writeInt_eq small
    rw [if_neg short, if_pos (by omega), or_mark kind (by omega), written]
    have counted := @Counted.long mark k _ width (length_be (2 ^ k) size)
    rwa [ofBE_be fits] at counted

/-! ## Blocks of references -/

theorem map_range' {α β : Type} {f : Nat → β} {g : α → β} :
    ∀ {xs : List α} {start : Nat}, (∀ i x, xs[i]? = some x → f (start + i) = g x) →
      (List.range' start xs.length).map f = xs.map g
  | [], _, _ => rfl
  | x :: xs, start, each => by
      have first := each 0 x rfl
      rw [Nat.add_zero] at first
      have rest := @map_range' _ _ f g xs (start + 1) fun i y found => by
        have := each (i + 1) y (by simpa using found)
        rwa [Nat.add_assoc, Nat.add_comm 1]
      rw [List.length_cons, List.range'_succ, List.map_cons, List.map_cons, first, rest]

theorem map_range {α β : Type} {f : Nat → β} {g : α → β} {xs : List α}
    (each : ∀ i x, xs[i]? = some x → f i = g x) : (List.range xs.length).map f = xs.map g := by
  rw [List.range_eq_range']
  apply map_range'
  simpa using each

theorem flatMap_range {α β : Type} {f : Nat → List β} {g : α → List β} {xs : List α}
    (each : ∀ i x, xs[i]? = some x → f i = g x) :
    (List.range xs.length).flatMap f = xs.flatMap g := by
  rw [List.flatMap_def, List.flatMap_def, map_range each]

/-- A number in a block of numbers of one width. -/
theorem refAt_flatMap {w : Nat} (known : w ∈ [1, 2, 3, 4, 8]) {values : List Nat} {j v : Nat}
    (found : values[j]? = some v) (fits : v < 256 ^ w) :
    refAt (values.flatMap (be w)) w j = v := by
  rw [refAt, hostWidth_of_mem known,
    slice_flatMap (be w) values j v (fun x _ => length_be w x) found, ofBE_be fits]

theorem length_flatMap_be (w : Nat) (values : List Nat) :
    (values.flatMap (be w)).length = values.length * w := by
  induction values with
  | nil => simp
  | cons v values ih =>
    rw [List.flatMap_cons, List.length_append, length_be, ih, List.length_cons, Nat.succ_mul]
    omega

/-! ## The file -/

theorem offsetsFrom_getElem? : ∀ {objects : List (List UInt8)} {start i : Nat} {bytes : List UInt8},
    objects[i]? = some bytes →
      ∃ offset, (offsetsFrom start objects)[i]? = some offset ∧
        offset = start + (objects.take i).flatten.length
  | object :: rest, start, 0, bytes, _ => ⟨start, rfl, by simp⟩
  | object :: rest, start, i + 1, bytes, found => by
      obtain ⟨offset, at', eq⟩ :=
        @offsetsFrom_getElem? rest (start + object.length) i bytes (by simpa using found)
      refine ⟨offset, by simpa [offsetsFrom] using at', ?_⟩
      rw [eq, List.take_succ_cons, List.flatten_cons, List.length_append]
      omega

theorem length_offsetsFrom : ∀ (objects : List (List UInt8)) (start : Nat),
    (offsetsFrom start objects).length = objects.length
  | [], _ => rfl
  | object :: rest, start => by
      rw [offsetsFrom, List.length_cons, length_offsetsFrom rest, List.length_cons]

/-- The bytes from the `i`th of several objects on. -/
theorem drop_flatten : ∀ {objects : List (List UInt8)} {i : Nat} {bytes : List UInt8},
    objects[i]? = some bytes →
      objects.flatten.drop (objects.take i).flatten.length =
        bytes ++ (objects.drop (i + 1)).flatten
  | object :: rest, 0, bytes, found => by
      simp only [List.getElem?_cons_zero, Option.some.injEq] at found
      subst found
      simp
  | object :: rest, i + 1, bytes, found => by
      have tail := @drop_flatten rest i bytes (by simpa using found)
      rw [List.take_succ_cons, List.flatten_cons, List.flatten_cons, List.length_append,
        List.drop_append, List.drop_eq_nil_of_le (by omega), List.nil_append,
        Nat.add_sub_cancel_left, tail, List.drop_succ_cons]

section File

variable (w : Nat) (objects : List (List UInt8))

/-- The header and the objects. -/
def fileBody : List UInt8 := bplistHeader ++ objects.flatten

def fileOffsets : List UInt8 :=
  (offsetsFrom bplistHeader.length objects).flatMap (be (getNeededBytes (fileBody objects).length))

def fileTrailer : List UInt8 :=
  UInt8.ofNat (getNeededBytes (fileBody objects).length) :: UInt8.ofNat w ::
    (be 8 objects.length ++ (be 8 0 ++ be 8 (fileBody objects).length))

theorem binaryFile_eq : binaryFile w objects =
    fileBody objects ++ (fileOffsets objects ++ (List.replicate 6 0 ++ fileTrailer w objects)) := by
  simp only [binaryFile, fileBody, fileOffsets, fileTrailer, List.append_assoc, List.cons_append,
    List.nil_append]
  rfl

theorem length_fileTrailer : (fileTrailer w objects).length = 26 := by
  simp [fileTrailer]

theorem length_binaryFile : (binaryFile w objects).length =
    (fileBody objects).length +
      objects.length * getNeededBytes (fileBody objects).length + 32 := by
  rw [binaryFile_eq]
  simp only [List.length_append, length_fileTrailer, List.length_replicate, fileOffsets,
    length_flatMap_be, length_offsetsFrom]
  omega

variable {w objects}

theorem trailerOf_binaryFile (width : w < 256) (small : (binaryFile w objects).length < 2 ^ 64) :
    trailerOf (binaryFile w objects) =
      { offsetSize := getNeededBytes (fileBody objects).length
        dictParamSize := w
        numObjects := objects.length
        rootObject := 0
        offsetTableIndex := (fileBody objects).length } := by
  have length := length_binaryFile w objects
  have known := getNeededBytes_mem (fileBody objects).length
  have positive := refWidth_pos known
  have count : objects.length ≤ objects.length * getNeededBytes (fileBody objects).length :=
    Nat.le_mul_of_pos_right _ positive
  have trailer : (binaryFile w objects).drop ((binaryFile w objects).length - 26) =
      fileTrailer w objects := by
    have before : binaryFile w objects =
        (fileBody objects ++ (fileOffsets objects ++ List.replicate 6 0)) ++
          fileTrailer w objects := by
      rw [binaryFile_eq]
      simp only [List.append_assoc]
    rw [before, List.length_append, length_fileTrailer, Nat.add_sub_cancel, List.drop_left]
  have byte (n : Nat) (fits : n < 256) : ofBE [UInt8.ofNat n] = n := by
    simp [ofBE, ofLE]
    omega
  have offsetByte : getNeededBytes (fileBody objects).length < 256 := by
    simp only [List.mem_cons, List.not_mem_nil, or_false] at known
    omega
  simp only [trailerOf, trailer, Trailer.mk.injEq]
  refine ⟨byte _ offsetByte, byte _ width, ?_, ?_, ?_⟩
  · have read : slice (fileTrailer w objects) 2 8 = be 8 objects.length := by
      simp [slice, fileTrailer]
    rw [read, ofBE_be (by omega)]
  · have read : slice (fileTrailer w objects) 10 8 = be 8 0 := by
      simp [slice, fileTrailer]
    rw [read, ofBE_be (by omega)]
  · have read : slice (fileTrailer w objects) 18 8 = be 8 (fileBody objects).length := by
      have gone : (be 8 objects.length).drop 16 = [] := List.drop_eq_nil_of_le (by simp)
      have all : (be 8 (fileBody objects).length).take 8 = be 8 (fileBody objects).length :=
        List.take_of_length_le (by simp)
      simp [slice, fileTrailer, List.drop_append, gone, all]
    rw [read, ofBE_be (by omega)]

/-- **A file of objects in the format describes them.** -/
theorem describes_binaryFile (width : w < 256) (small : (binaryFile w objects).length < 2 ^ 64)
    {described : List Object} (count : described.length = objects.length)
    (written : ∀ (i : Nat) (object : Object) (bytes : List UInt8), described[i]? = some object →
      objects[i]? = some bytes → ∀ rest, Written w object (bytes ++ rest)) :
    Describes (binaryFile w objects) described := by
  have trailer := trailerOf_binaryFile width small
  have length := length_binaryFile w objects
  have known := getNeededBytes_mem (fileBody objects).length
  refine ⟨by rw [trailer, count], fun i inside => ?_, fun i object found => ?_⟩
  · rw [trailer, hostWidth_of_mem known]
    have upTo : (i + 1) * getNeededBytes (fileBody objects).length ≤
        objects.length * getNeededBytes (fileBody objects).length :=
      Nat.mul_le_mul_right _ (by omega)
    rw [Nat.succ_mul] at upTo
    show (fileBody objects).length + i * getNeededBytes (fileBody objects).length +
      getNeededBytes (fileBody objects).length ≤ _
    omega
  · have inside : i < objects.length := by
      rw [← count]
      exact (List.getElem?_eq_some_iff.mp found).1
    obtain ⟨bytes, isBytes⟩ : ∃ bytes, objects[i]? = some bytes :=
      ⟨_, List.getElem?_eq_getElem inside⟩
    obtain ⟨offset, atTable, eq⟩ :=
      @offsetsFrom_getElem? objects bplistHeader.length i bytes isBytes
    have piece := drop_flatten isBytes
    have body : (fileBody objects).drop offset = bytes ++ (objects.drop (i + 1)).flatten := by
      rw [eq, fileBody, List.drop_append, List.drop_eq_nil_of_le (by omega),
        Nat.add_sub_cancel_left, List.nil_append, piece]
    have below : offset ≤ (fileBody objects).length := by
      have pieces : (objects.take i).flatten.length ≤ objects.flatten.length :=
        ((List.take_sublist i objects).flatten).length_le
      rw [eq, fileBody, List.length_append]
      omega
    have upTo : (i + 1) * getNeededBytes (fileBody objects).length ≤
        objects.length * getNeededBytes (fileBody objects).length :=
      Nat.mul_le_mul_right _ (by omega)
    rw [Nat.succ_mul] at upTo
    have entry : entryOffset (binaryFile w objects) i = offset := by
      rw [entryOffset, trailer]
      show ofBE (slice _ ((fileBody objects).length + i * getNeededBytes (fileBody objects).length)
        (hostWidth (getNeededBytes (fileBody objects).length))) = offset
      rw [hostWidth_of_mem known, binaryFile_eq, slice_append_right, slice_append_left,
        fileOffsets, slice_flatMap _ _ i offset (fun x _ => length_be _ x) atTable, ofBE_be]
      · exact Nat.lt_of_le_of_lt below (lt_getNeededBytes (by omega))
      · rw [fileOffsets, length_flatMap_be, length_offsetsFrom]
        omega
    rw [trailer, entry, binaryFile_eq, List.drop_append_of_le_length below, body,
      List.append_assoc]
    exact written i object bytes found isBytes _

end File

end Irestore.Plist
