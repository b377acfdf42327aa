/-
# Restore.Nor — sending the NOR images of a manifest

`restore_send_nor` reads the manifest of the firmware directory, one file name a
line, gets the component of each, and sends them in one message: the first as
`LlbImageData`, the others as `NorImageData`.

`Firmware` is what it gets them from: the files of the archive, and the blobs to
sign them with when there is a TSS record.  A `Sending` is one call: the components
asked for and what came back, the message handed to `restored_send`, and the value
returned.

* `whole_iff` — the message is whole, or nothing is sent, exactly when the first
  component cannot be had or all of them are there.
* `partial_flash` — a component missing in the middle: the rest is left out, and the
  message is sent.
-/
import Irestore.Img3.File
import Irestore.Plist.Access

namespace Irestore.Restore

open Irestore.Library Irestore.Library.CMemory Irestore.Plist Irestore.Img3

set_option autoImplicit false

/-- The files of the archive by their path, the blobs of the TSS record by the path of
what they sign, and what malloc leaves in a header (see `img3GetData`). -/
structure Firmware where
  extract : List UInt8 → Option (List UInt8)
  tss : Option (List UInt8 → Option (List UInt8))
  unset : Nat

/-- `ipsw_get_component_by_path`; `none` is its return code -1. -/
def ipswGetComponentByPath (firmware : Firmware) (path : List UInt8) :
    Checked (Option (List UInt8)) :=
  match firmware.extract path, firmware.tss with
  | none, _ => return none
  | some data, none => return some data
  | some data, some blobAt =>
      match blobAt path with
      | none => do
          let _ ← img3ParseFile data
          return none
      | some blob => img3Sign data blob firmware.unset

/-- A path as it is printed into a buffer of 256 bytes. -/
def printPath (path : List UInt8) : List UInt8 := snprintf 256 path

def slash : UInt8 := 0x2F
def newline : UInt8 := 0x0A

/-- The directory of the LLB: what stands before its name, less the slash, in a buffer of
256 bytes; `none` when the path does not name an LLB. -/
def firmwarePath (llbPath : List UInt8) : Checked (Option (List UInt8)) :=
  match strstr (cText "LLB").val llbPath with
  | none => return none
  | some 0 => .error .outOfBounds
  | some (n + 1) => if n < 256 then return some (llbPath.take n) else .error .outOfBounds

/-- The path of a file of the firmware directory. -/
def filePath (directory filename : List UInt8) : List UInt8 := directory ++ slash :: filename

/-- The names `strtok` finds in the manifest.  The block of the manifest ends without a
NUL: the scan goes on in the memory behind it, up to the first NUL there. -/
def manifestNames (manifest beyond : List UInt8) : List (List UInt8) :=
  strtok newline (cString (manifest ++ beyond))

/-! ## The call -/

/-- A component asked for by its path, and what came back. -/
abbrev Request := List UInt8 × Option (List UInt8)

structure Sending where
  requests : List Request
  message : Option PlistNode
  ret : Int

/-- The loop over the names behind the first: it stops at a component that cannot be had. -/
def norImages (firmware : Firmware) : List (List UInt8) → Checked (List Request × List (List UInt8))
  | [] => return ([], [])
  | path :: rest => do
      let component ← ipswGetComponentByPath firmware path
      match component with
      | none => return ([(path, none)], [])
      | some data => do
          let (requests, images) ← norImages firmware rest
          return ((path, some data) :: requests, data :: images)

def dataNode (bytes : List UInt8) : PlistNode := leaf (plistNewData bytes)

/-- The dictionary that is sent. -/
def norMessage (llb : Option (List UInt8)) (images : List (List UInt8)) : PlistNode :=
  let dict := leaf plistNewDict
  let dict := match llb with
    | none => dict
    | some llb => plistDictInsertItem dict (cText "LlbImageData") (dataNode llb)
  let array := (images.map dataNode).foldl plistArrayAppendItem (leaf plistNewArray)
  plistDictInsertItem dict (cText "NorImageData") array

/-- Get the components of the paths and send them; `accepted` is the answer of
`restored_send`. -/
def sendComponents (firmware : Firmware) (accepted : Bool) (paths : List (List UInt8)) :
    Checked Sending := do
  let ret := if accepted then 0 else -1
  match paths with
  | [] => return ⟨[], some (norMessage none []), ret⟩
  | path :: rest => do
      let component ← ipswGetComponentByPath firmware path
      match component with
      | none => return ⟨[(path, none)], none, -1⟩
      | some llb => do
          let (requests, images) ← norImages firmware rest
          return ⟨(path, some llb) :: requests, some (norMessage (some llb) images), ret⟩

/-- `restore_send_nor`; `llbPath` is the path of the LLB in the TSS record or the build
identity, when it is there. -/
def restoreSendNor (firmware : Firmware) (llbPath : Option (List UInt8)) (beyond : List UInt8)
    (accepted : Bool) : Checked Sending :=
  match llbPath with
  | none => return ⟨[], none, -1⟩
  | some llbPath => do
      let found ← firmwarePath llbPath
      match found with
      | none => return ⟨[], none, -1⟩
      | some directory =>
          match firmware.extract (printPath (filePath directory (cText "manifest").val)) with
          | none => return ⟨[], none, -1⟩
          | some manifest =>
              sendComponents firmware accepted
                ((manifestNames manifest beyond).map fun name => printPath (filePath directory name))

/-! ## What it is to send -/

/-- The paths of the lines of a manifest. -/
def linePaths (directory manifest : List UInt8) : List (List UInt8) :=
  (strtok newline (cString manifest)).map (filePath directory)

/-- The message carries the blobs: the first as the LLB, one image for every other. -/
def Carries (message : PlistNode) (blobs : List (List UInt8)) : Prop :=
  plistDictGetItem message (cText "LlbImageData") = .ok (blobs.head?.map dataNode) ∧
    ∃ array, plistDictGetItem message (cText "NorImageData") = .ok (some array) ∧
      array.1 = plistNewArray ∧ array.2.toList = blobs.tail.map dataNode

/-- What is sent is whole: the components of the paths, in order; and when one of them
cannot be had, nothing is sent and the value returned is negative. -/
structure Whole (firmware : Firmware) (paths : List (List UInt8)) (sending : Sending) : Prop where
  sent : ∀ message, sending.message = some message →
    ∃ blobs, sending.requests = paths.zip (blobs.map some) ∧ blobs.length = paths.length ∧
      Carries message blobs
  refused : ∀ path ∈ paths, ipswGetComponentByPath firmware path = .ok none →
    sending.message = none ∧ sending.ret < 0

theorem carries_norMessage (llb : Option (List UInt8)) (images : List (List UInt8))
    (none_of_none : llb = none → images = []) :
    Carries (norMessage llb images) (llb.toList ++ images) := by
  have array := @foldl_arrayAppendItem (images.map dataNode) (leaf plistNewArray) rfl
  have differ : ((cText "NorImageData").val == (cText "LlbImageData").val) = false := by decide
  have differ' : ((cText "LlbImageData").val == (cText "NorImageData").val) = false := by decide
  cases llb with
  | none =>
    obtain ⟨isDict, alternates⟩ := @insertItem_alternates (leaf plistNewDict) [] rfl .nil
      (cText "NorImageData") ((images.map dataNode).foldl plistArrayAppendItem (leaf plistNewArray))
    refine ⟨?_, _, ?_, array.1, ?_⟩
    · rw [norMessage, getItem_eq isDict alternates, none_of_none rfl]
      simp [List.lookup_cons, differ']
    · rw [norMessage, getItem_eq isDict alternates]
      simp
    · rw [array.2, none_of_none rfl]
      rfl
  | some llb =>
    obtain ⟨isDict, alternates⟩ := @insertItem_alternates (leaf plistNewDict) [] rfl .nil
      (cText "LlbImageData") (dataNode llb)
    obtain ⟨isDict', alternates'⟩ := insertItem_alternates isDict alternates
      (cText "NorImageData") ((images.map dataNode).foldl plistArrayAppendItem (leaf plistNewArray))
    refine ⟨?_, _, ?_, array.1, ?_⟩
    · rw [norMessage, getItem_eq isDict' alternates']
      simp
    · rw [norMessage, getItem_eq isDict' alternates']
      simp [List.lookup_cons, differ]
    · rw [array.2]
      rfl

/-- The first component asked for cannot be had, or the components asked for are those of
the lines and all of them are there. -/
def Obtained (component : List UInt8 → Option (List UInt8)) (lines asked : List (List UInt8)) :
    Prop :=
  (∃ first rest, asked = first :: rest ∧ component first = none) ∨
    asked = lines ∧ ∀ path ∈ lines, component path ≠ none

/-- A request list without a failure has the paths it was made for. -/
theorem zip_paths {paths : List (List UInt8)} {blobs : List (List UInt8)}
    (length : blobs.length = paths.length) :
    (paths.zip (blobs.map some)).map Prod.fst = paths ∧
      ∀ path, (path, none) ∉ paths.zip (blobs.map some) := by
  refine ⟨List.map_fst_zip (by simp [length]), fun path member => ?_⟩
  have isSome := List.of_mem_zip member
  simp at isSome

section Pattern

variable {firmware : Firmware} {component : List UInt8 → Option (List UInt8)}
  (pattern : ∀ path, ipswGetComponentByPath firmware path = .ok (component path))

include pattern

/-- The loop asks for every path up to the first whose component cannot be had. -/
theorem norImages_spec (paths : List (List UInt8)) :
    ∃ requests images, norImages firmware paths = .ok (requests, images) ∧
      ((∀ path ∈ paths, component path ≠ none) →
        requests = paths.zip (images.map some) ∧ images.length = paths.length) ∧
      ((∃ path ∈ paths, component path = none) → ∃ path, (path, none) ∈ requests) := by
  induction paths with
  | nil => exact ⟨[], [], rfl, by simp, by simp⟩
  | cons path rest ih =>
    rw [norImages, pattern path, ok_bind]
    cases got : component path with
    | none =>
      refine ⟨[(path, none)], [], rfl, fun all => ?_, fun _ => ⟨path, by simp⟩⟩
      exact absurd got (all path (by simp))
    | some data =>
      obtain ⟨requests, images, run, whole, failed⟩ := ih
      refine ⟨(path, some data) :: requests, data :: images, ?_, fun all => ?_, fun missing => ?_⟩
      · show (norImages firmware rest >>= fun result => _) = _
        rw [run]
        rfl
      · obtain ⟨same, length⟩ := whole fun p member => all p (by simp [member])
        simp [same, length]
      · obtain ⟨p, member, isNone⟩ := missing
        rcases List.mem_cons.mp member with rfl | inside
        · cases got.symm.trans isNone
        · obtain ⟨q, later⟩ := failed ⟨p, inside, isNone⟩
          exact ⟨q, by simp [later]⟩

theorem sendComponents_whole_iff {accepted : Bool} {lines asked : List (List UInt8)} :
    (∀ sending, sendComponents firmware accepted asked = .ok sending →
      Whole firmware lines sending) ↔ Obtained component lines asked := by
  cases asked with
  | nil =>
    constructor
    · intro whole
      have sent := whole _ rfl
      obtain ⟨blobs, requests, length, -⟩ := sent.sent _ rfl
      have empty : lines = [] := by
        rw [← (zip_paths length).1, ← requests]
        rfl
      exact .inr ⟨empty.symm, by simp [empty]⟩
    · rintro (⟨first, rest, same, -⟩ | ⟨rfl, -⟩) sending run
      · cases same
      · cases run
        refine ⟨fun message sent => ?_, by simp⟩
        cases sent
        exact ⟨[], rfl, rfl, carries_norMessage none [] fun _ => rfl⟩
  | cons path rest =>
    rw [sendComponents, pattern path, ok_bind]
    cases got : component path with
    | none =>
      refine iff_of_true ?_ (.inl ⟨path, rest, rfl, got⟩)
      intro sending run
      cases run
      exact ⟨by simp, fun _ _ _ => ⟨rfl, Int.negSucc_lt_zero 0⟩⟩
    | some llb =>
      obtain ⟨requests, images, loop, complete, failed⟩ := norImages_spec pattern rest
      simp only [loop, ok_bind]
      constructor
      · intro whole
        have sent := whole _ rfl
        obtain ⟨blobs, same, length, -⟩ := sent.sent _ rfl
        obtain ⟨paths, noFailure⟩ := zip_paths length
        rw [← same] at paths noFailure
        have all : ∀ p ∈ rest, component p ≠ none := by
          intro p member isNone
          obtain ⟨q, failure⟩ := failed ⟨p, member, isNone⟩
          exact noFailure q (List.mem_cons_of_mem _ failure)
        have asked : path :: rest = lines := by
          obtain ⟨requested, length⟩ := complete all
          rw [← paths, requested, List.map_cons, (zip_paths length).1]
        refine .inr ⟨asked, fun p member isNone => ?_⟩
        have refused := sent.refused p member ((pattern p).trans (by rw [isNone]))
        cases refused.1
      · rintro (⟨first, later, same, isNone⟩ | ⟨rfl, all⟩) sending run
        · cases same
          cases got.symm.trans isNone
        · cases run
          obtain ⟨requested, length⟩ := complete fun p member => all p (by simp [member])
          refine ⟨fun message sent => ?_, fun p member refused => ?_⟩
          · cases sent
            refine ⟨llb :: images, by simp [requested], by simp [length], ?_⟩
            exact carries_norMessage (some llb) images (by simp)
          · rw [pattern p, Except.ok.injEq] at refused
            exact absurd refused (all p member)

end Pattern

/-- `restore_send_nor` sends the whole manifest, or nothing with a negative value when a
component cannot be had, exactly when the first component cannot be had or `strtok`
finds the lines of the manifest and all their components are there. -/
theorem whole_iff {firmware : Firmware} {llbPath directory manifest : List UInt8}
    {component : List UInt8 → Option (List UInt8)} (beyond : List UInt8) (accepted : Bool)
    (found : firmwarePath llbPath = .ok (some directory))
    (extracted : firmware.extract (printPath (filePath directory (cText "manifest").val)) =
      some manifest)
    (pattern : ∀ path, ipswGetComponentByPath firmware path = .ok (component path)) :
    (∀ sending, restoreSendNor firmware (some llbPath) beyond accepted = .ok sending →
      Whole firmware (linePaths directory manifest) sending) ↔
      Obtained component (linePaths directory manifest)
        ((manifestNames manifest beyond).map fun name => printPath (filePath directory name)) := by
  have run : restoreSendNor firmware (some llbPath) beyond accepted =
      sendComponents firmware accepted
        ((manifestNames manifest beyond).map fun name => printPath (filePath directory name)) := by
    simp only [restoreSendNor, found, ok_bind, extracted]
  rw [run]
  exact sendComponents_whole_iff pattern

/-- A manifest whose lines all fit the buffer, with nothing behind it, is asked for line by
line. -/
theorem asked_eq {directory manifest beyond : List UInt8}
    (ends : cString (manifest ++ beyond) = cString manifest)
    (fits : ∀ path ∈ linePaths directory manifest, path.length < 256) :
    (manifestNames manifest beyond).map (fun name => printPath (filePath directory name)) =
      linePaths directory manifest := by
  rw [manifestNames, linePaths, ends]
  apply List.map_congr_left
  intro name member
  apply List.take_of_length_le
  have short := fits (filePath directory name) (List.mem_map_of_mem member)
  omega

/-! ## A missing component -/

/-- An archive of directory `F` with a manifest of two lines, the component of the first,
and that of the second when it is given. -/
def archive (second : Option (List UInt8)) : Firmware :=
  { extract := fun path =>
      if path = (cText "F/manifest").val then some ((cText "L").val ++ newline :: (cText "N").val)
      else if path = (cText "F/L").val then some [1]
      else if path = (cText "F/N").val then second
      else none
    tss := none
    unset := 0 }

/-- Without the second component the message is sent all the same, without images, and the
call returns 0. -/
theorem partial_flash :
    ∃ sending, restoreSendNor (archive none) (some (cText "F/LLB").val) [0] true = .ok sending ∧
      sending.message = some (norMessage (some [1]) []) ∧ sending.ret = 0 ∧
      ¬ Whole (archive none)
        (linePaths (cText "F").val ((cText "L").val ++ newline :: (cText "N").val)) sending := by
  refine ⟨⟨[((cText "F/L").val, some [1]), ((cText "F/N").val, none)],
    some (norMessage (some [1]) []), 0⟩, rfl, rfl, rfl, ?_⟩
  intro whole
  have refused := whole.refused (cText "F/N").val (by decide) (by decide +kernel)
  cases refused.1

theorem complete_flash :
    ∃ sending, restoreSendNor (archive (some [2])) (some (cText "F/LLB").val) [0] true =
        .ok sending ∧
      Whole (archive (some [2]))
        (linePaths (cText "F").val ((cText "L").val ++ newline :: (cText "N").val)) sending := by
  have whole := (@whole_iff (archive (some [2])) (cText "F/LLB").val (cText "F").val
    ((cText "L").val ++ newline :: (cText "N").val) (archive (some [2])).extract [0] true
    (by decide +kernel) (by decide +kernel) ?_).mpr
    (.inr ⟨by decide +kernel, by decide +kernel⟩)
  · exact ⟨_, rfl, whole _ rfl⟩
  · intro path
    rw [ipswGetComponentByPath]
    cases (archive (some [2])).extract path with
    | none => rfl
    | some data => rfl

end Irestore.Restore
