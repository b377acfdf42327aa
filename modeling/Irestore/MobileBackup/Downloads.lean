/-
# MobileBackup.Downloads — the answer to a `DLMessageDownloadFiles`

Files are sent one after the other until one fails.  A path without a name makes the loop stop
as well, since nothing can be sent for it, and no error is noted then.

* `LocalFile.errcode`, `fileBytes` — the error number a file ends with, and what is sent of it.
* `DownloadRequest` — a message that lists paths.
* `run_sendFile` — one file, and what is noted of it.
* `download_answered` — the data of the files, and the status response: an error for the first
  file that fails in front of the first path without a name, and none for any other.
* `fileBytes_steady` — the data of a file that is read as it was announced.
-/
import Irestore.MobileBackup.Moves

namespace Irestore.MobileBackup

open Irestore.Library Irestore.Library.Program Irestore.Library.Bytes Irestore.Library.CMemory
  Irestore.Plist Irestore.DeviceLink

set_option autoImplicit false

/-! ## One file -/

/-- The error number the loop of reads ends with. -/
def readErrcode (total errno : Nat) : Nat → List Read → Nat
  | _, [] => errno
  | sent, read :: reads =>
      if read.data = [] then read.errno
      else if sent + read.data.length < total then
        readErrcode total errno (sent + read.data.length) reads
      else 0

/-- The error number a file is left with; an empty file is not opened. -/
def LocalFile.errcode (file : LocalFile) : Nat :=
  match file.stat with
  | .error errno => errno
  | .ok 0 => 0
  | .ok (size + 1) =>
      match file.fopen with
      | .error errno => errno
      | .ok _ => readErrcode (size + 1) file.errno 0 file.reads

/-- The hunks, each announced before it is read. -/
def hunkBytes (total : Nat) : Nat → List Read → List UInt8
  | sent, [] => frameHeader CODE_FILE_DATA (announced total sent)
  | sent, read :: reads =>
      frameHeader CODE_FILE_DATA (announced total sent) ++ read.data ++
        if read.data ≠ [] ∧ sent + read.data.length < total then
          hunkBytes total (sent + read.data.length) reads
        else []

/-- The hunks of a file. -/
def LocalFile.bytes (file : LocalFile) : List UInt8 :=
  match file.stat with
  | .error _ => []
  | .ok 0 => []
  | .ok (size + 1) =>
      match file.fopen with
      | .error _ => []
      | .ok _ => hunkBytes (size + 1) 0 file.reads

/-- The frame that a file ends with. -/
def finalFrame (strerror : Nat → CText) (errcode : Nat) : List UInt8 :=
  if errcode = 0 then frame CODE_SUCCESS [] else frame CODE_ERROR_LOCAL (strerror errcode).val

/-- What is sent for a path: as many of its bytes as a `uint32_t` counts, behind their number,
then the hunks and the final frame. -/
def fileBytes (strerror : Nat → CText) (path : CText) (file : LocalFile) : List UInt8 :=
  be 4 (path.val.length % 2 ^ 32) ++ path.val.take (path.val.length % 2 ^ 32) ++
    (file.bytes ++ finalFrame strerror file.errcode)

/-- There are bytes to send for the path; its length is a `uint32_t`. -/
def Named (path : CText) : Prop := path.val.length % 2 ^ 32 ≠ 0

instance (path : CText) : Decidable (Named path) := inferInstanceAs (Decidable (_ ≠ _))

theorem run_sendHunks (total errno : Nat) {reads : List Read} : ∀ sent sending,
    (sendHunks total errno sent reads).run sending =
      (.ok (some (readErrcode total errno sent reads)),
        sending.send (hunkBytes total sent reads)) := by
  induction reads with
  | nil => exact run_sendHunks_nil total errno
  | cons read reads ih =>
    intro sent sending
    rw [readErrcode, hunkBytes]
    by_cases empty : read.data = []
    · rw [if_pos empty, if_neg (fun more => more.1 empty), empty, List.append_nil, List.append_nil]
      exact run_sendHunks_empty total errno sent sending read reads empty
    · rw [if_neg empty, run_sendHunks_cons total errno sent sending read reads empty]
      by_cases more : sent + read.data.length < total
      · rw [if_pos more, if_pos more, if_pos ⟨empty, more⟩, ih, send_send]
      · rw [if_neg more, if_neg more, if_neg fun both => more both.2, List.append_nil]

/-- The loop on reads that return what was announced. -/
theorem hunkBytes_announced {total : Nat} (errno : Nat) {reads : List Read}
    (some : 0 < total) (announced : ReadsAnnounced total reads) :
    ∃ contents, contents <+: reads.map Read.data ∧ contents.flatten.length = total ∧
      hunkBytes total 0 reads = contents.flatMap (frame CODE_FILE_DATA) ∧
        readErrcode total errno 0 reads = 0 := by
  obtain ⟨contents, isPrefix, sum, ran⟩ := sendHunks_announced errno ⟨[], none⟩ some announced
  have both := (run_sendHunks total errno 0 ⟨[], none⟩).symm.trans ran
  have errcode := Except.ok.inj (congrArg Prod.fst both)
  exact ⟨contents, isPrefix, sum, congrArg (fun outcome => outcome.2.sent) both,
    Option.some.inj errcode⟩

/-- **The data of a file that is read as it was announced**: frames of what was read, which is as
much as `stat` reported exactly when the final frame is a success. -/
theorem fileBytes_steady (strerror : Nat → CText) {path : CText}
    (small : path.val.length < 2 ^ 32) {file : LocalFile} (steady : Steady file) :
    ∃ contents, contents <+: file.reads.map Read.data ∧
      fileBytes strerror path file = prefixed path.val ++
        (contents.flatMap (frame CODE_FILE_DATA) ++ finalFrame strerror file.errcode) ∧
      (file.errcode = 0 ↔ file.stat = .ok contents.flatten.length) := by
  have name : be 4 (path.val.length % 2 ^ 32) ++ path.val.take (path.val.length % 2 ^ 32) =
      prefixed path.val := by
    rw [Nat.mod_eq_of_lt small, List.take_length, prefixed]
  rw [fileBytes, name, LocalFile.bytes, LocalFile.errcode]
  cases isStat : file.stat with
  | error errno =>
    exact ⟨[], List.nil_prefix, rfl, iff_of_false errno.2.ne' (by simp)⟩
  | ok total =>
    cases total with
    | zero => exact ⟨[], List.nil_prefix, rfl, iff_of_true rfl rfl⟩
    | succ size =>
      cases isOpen : file.fopen with
      | error errno =>
        exact ⟨[], List.nil_prefix, rfl, iff_of_false errno.2.ne' (by simp)⟩
      | ok _ =>
        obtain ⟨contents, isPrefix, sum, bytes, fine⟩ := hunkBytes_announced file.errno
          (Nat.succ_pos size) (steady _ isStat (Nat.succ_ne_zero size) isOpen)
        refine ⟨contents, isPrefix, ?_, iff_of_true fine (congrArg _ sum.symm)⟩
        dsimp only
        rw [bytes]

section File

variable {strerror : Nat → CText}
  (short : ∀ errcode, 5 + (strerror errcode).val.length ≤ bufSize)

/-- What is noted of a file that ends with an error number. -/
def noted (strerror : Nat → CText) (path : CText) (errcode : Nat) (errplist : Option PlistNode) :
    Option PlistNode :=
  if errcode = 0 then errplist
  else some (mb2MultiStatusAddFileError (errplist.getD (leaf plistNewDict)) path
    (errnoToDeviceError errcode) (strerror errcode))

include short

theorem run_leave_noted (path : CText) (errcode : Nat) (sending : Sending) :
    (leave strerror path errcode).run sending =
      (.ok (if errcode = 0 then 0 else -1), ⟨sending.sent ++ finalFrame strerror errcode,
        noted strerror path errcode sending.errplist⟩) := by
  rw [noted, finalFrame]
  by_cases fine : errcode = 0
  · subst fine
    rfl
  · have nonempty : frame CODE_ERROR_LOCAL (strerror errcode).val ≠ [] :=
      List.append_ne_nil_of_left_ne_nil (frameHeader_ne_nil _ _) _
    rw [leave, if_neg fine, if_neg fine, if_neg fine, if_neg fine]
    dsimp only
    rw [run_modify_bind, if_pos (short errcode), run_bind (run_sendRaw nonempty _)]
    rfl

theorem run_sendContents (path : CText) (file : LocalFile) (sending : Sending) :
    (sendContents strerror path file).run sending =
      (.ok (if file.errcode = 0 then 0 else -1),
        ⟨sending.sent ++ (file.bytes ++ finalFrame strerror file.errcode),
          noted strerror path file.errcode sending.errplist⟩) := by
  rw [sendContents, LocalFile.errcode, LocalFile.bytes]
  cases file.stat with
  | error errno => exact run_leave_noted short path errno sending
  | ok total =>
    cases total with
    | zero => exact run_leave_noted short path 0 sending
    | succ size =>
      dsimp only
      rw [if_neg (Nat.succ_ne_zero size)]
      cases file.fopen with
      | error errno => exact run_leave_noted short path errno sending
      | ok _ =>
        dsimp only
        rw [run_bind (run_sendHunks (size + 1) file.errno 0 sending)]
        dsimp only
        rw [run_leave_noted short, Sending.send, List.append_assoc]

/-- One file. -/
theorem run_sendFile {path : CText} (named : Named path) (file : LocalFile) (sending : Sending) :
    (mb2HandleSendFile strerror path file).run sending =
      (.ok (if file.errcode = 0 then 0 else -1), ⟨sending.sent ++ fileBytes strerror path file,
        noted strerror path file.errcode sending.errplist⟩) := by
  have length : be 4 (path.val.length % 2 ^ 32) ≠ [] :=
    fun none => absurd (congrArg List.length none) (by simp)
  have name : path.val.take (path.val.length % 2 ^ 32) ≠ [] := by
    intro none
    have shorter := congrArg List.length none
    rw [List.length_take, List.length_nil] at shorter
    have small := Nat.mod_le path.val.length (2 ^ 32)
    rw [Nat.min_eq_left small] at shorter
    exact named shorter
  rw [mb2HandleSendFile, run_bind (run_sendRaw length _), if_neg (by decide),
    run_bind (run_sendRaw name _), if_neg (by decide), run_sendContents short, send_send,
    Sending.send, fileBytes, List.append_assoc]

omit short in
/-- A path without a name: the length goes out, and the call fails with nothing noted. -/
theorem run_sendFile_unnamed {path : CText} (unnamed : ¬ Named path) (file : LocalFile)
    (sending : Sending) :
    (mb2HandleSendFile strerror path file).run sending = (.ok (-1), sending.send (be 4 0)) := by
  have zero : path.val.length % 2 ^ 32 = 0 := not_not.mp unnamed
  have length : be 4 0 ≠ [] := by decide
  rw [mb2HandleSendFile, zero, run_bind (run_sendRaw length _), if_neg (by decide)]
  rfl

end File

/-! ## The request -/

/-- The paths among the items of an array; other items are passed over. -/
def pathsOf (items : List PlistNode) : List CText :=
  (items.filter fun item => item.1.type = .string).map stringOf

/-- A message whose second item is an array of paths. -/
structure DownloadRequest where
  message : PlistNode
  files : PlistNode
  isArray : message.1.type = .array
  long : 2 ≤ plistArrayGetSize message
  item : plistArrayGetItem message 1 = some files
  isFiles : files.1.type = .array
  intact : files.Intact
  some : 0 < files.2.length
  small : files.2.length < 2 ^ 32

def DownloadRequest.paths (request : DownloadRequest) : List CText :=
  pathsOf request.files.2.toList

section Request

variable {Disk : Type} (system : System Disk) (disk : Disk)

def errcodeAt (path : CText) : Nat := (system.localFile disk (system.buildPath path)).errcode

/-- The files up to the first that fails, or the length of the first path without a name. -/
def filesBytes : List CText → List UInt8
  | [] => []
  | path :: paths =>
      if Named path then
        fileBytes system.strerror path (system.localFile disk (system.buildPath path)) ++
          if errcodeAt system disk path = 0 then filesBytes paths else []
      else be 4 0

/-- The first file that fails, in front of the first path without a name. -/
def failing (paths : List CText) : Option CText :=
  (paths.takeWhile Named).find? fun path => errcodeAt system disk path ≠ 0

/-- What is noted of the files in the end. -/
def notedOf (paths : List CText) : Option PlistNode :=
  (failing system disk paths).bind fun path =>
    noted system.strerror path (errcodeAt system disk path) none

/-- The status response to a request of these files. -/
def downloadResponse (paths : List CText) : Checked PlistNode :=
  match failing system disk paths with
  | none => statusResponse 0 none (some (leaf plistNewDict))
  | some path =>
      statusResponse (-13) (some (cText "Multi status"))
        (some (mb2MultiStatusAddFileError (leaf plistNewDict) path
          (errnoToDeviceError (errcodeAt system disk path))
          (system.strerror (errcodeAt system disk path))))

variable {system disk}

theorem failing_unnamed {path : CText} (unnamed : ¬ Named path) (paths : List CText) :
    failing system disk (path :: paths) = none := by
  rw [failing, List.takeWhile_cons_of_neg (by simpa using unnamed)]
  rfl

theorem failing_failed {path : CText} (named : Named path) (failed : errcodeAt system disk path ≠ 0)
    (paths : List CText) : failing system disk (path :: paths) = some path := by
  rw [failing, List.takeWhile_cons_of_pos (by simpa using named)]
  exact List.find?_cons_of_pos (by simpa using failed)

theorem failing_fine {path : CText} (named : Named path) (fine : errcodeAt system disk path = 0)
    (paths : List CText) :
    failing system disk (path :: paths) = failing system disk paths := by
  rw [failing, List.takeWhile_cons_of_pos (by simpa using named)]
  exact List.find?_cons_of_neg (by simpa using fine)

variable (short : ∀ errcode, 5 + (system.strerror errcode).val.length ≤ bufSize)

include short

/-- **The loop over the files**, from one item on. -/
theorem run_sendFiles {files : PlistNode} (isArray : files.1.type = .array)
    (intact : files.Intact) : ∀ rounds i sent, i + rounds = files.2.length →
      (sendFiles system disk files rounds i).run ⟨sent, none⟩ =
        (.ok (), ⟨sent ++ filesBytes system disk (pathsOf (files.2.toList.drop i)),
          notedOf system disk (pathsOf (files.2.toList.drop i))⟩)
  | 0, i, sent => by
      intro total
      have empty : files.2.toList.drop i = [] :=
        List.drop_eq_nil_of_le (by rw [Siblings.length_toList]; omega)
      rw [empty, pathsOf, List.filter_nil, List.map_nil, filesBytes, List.append_nil]
      rfl
  | rounds + 1, i, sent => by
      intro total
      have inside : i < files.2.toList.length := by
        rw [Siblings.length_toList]
        omega
      have item : plistArrayGetItem files i = some files.2.toList[i] := by
        rw [plistArrayGetItem_eq isArray, List.getElem?_eq_getElem inside]
      rw [sendFiles, item, List.drop_eq_getElem_cons inside]
      generalize at' : files.2.toList[i] = node
      have member : node ∈ files.2.toList := at' ▸ List.getElem_mem inside
      by_cases isString : node.1.type = .string
      · obtain ⟨text, read, named'⟩ := stringOf_eq (intact.2.mem member) isString
        have paths : pathsOf (node :: files.2.toList.drop (i + 1)) =
            stringOf node :: pathsOf (files.2.toList.drop (i + 1)) := by
          rw [pathsOf, List.filter_cons_of_pos (by simpa using isString)]
          rfl
        have isString' : ¬ plistGetNodeType (some node) ≠ .string := not_not.mpr isString
        rw [if_neg isString', read, run_lift_ok_bind, named', paths]
        by_cases named : Named (stringOf node)
        · rw [run_bind (run_sendFile short named
            (system.localFile disk (system.buildPath (stringOf node))) ⟨sent, none⟩), filesBytes,
            if_pos named]
          by_cases fine : errcodeAt system disk (stringOf node) = 0
          · have fine' : (system.localFile disk (system.buildPath (stringOf node))).errcode = 0 :=
              fine
            rw [fine', if_pos fine, noted, notedOf, failing_fine named fine, ← List.append_assoc]
            exact run_sendFiles isArray intact rounds (i + 1) _ (by omega)
          · have failed : (system.localFile disk (system.buildPath (stringOf node))).errcode ≠ 0 :=
              fine
            rw [notedOf, failing_failed named fine, if_neg failed, if_neg fine, List.append_nil]
            rfl
        · rw [run_bind (run_sendFile_unnamed named _ _), notedOf, failing_unnamed named, filesBytes,
            if_neg named]
          rfl
      · have paths : pathsOf (node :: files.2.toList.drop (i + 1)) =
            pathsOf (files.2.toList.drop (i + 1)) := by
          rw [pathsOf, List.filter_cons_of_neg (by simpa using isString)]
          rfl
        have other : plistGetNodeType (some node) ≠ .string := isString
        rw [if_pos other, paths]
        exact run_sendFiles isArray intact rounds (i + 1) sent (by omega)

omit short in
theorem fileError_intact (path : CText) (errorCode : Int) (errorMessage : CText) :
    (mb2MultiStatusAddFileError (leaf plistNewDict) path errorCode errorMessage).Intact := by
  have empty : PlistNode.Intact (leaf plistNewDict) := ⟨trivial, trivial⟩
  have text : PlistNode.Intact (leaf (plistNewString errorMessage.val)) := ⟨rfl, trivial⟩
  have code : PlistNode.Intact (leaf (plistNewUint (UInt64.ofInt errorCode))) := ⟨rfl, trivial⟩
  exact empty.insertItem ((empty.insertItem text _).insertItem code _) _

omit short in
theorem run_sendStatusResponse {statusCode : Int} {status1 : Option CText}
    {status2 : Option PlistNode} {plist : PlistNode}
    (built : statusResponse statusCode status1 status2 = .ok plist) (host : Host Disk) :
    (mobilebackup2SendStatusResponse statusCode status1 status2).run host =
      (.ok (), { host with traffic := host.traffic ++ [.response plist] }) := by
  rw [mobilebackup2SendStatusResponse, built]
  rfl

theorem run_sendRaw_files (request : DownloadRequest) (host : Host Disk) :
    (sendRaw system request.files (plistArrayGetSize request.files)).run host =
      (.ok (notedOf system host.disk request.paths), { host with
        traffic := host.traffic ++
          [.raw (filesBytes system host.disk request.paths ++ be 4 0)] }) := by
  have size : plistArrayGetSize request.files = request.files.2.length := by
    rw [plistArrayGetSize, if_pos request.isFiles, Nat.mod_eq_of_lt request.small]
  have ran := @run_sendFiles _ system host.disk short _ request.isFiles request.intact
    request.files.2.length 0 [] (Nat.zero_add _)
  have zero : be 4 0 ≠ [] := by decide
  have whole : (do
      sendFiles system host.disk request.files (plistArrayGetSize request.files) 0
      let _ ← mobilebackup2SendRaw (be 4 0)
      let sending ← Program.get
      return sending.errplist : Program Sending (Option PlistNode)).run ⟨[], none⟩ =
        (.ok (notedOf system host.disk request.paths),
          ⟨filesBytes system host.disk request.paths ++ be 4 0,
            notedOf system host.disk request.paths⟩) := by
    rw [size, run_bind ran, run_bind (run_sendRaw zero _)]
    rfl
  rw [sendRaw]
  dsimp only
  rw [whole]

/-- **The answer to a request of files**: their data up to the first that fails, and a multi
status that names this one and no other; a path without a name ends the files with the
status 0. -/
theorem download_answered (request : DownloadRequest) (host : Host Disk) :
    ∃ plist, downloadResponse system host.disk request.paths = .ok plist ∧
      (mb2HandleSendFiles system request.message).run host = (.ok (), { host with
        traffic := host.traffic ++
          [.raw (filesBytes system host.disk request.paths ++ be 4 0), .response plist] }) := by
  have shape : ¬ (plistGetNodeType (some request.message) ≠ .array ∨
      plistArrayGetSize request.message < 2) :=
    not_or.mpr ⟨not_not.mpr request.isArray, Nat.not_lt.mpr request.long⟩
  have counted : plistArrayGetSize request.files ≠ 0 := by
    have some := request.some
    rw [plistArrayGetSize, if_pos request.isFiles, Nat.mod_eq_of_lt request.small]
    omega
  have ran := run_sendRaw_files short request host
  rw [mb2HandleSendFiles, if_neg shape, request.item]
  dsimp only
  rw [if_neg counted, run_bind ran, downloadResponse, notedOf]
  cases failed : failing system host.disk request.paths with
  | none =>
    obtain ⟨plist, built, -⟩ := statusResponse_eq 0 none
    refine ⟨plist, built, (run_sendStatusResponse built _).trans ?_⟩
    rw [List.append_assoc]
    rfl
  | some path =>
    have error : errcodeAt system host.disk path ≠ 0 := by
      have found := List.find?_some failed
      simpa using found
    have copied := plistCopyNode_intact (fileError_intact path
      (errnoToDeviceError (errcodeAt system host.disk path))
      (system.strerror (errcodeAt system host.disk path)))
    dsimp only [Option.bind_some]
    rw [noted, if_neg error]
    dsimp only [Option.getD_none]
    rw [statusResponse, attachment, copied]
    refine ⟨_, rfl, ?_⟩
    rw [run_sendStatusResponse (by rw [statusResponse, attachment, copied]; rfl)]
    dsimp only
    rw [List.append_assoc]
    rfl

end Request

/-- A file, one that is not there, and the first again. -/
def secondMissing : DownloadRequest where
  message := arrayOf [nameNode "DLMessageDownloadFiles",
    arrayOf [nameNode "a", nameNode "b", nameNode "a"]]
  files := arrayOf [nameNode "a", nameNode "b", nameNode "a"]
  isArray := rfl
  long := by decide
  item := rfl
  isFiles := rfl
  intact := ⟨trivial, rfl, trivial, rfl, trivial, rfl, trivial, trivial⟩
  some := by decide
  small := by decide

theorem filesOnly_short (errcode : Nat) :
    5 + ((filesOnly asksOnce).strerror errcode).val.length ≤ bufSize := by
  show 5 + (cText "No such file or directory").val.length ≤ bufSize
  decide

/-- The one file there is. -/
def onlyFirst (path : CText) : Option (List UInt8) := if path = cText "a" then some [1, 2] else none

theorem secondMissing_answered :
    filesBytes (filesOnly asksOnce) onlyFirst secondMissing.paths =
      prefixed (cText "a").val ++ (frame CODE_FILE_DATA [1, 2] ++ frame CODE_SUCCESS []) ++
        (prefixed (cText "b").val ++
          frame CODE_ERROR_LOCAL (cText "No such file or directory").val) ∧
    failing (filesOnly asksOnce) onlyFirst secondMissing.paths = some (cText "b") ∧
    ∃ plist,
      downloadResponse (filesOnly asksOnce) onlyFirst secondMissing.paths = .ok plist ∧
        (mb2HandleSendFiles (filesOnly asksOnce) secondMissing.message).run
          ⟨.whole [], onlyFirst, [], 0, calm⟩ =
            (.ok (), ⟨.whole [], onlyFirst, [.raw (filesBytes (filesOnly asksOnce) onlyFirst
              secondMissing.paths ++ be 4 0), .response plist], 0, calm⟩) :=
  ⟨by decide, by decide,
    download_answered filesOnly_short secondMissing ⟨.whole [], onlyFirst, [], 0, calm⟩⟩

end Irestore.MobileBackup
