/-
# MobileBackup.Session — the loop that serves the device

Behind its own request the host of `idevicebackup2` takes one message of the device after the
other and serves it from the backup directory, until a message ends the operation or a signal
does.  A signal is noticed behind a message and while files are received.  Sends go through, and
what is printed on the way is left out.

* `Host` — the connection, the local files, the signals to come, and what went over it.
* `System` — the operating system and GLib below the handlers.
* `session` — the loop, round after round.
-/
import Irestore.DeviceLink.VersionExchange
import Irestore.MobileBackup.ReceiveFiles
import Irestore.MobileBackup.SendFile

namespace Irestore.MobileBackup

open Irestore.Library Irestore.Library.Program Irestore.Library.Bytes Irestore.Library.CMemory
  Irestore.Plist Irestore.DeviceLink

set_option autoImplicit false

/-! ## The host -/

/-- What `g_file_test` says of a path. -/
inductive FileKind where
  | directory | regular | other
  deriving DecidableEq

/-- A name that `g_dir_read_name` gives, with what is asked about the file. -/
structure DirEntry where
  name : CText
  kind : Option FileKind
  size : UInt64
  mtime : Int

/-- What the handlers call: paths and messages, the connection below, the local files. -/
structure System (Disk : Type) extends FileCalls Disk where
  buildPath : CText → CText
  buildFilename : CText → CText → CText
  strerror : Nat → CText
  /-- `property_list_service_receive_plist`. -/
  receivePlist : Transport → Option PlistNode × Transport
  localFile : Disk → CText → LocalFile
  files : Disk → CText → Option (List UInt8)
  kind : Disk → CText → Option FileKind
  dirOpen : Disk → CText → Option (List DirEntry)
  rename : Disk → CText → CText → Option Errno × Disk
  mkdirWithParents : Disk → CText → Option Errno × Disk
  /-- `fopen` to read. -/
  opens : Disk → CText → Bool

/-- What goes over the connection. -/
inductive Traffic where
  | received (message : PlistNode)
  | raw (data : List UInt8)
  | response (plist : PlistNode)

structure Host (Disk : Type) where
  transport : Transport
  disk : Disk
  traffic : List Traffic
  fileCount : Int
  quits : Nat → Bool

/-- Why the loop was left. -/
inductive Ending where
  | quit
  | disconnected
  | processed (errorCode : Int) (description content : Option (List UInt8))

/-- The messages that the loop knows. -/
inductive DlMessage where
  | downloadFiles | uploadFiles | contentsOfDirectory | createDirectory | moveFiles
  | removeFiles | copyItem | disconnect | processMessage
  deriving DecidableEq

def DlMessage.name : DlMessage → CText
  | .downloadFiles => cText "DLMessageDownloadFiles"
  | .uploadFiles => cText "DLMessageUploadFiles"
  | .contentsOfDirectory => cText "DLContentsOfDirectory"
  | .createDirectory => cText "DLMessageCreateDirectory"
  | .moveFiles => cText "DLMessageMoveFiles"
  | .removeFiles => cText "DLMessageRemoveFiles"
  | .copyItem => cText "DLMessageCopyItem"
  | .disconnect => cText "DLMessageDisconnect"
  | .processMessage => cText "DLMessageProcessMessage"

/-- In the order in which `strcmp` is tried. -/
def DlMessage.all : List DlMessage :=
  [.downloadFiles, .uploadFiles, .contentsOfDirectory, .createDirectory, .moveFiles, .removeFiles,
    .copyItem, .disconnect, .processMessage]

def dlMessage (dlmsg : List UInt8) : Option DlMessage :=
  DlMessage.all.find? fun kind => dlmsg = kind.name.val

/-- `plist_array_get_item` and `plist_array_get_size` of a node that may be NULL. -/
def itemAt (node : Option PlistNode) (n : Nat) : Option PlistNode :=
  node.bind fun node => plistArrayGetItem node n

def countOf (node : Option PlistNode) : Nat := (node.map plistArrayGetSize).getD 0

/-! ## Status responses -/

def emptyParameter : CText := cText "___EmptyParameterString___"

/-- The last item of a status response. -/
def attachment : Option PlistNode → Checked PlistNode
  | none => .ok (leaf (plistNewString emptyParameter.val))
  | some status2 => plistCopyNode status2

/-- The plist that `mobilebackup2_send_status_response` sends. -/
def statusResponse (statusCode : Int) (status1 : Option CText) (status2 : Option PlistNode) :
    Checked PlistNode := do
  let attached ← attachment status2
  return [leaf (plistNewString (cText "DLMessageStatusResponse").val),
    leaf (plistNewUint (UInt64.ofInt statusCode)),
    leaf (plistNewString (status1.getD emptyParameter).val), attached].foldl plistArrayAppendItem
      (leaf plistNewArray)

section Handlers

variable {Disk : Type} (system : System Disk)

def logTraffic (traffic : Traffic) : Program (Host Disk) Unit :=
  Program.modify fun host => { host with traffic := host.traffic ++ [traffic] }

/-- `mobilebackup2_send_status_response`. -/
def mobilebackup2SendStatusResponse (statusCode : Int) (status1 : Option CText)
    (status2 : Option PlistNode) : Program (Host Disk) Unit := do
  let plist ← Program.lift (statusResponse statusCode status1 status2)
  logTraffic (.response plist)

/-- A call that changes the disk and may fail. -/
def onDisk (call : Disk → Option Errno × Disk) : Program (Host Disk) (Option Errno) := do
  let host ← Program.get
  Program.modify fun host => { host with disk := (call host.disk).2 }
  return (call host.disk).1

/-- `errcode` and `errdesc` behind a call. -/
def errcodeOf (failed : Option Errno) : Int :=
  (failed.map fun errno => errnoToDeviceError errno.val).getD 0

def errdescOf (failed : Option Errno) : Option CText :=
  failed.map fun errno => system.strerror errno.val

/-! ## Handlers -/

/-- The loop of `mb2_handle_send_files`. -/
def sendFiles (disk : Disk) (files : PlistNode) : Nat → Nat → Program Sending Unit
  | 0, _ => return ()
  | rounds + 1, i => do
      let val := plistArrayGetItem files i
      if plistGetNodeType val ≠ .string then sendFiles disk files rounds (i + 1)
      else do
        let str ← Program.lift (plistGetStringVal val)
        let sent ← mb2HandleSendFile system.strerror (textOf str)
          (system.localFile disk (system.buildPath (textOf str)))
        if sent < 0 then return () else sendFiles disk files rounds (i + 1)

/-- The files and the terminating 0 dword; what is noted of errors. -/
def sendRaw (files : PlistNode) (cnt : Nat) : Program (Host Disk) (Option PlistNode) :=
  ⟨fun host =>
    let run := (do
      sendFiles system host.disk files cnt 0
      let _ ← mobilebackup2SendRaw (be 4 0)
      let sending ← Program.get
      return sending.errplist : Program Sending (Option PlistNode)).run ⟨[], none⟩
    (run.1, { host with traffic := host.traffic ++ [.raw run.2.sent] })⟩

/-- `mb2_handle_send_files`. -/
def mb2HandleSendFiles (message : PlistNode) : Program (Host Disk) Unit :=
  if plistGetNodeType (some message) ≠ .array ∨ plistArrayGetSize message < 2 then return ()
  else
    match plistArrayGetItem message 1 with
    | none => return ()
    | some files =>
        if plistArrayGetSize files = 0 then return ()
        else do
          let errplist ← sendRaw system files (plistArrayGetSize files)
          match errplist with
          | none => mobilebackup2SendStatusResponse 0 none (some (leaf plistNewDict))
          | some errplist =>
              mobilebackup2SendStatusResponse (-13) (some (cText "Multi status")) (some errplist)

/-- `mb2_handle_receive_files`, and the status response it ends with. -/
def receiveUpload (message : PlistNode) : Program (Host Disk) Unit := do
  let (count, responded) ← zoom
    (fun host => (⟨host.transport, host.disk, false, host.quits⟩ : Receiving Disk))
    (fun receiving host =>
      { host with
          transport := receiving.transport
          disk := receiving.disk
          quits := receiving.quits })
    (do
      let count ← mb2HandleReceiveFiles system.toFileCalls system.buildPath (some message)
      let receiving ← Program.get
      return (count, receiving.responded))
  if responded then mobilebackup2SendStatusResponse 0 none (some (leaf plistNewDict))
  Program.modify fun host => { host with fileCount := host.fileCount + count }

/-- `plist_new_date`. -/
def plistNewDate (sec usec : Int) : PlistData := ⟨.timeval sec usec, 16, .date⟩

def fileType : Option FileKind → CText
  | some .directory => cText "DLFileTypeDirectory"
  | some .regular => cText "DLFileTypeRegular"
  | _ => cText "DLFileTypeUnknown"

/-- The entry of `dirlist` for a file. -/
def fileDict (entry : DirEntry) : PlistNode :=
  plistDictInsertItem
    (plistDictInsertItem
      (plistDictInsertItem (leaf plistNewDict) (cText "DLFileType")
        (leaf (plistNewString (fileType entry.kind).val)))
      (cText "DLFileSize") (leaf (plistNewUint entry.size)))
    (cText "DLFileModificationDate") (leaf (plistNewDate entry.mtime 0))

/-- `mb2_handle_list_directory`. -/
def mb2HandleListDirectory (message : PlistNode) : Program (Host Disk) Unit :=
  if plistGetNodeType (some message) ≠ .array ∨ plistArrayGetSize message < 2 then return ()
  else if plistGetNodeType (plistArrayGetItem message 1) ≠ .string then return ()
  else do
    let str ← Program.lift (plistGetStringVal (plistArrayGetItem message 1))
    let host ← Program.get
    let entries := (system.dirOpen host.disk (system.buildPath (textOf str))).getD []
    let dirlist := entries.foldl
      (fun dirlist entry => plistDictInsertItem dirlist entry.name (fileDict entry))
      (leaf plistNewDict)
    mobilebackup2SendStatusResponse 0 none (some dirlist)

/-- `mb2_handle_make_directory`. -/
def mb2HandleMakeDirectory (message : PlistNode) : Program (Host Disk) Unit :=
  if plistGetNodeType (some message) ≠ .array ∨ plistArrayGetSize message < 2 then return ()
  else do
    let str ← Program.lift (plistGetStringVal (plistArrayGetItem message 1))
    let failed ← onDisk fun disk =>
      system.mkdirWithParents disk (system.buildPath (textOf str))
    mobilebackup2SendStatusResponse (errcodeOf failed) (errdescOf system failed) none

/-- One move: what is in its place is removed first. -/
def moveFile (key str : CText) : Program (Host Disk) (Option Errno) := do
  let _ ← onDisk fun disk => system.remove disk (system.buildPath str)
  onDisk fun disk => system.rename disk (system.buildPath key) (system.buildPath str)

/-- `plist_dict_next_item` of a node that may be NULL. -/
def nextItem (node : Option PlistNode) (iter : Nat) :
    Checked (Option (List UInt8) × Option PlistNode × Nat) :=
  match node with
  | none => return (none, none, iter)
  | some node => plistDictNextItem node iter

/-- The body of the loop over the moves. -/
def moveEntry (key : Option (List UInt8)) (val : Option PlistNode) :
    Program (Host Disk) (Option Errno) :=
  match key with
  | none => return none
  | some key =>
      if plistGetNodeType val = .string then do
        let str ← Program.lift (plistGetStringVal val)
        moveFile system (textOf key) (textOf str)
      else return none

/-- The loop over the moves: the failure it breaks at. -/
def moveFiles (moves : Option PlistNode) : Nat → Nat → Program (Host Disk) (Option Errno)
  | 0, _ => Program.lift (.error .diverges)
  | rounds + 1, iter => do
      let (key, val, iter) ← Program.lift (nextItem moves iter)
      let failed ← moveEntry system key val
      match failed with
      | some errno => return some errno
      | none => if val.isSome then moveFiles moves rounds iter else return none

/-- As many rounds as there are children, and one more to see the end. -/
def roundsOf (node : Option PlistNode) : Nat := (node.map fun node => node.2.length).getD 0 + 1

/-- The loop over the files to remove: the last failure. -/
def removeFiles (removes : Option PlistNode) :
    Nat → Nat → Option Errno → Program (Host Disk) (Option Errno)
  | 0, _, failed => return failed
  | rounds + 1, ii, failed => do
      let val := itemAt removes ii
      if plistGetNodeType val ≠ .string then removeFiles removes rounds (ii + 1) failed
      else do
        let str ← Program.lift (plistGetStringVal val)
        let failure ← onDisk fun disk => system.remove disk (system.buildPath (textOf str))
        removeFiles removes rounds (ii + 1) (failure.orElse fun _ => failed)

/-- `mb2_copy_file_by_path`; the file it writes is emptied before the other is read. -/
def mb2CopyFileByPath (disk : Disk) (src dst : CText) : Disk :=
  if system.opens disk src = false then disk
  else
    match system.truncate disk dst with
    | none => disk
    | some disk => system.append disk dst ((system.files disk src).getD [])

/-- `mb2_copy_directory_by_path`. -/
def mb2CopyDirectoryByPath (disk : Disk) (src dst : CText) : Disk :=
  if system.kind disk src = none then disk
  else
    let (failed, disk) :=
      if system.kind disk dst = some .directory then (none, disk)
      else system.mkdirWithParents disk dst
    if failed.isSome then disk
    else
      ((system.dirOpen disk src).getD []).foldl
        (fun disk entry => mb2CopyFileByPath system disk (system.buildFilename src entry.name)
          (system.buildFilename dst entry.name)) disk

/-- The copy that a `DLMessageCopyItem` asks for. -/
def copyItem (disk : Disk) (src dst : CText) : Disk :=
  let oldpath := system.buildPath src
  let newpath := system.buildPath dst
  match system.kind disk oldpath with
  | some .directory => mb2CopyDirectoryByPath system disk oldpath newpath
  | some .regular => mb2CopyFileByPath system disk oldpath newpath
  | _ => disk

/-- The branch of the loop for `DLMessageMoveFiles`. -/
def handleMoveFiles (message : PlistNode) : Program (Host Disk) Unit := do
  let moves := plistArrayGetItem message 1
  let failed ← moveFiles system moves (roundsOf moves) 0
  mobilebackup2SendStatusResponse (errcodeOf failed) (errdescOf system failed)
    (some (leaf plistNewDict))

/-- The branch of the loop for `DLMessageRemoveFiles`. -/
def handleRemoveFiles (message : PlistNode) : Program (Host Disk) Unit := do
  let removes := plistArrayGetItem message 1
  let failed ← removeFiles system removes (countOf removes) 0 none
  mobilebackup2SendStatusResponse (errcodeOf failed) (errdescOf system failed)
    (some (leaf plistNewDict))

/-- The copy, if both paths are strings. -/
def copyStrings (srcpath dstpath : Option PlistNode) : Program (Host Disk) Unit :=
  if plistGetNodeType srcpath = .string ∧ plistGetNodeType dstpath = .string then do
    let src ← Program.lift (plistGetStringVal srcpath)
    let dst ← Program.lift (plistGetStringVal dstpath)
    Program.modify fun host =>
      { host with disk := copyItem system host.disk (textOf src) (textOf dst) }
  else return ()

/-- The branch of the loop for `DLMessageCopyItem`. -/
def handleCopyItem (message : PlistNode) : Program (Host Disk) Unit := do
  copyStrings system (plistArrayGetItem message 1) (plistArrayGetItem message 2)
  mobilebackup2SendStatusResponse 0 none (some (leaf plistNewDict))

/-- `plist_dict_get_item` of a node that may be NULL. -/
def itemFor (node : Option PlistNode) (key : CText) : Checked (Option PlistNode) :=
  match node with
  | none => return none
  | some node => plistDictGetItem node key

/-- The string there is for a key. -/
def stringFor (node : Option PlistNode) (key : CText) : Checked (Option (List UInt8)) :=
  match node with
  | none => return none
  | some node => stringItem node key

/-- `error_code`. -/
def errorCodeOf (node : Option PlistNode) : Checked Int := do
  let nn ← itemFor node (cText "ErrorCode")
  if plistGetNodeType nn = .uint then do
    let ec ← plistGetUintVal nn
    return toInt32 ec.toNat
  else return -1

/-- What the host makes of a message that ends the operation. -/
def processed (message : PlistNode) : Checked Ending := do
  let node := plistArrayGetItem message 1
  let errorCode ← errorCodeOf node
  let description ← stringFor node (cText "ErrorDescription")
  let content ← stringFor node (cText "Content")
  return .processed errorCode description content

/-! ## The loop -/

/-- A message of the given kind: the ending, when it is one. -/
def serve (message : PlistNode) : DlMessage → Program (Host Disk) (Option Ending)
  | .downloadFiles => do
      mb2HandleSendFiles system message
      return none
  | .uploadFiles => do
      receiveUpload system message
      return none
  | .contentsOfDirectory => do
      mb2HandleListDirectory system message
      return none
  | .createDirectory => do
      mb2HandleMakeDirectory system message
      return none
  | .moveFiles => do
      handleMoveFiles system message
      return none
  | .removeFiles => do
      handleRemoveFiles system message
      return none
  | .copyItem => do
      handleCopyItem system message
      return none
  | .disconnect => return some .disconnected
  | .processMessage => do
      let ending ← Program.lift (processed message)
      return some ending

/-- A receive from the connection. -/
def receiveFrom : Program Transport (Option PlistNode) :=
  ⟨fun transport => (.ok (system.receivePlist transport).1, (system.receivePlist transport).2)⟩

/-- `mobilebackup2_receive_message`: the message, when it is one, and its `dlmsg`. -/
def mobilebackup2ReceiveMessage : Program (Host Disk) (Option (PlistNode × List UInt8)) := do
  let message ← zoom Host.transport (fun transport host => { host with transport })
    (receiveFrom system)
  match message with
  | none => return none
  | some message => do
      logTraffic (.received message)
      let dlmsg ← Program.lift (getMessage message)
      return dlmsg.map fun dlmsg => (message, dlmsg)

/-- The body of the loop for what was received; without a message it is tried again. -/
def serveMessage : Option (PlistNode × List UInt8) → Program (Host Disk) (Option Ending)
  | none => return none
  | some (message, dlmsg) =>
      match dlMessage dlmsg with
      | none => return none
      | some kind => serve system message kind

/-- The look at `quit_flag` from `files_out` on. -/
def lookQuit : Program (Host Disk) Bool :=
  ⟨fun host => (.ok (host.quits 0), { host with quits := fun n => host.quits (n + 1) })⟩

/-- Once around the loop. -/
def sessionRound : Program (Host Disk) (Option Ending) := do
  let message ← mobilebackup2ReceiveMessage system
  let ending ← serveMessage system message
  match ending with
  | some ending => return some ending
  | none => do
      let quit ← lookQuit
      return if quit then some .quit else none

/-- So many rounds of the loop. -/
def session : Nat → Program (Host Disk) (Option Ending)
  | 0 => return none
  | rounds + 1 => do
      let ending ← sessionRound system
      match ending with
      | some ending => return some ending
      | none => session rounds

end Handlers

end Irestore.MobileBackup
