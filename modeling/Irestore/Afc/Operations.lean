/-
# Afc.Operations — the operations of the AFC client

Every operation sets the operation code and both length fields of the client's
header, dispatches a packet and receives the reply.  Most do just that with a
payload of their own (`exchange`); reading and writing a file loop over packets
of bounded size, and only a write sets the length fields to anything but zero.

`Request` names one call with its arguments, `perform` makes the call, and
`session` is a run of calls on a fresh client.  A string argument is NULL or the
text of a C string; the pointers to results are never NULL.
-/
import Irestore.Afc.Client

namespace Irestore.Afc

open Irestore.Library Irestore.Library.Bytes Irestore.Library.CMemory

set_option autoImplicit false

variable {σ : Type} (env : Environment σ)

/-! ## One exchange -/

/-- The header fields an operation sets before it dispatches. -/
def AFCPacket.command (operation entireLength thisLength : UInt64) (packet : AFCPacket) :
    AFCPacket :=
  { packet with entireLength := entireLength, thisLength := thisLength, operation := operation }

/-- Dispatch `data` under `operation` and receive the reply; `sendError` is what
the caller returns when the dispatch fails. -/
def exchange (operation : UInt64) (data : List UInt8) (sendError : AfcError) :
    Program (World σ) (AfcError × Option Buffer × Nat) := do
  Program.modify (World.setPacket (AFCPacket.command operation 0 0))
  let (ret, _) ← afcDispatchPacket env data (UInt32.ofNat data.length)
  if ret ≠ AFC_E_SUCCESS then return (sendError, none, 0)
  else afcReceiveData env

/-- An exchange whose reply is its return code alone. -/
def exchangeCode (operation : UInt64) (data : List UInt8) (sendError : AfcError) :
    Program (World σ) AfcError := do
  let (ret, _, _) ← exchange env operation data sendError
  return ret

/-- The bytes of a 64-bit argument. -/
def word (n : UInt64) : List UInt8 := le 8 n.toNat

/-! ## Lists of strings -/

/-- The strings that end with a NUL, in order; bytes behind the last NUL are dropped. -/
def splitNul : List UInt8 → List UInt8 → List (List UInt8)
  | _, [] => []
  | text, b :: rest => if b = 0 then text.reverse :: splitNul [] rest else splitNul (b :: text) rest

/-- `make_strings_list`; `none` is NULL. -/
def makeStringsList (tokens : Option Buffer) (length : Nat) : Option (List (List UInt8)) :=
  match tokens with
  | none => none
  | some buffer => if length = 0 then none else some (splitNul [] (buffer.filled.take length))

/-! ## Directories, files by path -/

def afcReadDirectory (dir : Option CText) :
    Program (World σ) (AfcError × Option (List (List UInt8))) :=
  match dir with
  | none => return (AFC_E_INVALID_ARG, none)
  | some dir => do
      let (ret, data, bytes) ← exchange env AFC_OP_READ_DIR dir.block AFC_E_NOT_ENOUGH_DATA
      if ret ≠ AFC_E_SUCCESS then return (ret, none)
      else return (ret, makeStringsList data bytes)

def afcGetDeviceInfo : Program (World σ) (AfcError × Option (List (List UInt8))) := do
  let (ret, data, bytes) ← exchange env AFC_OP_GET_DEVINFO [] AFC_E_NOT_ENOUGH_DATA
  if ret ≠ AFC_E_SUCCESS then return (ret, none)
  else return (ret, makeStringsList data bytes)

/-- The loop over the list in `afc_get_device_info_key`: the token behind the
first one equal to `key`; `strdup` reads the NULL behind the last token. -/
def findKey (key : List UInt8) : List (List UInt8) → Checked (Option (List UInt8))
  | [] => .ok none
  | token :: rest =>
      if token = key then
        match rest with
        | [] => .error .nullPointer
        | value :: _ => .ok (some value)
      else findKey key rest

def afcGetDeviceInfoKey (key : Option CText) :
    Program (World σ) (AfcError × Option (List UInt8)) :=
  match key with
  | none => return (AFC_E_INVALID_ARG, none)
  | some key => do
      let (ret, kvps) ← afcGetDeviceInfo env
      if ret ≠ AFC_E_SUCCESS then return (ret, none)
      else do
        let kvps ← Program.deref kvps
        let value ← Program.lift (findKey key.val kvps)
        return (ret, value)

def afcRemovePath (path : Option CText) : Program (World σ) AfcError :=
  match path with
  | none => return AFC_E_INVALID_ARG
  | some path => do
      let ret ← exchangeCode env AFC_OP_REMOVE_PATH path.block AFC_E_NOT_ENOUGH_DATA
      if ret = AFC_E_UNKNOWN_ERROR then return AFC_E_DIR_NOT_EMPTY else return ret

/-- `strlen` reads both paths before they are checked. -/
def afcRenamePath (source target : Option CText) : Program (World σ) AfcError := do
  let source ← Program.deref source
  let target ← Program.deref target
  exchangeCode env AFC_OP_RENAME_PATH (source.block ++ target.block) AFC_E_NOT_ENOUGH_DATA

/-- The path is not checked. -/
def afcMakeDirectory (dir : Option CText) : Program (World σ) AfcError := do
  let dir ← Program.deref dir
  exchangeCode env AFC_OP_MAKE_DIR dir.block AFC_E_NOT_ENOUGH_DATA

def afcGetFileInfo (path : Option CText) :
    Program (World σ) (AfcError × Option (List (List UInt8))) :=
  match path with
  | none => return (AFC_E_INVALID_ARG, none)
  | some path => do
      let (ret, received, bytes) ← exchange env AFC_OP_GET_FILE_INFO path.block
        AFC_E_NOT_ENOUGH_DATA
      return (ret, makeStringsList received bytes)

def afcTruncate (path : Option CText) (newsize : UInt64) : Program (World σ) AfcError := do
  let path ← Program.deref path
  exchangeCode env AFC_OP_TRUNCATE (word newsize ++ path.block) AFC_E_NOT_ENOUGH_DATA

def afcMakeLink (linktype : UInt32) (target linkname : Option CText) :
    Program (World σ) AfcError := do
  let target ← Program.deref target
  let linkname ← Program.deref linkname
  exchangeCode env AFC_OP_MAKE_LINK (word linktype.toUInt64 ++ (target.block ++ linkname.block))
    AFC_E_NOT_ENOUGH_DATA

def afcSetFileTime (path : Option CText) (mtime : UInt64) : Program (World σ) AfcError := do
  let path ← Program.deref path
  exchangeCode env AFC_OP_SET_FILE_TIME (word mtime ++ path.block) AFC_E_NOT_ENOUGH_DATA

/-! ## Open files -/

/-- `afc_file_open`; it returns its code and `*handle`. -/
def afcFileOpen (filename : Option CText) (fileMode : UInt32) :
    Program (World σ) (AfcError × List UInt8) := do
  let filename ← Program.deref filename
  let (ret, data, bytes) ← exchange env AFC_OP_FILE_OPEN
    (word fileMode.toUInt64 ++ filename.block) AFC_E_NOT_ENOUGH_DATA
  match data with
  | none => return (ret, word 0)
  | some buffer =>
      if ret = AFC_E_SUCCESS ∧ 0 < bytes then do
        let handle ← Program.lift (buffer.read env 8)
        return (ret, handle)
      else return (ret, word 0)

/-- The common shape of the operations on an open file: handle 0 is refused. -/
def withHandle {α : Type} (handle : UInt64) (refused : α) (operation : Program (World σ) α) :
    Program (World σ) α :=
  if handle = 0 then return refused else operation

def afcFileClose (handle : UInt64) : Program (World σ) AfcError :=
  withHandle handle AFC_E_INVALID_ARG
    (exchangeCode env AFC_OP_FILE_CLOSE (word handle) AFC_E_UNKNOWN_ERROR)

def afcFileLock (handle : UInt64) (operation : UInt32) : Program (World σ) AfcError :=
  withHandle handle AFC_E_INVALID_ARG
    (exchangeCode env AFC_OP_FILE_LOCK (word handle ++ word operation.toUInt64)
      AFC_E_UNKNOWN_ERROR)

def afcFileSeek (handle : UInt64) (offset : Int64) (whence : Int32) :
    Program (World σ) AfcError :=
  withHandle handle AFC_E_INVALID_ARG
    (exchangeCode env AFC_OP_FILE_SEEK
      (word handle ++ (word whence.toInt64.toUInt64 ++ word offset.toUInt64))
      AFC_E_NOT_ENOUGH_DATA)

/-- `afc_file_tell`; it returns its code and `*position` when it set it. -/
def afcFileTell (handle : UInt64) : Program (World σ) (AfcError × Option UInt64) :=
  withHandle handle (AFC_E_INVALID_ARG, none) do
    let (ret, data, bytes) ← exchange env AFC_OP_FILE_TELL (word handle) AFC_E_NOT_ENOUGH_DATA
    match data with
    | none => return (ret, none)
    | some buffer =>
        if 0 < bytes then do
          let position ← Program.lift (buffer.read env 8)
          return (ret, some (UInt64.ofNat (ofLE position)))
        else return (ret, none)

def afcFileTruncate (handle newsize : UInt64) : Program (World σ) AfcError :=
  withHandle handle AFC_E_INVALID_ARG
    (exchangeCode env AFC_OP_FILE_SET_SIZE (word handle ++ word newsize) AFC_E_NOT_ENOUGH_DATA)

/-- The loop of `afc_file_read`, `data` being what it has read so far into a block
of `length` bytes.  `rounds` bounds the rounds a device can keep it going. -/
def readLoop (handle : UInt64) (length : Nat) : Nat → List UInt8 →
    Program (World σ) (AfcError × Option (List UInt8))
  | 0, _ => Program.lift (.error .diverges)
  | rounds + 1, data =>
      if data.length < length then do
        let size := min (length - data.length) (2 ^ 16)
        let (ret, input, bytes) ← exchange env AFC_OP_READ
          (word handle ++ word (UInt64.ofNat size)) AFC_E_NOT_ENOUGH_DATA
        if ret ≠ AFC_E_SUCCESS then return (ret, none)
        else if bytes = 0 then return (ret, some data)
        else
          match input with
          | none => readLoop handle length rounds data
          | some buffer => do
              let piece ← Program.lift (memcpy buffer.filled (min bytes length))
              if length < data.length + piece.length then Program.lift (.error .outOfBounds)
              else readLoop handle length rounds (data ++ piece)
      else return (AFC_E_SUCCESS, some data)

/-- `afc_file_read`; it returns its code and the bytes read when it set `*bytes_read`. -/
def afcFileRead (rounds : Nat) (handle : UInt64) (length : UInt32) :
    Program (World σ) (AfcError × Option (List UInt8)) :=
  withHandle handle (AFC_E_INVALID_ARG, none) (readLoop env handle length.toNat rounds [])

/-- `MAXIMUM_WRITE_SIZE`. -/
def maximumWriteSize : UInt32 := 0x8000

/-- Dispatch `chunk` bytes of `data` from `currentCount` as one write packet; it
returns the code and `*bytes_sent`. -/
def dispatchWrite (handle : UInt64) (data : List UInt8) (currentCount chunk : UInt32) :
    Program (World σ) (AfcError × Nat) := do
  Program.modify (World.setPacket (AFCPacket.command AFC_OP_WRITE (48 + chunk.toUInt64) 48))
  let piece ← Program.lift (memcpy (data.drop currentCount.toNat) chunk.toNat)
  afcDispatchPacket env (word handle ++ piece) (chunk + 8)

/-- The loop over whole segments: an early return, or `current_count` after it. -/
def writeSegments (handle : UInt64) (data : List UInt8) : Nat → UInt32 →
    Program (World σ) (Except AfcError UInt32)
  | 0, currentCount => return .ok currentCount
  | segments + 1, currentCount => do
      let (ret, bytes) ← dispatchWrite env handle data currentCount maximumWriteSize
      if ret ≠ AFC_E_SUCCESS then return .error AFC_E_NOT_ENOUGH_DATA
      else do
        let (ret, _, _) ← afcReceiveData env
        if ret ≠ AFC_E_SUCCESS then return .error ret
        else writeSegments handle data segments (currentCount + UInt32.ofNat bytes)

/-- The end of `afc_file_write`: the segment that is left, if any. -/
def writeLast (handle : UInt64) (data : List UInt8) (currentCount : UInt32) :
    Program (World σ) (AfcError × Option UInt32) :=
  let length := UInt32.ofNat data.length
  if currentCount = length then return (AFC_E_SUCCESS, some currentCount)
  else do
    let (ret, bytes) ← dispatchWrite env handle data currentCount (length - currentCount)
    let written := currentCount + UInt32.ofNat bytes
    if ret ≠ AFC_E_SUCCESS then return (AFC_E_SUCCESS, some written)
    else do
      let (ret, _, _) ← afcReceiveData env
      return (ret, some written)

/-- `afc_file_write` of the block `data`; it returns its code and `*bytes_written`
when it set it. -/
def afcFileWrite (handle : UInt64) (data : List UInt8) :
    Program (World σ) (AfcError × Option UInt32) :=
  withHandle handle (AFC_E_INVALID_ARG, none) do
    let segments := UInt32.ofNat data.length / maximumWriteSize
    let looped ← writeSegments env handle data segments.toNat 0
    match looped with
    | .error ret => return (ret, none)
    | .ok currentCount => writeLast env handle data currentCount

/-! ## Runs of operations -/

/-- A call of one of the client's operations. -/
inductive Request where
  | readDirectory (dir : Option CText)
  | getDeviceInfo
  | getDeviceInfoKey (key : Option CText)
  | removePath (path : Option CText)
  | renamePath (source target : Option CText)
  | makeDirectory (dir : Option CText)
  | getFileInfo (path : Option CText)
  | truncate (path : Option CText) (newsize : UInt64)
  | makeLink (linktype : UInt32) (target linkname : Option CText)
  | setFileTime (path : Option CText) (mtime : UInt64)
  | fileOpen (filename : Option CText) (fileMode : UInt32)
  | fileClose (handle : UInt64)
  | fileLock (handle : UInt64) (operation : UInt32)
  | fileSeek (handle : UInt64) (offset : Int64) (whence : Int32)
  | fileTell (handle : UInt64)
  | fileTruncate (handle newsize : UInt64)
  | fileRead (rounds : Nat) (handle : UInt64) (length : UInt32)
  | fileWrite (handle : UInt64) (data : List UInt8)

/-- The operation's own code. -/
def Request.code : Request → UInt64
  | .readDirectory _ => AFC_OP_READ_DIR
  | .getDeviceInfo | .getDeviceInfoKey _ => AFC_OP_GET_DEVINFO
  | .removePath _ => AFC_OP_REMOVE_PATH
  | .renamePath .. => AFC_OP_RENAME_PATH
  | .makeDirectory _ => AFC_OP_MAKE_DIR
  | .getFileInfo _ => AFC_OP_GET_FILE_INFO
  | .truncate .. => AFC_OP_TRUNCATE
  | .makeLink .. => AFC_OP_MAKE_LINK
  | .setFileTime .. => AFC_OP_SET_FILE_TIME
  | .fileOpen .. => AFC_OP_FILE_OPEN
  | .fileClose _ => AFC_OP_FILE_CLOSE
  | .fileLock .. => AFC_OP_FILE_LOCK
  | .fileSeek .. => AFC_OP_FILE_SEEK
  | .fileTell _ => AFC_OP_FILE_TELL
  | .fileTruncate .. => AFC_OP_FILE_SET_SIZE
  | .fileRead .. => AFC_OP_READ
  | .fileWrite .. => AFC_OP_WRITE

/-- Make the call and forget its results. -/
def perform : Request → Program (World σ) PUnit
  | .readDirectory dir => do let _ ← afcReadDirectory env dir
  | .getDeviceInfo => do let _ ← afcGetDeviceInfo env
  | .getDeviceInfoKey key => do let _ ← afcGetDeviceInfoKey env key
  | .removePath path => do let _ ← afcRemovePath env path
  | .renamePath source target => do let _ ← afcRenamePath env source target
  | .makeDirectory dir => do let _ ← afcMakeDirectory env dir
  | .getFileInfo path => do let _ ← afcGetFileInfo env path
  | .truncate path newsize => do let _ ← afcTruncate env path newsize
  | .makeLink linktype target linkname => do let _ ← afcMakeLink env linktype target linkname
  | .setFileTime path mtime => do let _ ← afcSetFileTime env path mtime
  | .fileOpen filename fileMode => do let _ ← afcFileOpen env filename fileMode
  | .fileClose handle => do let _ ← afcFileClose env handle
  | .fileLock handle operation => do let _ ← afcFileLock env handle operation
  | .fileSeek handle offset whence => do let _ ← afcFileSeek env handle offset whence
  | .fileTell handle => do let _ ← afcFileTell env handle
  | .fileTruncate handle newsize => do let _ ← afcFileTruncate env handle newsize
  | .fileRead rounds handle length => do let _ ← afcFileRead env rounds handle length
  | .fileWrite handle data => do let _ ← afcFileWrite env handle data

/-- The world after a run of operations on a fresh client: after the last one, or
at the fault that ended the run. -/
def session (connection : σ) (operation : UInt64) (requests : List Request) : World σ :=
  (requests.forM (perform env)).state (afcClientNewFromConnection connection operation)

end Irestore.Afc
