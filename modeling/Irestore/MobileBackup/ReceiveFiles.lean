/-
# MobileBackup.ReceiveFiles — files from the device

`mb2_handle_receive_files` reads file after file from the connection: a device name, a file
name, hunks, an end marker.  The number of bytes received last, the pending length and the
code are carried from stage to stage.  A receive stores into what it is given and leaves
`*bytes` alone when it is asked for nothing.

* `run_receiveRaw` — a receive of bytes that come.
* `run_receiveFile` — one file of the format, and where the message of its marker is stored.
* `filesReceived_iff` — when all files are received: no signal comes, and local files open.
* `empty_message_overruns` — a marker that is an error without a message.
-/
import Mathlib.Data.List.Induction
import Irestore.Library.Program
import Irestore.Library.Transport
import Irestore.MobileBackup.Frames
import Irestore.MobileBackup.LocalFiles
import Irestore.Plist.Array

namespace Irestore.MobileBackup

open Irestore.Library Irestore.Library.Program Irestore.Library.Bytes Irestore.Library.CMemory
  Irestore.Plist

set_option autoImplicit false

/-! ## Receiving -/

/-- The connection, the local files, whether the status response was sent, and what the next
looks at `quit_flag` find. -/
structure Receiving (Disk : Type) where
  transport : Transport
  disk : Disk
  responded : Bool
  quits : Nat → Bool

variable {Disk : Type}

/-- A look at `quit_flag`, which a signal sets at any time. -/
def lookQuitFlag : Program (Receiving Disk) Bool :=
  ⟨fun receiving =>
    (.ok (receiving.quits 0), { receiving with quits := fun n => receiving.quits (n + 1) })⟩

/-- The loop of `mobilebackup2_receive_raw`, with `left` bytes to come; `bytes_loc` is an
`int`. -/
def receiveLoop : Nat → Nat → Transport → List UInt8 × Transport
  | 0, _, transport => ([], transport)
  | fuel + 1, left, transport =>
      if left = 0 then ([], transport)
      else
        let (data, transport) := transport.receive left
        if toInt32 data.length ≤ 0 then ([], transport)
        else
          let (more, transport) := receiveLoop fuel (left - data.length) transport
          (data ++ more, transport)

/-- `mobilebackup2_receive_raw`: the bytes stored, and what `*bytes` is then. -/
def mobilebackup2ReceiveRaw (length bytes : Nat) : Program (Receiving Disk) (List UInt8 × Nat) :=
  ⟨fun receiving =>
    if length = 0 then (.ok ([], bytes), receiving)
    else
      let (data, transport) := receiveLoop length length receiving.transport
      (.ok (data, data.length), { receiving with transport })⟩

/-- A receive into `nlen`, on a little-endian host: the bytes it holds then. -/
def receiveLength (nlen bytes : Nat) : Program (Receiving Disk) (List UInt8 × Nat) := do
  let (data, r) ← mobilebackup2ReceiveRaw 4 bytes
  return (data ++ (le 4 nlen).drop data.length, r)

/-- A NUL is stored behind `r` bytes of a block. -/
def terminate (size r : Nat) : Checked Unit := if r < size then return () else .error .outOfBounds

/-- The text in a block that is NUL-terminated. -/
def textOf (block : List UInt8) : CText :=
  ⟨cString block, fun member => by simpa using List.mem_takeWhile_imp member⟩

/-! ## The call -/

/-- What the loop carries from file to file. -/
structure Locals where
  nlen : Nat
  r : Nat
  code : UInt8
  lastCode : UInt8
  bname : Option CText
  fileCount : Nat

def Locals.start : Locals := ⟨0, 0, 0, 0, none, 0⟩

/-- `nlen-1`, in 32 bits. -/
def blocksize (nlen : Nat) : Nat := (nlen + 2 ^ 32 - 1) % 2 ^ 32

theorem blocksize_succ {length : Nat} (small : length + 1 < 2 ^ 32) :
    blocksize (length + 1) = length := by
  rw [blocksize]
  omega

section Call

variable (calls : FileCalls Disk)

/-- One hunk: it is received into `buf` and appended to the file; `r` as it is left. -/
def receiveBlock (bname : CText) : Nat → Nat → Nat → Program (Receiving Disk) Nat
  | 0, _, r => return r
  | fuel + 1, left, r =>
      if left = 0 then return r
      else do
        let (data, r) ← mobilebackup2ReceiveRaw (min left bufSize) r
        if toInt32 r ≤ 0 then return r
        else do
          Program.modify fun receiving =>
            { receiving with disk := calls.append receiving.disk bname data }
          receiveBlock bname fuel (left - data.length) r

/-- The hunks of a file, and its end marker's length and code.  A signal is noticed behind a
hunk. -/
def receiveHunks (bname : CText) : Nat → Locals → Program (Receiving Disk) Locals
  | 0, _ => Program.lift (.error .diverges)
  | fuel + 1, locals =>
      if locals.code ≠ CODE_FILE_DATA then return locals
      else do
        let r ← receiveBlock calls bname (blocksize locals.nlen) (blocksize locals.nlen) locals.r
        let quit ← lookQuitFlag
        if quit then return { locals with r }
        else do
          let (block, r) ← receiveLength 0 r
          let nlen := ofBE block
          if 0 < nlen then do
            let (data, r) ← mobilebackup2ReceiveRaw 1 r
            let code := data.headD locals.code
            receiveHunks bname fuel { locals with nlen, r, code, lastCode := locals.code }
          else return { locals with nlen, r }

/-- What is behind the contents of a file: whether there are more files. -/
def receiveEnd (locals : Locals) : Program (Receiving Disk) (Bool × Locals) :=
  if locals.nlen = 0 then return (false, locals)
  else if locals.code = CODE_ERROR_REMOTE then do
    let (_, r) ← mobilebackup2ReceiveRaw (locals.nlen - 1) locals.r
    Program.lift (terminate locals.nlen r)
    return (true, { locals with r })
  else return (true, locals)

/-- A file, from the code that follows its name on.  One that does not open is not counted, and
what comes of it is taken for the next one. -/
def receiveContents (bname : CText) (locals : Locals) :
    Program (Receiving Disk) (Bool × Locals) := do
  Program.modify fun receiving =>
    { receiving with disk := (calls.remove receiving.disk bname).2 }
  let receiving ← Program.get
  match calls.truncate receiving.disk bname with
  | none => receiveEnd locals
  | some disk => do
      Program.modify fun receiving => { receiving with disk }
      let locals ← receiveHunks calls bname (receiving.transport.stream.length + 1) locals
      receiveEnd { locals with fileCount := locals.fileCount + 1 }

/-- A file behind its name: the length and the code of what comes first. -/
def receiveCode (bname : CText) (locals : Locals) : Program (Receiving Disk) (Bool × Locals) := do
  let (block, r) ← receiveLength 0 locals.r
  -- the length is not converted before the break
  if r ≠ 4 then return (false, { locals with nlen := ofLE block, r })
  else do
    let (data, r) ← mobilebackup2ReceiveRaw 1 r
    let locals := Locals.mk (ofBE block) r (data.headD 0) locals.code (some bname) locals.fileCount
    if r ≠ 1 then return (false, locals) else receiveContents calls bname locals

variable (buildPath : CText → CText)

/-- A file behind the device's name for it. -/
def receiveName (locals : Locals) : Program (Receiving Disk) (Bool × Locals) := do
  let (block, r) ← receiveLength 0 locals.r
  let nlen := ofBE block
  if nlen = 0 ∨ 4096 < nlen then return (false, { locals with nlen, r })
  else do
    let (fname, r) ← mobilebackup2ReceiveRaw nlen r
    if r ≠ nlen then return (false, { locals with nlen, r })
    else do
      Program.lift (terminate (nlen + 1) r)
      let bname := buildPath (textOf fname)
      receiveCode calls bname { locals with nlen, r, bname := some bname }

/-- A file, from the device's name for it on. -/
def receiveDevice (locals : Locals) : Program (Receiving Disk) (Bool × Locals) := do
  let (block, r) ← receiveLength locals.nlen 0
  let nlen := ofBE block
  if nlen = 0 ∨ 4096 < nlen then return (false, { locals with nlen, r })
  else do
    let (_, r) ← mobilebackup2ReceiveRaw nlen 0
    if r ≠ nlen then return (false, { locals with nlen, r })
    else do
      Program.lift (terminate (nlen + 1) r)
      receiveName calls buildPath { locals with nlen, r }

/-- Once around the loop of `mb2_handle_receive_files`: whether it goes on. -/
def receiveFile (locals : Locals) : Program (Receiving Disk) (Bool × Locals) := do
  let quit ← lookQuitFlag
  if quit then return (false, locals) else receiveDevice calls buildPath locals

def receiveFiles : Nat → Locals → Program (Receiving Disk) Locals
  | 0, _ => Program.lift (.error .diverges)
  | fuel + 1, locals => do
      let (more, locals) ← receiveFile calls buildPath locals
      if more then receiveFiles fuel locals else return locals

/-- `(int)nlen-1 > 0`: what is left of a hunk is read and its file removed. -/
def discard (locals : Locals) : Program (Receiving Disk) Unit := do
  if toInt32 locals.nlen = -2 ^ 31 then Program.lift (.error .intOverflow)
  else if 0 < toInt32 locals.nlen - 1 then do
    let _ ← mobilebackup2ReceiveRaw (locals.nlen - 1) locals.r
    match locals.bname with
    | none => Program.lift (.error .nullPointer)
    | some bname => Program.modify fun receiving =>
        { receiving with disk := (calls.remove receiving.disk bname).2 }
  else return ()

/-- `mb2_handle_receive_files`; `backup_dir` is not NULL, and what GLib makes of it and a
file name is `buildPath`. -/
def mb2HandleReceiveFiles (message : Option PlistNode) : Program (Receiving Disk) Int := do
  match message with
  | none => return 0
  | some message =>
      if plistGetNodeType (some message) ≠ .array ∨ plistArrayGetSize message < 4 then return 0
      else do
        let node := plistArrayGetItem message 3
        -- the total is for the progress bar only
        let _ ← Program.lift
          (if plistGetNodeType node = .uint then plistGetUintVal node else return 0)
        let receiving ← Program.get
        let locals ← receiveFiles calls buildPath (receiving.transport.stream.length + 1) .start
        discard calls locals
        Program.modify fun receiving => { receiving with responded := true }
        return toInt32 locals.fileCount

end Call

/-! ## Receives of bytes that come -/

/-- This stream is to come, and no receive hands out more than an `int` counts. -/
def Comes (transport : Transport) (stream : List UInt8) : Prop :=
  transport.stream = stream ∧ ∀ k, transport.sizes k + 1 < 2 ^ 31

theorem receiveLoop_comes {fuel : Nat} : ∀ {data rest : List UInt8} {transport : Transport},
    data.length ≤ fuel → Comes transport (data ++ rest) →
      ∃ transport', receiveLoop fuel data.length transport = (data, transport') ∧
        Comes transport' rest := by
  induction fuel with
  | zero =>
    intro data rest transport enough comes
    obtain rfl := List.length_eq_zero_iff.mp (Nat.le_zero.mp enough)
    exact ⟨transport, rfl, comes⟩
  | succ fuel ih =>
    intro data rest transport enough comes
    obtain ⟨stream, pieces⟩ := comes
    rcases Nat.eq_zero_or_pos data.length with none | some
    · obtain rfl := List.length_eq_zero_iff.mp none
      exact ⟨transport, rfl, stream, pieces⟩
    · obtain ⟨k, size⟩ : ∃ k, k = transport.sizes 0 + 1 := ⟨_, rfl⟩
      have small := pieces 0
      have received := Transport.receive_front stream
      rw [← size] at received small
      have first : (data.take k).length = min k data.length := List.length_take
      have left : data.length - (data.take k).length = (data.drop k).length := by
        rw [first, List.length_drop]
        omega
      have positive : ¬ toInt32 (data.take k).length ≤ 0 := by
        rw [toInt32_of_lt (by omega)]
        omega
      obtain ⟨transport', ran, comes'⟩ := @ih (data.drop k) rest
        ⟨data.drop k ++ rest, fun k => transport.sizes (k + 1)⟩ (by rw [← left]; omega)
        ⟨rfl, fun k => pieces (k + 1)⟩
      refine ⟨transport', ?_, comes'⟩
      rw [receiveLoop, if_neg (by omega), received]
      dsimp only
      rw [if_neg positive, left, ran]
      dsimp only
      rw [List.take_append_drop]

section Receives

variable {transport : Transport} (disk : Disk) (responded : Bool) (quits : Nat → Bool)
  {rest : List UInt8}

theorem run_receiveRaw {data : List UInt8} (some : data ≠ [])
    (comes : Comes transport (data ++ rest)) (r : Nat) :
    ∃ transport', (mobilebackup2ReceiveRaw data.length r).run ⟨transport, disk, responded, quits⟩ =
        (.ok (data, data.length), ⟨transport', disk, responded, quits⟩) ∧
      Comes transport' rest := by
  obtain ⟨transport', ran, comes'⟩ := receiveLoop_comes (Nat.le_refl _) comes
  refine ⟨transport', ?_, comes'⟩
  simp only [mobilebackup2ReceiveRaw, if_neg (mt List.length_eq_zero_iff.mp some), ran]

theorem run_receiveByte {code : UInt8} (comes : Comes transport ([code] ++ rest)) (r : Nat) :
    ∃ transport', (mobilebackup2ReceiveRaw 1 r).run ⟨transport, disk, responded, quits⟩ =
        (.ok ([code], 1), ⟨transport', disk, responded, quits⟩) ∧ Comes transport' rest :=
  run_receiveRaw disk responded quits (List.cons_ne_nil code []) comes r

theorem run_receiveLength {value : Nat} (comes : Comes transport (be 4 value ++ rest))
    (nlen r : Nat) :
    ∃ transport', (receiveLength nlen r).run ⟨transport, disk, responded, quits⟩ =
        (.ok (be 4 value, 4), ⟨transport', disk, responded, quits⟩) ∧ Comes transport' rest := by
  have length : (be 4 value).length = 4 := length_be 4 value
  have some : be 4 value ≠ [] := fun none => by simp [none] at length
  obtain ⟨transport', ran, comes'⟩ := run_receiveRaw disk responded quits some comes r
  rw [length] at ran
  refine ⟨transport', (run_bind ran).trans ?_, comes'⟩
  dsimp only
  rw [length, List.drop_eq_nil_of_le (by simp), List.append_nil]
  rfl

end Receives

/-- One hunk is appended to the file. -/
theorem run_receiveBlock {F : Type} [DecidableEq F] (place : CText → F)
    (disk : F → Option (List UInt8)) (responded : Bool) (quits : Nat → Bool) {rest : List UInt8}
    (bname : CText) {fuel : Nat} :
    ∀ {content : List UInt8} (written : List UInt8) {transport : Transport} (r : Nat),
      content.length ≤ fuel →
      Comes transport (content ++ rest) →
        ∃ transport' r', (receiveBlock (filesAt place) bname fuel content.length r).run
            ⟨transport, holding disk (place bname) written, responded, quits⟩ =
          (.ok r',
            ⟨transport', holding disk (place bname) (written ++ content), responded, quits⟩) ∧
              Comes transport' rest := by
  induction fuel with
  | zero =>
    intro content written transport r enough comes
    obtain rfl := List.length_eq_zero_iff.mp (Nat.le_zero.mp enough)
    exact ⟨transport, r, by rw [List.append_nil]; rfl, comes⟩
  | succ fuel ih =>
    intro content written transport r enough comes
    rcases Nat.eq_zero_or_pos content.length with none | some
    · obtain rfl := List.length_eq_zero_iff.mp none
      exact ⟨transport, r, by rw [List.append_nil]; rfl, comes⟩
    · have pos : 0 < bufSize := by decide
      have small : bufSize < 2 ^ 31 := by decide
      have first : (content.take bufSize).length = min content.length bufSize := by
        rw [List.length_take, Nat.min_comm]
      have left : content.length - (content.take bufSize).length =
          (content.drop bufSize).length := by
        rw [first, List.length_drop]
        omega
      have nonempty : content.take bufSize ≠ [] := fun none => by
        rw [none, List.length_nil] at first
        omega
      rw [← List.take_append_drop bufSize content, List.append_assoc] at comes
      obtain ⟨transport₁, ran, comes₁⟩ := run_receiveRaw
        (holding disk (place bname) written) responded quits nonempty comes r
      obtain ⟨transport', r', ran', comes'⟩ := @ih (content.drop bufSize)
        (written ++ content.take bufSize) transport₁ (content.take bufSize).length
        (by rw [← left]; omega) comes₁
      refine ⟨transport', r', ?_, comes'⟩
      rw [receiveBlock, if_neg (by omega), ← first, run_bind ran]
      dsimp only
      rw [if_neg (by rw [toInt32_of_lt (by omega)]; omega), run_modify_bind, left]
      rw [List.append_assoc, List.take_append_drop] at ran'
      rw [← ran', filesAt_append]

/-! ## Files of the format -/

/-- How the contents of a file end. -/
inductive Marker where
  | success
  | error (message : List UInt8)
  deriving DecidableEq

namespace Marker

def code : Marker → UInt8
  | success => CODE_SUCCESS
  | error _ => CODE_ERROR_REMOTE

def message : Marker → List UInt8
  | success => []
  | error message => message

end Marker

/-- A file as the device sends it. -/
structure DeviceFile where
  device : List UInt8
  name : List UInt8
  hunks : List (List UInt8)
  marker : Marker
  device_fits : device ≠ [] ∧ device.length ≤ 4096
  name_fits : name ≠ [] ∧ name.length ≤ 4096
  hunks_fit : ∀ hunk ∈ hunks, hunk.length + 1 < 2 ^ 32
  marker_fits : marker.message.length + 1 < 2 ^ 32

/-- The code and the content that come next. -/
def nextCode : List (List UInt8) → Marker → UInt8
  | [], marker => marker.code
  | _ :: _, _ => CODE_FILE_DATA

def nextContent : List (List UInt8) → Marker → List UInt8
  | [], marker => marker.message
  | hunk :: _, _ => hunk

/-- Hunks and a marker. -/
def frames (hunks : List (List UInt8)) (marker : Marker) : List UInt8 :=
  hunks.flatMap (frame CODE_FILE_DATA) ++ frame marker.code marker.message

/-- What is behind the first code. -/
def behindCode : List (List UInt8) → Marker → List UInt8
  | [], marker => marker.message
  | hunk :: hunks, marker => hunk ++ frames hunks marker

theorem frames_eq (hunks : List (List UInt8)) (marker : Marker) :
    frames hunks marker = be 4 ((nextContent hunks marker).length + 1) ++
      ([nextCode hunks marker] ++ behindCode hunks marker) := by
  cases hunks with
  | nil =>
    rw [frames, List.flatMap_nil, List.nil_append, frame, frameHeader, List.append_assoc]
    rfl
  | cons hunk hunks =>
    rw [frames, List.flatMap_cons, frame, frameHeader, List.append_assoc, List.append_assoc,
      List.append_assoc]
    rfl

namespace DeviceFile

def bytes (file : DeviceFile) : List UInt8 :=
  prefixed file.device ++ (prefixed file.name ++ frames file.hunks file.marker)

def contents (file : DeviceFile) : List UInt8 := file.hunks.flatten

/-- The local file. -/
def path (buildPath : CText → CText) (file : DeviceFile) : CText :=
  buildPath (textOf file.name)

end DeviceFile

/-- No signal comes. -/
def calm : Nat → Bool := fun _ => false

theorem run_lookQuitFlag_calm (transport : Transport) (disk : Disk) (responded : Bool) :
    lookQuitFlag.run ⟨transport, disk, responded, calm⟩ =
      (.ok false, ⟨transport, disk, responded, calm⟩) := rfl

section Files

variable {F : Type} [DecidableEq F] (place : CText → F) (disk : F → Option (List UInt8))
  (responded : Bool) {rest : List UInt8}

/-- A marker's code is no hunk's. -/
theorem Marker.code_ne (marker : Marker) : marker.code ≠ CODE_FILE_DATA := by
  cases marker with
  | success => exact (by decide : CODE_SUCCESS ≠ CODE_FILE_DATA)
  | error => exact (by decide : CODE_ERROR_REMOTE ≠ CODE_FILE_DATA)

omit [DecidableEq F] in
/-- Once around the loop over the hunks. -/
theorem run_receiveHunks_data {calls : FileCalls Disk} {bname : CText} (fuel : Nat)
    {locals : Locals} (isData : locals.code = CODE_FILE_DATA) {s s₂ s₃ : Receiving Disk}
    {transport : Transport} {disk : Disk} {r r₁ r₂ : Nat} {length data : List UInt8}
    (block : (receiveBlock calls bname (blocksize locals.nlen) (blocksize locals.nlen)
      locals.r).run s = (.ok r, ⟨transport, disk, responded, calm⟩))
    (received : (receiveLength 0 r).run ⟨transport, disk, responded, calm⟩ =
      (.ok (length, r₁), s₂)) (more : 0 < ofBE length)
    (code : (mobilebackup2ReceiveRaw 1 r₁).run s₂ = (.ok (data, r₂), s₃)) :
    (receiveHunks calls bname (fuel + 1) locals).run s = (receiveHunks calls bname fuel
      ⟨ofBE length, r₂, data.headD locals.code, locals.code, locals.bname, locals.fileCount⟩).run
        s₃ := by
  rw [receiveHunks, if_neg (not_not.mpr isData), run_bind block,
    run_bind (run_lookQuitFlag_calm transport disk responded), if_neg (by decide),
    run_bind received]
  dsimp only
  rw [if_pos more, run_bind code]

/-- The hunks of a file are received, and the marker's length and code. -/
theorem run_receiveHunks (bname : CText) {marker : Marker}
    (marker_fits : marker.message.length + 1 < 2 ^ 32) {hunks : List (List UInt8)} :
    ∀ {fuel : Nat} {written : List UInt8} {transport : Transport} {locals : Locals},
      (∀ hunk ∈ hunks, hunk.length + 1 < 2 ^ 32) → hunks.length < fuel →
        Comes transport (behindCode hunks marker ++ rest) →
          locals.nlen = (nextContent hunks marker).length + 1 →
            locals.code = nextCode hunks marker → locals.r = 1 →
      ∃ transport' locals', (receiveHunks (filesAt place) bname fuel locals).run
          ⟨transport, holding disk (place bname) written, responded, calm⟩ =
        (.ok locals',
          ⟨transport', holding disk (place bname) (written ++ hunks.flatten), responded, calm⟩) ∧
        Comes transport' (marker.message ++ rest) ∧ locals'.nlen = marker.message.length + 1 ∧
          locals'.code = marker.code ∧ locals'.r = 1 ∧ locals'.fileCount = locals.fileCount := by
  induction hunks with
  | nil =>
    intro fuel written transport locals _ enough comes nlen code r
    obtain ⟨fuel, rfl⟩ := Nat.exists_eq_succ_of_ne_zero (Nat.ne_zero_of_lt enough)
    have other : locals.code ≠ CODE_FILE_DATA := code ▸ marker.code_ne
    refine ⟨transport, locals, ?_, comes, nlen, code, r, rfl⟩
    rw [receiveHunks, if_pos other, List.flatten_nil, List.append_nil]
    rfl
  | cons hunk hunks ih =>
    intro fuel written transport locals fits enough comes nlen code r
    obtain ⟨fuel, rfl⟩ := Nat.exists_eq_succ_of_ne_zero (Nat.ne_zero_of_lt enough)
    have size : blocksize locals.nlen = hunk.length := by
      rw [nlen]
      exact blocksize_succ (fits hunk List.mem_cons_self)
    have next : (nextContent hunks marker).length + 1 < 256 ^ 4 := by
      cases hunks with
      | nil => exact marker_fits
      | cons later => exact fits later (by simp)
    rw [behindCode, List.append_assoc, frames_eq, List.append_assoc, List.append_assoc] at comes
    obtain ⟨transport₁, r₁, block, comes⟩ := run_receiveBlock place disk responded calm bname
      written locals.r (Nat.le_refl _) comes
    obtain ⟨transport₂, length, comes⟩ := run_receiveLength
      (holding disk (place bname) (written ++ hunk)) responded calm comes 0 r₁
    obtain ⟨transport₃, received, comes⟩ := run_receiveByte
      (holding disk (place bname) (written ++ hunk)) responded calm comes 4
    rw [← size] at block
    have more : 0 < ofBE (be 4 ((nextContent hunks marker).length + 1)) := by
      rw [ofBE_be next]
      omega
    have around := run_receiveHunks_data responded fuel code block length more received
    obtain ⟨transport', locals', ran, comes, nlen', code', r', count⟩ := @ih fuel (written ++ hunk)
      transport₃ _ (fun later member => fits later (List.mem_cons_of_mem _ member))
      (Nat.lt_of_succ_lt_succ enough) comes (show (Locals.mk
        (ofBE (be 4 ((nextContent hunks marker).length + 1))) 1 (nextCode hunks marker) locals.code
          locals.bname locals.fileCount).nlen = _ from ofBE_be next) rfl rfl
    refine ⟨transport', locals', ?_, comes, nlen', code', r', count⟩
    rw [List.flatten_cons, ← List.append_assoc]
    exact around.trans ran

theorem length_frames (hunks : List (List UInt8)) (marker : Marker) :
    hunks.length + 1 ≤ (frames hunks marker).length := by
  induction hunks with
  | nil =>
    rw [frames, List.flatMap_nil, List.nil_append, frame, List.length_append, length_frameHeader,
      List.length_nil]
    omega
  | cons hunk hunks ih =>
    rw [frames] at ih ⊢
    simp only [List.flatMap_cons, List.length_append, List.length_cons, frame,
      length_frameHeader] at ih ⊢
    omega

theorem length_behindCode (hunks : List (List UInt8)) (marker : Marker) :
    hunks.length ≤ (behindCode hunks marker).length := by
  cases hunks with
  | nil => exact Nat.zero_le _
  | cons hunk hunks =>
    have length := length_frames hunks marker
    rw [behindCode, List.length_append, List.length_cons]
    omega

/-- A file from its code on.  The message of its marker has room for a NUL unless it is empty:
then nothing is received, and the NUL is stored behind the one byte received before. -/
theorem run_receiveContents {file : DeviceFile} (bname : CText) {locals : Locals}
    {transport : Transport} (comes : Comes transport (behindCode file.hunks file.marker ++ rest))
    (nlen : locals.nlen = (nextContent file.hunks file.marker).length + 1)
    (code : locals.code = nextCode file.hunks file.marker) (r : locals.r = 1) :
    (file.marker ≠ .error [] → ∃ transport' locals',
      (receiveContents (filesAt place) bname locals).run ⟨transport, disk, responded, calm⟩ =
          (.ok (true, locals'),
            ⟨transport', holding disk (place bname) file.contents, responded, calm⟩) ∧
        Comes transport' rest ∧ locals'.fileCount = locals.fileCount + 1) ∧
      (file.marker = .error [] → ∃ after,
        (receiveContents (filesAt place) bname locals).run ⟨transport, disk, responded, calm⟩ =
          (.error .outOfBounds, after)) := by
  have enough : file.hunks.length < transport.stream.length + 1 := by
    have length := length_behindCode file.hunks file.marker
    rw [comes.1, List.length_append]
    omega
  obtain ⟨transport₁, locals₁, ran, comes, nlen, code, r, count⟩ := run_receiveHunks place disk
    responded bname file.marker_fits file.hunks_fit enough comes nlen code r
  have start : (receiveContents (filesAt place) bname locals).run
      ⟨transport, disk, responded, calm⟩ =
        (receiveEnd { locals₁ with fileCount := locals₁.fileCount + 1 }).run
          ⟨transport₁, holding disk (place bname) file.contents, responded, calm⟩ := by
    rw [receiveContents, run_modify_bind, run_get_bind]
    dsimp only
    rw [filesAt_create]
    dsimp only
    rw [run_modify_bind]
    exact run_bind ran
  rw [start, receiveEnd]
  dsimp only
  rw [if_neg (by omega), nlen, code, r]
  cases isMarker : file.marker with
  | success =>
    rw [isMarker] at comes
    rw [if_neg (show Marker.success.code ≠ CODE_ERROR_REMOTE by decide)]
    refine ⟨fun _ => ⟨transport₁, _, rfl, comes, congrArg (· + 1) count⟩, fun never => ?_⟩
    cases never
  | error message =>
    rw [isMarker] at comes
    rw [if_pos (show (Marker.error message).code = CODE_ERROR_REMOTE from rfl)]
    constructor
    · intro harmless
      have some : message ≠ [] := fun empty => harmless (congrArg Marker.error empty)
      obtain ⟨transport₂, received, comes⟩ := run_receiveRaw
        (holding disk (place bname) file.contents) responded calm some comes 1
      have room : terminate (message.length + 1) message.length = .ok () :=
        if_pos (Nat.lt_succ_self _)
      rw [show (Marker.error message).message = message from rfl, Nat.add_sub_cancel,
        run_bind received]
      dsimp only
      rw [room]
      exact ⟨transport₂, _, rfl, comes, congrArg (· + 1) count⟩
    · intro empty
      cases empty
      exact ⟨_, rfl⟩

theorem terminate_self (n : Nat) : terminate (n + 1) n = .ok () := if_pos (Nat.lt_succ_self n)

/-- A name behind its length, for the file name as for the device's. -/
theorem run_prefixed {α : Type} (disk : Disk) {name : List UInt8}
    (fits : name ≠ [] ∧ name.length ≤ 4096)
    {transport : Transport} (comes : Comes transport (prefixed name ++ rest)) (nlen r : Nat)
    (bytes : Nat → Nat) (stop : Nat → Nat → Program (Receiving Disk) α)
    (next : Nat → List UInt8 → Nat → Program (Receiving Disk) α) :
    ∃ transport', (do
        let (block, r) ← receiveLength nlen r
        let nlen := ofBE block
        if nlen = 0 ∨ 4096 < nlen then stop nlen r
        else do
          let (data, r) ← mobilebackup2ReceiveRaw nlen (bytes r)
          if r ≠ nlen then stop nlen r
          else do
            Program.lift (terminate (nlen + 1) r)
            next nlen data r : Program (Receiving Disk) α).run
              ⟨transport, disk, responded, calm⟩ =
        (next name.length name name.length).run ⟨transport', disk, responded, calm⟩ ∧
          Comes transport' rest := by
  have length : 0 < name.length := List.length_pos_of_ne_nil fits.1
  rw [prefixed, List.append_assoc] at comes
  obtain ⟨transport₁, received, comes⟩ := run_receiveLength disk responded calm comes nlen r
  obtain ⟨transport', ran, comes⟩ := run_receiveRaw disk responded calm fits.1 comes (bytes 4)
  refine ⟨transport', ?_, comes⟩
  rw [run_bind received]
  dsimp only
  rw [ofBE_be (by omega), if_neg (by omega), run_bind ran]
  dsimp only
  rw [if_neg (not_not.mpr rfl), terminate_self, run_lift_ok_bind]

/-- A file as far as its code. -/
theorem run_receiveCode {file : DeviceFile} (bname : CText) (locals : Locals)
    {transport : Transport}
    (comes : Comes transport (frames file.hunks file.marker ++ rest)) :
    ∃ transport' locals',
      (receiveCode (filesAt place) bname locals).run ⟨transport, disk, responded, calm⟩ =
        (receiveContents (filesAt place) bname locals').run ⟨transport', disk, responded, calm⟩ ∧
      Comes transport' (behindCode file.hunks file.marker ++ rest) ∧
        locals'.nlen = (nextContent file.hunks file.marker).length + 1 ∧
          locals'.code = nextCode file.hunks file.marker ∧ locals'.r = 1 ∧
            locals'.fileCount = locals.fileCount := by
  have next : (nextContent file.hunks file.marker).length + 1 < 256 ^ 4 := by
    have fits := file.hunks_fit
    have marker_fits := file.marker_fits
    cases hunks : file.hunks with
    | nil => exact marker_fits
    | cons hunk => exact fits hunk (by simp [hunks])
  rw [frames_eq, List.append_assoc, List.append_assoc] at comes
  obtain ⟨transport₁, length, comes⟩ := run_receiveLength disk responded calm comes 0 locals.r
  obtain ⟨transport', code, comes⟩ := run_receiveByte disk responded calm comes 4
  refine ⟨transport', ⟨_, 1, _, locals.code, some bname, locals.fileCount⟩, ?_, comes,
    ofBE_be next, rfl, rfl, rfl⟩
  rw [receiveCode, run_bind length]
  dsimp only
  rw [if_neg (not_not.mpr rfl), run_bind code]
  rfl

/-- **One file**: it is stored as its hunks, or its marker overruns the block for the message. -/
theorem run_receiveFile (buildPath : CText → CText) {file : DeviceFile} (locals : Locals)
    {transport : Transport} (comes : Comes transport (file.bytes ++ rest)) :
    (file.marker ≠ .error [] → ∃ transport' locals',
      (receiveFile (filesAt place) buildPath locals).run ⟨transport, disk, responded, calm⟩ =
          (.ok (true, locals'), ⟨transport',
            holding disk (place (file.path buildPath)) file.contents, responded, calm⟩) ∧
        Comes transport' rest ∧ locals'.fileCount = locals.fileCount + 1) ∧
      (file.marker = .error [] → ∃ after,
        (receiveFile (filesAt place) buildPath locals).run ⟨transport, disk, responded, calm⟩ =
          (.error .outOfBounds, after)) := by
  rw [DeviceFile.bytes, List.append_assoc, List.append_assoc] at comes
  obtain ⟨transport₁, device, comes⟩ :=
    run_prefixed responded disk file.device_fits comes locals.nlen 0 (fun _ => 0)
    (fun nlen r => return (false, { locals with nlen, r }))
    (fun nlen _ r => receiveName (filesAt place) buildPath { locals with nlen, r })
  generalize isLocals :
    ({ locals with nlen := file.device.length, r := file.device.length } : Locals) = locals₁
    at device
  obtain ⟨transport₂, name, comes⟩ := run_prefixed responded disk file.name_fits comes 0
    locals₁.r id (fun nlen r => return (false, { locals₁ with nlen, r }))
    (fun nlen fname r => receiveCode (filesAt place) (buildPath (textOf fname))
      { locals₁ with nlen, r, bname := some (buildPath (textOf fname)) })
  obtain ⟨transport₃, locals', code, comes, nlen, isCode, r, count⟩ := run_receiveCode place disk
    responded (file.path buildPath) { locals₁ with
      nlen := file.name.length, r := file.name.length, bname := some (file.path buildPath) } comes
  have names : (receiveFile (filesAt place) buildPath locals).run
      ⟨transport, disk, responded, calm⟩ =
        (receiveContents (filesAt place) (file.path buildPath) locals').run
          ⟨transport₃, disk, responded, calm⟩ := by
    rw [receiveFile, run_bind (run_lookQuitFlag_calm transport disk responded),
      if_neg (by decide), receiveDevice, device]
    exact name.trans code
  have count' : locals'.fileCount = locals.fileCount := by
    rw [count, ← isLocals]
  rw [names, ← count']
  exact run_receiveContents place disk responded (file.path buildPath) comes nlen isCode r

variable (buildPath : CText → CText)

/-- The local files when all are received. -/
def received (disk : F → Option (List UInt8)) (files : List DeviceFile) :
    F → Option (List UInt8) :=
  files.foldl (fun disk file => holding disk (place (file.path buildPath)) file.contents) disk

/-- The loop over the files ends behind the last, unless a marker overruns its block. -/
theorem run_receiveFiles {files : List DeviceFile} :
    ∀ {fuel : Nat} (locals : Locals) {transport : Transport} (disk : F → Option (List UInt8)),
      files.length < fuel → Comes transport (files.flatMap DeviceFile.bytes ++ (be 4 0 ++ rest)) →
      ((∀ file ∈ files, file.marker ≠ .error []) → ∃ transport' locals',
        (receiveFiles (filesAt place) buildPath fuel locals).run
            ⟨transport, disk, responded, calm⟩ =
          (.ok locals', ⟨transport', received place buildPath disk files, responded, calm⟩) ∧
          Comes transport' rest ∧ locals'.nlen = 0 ∧
            locals'.fileCount = locals.fileCount + files.length) ∧
      ((∃ file ∈ files, file.marker = .error []) → ∃ after,
        (receiveFiles (filesAt place) buildPath fuel locals).run
          ⟨transport, disk, responded, calm⟩ = (.error .outOfBounds, after)) := by
  induction files with
  | nil =>
    intro fuel locals transport disk enough comes
    obtain ⟨fuel, rfl⟩ := Nat.exists_eq_succ_of_ne_zero (Nat.ne_zero_of_lt enough)
    refine ⟨fun _ => ?_, fun ⟨file, member, _⟩ => absurd member List.not_mem_nil⟩
    obtain ⟨transport', length, comes⟩ := run_receiveLength disk responded calm comes
      locals.nlen 0
    have zero : ofBE (be 4 0) = 0 := by decide
    refine ⟨transport', { locals with nlen := 0, r := 4 }, ?_, comes, rfl, rfl⟩
    rw [receiveFiles, receiveFile, run_bind_eq,
      run_bind (run_lookQuitFlag_calm transport disk responded), if_neg (by decide), receiveDevice,
      run_bind length]
    dsimp only
    rw [zero, if_pos (.inl rfl)]
    rfl
  | cons file files ih =>
    intro fuel locals transport disk enough comes
    obtain ⟨fuel, rfl⟩ := Nat.exists_eq_succ_of_ne_zero (Nat.ne_zero_of_lt enough)
    rw [List.flatMap_cons, List.append_assoc] at comes
    obtain ⟨stored, overrun⟩ := run_receiveFile place disk responded buildPath locals comes
    by_cases harmless : file.marker = .error []
    · obtain ⟨after, ran⟩ := overrun harmless
      refine ⟨fun all => absurd harmless (all file List.mem_cons_self), fun _ => ⟨after, ?_⟩⟩
      rw [receiveFiles, run_bind_error ran]
    · obtain ⟨transport₁, locals₁, ran, comes, count⟩ := stored harmless
      have step : (receiveFiles (filesAt place) buildPath (fuel + 1) locals).run
          ⟨transport, disk, responded, calm⟩ =
            (receiveFiles (filesAt place) buildPath fuel locals₁).run ⟨transport₁,
              holding disk (place (file.path buildPath)) file.contents, responded, calm⟩ := by
        rw [receiveFiles, run_bind ran]
        rfl
      obtain ⟨all, some⟩ := @ih fuel locals₁ transport₁
        (holding disk (place (file.path buildPath)) file.contents)
        (Nat.lt_of_succ_lt_succ enough) comes
      rw [step]
      constructor
      · intro every
        obtain ⟨transport', locals', ran', comes', nlen, count'⟩ :=
          all fun later member => every later (List.mem_cons_of_mem _ member)
        refine ⟨transport', locals', ran', comes', nlen, ?_⟩
        rw [count', count, List.length_cons]
        omega
      · rintro ⟨later, member, bad⟩
        rcases List.mem_cons.mp member with rfl | behind
        · exact absurd bad harmless
        · exact some ⟨later, behind, bad⟩

/-! ## What is stored -/

/-- A local file holds the contents of one that was sent for it. -/
theorem received_mem (disk : F → Option (List UInt8)) {entry : F} {files : List DeviceFile}
    (sent : ∃ file ∈ files, place (file.path buildPath) = entry) :
    ∃ file ∈ files, place (file.path buildPath) = entry ∧
      received place buildPath disk files entry = some file.contents := by
  induction files using List.reverseRecOn with
  | nil =>
    obtain ⟨file, member, -⟩ := sent
    exact absurd member List.not_mem_nil
  | append_singleton files file ih =>
    have last : received place buildPath disk (files ++ [file]) = Function.update
        (received place buildPath disk files) (place (file.path buildPath))
          (some file.contents) := by
      rw [received, List.foldl_append]
      rfl
    rw [last]
    by_cases same : entry = place (file.path buildPath)
    · exact ⟨file, by simp, same.symm, by rw [same, Function.update_self]⟩
    · rw [Function.update_of_ne same]
      obtain ⟨file', member, isPath⟩ := sent
      rcases List.mem_append.mp member with earlier | isLast
      · obtain ⟨file'', member', rest⟩ := ih ⟨file', earlier, isPath⟩
        exact ⟨file'', List.mem_append_left _ member', rest⟩
      · obtain rfl := List.mem_singleton.mp isLast
        exact absurd isPath.symm same

/-- Files whose paths lead to one local file have the same contents. -/
def Apart (files : List DeviceFile) : Prop :=
  ∀ file ∈ files, ∀ other ∈ files, place (file.path buildPath) = place (other.path buildPath) →
    file.contents = other.contents

theorem received_iff (disk : F → Option (List UInt8)) (files : List DeviceFile) :
    (∀ file ∈ files,
        received place buildPath disk files (place (file.path buildPath)) = some file.contents) ↔
      Apart place buildPath files := by
  constructor
  · intro all file member other member' same
    have stored := all file member
    rw [same, all other member'] at stored
    exact (Option.some.inj stored).symm
  · intro apart file member
    obtain ⟨other, member', same, stored⟩ := received_mem place buildPath disk ⟨file, member, rfl⟩
    rw [stored, apart other member' file member same]

/-! ## The whole call -/

/-- Every file is stored as its hunks, their number is returned, and the stream is read to its
end; nothing is stored outside of a block. -/
def FilesReceived (message : Option PlistNode) (transport : Transport)
    (disk : F → Option (List UInt8)) (files : List DeviceFile) (rest : List UInt8) : Prop :=
  ∃ after, (mb2HandleReceiveFiles (filesAt place) buildPath message).run
        ⟨transport, disk, false, calm⟩ = (.ok files.length, after) ∧
      after.transport.stream = rest ∧
    ∀ file ∈ files, after.disk (place (file.path buildPath)) = some file.contents

/-- The message is what the call looks for, and no end marker is an error without a message;
files for one local file agree, and an `int` counts them. -/
structure Receivable (message : Option PlistNode) (files : List DeviceFile) : Prop where
  accepted : ∃ array, message = some array ∧ array.1.type = .array ∧ 4 ≤ plistArrayGetSize array
  messages : ∀ file ∈ files, file.marker ≠ .error []
  apart : Apart place buildPath files
  counted : files.length < 2 ^ 31

/-- The total in the message can be read. -/
theorem total_ends {array : PlistNode} (intact : array.Intact) (isArray : array.1.type = .array) :
    ∃ total, (if plistGetNodeType (plistArrayGetItem array 3) = .uint then
      plistGetUintVal (plistArrayGetItem array 3) else return 0) = .ok total := by
  split
  · rename_i isUint
    rw [plistArrayGetItem_eq isArray] at isUint ⊢
    cases found : array.2.toList[3]? with
    | none =>
      rw [found] at isUint
      cases isUint
    | some node =>
      rw [found] at isUint
      exact (plistGetUintVal_ends_iff (intact.2.mem (List.mem_of_getElem? found))).mpr isUint
  · exact ⟨0, rfl⟩

end Files

theorem length_files (files : List DeviceFile) :
    files.length ≤ (files.flatMap DeviceFile.bytes).length := by
  induction files with
  | nil => exact Nat.zero_le _
  | cons file files ih =>
    have some : 1 ≤ file.bytes.length := by
      rw [DeviceFile.bytes, prefixed]
      simp only [List.length_append, length_be]
      omega
    rw [List.flatMap_cons, List.length_append, List.length_cons]
    omega

/-- A call that ends before it reads does not receive the files. -/
theorem not_received_of_refused {F : Type} [DecidableEq F] {place : CText → F}
    {buildPath : CText → CText} {message : Option PlistNode}
    {transport : Transport} {files : List DeviceFile} {rest : List UInt8}
    (comes : Comes transport (files.flatMap DeviceFile.bytes ++ (be 4 0 ++ rest)))
    {disk : F → Option (List UInt8)}
    (refused : (mb2HandleReceiveFiles (filesAt place) buildPath message).run
      ⟨transport, disk, false, calm⟩ = (.ok 0, ⟨transport, disk, false, calm⟩)) :
    ¬ FilesReceived place buildPath message transport disk files rest := by
  rintro ⟨after, ran, stream, -⟩
  have same : transport.stream = after.transport.stream :=
    congrArg (fun outcome => outcome.2.transport.stream) (refused.symm.trans ran)
  have lengths := congrArg List.length (comes.1.symm.trans (same.trans stream))
  simp only [List.length_append, length_be] at lengths
  omega

/-- The call on an accepted message. -/
theorem run_accepted {calls : FileCalls Disk} {buildPath : CText → CText} {array : PlistNode}
    (intact : array.Intact) (isArray : array.1.type = .array)
    (counted : 4 ≤ plistArrayGetSize array) (receiving : Receiving Disk) :
    (mb2HandleReceiveFiles calls buildPath (some array)).run receiving =
      (do
        let locals ← receiveFiles calls buildPath (receiving.transport.stream.length + 1) .start
        discard calls locals
        Program.modify fun receiving => { receiving with responded := true }
        return toInt32 locals.fileCount : Program (Receiving Disk) Int).run receiving := by
  have accepted : ¬ (plistGetNodeType (some array) ≠ .array ∨ plistArrayGetSize array < 4) :=
    not_or.mpr ⟨not_not.mpr isArray, Nat.not_lt.mpr counted⟩
  obtain ⟨total, read⟩ := total_ends intact isArray
  rw [mb2HandleReceiveFiles]
  dsimp only
  rw [if_neg accepted, read, run_lift_ok_bind, run_get_bind]

/-- **All files are received exactly when the message is accepted and no end marker is an error
without a message**, and no two files for one local file differ. -/
theorem filesReceived_iff {F : Type} [DecidableEq F] (place : CText → F)
    (buildPath : CText → CText) {message : Option PlistNode}
    (intact : ∀ array ∈ message, array.Intact) {transport : Transport} {files : List DeviceFile}
    {rest : List UInt8}
    (comes : Comes transport (files.flatMap DeviceFile.bytes ++ (be 4 0 ++ rest)))
    (disk : F → Option (List UInt8)) :
    FilesReceived place buildPath message transport disk files rest ↔
      Receivable place buildPath message files := by
  cases message with
  | none =>
    refine iff_of_false (not_received_of_refused comes rfl) ?_
    rintro ⟨⟨array, isMessage, -⟩, -⟩
    cases isMessage
  | some array =>
    by_cases accepted : array.1.type = .array ∧ 4 ≤ plistArrayGetSize array
    · obtain ⟨isArray, counted⟩ := accepted
      have enough : files.length < transport.stream.length + 1 := by
        have length := length_files files
        rw [comes.1, List.length_append]
        omega
      obtain ⟨all, some⟩ := run_receiveFiles place false buildPath .start disk enough comes
      by_cases harmless : ∀ file ∈ files, file.marker ≠ .error []
      · obtain ⟨transport', locals', ran, comes', nlen, count⟩ := all harmless
        have nothing : discard (filesAt place) locals' = return () := by
          rw [discard, nlen]
          rfl
        have whole : (mb2HandleReceiveFiles (filesAt place) buildPath (.some array)).run
            ⟨transport, disk, false, calm⟩ = (.ok (toInt32 files.length),
              ⟨transport', received place buildPath disk files, true, calm⟩) := by
          rw [run_accepted (intact array rfl) isArray counted, run_bind ran, nothing, count]
          show (Except.ok (toInt32 (0 + files.length)), _) = _
          rw [Nat.zero_add]
        constructor
        · rintro ⟨after, ran', -, stored⟩
          have same := whole.symm.trans ran'
          have number : toInt32 files.length = files.length :=
            Except.ok.inj (congrArg Prod.fst same)
          have isAfter := congrArg Prod.snd same
          dsimp only at isAfter
          rw [← isAfter] at stored
          refine ⟨⟨array, rfl, isArray, counted⟩, harmless,
            (received_iff place buildPath disk files).mp stored, ?_⟩
          have bound := (toInt32_le files.length).2
          omega
        · rintro ⟨-, -, apart, few⟩
          refine ⟨⟨transport', received place buildPath disk files, true, calm⟩, whole.trans ?_,
            comes'.1, (received_iff place buildPath disk files).mpr apart⟩
          rw [toInt32_of_lt few]
      · have bad : ∃ file ∈ files, file.marker = .error [] := by
          by_contra none
          exact harmless fun file member isBad => none ⟨file, member, isBad⟩
        obtain ⟨after, ran⟩ := some bad
        refine iff_of_false ?_ fun receivable => harmless receivable.messages
        rintro ⟨after', ran', -⟩
        rw [run_accepted (intact array rfl) isArray counted, run_bind_error ran] at ran'
        cases ran'
    · refine iff_of_false (not_received_of_refused comes ?_) ?_
      · have refused : plistGetNodeType (some array) ≠ .array ∨ plistArrayGetSize array < 4 := by
          rcases not_and_or.mp accepted with other | few
          · exact .inl other
          · exact .inr (Nat.not_le.mp few)
        rw [mb2HandleReceiveFiles]
        dsimp only
        rw [if_pos refused]
        rfl
      · rintro ⟨⟨array', isMessage, isArray, counted⟩, -⟩
        cases isMessage
        exact accepted ⟨isArray, counted⟩

/-- A message of four items, the total among them. -/
def uploadFiles : PlistNode :=
  [plistNewString (cText "DLMessageUploadFiles").val, plistNewArray, plistNewDict,
    plistNewUint 2].foldl (fun array item => plistArrayAppendItem array (leaf item))
      (leaf plistNewArray)

theorem uploadFiles_intact : uploadFiles.Intact :=
  ⟨trivial, rfl, trivial, trivial, trivial, trivial, trivial, rfl, trivial, trivial⟩

/-- A file of two hunks, one of them empty, that ends as the marker says. -/
def notes (marker : Marker) (fits : marker.message.length + 1 < 2 ^ 32) : DeviceFile where
  device := (cText "/var/Notes").val
  name := (cText "Notes").val
  hunks := [[1, 2], []]
  marker := marker
  device_fits := by decide
  name_fits := by decide
  hunks_fit := by decide
  marker_fits := fits

/-- One byte at a time. -/
def byByte (stream : List UInt8) : Transport := ⟨stream, fun _ => 0⟩

theorem notes_received :
    FilesReceived id id (some uploadFiles)
      (byByte ([notes (.error [110, 111]) (by decide)].flatMap DeviceFile.bytes ++ (be 4 0 ++ [])))
      (fun _ => none) [notes (.error [110, 111]) (by decide)] [] := by
  refine (filesReceived_iff id id ?_ ⟨rfl, fun _ => (by decide : 0 + 1 < 2 ^ 31)⟩ _).mpr
    ⟨?_, ?_, ?_, by decide⟩
  · rintro array ⟨⟩
    exact uploadFiles_intact
  · exact ⟨uploadFiles, rfl, rfl, by decide⟩
  · rintro file member
    cases List.mem_singleton.mp member
    decide
  · rintro file member other member' -
    cases List.mem_singleton.mp member
    cases List.mem_singleton.mp member'
    rfl

/-- An end marker that is an error without a message. -/
theorem empty_message_overruns :
    ((mb2HandleReceiveFiles (filesAt id) id (some uploadFiles)).run
        ⟨byByte ([notes (.error []) (by decide)].flatMap DeviceFile.bytes ++ (be 4 0 ++ [])),
          fun _ => none, false, calm⟩).1 = .error .outOfBounds ∧
      ¬ FilesReceived id id (some uploadFiles)
        (byByte ([notes (.error []) (by decide)].flatMap DeviceFile.bytes ++ (be 4 0 ++ [])))
        (fun _ => none) [notes (.error []) (by decide)] [] := by
  have overruns : ((mb2HandleReceiveFiles (filesAt id) id (some uploadFiles)).run
      ⟨byByte ([notes (.error []) (by decide)].flatMap DeviceFile.bytes ++ (be 4 0 ++ [])),
        fun _ => none, false, calm⟩).1 = .error .outOfBounds := by
    rfl
  refine ⟨overruns, ?_⟩
  rintro ⟨after, ran, -⟩
  rw [ran] at overruns
  cases overruns

end Irestore.MobileBackup
