/-
# MobileBackup.SendFile — a local file for the device

`mb2_handle_send_file` announces each hunk by what is left of the size that `stat` reported,
and only then reads; what `fread` returns is what it sends.  The sends go through.

* `sendHunks_announced`, `sendHunks_other` — the loop on reads that return what was announced,
  and on others.
* `fileSent_iff` — when what is sent is a file in the format.
* `emptied_not_sent` — a file that is empty by the time it is read, and no error number.
-/
import Irestore.Library.Program
import Irestore.MobileBackup.Frames
import Irestore.MobileBackup.LocalFiles
import Irestore.Plist.Access

namespace Irestore.MobileBackup

open Irestore.Library Irestore.Library.Program Irestore.Library.Bytes Irestore.Library.CMemory
  Irestore.Plist

set_option autoImplicit false

/-! ## The call -/

/-- An answer of `fread` into `buf`; when there are no bytes, `errno` is what it was left at. -/
structure Read where
  data : List UInt8
  fits : data.length ≤ bufSize
  errno : Nat

/-- The local file: what `stat`, `fopen` and the `fread`s answer.  Behind the listed ones
`fread` returns nothing. -/
structure LocalFile where
  stat : Except Errno Nat
  fopen : Except Errno Unit
  reads : List Read
  errno : Nat

/-- What was sent, and the errors noted for the status response. -/
structure Sending where
  sent : List UInt8
  errplist : Option PlistNode

/-- `mobilebackup2_send_raw` on a connection that takes everything: whether it succeeds. -/
def mobilebackup2SendRaw (data : List UInt8) : Program Sending Bool :=
  ⟨fun sending =>
    if data.length = 0 then (.ok false, sending)
    else (.ok true, { sending with sent := sending.sent ++ data })⟩

def ENOENT : Nat := 2

def EEXIST : Nat := 17

/-- `errno_to_device_error`. -/
def errnoToDeviceError (errnoValue : Nat) : Int :=
  if errnoValue = ENOENT then -6 else if errnoValue = EEXIST then -7 else -errnoValue

/-- `mb2_multi_status_add_file_error`. -/
def mb2MultiStatusAddFileError (statusDict : PlistNode) (path : CText) (errorCode : Int)
    (errorMessage : CText) : PlistNode :=
  let filedict := plistDictInsertItem (leaf plistNewDict) (cText "DLFileErrorString")
    (leaf (plistNewString errorMessage.val))
  let filedict := plistDictInsertItem filedict (cText "DLFileErrorCode")
    (leaf (plistNewUint (UInt64.ofInt errorCode)))
  plistDictInsertItem statusDict path filedict

section Call

variable (strerror : Nat → CText)

/-- `mb2_handle_send_file` from `leave` on. -/
def leave (path : CText) (errcode : Nat) : Program Sending Int :=
  if errcode = 0 then do
    let _ ← mobilebackup2SendRaw (frame CODE_SUCCESS [])
    return 0
  else do
    let errdesc := strerror errcode
    Program.modify fun sending =>
      { sending with errplist := some (mb2MultiStatusAddFileError
          (sending.errplist.getD (leaf plistNewDict)) path (errnoToDeviceError errcode) errdesc) }
    if 5 + errdesc.val.length ≤ bufSize then do
      let _ ← mobilebackup2SendRaw (frame CODE_ERROR_LOCAL errdesc.val)
      return -1
    else Program.lift (.error .outOfBounds)

/-- The length announced before a read; `total` is cut to 32 bits where the file ends. -/
def announced (total sent : Nat) : Nat :=
  if (total : Int) - sent < bufSize then (((total % 2 ^ 32 : Nat) - sent : Int) % 2 ^ 32).toNat
  else bufSize

/-- The loop of `mb2_handle_send_file`: the error code, `none` when a send has failed. -/
def sendHunks (total errno : Nat) : Nat → List Read → Program Sending (Option Nat)
  | sent, reads => do
      let length := announced total sent
      let header ← mobilebackup2SendRaw (frameHeader CODE_FILE_DATA length)
      if header = false then return none
      else
        match reads with
        | [] => return some errno
        | read :: reads =>
            if read.data.length = 0 then return some read.errno
            else do
              let contents ← mobilebackup2SendRaw read.data
              if contents = false then return none
              else
                let sent := sent + read.data.length
                if sent < total then sendHunks total errno sent reads else return some 0

/-- `mb2_handle_send_file` from `stat` on. -/
def sendContents (path : CText) (file : LocalFile) : Program Sending Int :=
  match file.stat with
  | .error errno => leave strerror path errno
  | .ok total =>
      if total = 0 then leave strerror path 0
      else
        match file.fopen with
        | .error errno => leave strerror path errno
        | .ok _ => do
            let errcode ← sendHunks total file.errno 0 file.reads
            match errcode with
            | none => return -1
            | some errcode => leave strerror path errcode

/-- `mb2_handle_send_file`; `pathlen` is a `uint32_t`. -/
def mb2HandleSendFile (path : CText) (file : LocalFile) : Program Sending Int := do
  let pathlen := path.val.length % 2 ^ 32
  let length ← mobilebackup2SendRaw (be 4 pathlen)
  if length = false then return -1
  else do
    let name ← mobilebackup2SendRaw (path.val.take pathlen)
    if name = false then return -1 else sendContents strerror path file

end Call

/-! ## What the loop sends -/

def Sending.send (sending : Sending) (data : List UInt8) : Sending :=
  { sending with sent := sending.sent ++ data }

theorem send_send (sending : Sending) (data more : List UInt8) :
    (sending.send data).send more = sending.send (data ++ more) := by
  rw [Sending.send, Sending.send, Sending.send, List.append_assoc]

theorem run_sendRaw {data : List UInt8} (some : data ≠ []) (sending : Sending) :
    (mobilebackup2SendRaw data).run sending = (.ok true, sending.send data) :=
  if_neg (mt List.length_eq_zero_iff.mp some)

theorem announced_eq {total sent : Nat} (more : sent < total) :
    announced total sent = min (total - sent) bufSize := by
  rw [announced, bufSize]
  split <;> omega

theorem frameHeader_ne_nil (code : UInt8) (length : Nat) : frameHeader code length ≠ [] :=
  fun none => absurd (congrArg List.length none) (by simp)

section Loop

variable (total errno sent : Nat) (sending : Sending)

theorem run_sendHunks_nil :
    (sendHunks total errno sent []).run sending =
      (.ok (some errno), sending.send (frameHeader CODE_FILE_DATA (announced total sent))) := by
  rw [sendHunks]
  exact run_bind (run_sendRaw (frameHeader_ne_nil _ _) sending)

theorem run_sendHunks_empty (read : Read) (reads : List Read) (empty : read.data = []) :
    (sendHunks total errno sent (read :: reads)).run sending =
      (.ok (some read.errno), sending.send (frameHeader CODE_FILE_DATA (announced total sent))) := by
  rw [sendHunks, run_bind (run_sendRaw (frameHeader_ne_nil _ _) sending), if_neg (by decide)]
  dsimp only
  rw [if_pos (List.length_eq_zero_iff.mpr empty)]
  rfl

theorem run_sendHunks_cons (read : Read) (reads : List Read) (some : read.data ≠ []) :
    (sendHunks total errno sent (read :: reads)).run sending =
      if sent + read.data.length < total then
        (sendHunks total errno (sent + read.data.length) reads).run
          (sending.send (frameHeader CODE_FILE_DATA (announced total sent) ++ read.data))
      else
        (.ok (.some 0),
          sending.send (frameHeader CODE_FILE_DATA (announced total sent) ++ read.data)) := by
  rw [sendHunks, run_bind (run_sendRaw (frameHeader_ne_nil _ _) sending), if_neg (by decide)]
  dsimp only
  rw [if_neg (mt List.length_eq_zero_iff.mp some), run_bind (run_sendRaw some _),
    if_neg (by decide), send_send]
  exact run_ite _ _ _

/-- The loop ends with an error code, and the first hunk is announced in any case. -/
theorem sendHunks_ends (reads : List Read) : ∀ (sent : Nat) (sending : Sending),
    ∃ errcode bytes, (sendHunks total errno sent reads).run sending =
      (.ok (some errcode),
        sending.send (frameHeader CODE_FILE_DATA (announced total sent) ++ bytes)) := by
  induction reads with
  | nil =>
    intro sent sending
    refine ⟨errno, [], ?_⟩
    rw [run_sendHunks_nil, List.append_nil]
  | cons read reads ih =>
    intro sent sending
    rcases eq_or_ne read.data [] with empty | nonempty
    · refine ⟨read.errno, [], ?_⟩
      rw [run_sendHunks_empty _ _ _ _ _ _ empty, List.append_nil]
    · rw [run_sendHunks_cons _ _ _ _ _ _ nonempty]
      split
      · obtain ⟨errcode, bytes, ran⟩ := ih (sent + read.data.length)
          (sending.send (frameHeader CODE_FILE_DATA (announced total sent) ++ read.data))
        rw [ran, send_send, List.append_assoc]
        exact ⟨errcode, _, rfl⟩
      · exact ⟨0, _, rfl⟩

end Loop

/-- Every read returns just what was announced, until nothing is left. -/
def ReadsAnnounced : Nat → List Read → Prop
  | _, [] => False
  | left, read :: reads =>
      read.data.length = min left bufSize ∧ (left ≤ bufSize ∨ ReadsAnnounced (left - bufSize) reads)

/-- A success or an error frame. -/
inductive Final : List UInt8 → Prop where
  | success : Final (frame CODE_SUCCESS [])
  | error {message : List UInt8} (small : message.length + 1 < 2 ^ 32) :
      Final (frame CODE_ERROR_LOCAL message)

/-- The loop on reads that return what was announced: as many hunks, and no error. -/
theorem sendHunks_announced {total : Nat} (errno : Nat) {reads : List Read} :
    ∀ {sent : Nat} (sending : Sending), sent < total → ReadsAnnounced (total - sent) reads →
      ∃ contents, contents <+: reads.map Read.data ∧ contents.flatten.length = total - sent ∧
        (sendHunks total errno sent reads).run sending =
          (.ok (some 0), sending.send (contents.flatMap (frame CODE_FILE_DATA))) := by
  induction reads with
  | nil => exact fun _ _ never => never.elim
  | cons read reads ih =>
    rintro sent sending more ⟨length, rest⟩
    have pos : 0 < bufSize := by decide
    have nonempty : read.data ≠ [] := by
      intro empty
      rw [empty, List.length_nil] at length
      omega
    have hunk : frameHeader CODE_FILE_DATA (announced total sent) ++ read.data =
        frame CODE_FILE_DATA read.data := by
      rw [frame, announced_eq more, length]
    rw [run_sendHunks_cons total errno sent sending read reads nonempty, hunk]
    rcases Nat.lt_or_ge bufSize (total - sent) with beyond | last
    · have later : ReadsAnnounced (total - (sent + bufSize)) reads := by
        rw [Nat.sub_add_eq]
        exact rest.resolve_left (Nat.not_le.mpr beyond)
      have more' : sent + bufSize < total := by omega
      rw [Nat.min_eq_right beyond.le] at length
      rw [length, if_pos more']
      obtain ⟨contents, isPrefix, sum, ran⟩ :=
        ih (sending.send (frame CODE_FILE_DATA read.data)) more' later
      refine ⟨read.data :: contents, ?_, ?_, ?_⟩
      · exact List.cons_prefix_cons.mpr ⟨rfl, isPrefix⟩
      · rw [List.flatten_cons, List.length_append, sum, length]
        omega
      · rw [ran, send_send, List.flatMap_cons]
    · rw [Nat.min_eq_left last] at length
      rw [length, if_neg (by omega)]
      refine ⟨[read.data], ?_, ?_, ?_⟩
      · exact List.cons_prefix_cons.mpr ⟨rfl, List.nil_prefix⟩
      · rw [List.flatten_singleton, length]
      · rw [List.flatMap_singleton]

/-- A final frame is no hunk. -/
theorem Final.ne_hunk {final : List UInt8} (isFinal : Final final) {length : Nat}
    (small : length + 1 < 2 ^ 32) (rest : List UInt8) :
    frameHeader CODE_FILE_DATA length ++ rest ≠ final := by
  intro same
  cases isFinal with
  | success =>
    obtain ⟨code, -, -⟩ := frameHeader_inj small (by decide) same
    exact absurd code (by decide)
  | error small' =>
    obtain ⟨code, -, -⟩ := frameHeader_inj small small' same
    exact absurd code (by decide)

/-- What the loop sends before it reads, and what else is sent when the read is another. -/
theorem hunk_ne {total sent : Nat} (more : sent < total) {read : Read} {reads : List Read}
    {tail : List UInt8} (other : ∀ rest, tail = read.data ++ rest →
      read.data.length = min (total - sent) bufSize →
        ∀ contents final, contents <+: reads.map Read.data → Final final →
          rest ≠ contents.flatMap (frame CODE_FILE_DATA) ++ final)
    {contents : List (List UInt8)} {final : List UInt8}
    (isPrefix : contents <+: (read :: reads).map Read.data) (isFinal : Final final) :
    frameHeader CODE_FILE_DATA (announced total sent) ++ tail ≠
      contents.flatMap (frame CODE_FILE_DATA) ++ final := by
  have fits := read.fits
  have small : min (total - sent) bufSize + 1 < 2 ^ 32 := by
    rw [bufSize]
    omega
  intro same
  rw [announced_eq more] at same
  cases contents with
  | nil => exact isFinal.ne_hunk small _ same
  | cons first contents =>
    obtain ⟨isFirst, isPrefix'⟩ := List.cons_prefix_cons.mp isPrefix
    subst isFirst
    rw [List.flatMap_cons, frame, List.append_assoc, List.append_assoc] at same
    obtain ⟨-, length, same⟩ := frameHeader_inj small (by rw [bufSize] at fits; omega) same
    exact other _ same length.symm contents final isPrefix' isFinal rfl

/-- The loop on other reads: what it sends does not begin with hunks of what was read and a
final frame. -/
theorem sendHunks_other {total : Nat} (errno : Nat) {reads : List Read} :
    ∀ {sent : Nat} (sending : Sending), sent < total → ¬ ReadsAnnounced (total - sent) reads →
      ∃ errcode bytes, (sendHunks total errno sent reads).run sending =
          (.ok (some errcode), sending.send bytes) ∧
        ∀ contents final rest, contents <+: reads.map Read.data → Final final →
          bytes ++ rest ≠ contents.flatMap (frame CODE_FILE_DATA) ++ final := by
  induction reads with
  | nil =>
    intro sent sending more _
    refine ⟨_, _, run_sendHunks_nil total errno sent sending, ?_⟩
    intro contents final rest isPrefix isFinal same
    rw [List.prefix_nil.mp isPrefix, announced_eq more] at same
    exact isFinal.ne_hunk (by rw [bufSize]; omega) _ same
  | cons read reads ih =>
    intro sent sending more other
    rcases eq_or_ne read.data [] with empty | nonempty
    · refine ⟨_, _, run_sendHunks_empty total errno sent sending read reads empty, ?_⟩
      intro contents final rest isPrefix isFinal
      refine hunk_ne more (fun rest' _ length => ?_) isPrefix isFinal
      have pos : 0 < bufSize := by decide
      rw [empty, List.length_nil] at length
      omega
    · rw [run_sendHunks_cons total errno sent sending read reads nonempty]
      by_cases length : read.data.length = min (total - sent) bufSize
      · -- the hunk is as announced, so a later one is not
        have beyond : bufSize < total - sent := by
          by_contra last
          exact other ⟨length, .inl (Nat.not_lt.mp last)⟩
        rw [Nat.min_eq_right beyond.le] at length
        have more' : sent + bufSize < total := by omega
        rw [length, if_pos more']
        have later : ¬ ReadsAnnounced (total - (sent + bufSize)) reads := by
          rw [Nat.sub_add_eq]
          exact fun later => other ⟨by rw [length, Nat.min_eq_right beyond.le], .inr later⟩
        obtain ⟨errcode, bytes, ran, no⟩ := ih
          (sending.send (frameHeader CODE_FILE_DATA (announced total sent) ++ read.data)) more' later
        refine ⟨errcode, _, ran.trans (congrArg _ (send_send _ _ _)), ?_⟩
        intro contents final rest isPrefix isFinal
        rw [List.append_assoc, List.append_assoc]
        refine hunk_ne more (fun rest' same _ contents' final' isPrefix' isFinal' => ?_) isPrefix
          isFinal
        rw [← List.append_cancel_left same]
        exact no contents' final' rest isPrefix' isFinal'
      · rw [← run_sendHunks_cons total errno sent sending read reads nonempty]
        obtain ⟨errcode, bytes, ran⟩ := sendHunks_ends total errno (read :: reads) sent sending
        refine ⟨errcode, _, ran, ?_⟩
        intro contents final rest isPrefix isFinal
        rw [List.append_assoc]
        exact hunk_ne more (fun rest' _ same => absurd same length) isPrefix isFinal

/-! ## The whole call -/

section File

variable (strerror : Nat → CText) (path : CText) (file : LocalFile) (errplist : Option PlistNode)

/-- What is sent is a path behind its length, hunks and a final frame. -/
structure Format (path : List UInt8) (contents : List (List UInt8)) (final sent : List UInt8) :
    Prop where
  length : path.length < 2 ^ 32
  bytes : sent = prefixed path ++ (contents.flatMap (frame CODE_FILE_DATA) ++ final)
  final : Final final

/-- The file is sent in the format, the hunks are what was read, and a success is behind as many
bytes as `stat` reported. -/
def FileSent : Prop :=
  ∃ result after contents final,
    (mb2HandleSendFile strerror path file).run ⟨[], errplist⟩ = (.ok result, after) ∧
      Format path.val contents final after.sent ∧ contents <+: file.reads.map Read.data ∧
        (final = frame CODE_SUCCESS [] → file.stat = .ok contents.flatten.length)

/-- Where the file is read, every read returns what was announced. -/
def Steady : Prop :=
  ∀ size, file.stat = .ok size → size ≠ 0 → file.fopen = .ok () → ReadsAnnounced size file.reads

variable {strerror path file errplist}

theorem run_leave (path : CText)
    (short : ∀ errcode, 5 + (strerror errcode).val.length ≤ bufSize) (errcode : Nat)
    (sending : Sending) :
    ∃ result after final, (leave strerror path errcode).run sending = (.ok result, after) ∧
      after.sent = sending.sent ++ final ∧ Final final ∧
        (final = frame CODE_SUCCESS [] → errcode = 0) := by
  rcases eq_or_ne errcode 0 with rfl | failed
  · exact ⟨0, _, _, rfl, rfl, .success, fun _ => rfl⟩
  · have fits := short errcode
    have small : (strerror errcode).val.length + 1 < 2 ^ 32 := by
      rw [bufSize] at fits
      omega
    have nonempty : frame CODE_ERROR_LOCAL (strerror errcode).val ≠ [] :=
      List.append_ne_nil_of_left_ne_nil (frameHeader_ne_nil _ _) _
    rw [leave, if_neg failed]
    dsimp only
    rw [run_modify_bind, if_pos fits, run_bind (run_sendRaw nonempty _)]
    refine ⟨-1, _, frame CODE_ERROR_LOCAL (strerror errcode).val, rfl, rfl, .error small, ?_⟩
    intro same
    obtain ⟨code, -, -⟩ := frameHeader_inj small (by decide) same
    exact absurd code (by decide)

/-- The call as far as the path. -/
theorem run_path (some : path.val ≠ []) (small : path.val.length < 2 ^ 32) :
    (mb2HandleSendFile strerror path file).run ⟨[], errplist⟩ =
      (sendContents strerror path file).run ⟨prefixed path.val, errplist⟩ := by
  have length : be 4 path.val.length ≠ [] := fun none => absurd (congrArg List.length none) (by simp)
  rw [mb2HandleSendFile, Nat.mod_eq_of_lt small, List.take_length,
    run_bind (run_sendRaw length _), if_neg (by decide), run_bind (run_sendRaw some _),
    if_neg (by decide)]
  rfl

/-- From `stat` on, a steady file gives hunks of what was read and a final frame. -/
theorem sendContents_steady (path : CText)
    (short : ∀ errcode, 5 + (strerror errcode).val.length ≤ bufSize)
    (steady : Steady file) (sending : Sending) :
    ∃ result after contents final,
      (sendContents strerror path file).run sending = (.ok result, after) ∧
        after.sent = sending.sent ++ (contents.flatMap (frame CODE_FILE_DATA) ++ final) ∧
          Final final ∧ contents <+: file.reads.map Read.data ∧
            (final = frame CODE_SUCCESS [] → file.stat = .ok contents.flatten.length) := by
  have alone (errcode : Nat) (size : errcode = 0 → file.stat = .ok 0) :
      ∃ result after contents final,
        (leave strerror path errcode).run sending = (.ok result, after) ∧
          after.sent = sending.sent ++ (contents.flatMap (frame CODE_FILE_DATA) ++ final) ∧
            Final final ∧ contents <+: file.reads.map Read.data ∧
              (final = frame CODE_SUCCESS [] → file.stat = .ok contents.flatten.length) := by
    obtain ⟨result, after, final, ran, sent, isFinal, success⟩ :=
      run_leave path short errcode sending
    exact ⟨result, after, [], final, ran, sent, isFinal, List.nil_prefix,
      fun same => size (success same)⟩
  rw [sendContents]
  cases isStat : file.stat with
  | error errno =>
    rw [isStat] at alone
    exact alone errno fun none => absurd none errno.2.ne'
  | ok total =>
    rw [isStat] at alone
    dsimp only
    by_cases empty : total = 0
    · rw [if_pos empty]
      exact alone 0 fun _ => congrArg _ empty
    · rw [if_neg empty]
      cases isOpen : file.fopen with
      | error errno => exact alone errno fun none => absurd none errno.2.ne'
      | ok _ =>
        obtain ⟨contents, isPrefix, sum, ran⟩ := sendHunks_announced file.errno sending
          (Nat.pos_of_ne_zero empty) (steady total isStat empty isOpen)
        obtain ⟨result, after, final, left, sent, isFinal, -⟩ := run_leave path short 0
          (sending.send (contents.flatMap (frame CODE_FILE_DATA)))
        refine ⟨result, after, contents, final, (run_bind ran).trans left, ?_, isFinal, isPrefix, ?_⟩
        · rw [sent, Sending.send, List.append_assoc]
        · exact fun _ => congrArg _ sum.symm

/-- Another file gives other bytes. -/
theorem sendContents_other (path : CText)
    (short : ∀ errcode, 5 + (strerror errcode).val.length ≤ bufSize)
    (other : ¬ Steady file) (sending : Sending) :
    ∃ result after bytes, (sendContents strerror path file).run sending = (.ok result, after) ∧
      after.sent = sending.sent ++ bytes ∧
        ∀ contents final, contents <+: file.reads.map Read.data → Final final →
          bytes ≠ contents.flatMap (frame CODE_FILE_DATA) ++ final := by
  obtain ⟨size, isStat, nonzero, isOpen, reads⟩ : ∃ size, file.stat = .ok size ∧ size ≠ 0 ∧
      file.fopen = .ok () ∧ ¬ ReadsAnnounced size file.reads := by
    by_contra none
    exact other fun size isStat nonzero isOpen =>
      by_contra fun reads => none ⟨size, isStat, nonzero, isOpen, reads⟩
  obtain ⟨errcode, bytes, ran, no⟩ := sendHunks_other file.errno sending
    (Nat.pos_of_ne_zero nonzero) reads
  obtain ⟨result, after, final, left, sent, -⟩ := run_leave path short errcode (sending.send bytes)
  refine ⟨result, after, bytes ++ final, ?_, ?_, ?_⟩
  · rw [sendContents, isStat, isOpen]
    dsimp only
    rw [if_neg nonzero, run_bind ran]
    exact left
  · rw [sent, Sending.send, List.append_assoc]
  · exact fun contents final' => no contents final' final

end File

/-- **A file is sent in the format exactly when its path is not empty, and each read returns what
was announced**: the size that `stat` reported, in pieces of `buf`. -/
theorem fileSent_iff (strerror : Nat → CText)
    (short : ∀ errcode, 5 + (strerror errcode).val.length ≤ bufSize) (path : CText)
    (file : LocalFile) (errplist : Option PlistNode) :
    FileSent strerror path file errplist ↔
      path.val ≠ [] ∧ path.val.length < 2 ^ 32 ∧ Steady file := by
  constructor
  · rintro ⟨result, after, contents, final, ran, ⟨small, bytes, isFinal⟩, isPrefix, -⟩
    have nonempty : path.val ≠ [] := by
      intro empty
      have alone : (mb2HandleSendFile strerror path file).run ⟨[], errplist⟩ =
          (.ok (-1), ⟨be 4 0, errplist⟩) := by
        rw [mb2HandleSendFile, empty]
        rfl
      cases alone.symm.trans ran
      have lengths := congrArg List.length bytes
      have some : 0 < final.length := by cases isFinal <;> simp [frame]
      simp only [prefixed, empty, List.length_append, length_be, List.length_nil] at lengths
      omega
    refine ⟨nonempty, small, ?_⟩
    by_contra other
    obtain ⟨result', after', sent, ran', isSent, no⟩ :=
      sendContents_other path short other ⟨prefixed path.val, errplist⟩
    rw [run_path nonempty small, ran'] at ran
    cases ran
    rw [isSent] at bytes
    exact no contents final isPrefix isFinal (List.append_cancel_left bytes)
  · rintro ⟨nonempty, small, steady⟩
    obtain ⟨result, after, contents, final, ran, sent, isFinal, isPrefix, success⟩ :=
      sendContents_steady path short steady ⟨prefixed path.val, errplist⟩
    exact ⟨result, after, contents, final, (run_path nonempty small).trans ran,
      ⟨small, sent, isFinal⟩, isPrefix, success⟩

/-- An error number's text, for the recorded files. -/
def anyError (_ : Nat) : CText := cText "Input/output error"

/-- A file of 40 000 bytes, read in two pieces. -/
def twoHunks : LocalFile where
  stat := .ok 40000
  fopen := .ok ()
  reads := [⟨List.replicate 32768 7, by rw [List.length_replicate]; decide, 0⟩,
    ⟨List.replicate 7232 8, by rw [List.length_replicate]; decide, 0⟩]
  errno := 0

theorem twoHunks_sent : FileSent anyError (cText "Manifest.plist") twoHunks none := by
  refine (fileSent_iff anyError ?_ _ _ none).mpr ⟨by decide, by decide, ?_⟩
  · exact fun _ => (by decide : 5 + (cText "Input/output error").val.length ≤ bufSize)
  · intro size isStat _ _
    cases isStat
    refine ⟨?_, .inr ⟨?_, .inl ?_⟩⟩
    · rw [List.length_replicate]
      decide
    · rw [List.length_replicate]
      decide
    · decide

/-- A file of five bytes that is empty by the time it is read. -/
def emptied : LocalFile where
  stat := .ok 5
  fopen := .ok ()
  reads := []
  errno := 0

/-- A hunk of five bytes is announced, and a success frame comes in its place. -/
theorem emptied_not_sent :
    ((mb2HandleSendFile anyError (cText "a") emptied).run ⟨[], none⟩).1 = .ok 0 ∧
      ((mb2HandleSendFile anyError (cText "a") emptied).run ⟨[], none⟩).2.sent =
        prefixed (cText "a").val ++ (frameHeader CODE_FILE_DATA 5 ++ frame CODE_SUCCESS []) ∧
      ¬ FileSent anyError (cText "a") emptied none := by
  have sent : ((mb2HandleSendFile anyError (cText "a") emptied).run ⟨[], none⟩).2.sent =
      prefixed (cText "a").val ++ (frameHeader CODE_FILE_DATA 5 ++ frame CODE_SUCCESS []) := by
    decide
  refine ⟨rfl, sent, ?_⟩
  rintro ⟨result, after, contents, final, ran, ⟨-, bytes, isFinal⟩, isPrefix, -⟩
  rw [ran] at sent
  rw [List.prefix_nil.mp isPrefix, sent] at bytes
  exact isFinal.ne_hunk (by decide) _ (List.append_cancel_left bytes)

end Irestore.MobileBackup
