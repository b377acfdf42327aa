/-
# Restore.Device — the message loop of a restore

`restore_device` reads the messages of restored until a flag tells it to quit, and
hands each to the handler of its type.  A handler that fails sets the flag; the
return value of the loop does not depend on it.

A `Turn` is what the outside does during one round of the loop: was the device
removed before the flag is looked at (the event callback sets it), which message is
received, and what sending each kind of data would return.

* `restoreHandleMsg_negative` — which messages fail.
* `reports_iff` — `restore_device` reports failures exactly when there is none.
-/
import Irestore.Plist.Access

namespace Irestore.Restore

open Irestore.Library Irestore.Library.CMemory Irestore.Plist

set_option autoImplicit false

/-- The two flags of `client->flags` that the loop looks at. -/
structure Flags where
  quit : Bool
  exclude : Bool
  deriving DecidableEq

structure Turn where
  removed : Bool
  message : Option PlistNode
  sendFilesystem : Int
  sendKernelcache : Int
  sendNor : Int

/-! ## The handlers -/

/-- `restore_handle_progress_msg`; what it prints is left out. -/
def restoreHandleProgressMsg (msg : PlistNode) : Checked Int := do
  let operation ← plistDictGetItem msg (cText "Operation")
  if plistGetNodeType operation ≠ .uint then return -1
  else do
    let _ ← plistGetUintVal operation
    let progress ← plistDictGetItem msg (cText "Progress")
    if plistGetNodeType progress ≠ .uint then return -1
    else do
      let _ ← plistGetUintVal progress
      return 0

/-- `restore_handle_status_msg`: every status is fine. -/
def restoreHandleStatusMsg (msg : PlistNode) : Checked Int := do
  let status ← plistDictGetItem msg (cText "Status")
  let _ ← plistGetUintVal status
  return 0

/-- What a handler makes of the result of sending data. -/
def sendResult (result : Int) : Int := if result < 0 then -1 else 0

/-- `restore_handle_data_request_msg`. -/
def restoreHandleDataRequestMsg (flags : Flags) (turn : Turn) (msg : PlistNode) :
    Checked (Int × Flags) := do
  let type ← stringItem msg (cText "DataType")
  if type = some (cText "SystemImageData").val then return (sendResult turn.sendFilesystem, flags)
  else if type = some (cText "KernelCache").val then
    return (sendResult turn.sendKernelcache, flags)
  else if type = some (cText "NORData").val then
    if flags.exclude then return (0, { flags with quit := true })
    else return (sendResult turn.sendNor, flags)
  else return (0, flags)

/-- The message by its type: what its handler returned, when it has one. -/
def restoreHandleMsg (flags : Flags) (turn : Turn) (msg : PlistNode) :
    Checked (Option Int × Flags) := do
  let type ← stringItem msg (cText "MsgType")
  if type = some (cText "DataRequestMsg").val then do
    let (error, flags) ← restoreHandleDataRequestMsg flags turn msg
    return (some error, flags)
  else if type = some (cText "ProgressMsg").val then do
    let error ← restoreHandleProgressMsg msg
    return (some error, flags)
  else if type = some (cText "StatusMsg").val then do
    let error ← restoreHandleStatusMsg msg
    return (some error, flags)
  else return (none, flags)

/-! ## The loop -/

/-- A handler that fails makes the loop quit; so does an old `error`. -/
def Flags.afterMessage (flags : Flags) (error : Int) : Flags :=
  if error < 0 then { flags with quit := true } else flags

/-- The loop of `restore_device`: for every message read, what its handler returned,
and whether the loop has ended.  `error` is the variable of that name. -/
def restoreLoop (flags : Flags) (error : Int) : List Turn → Checked (List (Option Int) × Bool)
  | [] => .ok ([], flags.quit)
  | turn :: rest =>
      if flags.quit || turn.removed then .ok ([], true)
      else
        match turn.message with
        | none => restoreLoop flags error rest
        | some msg => do
            let (handled, flags) ← restoreHandleMsg flags turn msg
            let error := handled.getD error
            let (reads, ended) ← restoreLoop (flags.afterMessage error) error rest
            return (handled :: reads, ended)

/-- `restore_device`, when the device opens and the restore starts as given: what the
handlers returned, and what it returns once it does. -/
def restoreDevice (opened started : Bool) (flags : Flags) (turns : List Turn) :
    Checked (List (Option Int) × Option Int) :=
  if opened = false then return ([], some (-1))
  else if started = false then return ([], some (-1))
  else do
    let (reads, ended) ← restoreLoop flags 0 turns
    return (reads, if ended then some 0 else none)

/-! ## Which messages fail -/

/-- Handling the message fails: the data asked for cannot be sent, or a progress
message lacks one of its numbers. -/
def Fails (flags : Flags) (turn : Turn) (msg : PlistNode) : Prop :=
  stringItem msg (cText "MsgType") = .ok (some (cText "DataRequestMsg").val) ∧
    (stringItem msg (cText "DataType") = .ok (some (cText "SystemImageData").val) ∧
        turn.sendFilesystem < 0 ∨
      stringItem msg (cText "DataType") = .ok (some (cText "KernelCache").val) ∧
        turn.sendKernelcache < 0 ∨
      stringItem msg (cText "DataType") = .ok (some (cText "NORData").val) ∧
        flags.exclude = false ∧ turn.sendNor < 0) ∨
  stringItem msg (cText "MsgType") = .ok (some (cText "ProgressMsg").val) ∧
    ((∃ node, plistDictGetItem msg (cText "Operation") = .ok node ∧
        plistGetNodeType node ≠ .uint) ∨
      ∃ node, plistDictGetItem msg (cText "Progress") = .ok node ∧ plistGetNodeType node ≠ .uint)

theorem sendResult_negative {result : Int} : sendResult result < 0 ↔ result < 0 := by
  unfold sendResult
  split <;> omega

theorem progress_negative {msg : PlistNode} {error : Int}
    (run : restoreHandleProgressMsg msg = .ok error) :
    error < 0 ↔ (∃ node, plistDictGetItem msg (cText "Operation") = .ok node ∧
        plistGetNodeType node ≠ .uint) ∨
      ∃ node, plistDictGetItem msg (cText "Progress") = .ok node ∧
        plistGetNodeType node ≠ .uint := by
  rw [restoreHandleProgressMsg] at run
  obtain ⟨operation, found, run⟩ := bind_eq_ok.mp run
  split at run
  · rename_i other
    cases run
    exact iff_of_true (by decide) (.inl ⟨operation, found, other⟩)
  rename_i isUint
  obtain ⟨_, -, run⟩ := bind_eq_ok.mp run
  obtain ⟨progress, foundProgress, run⟩ := bind_eq_ok.mp run
  split at run
  · rename_i other
    cases run
    exact iff_of_true (by decide) (.inr ⟨progress, foundProgress, other⟩)
  · rename_i progressUint
    obtain ⟨_, -, run⟩ := bind_eq_ok.mp run
    cases run
    refine iff_of_false (by decide) ?_
    rintro (⟨node, same, other⟩ | ⟨node, same, other⟩)
    · cases found.symm.trans same
      exact isUint other
    · cases foundProgress.symm.trans same
      exact progressUint other

theorem dataRequest_negative {flags flags' : Flags} {turn : Turn} {msg : PlistNode} {error : Int}
    (run : restoreHandleDataRequestMsg flags turn msg = .ok (error, flags')) :
    error < 0 ↔
      stringItem msg (cText "DataType") = .ok (some (cText "SystemImageData").val) ∧
          turn.sendFilesystem < 0 ∨
        stringItem msg (cText "DataType") = .ok (some (cText "KernelCache").val) ∧
          turn.sendKernelcache < 0 ∨
        stringItem msg (cText "DataType") = .ok (some (cText "NORData").val) ∧
          flags.exclude = false ∧ turn.sendNor < 0 := by
  have filesystemOrKernel : cText "SystemImageData" ≠ cText "KernelCache" := by decide
  have filesystemOrNor : cText "SystemImageData" ≠ cText "NORData" := by decide
  have kernelOrNor : cText "KernelCache" ≠ cText "NORData" := by decide
  rw [restoreHandleDataRequestMsg] at run
  obtain ⟨type, found, run⟩ := bind_eq_ok.mp run
  rw [found]
  simp only [Except.ok.injEq]
  split at run
  · rename_i isFilesystem
    cases run
    simp [isFilesystem, Subtype.val_inj, filesystemOrKernel, filesystemOrNor, sendResult_negative]
  rename_i notFilesystem
  split at run
  · rename_i isKernel
    cases run
    simp [isKernel, Subtype.val_inj, filesystemOrKernel.symm, kernelOrNor, sendResult_negative]
  rename_i notKernel
  split at run
  · rename_i isNor
    split at run
    · rename_i excluded
      cases run
      simp [notFilesystem, notKernel, excluded]
    · rename_i included
      cases run
      simp [isNor, Subtype.val_inj, filesystemOrNor.symm, kernelOrNor.symm, included,
        sendResult_negative]
  · rename_i notNor
    cases run
    simp [notFilesystem, notKernel, notNor]

/-- A handler fails on exactly these messages. -/
theorem restoreHandleMsg_negative {flags flags' : Flags} {turn : Turn} {msg : PlistNode}
    {handled : Option Int} (run : restoreHandleMsg flags turn msg = .ok (handled, flags')) :
    (∃ error ∈ handled, error < 0) ↔ Fails flags turn msg := by
  have requestOrProgress : cText "DataRequestMsg" ≠ cText "ProgressMsg" := by decide
  rw [restoreHandleMsg] at run
  obtain ⟨type, found, run⟩ := bind_eq_ok.mp run
  unfold Fails
  rw [found]
  simp only [Except.ok.injEq]
  split at run
  · rename_i isRequest
    obtain ⟨⟨error, flags''⟩, request, run⟩ := bind_eq_ok.mp run
    cases run
    simp [isRequest, Subtype.val_inj, requestOrProgress, dataRequest_negative request]
  rename_i notRequest
  split at run
  · rename_i isProgress
    obtain ⟨error, progress, run⟩ := bind_eq_ok.mp run
    cases run
    simp [isProgress, Subtype.val_inj, requestOrProgress.symm, progress_negative progress]
  rename_i notProgress
  split at run
  · obtain ⟨error, status, run⟩ := bind_eq_ok.mp run
    cases run
    rw [restoreHandleStatusMsg] at status
    obtain ⟨_, -, status⟩ := bind_eq_ok.mp status
    obtain ⟨_, -, status⟩ := bind_eq_ok.mp status
    cases status
    simp [notRequest, notProgress]
  · cases run
    simp [notRequest, notProgress]

/-! ## What the loop reports -/

/-- A failed handler ends the run with a negative value, and 0 is returned only when no
handler failed. -/
structure Reports (reads : List (Option Int)) (ret : Option Int) : Prop where
  stops : ∀ (i : Nat) (error : Int), reads[i]? = some (some error) → error < 0 →
    i + 1 = reads.length ∧ ∃ r, ret = some r ∧ r < 0
  restored : ret = some 0 → ∀ error, some error ∈ reads → 0 ≤ error

/-- No message that is read before the loop quits fails. -/
def AllHandled (flags : Flags) : List Turn → Prop
  | [] => True
  | turn :: rest =>
      flags.quit = true ∨ turn.removed = true ∨
        match turn.message with
        | none => AllHandled flags rest
        | some msg => ∀ handled flags', restoreHandleMsg flags turn msg = .ok (handled, flags') →
            ¬ Fails flags turn msg ∧ AllHandled flags' rest

theorem afterMessage_of_nonneg {flags : Flags} {error : Int} (fine : 0 ≤ error) :
    flags.afterMessage error = flags := if_neg (by omega)

theorem restoreLoop_quit {flags : Flags} {error : Int} (quit : flags.quit = true) :
    ∀ turns, restoreLoop flags error turns = .ok ([], true)
  | [] => by rw [restoreLoop, quit]
  | turn :: rest => by simp [restoreLoop, quit]

/-- While nothing fails, everything read was handled well. -/
theorem restoreLoop_handled {turns : List Turn} :
    ∀ {flags : Flags} {error : Int} {reads : List (Option Int)} {ended : Bool}, 0 ≤ error →
      AllHandled flags turns → restoreLoop flags error turns = .ok (reads, ended) →
      ∀ e, some e ∈ reads → 0 ≤ e := by
  induction turns with
  | nil =>
    intro flags error reads ended _ _ run e member
    cases run
    cases member
  | cons turn rest ih =>
    intro flags error reads ended fine handledAll run e member
    rw [restoreLoop] at run
    split at run
    · cases run
      cases member
    rename_i going
    simp only [Bool.or_eq_true, not_or] at going
    cases message : turn.message with
    | none =>
      rw [AllHandled, message] at handledAll
      rw [message] at run
      exact ih fine ((handledAll.resolve_left going.1).resolve_left going.2) run e member
    | some msg =>
      rw [AllHandled, message] at handledAll
      rw [message] at run
      obtain ⟨⟨handled, flags'⟩, handle, run⟩ := bind_eq_ok.mp run
      obtain ⟨⟨later, ended'⟩, loop, run⟩ := bind_eq_ok.mp run
      cases run
      obtain ⟨works, restHandled⟩ :=
        (handledAll.resolve_left going.1).resolve_left going.2 handled flags' handle
      rw [← restoreHandleMsg_negative handle] at works
      have fine' : 0 ≤ handled.getD error := by
        cases handled with
        | none => exact fine
        | some result =>
          by_contra negative
          exact works ⟨result, rfl, by simpa using negative⟩
      rw [afterMessage_of_nonneg fine'] at loop
      rcases List.mem_cons.mp member with first | inside
      · by_contra negative
        exact works ⟨e, first.symm, by omega⟩
      · exact ih fine' restHandled loop e inside

/-- A message that fails is the last one read, and the loop ends. -/
theorem restoreLoop_failed {turns : List Turn} :
    ∀ {flags : Flags} {error : Int}, 0 ≤ error → ¬ AllHandled flags turns →
      ∃ reads e, restoreLoop flags error turns = .ok (reads ++ [some e], true) ∧ e < 0 := by
  induction turns with
  | nil =>
    intro flags error _ failed
    exact absurd trivial failed
  | cons turn rest ih =>
    intro flags error fine failed
    rw [AllHandled, not_or, not_or] at failed
    obtain ⟨notQuit, notRemoved, failed⟩ := failed
    have going : (flags.quit || turn.removed) = false := by
      rw [Bool.not_eq_true] at notQuit notRemoved
      rw [notQuit, notRemoved]
      rfl
    rw [restoreLoop, going, if_neg (by decide)]
    cases message : turn.message with
    | none =>
      rw [message] at failed
      exact ih fine failed
    | some msg =>
      rw [message] at failed
      push Not at failed
      obtain ⟨handled, flags', handle, failed⟩ := failed
      simp only [handle, ok_bind]
      by_cases fails : Fails flags turn msg
      · obtain ⟨e, rfl, negative⟩ := (restoreHandleMsg_negative handle).mpr fails
        refine ⟨[], e, ?_, negative⟩
        have quits : (flags'.afterMessage e).quit = true := by
          rw [Flags.afterMessage, if_pos negative]
        rw [Option.getD_some, restoreLoop_quit quits]
        rfl
      · have fine' : 0 ≤ handled.getD error := by
          cases handled with
          | none => exact fine
          | some result =>
            by_contra negative
            exact fails ((restoreHandleMsg_negative handle).mp ⟨result, rfl, by simpa using negative⟩)
        obtain ⟨reads, e, loop, negative⟩ := ih fine' (failed fails)
        rw [afterMessage_of_nonneg fine', loop]
        exact ⟨handled :: reads, e, rfl, negative⟩

/-- `restore_device` reports failures exactly when no message that it reads fails: it
returns 0 after a failure as well. -/
theorem reports_iff (opened started : Bool) (flags : Flags) (turns : List Turn) :
    (∀ reads ret, restoreDevice opened started flags turns = .ok (reads, ret) →
      Reports reads ret) ↔
      (opened = true → started = true → AllHandled flags turns) := by
  unfold restoreDevice
  by_cases isOpen : opened = true
  swap
  · rw [Bool.not_eq_true] at isOpen
    rw [if_pos isOpen]
    refine iff_of_true ?_ fun contradiction => by simp [isOpen] at contradiction
    rintro reads ret ⟨⟩
    exact ⟨fun i error found => by simp at found, fun zero => by simp at zero⟩
  by_cases isStarted : started = true
  swap
  · rw [Bool.not_eq_true] at isStarted
    rw [if_neg (by simp [isOpen]), if_pos isStarted]
    refine iff_of_true ?_ fun _ contradiction => by simp [isStarted] at contradiction
    rintro reads ret ⟨⟩
    exact ⟨fun i error found => by simp at found, fun zero => by simp at zero⟩
  rw [if_neg (by simp [isOpen]), if_neg (by simp [isStarted])]
  constructor
  · intro reports _ _
    by_contra failed
    obtain ⟨reads, e, loop, negative⟩ := restoreLoop_failed (Int.le_refl 0) failed
    rw [loop] at reports
    have restored := (reports _ _ rfl).restored rfl e (by simp)
    omega
  · intro handled reads ret run
    obtain ⟨⟨reads', ended⟩, loop, run⟩ := bind_eq_ok.mp run
    cases run
    have works := restoreLoop_handled (Int.le_refl 0) (handled isOpen isStarted) loop
    refine ⟨fun i error found negative => ?_, fun _ => works⟩
    have fine := works error (List.mem_of_getElem? found)
    omega

/-- A progress message without its numbers. -/
def bareProgress : PlistNode :=
  plistDictInsertItem (leaf plistNewDict) (cText "MsgType")
    (leaf (plistNewString (cText "ProgressMsg").val))

/-- The handler of a progress message fails, the loop quits, and 0 is returned. -/
theorem failed_progress_returns_zero :
    ¬ ∀ reads ret, restoreDevice true true ⟨false, false⟩
        [⟨false, some bareProgress, 0, 0, 0⟩] = .ok (reads, ret) → Reports reads ret := by
  intro reports
  have run : restoreDevice true true ⟨false, false⟩ [⟨false, some bareProgress, 0, 0, 0⟩] =
      .ok ([some (-1)], some 0) := by decide +kernel
  have restored := (reports _ _ run).restored rfl (-1) (by simp)
  omega

end Irestore.Restore
