/-
# Restore.BootOrder — what is said to a device on its way into restore mode

The words of a history are its commands, the announcements of uploads and their packets.

* `bootScript` — the words of a whole boot: each component in packets, and the commands that
  belong to it.
* `sendCommand_follows`, `sendBuffer_follows` — a command and an upload.
* `recoveryEnterRestore_follows` — every run says the script, or a beginning of it and fails.
-/
import Irestore.Library.Script
import Irestore.Recovery.SendBuffer
import Irestore.Restore.Boot

namespace Irestore.Restore

open Irestore.Library Irestore.Library.Program Irestore.Library.CMemory Irestore.Plist
  Irestore.Recovery

set_option autoImplicit false

/-! ## Words -/

inductive Word where
  | command (data : List UInt8)
  | upload
  | packet (data : List UInt8)
  deriving DecidableEq

/-- The word of an action; the questions for a status and the resets say nothing. -/
def wordOf : Action Callback → Option Word
  | .bulk data => some (.packet data)
  | .control bmRequestType bRequest data =>
      if bmRequestType = 0x40 ∧ bRequest = 0 then some (.command data)
      else if bmRequestType = 0x41 ∧ bRequest = 0 ∨ bmRequestType = 0x21 ∧ bRequest = 4 then
        some .upload
      else if bmRequestType = 0x21 ∧ bRequest = 1 then some (.packet data)
      else none
  | .clearHalt | .reset | .call .. => none

def wordsOf (history : List (Action Callback)) : List Word := history.filterMap wordOf

/-- What was said over the bus. -/
def Boot.words (boot : Boot) : List Word := wordsOf boot.history

def commandWords (commands : List CText) : List Word :=
  commands.map fun command => .command command.block

/-- The packets `first`, … of an upload. -/
def packetWords (buffer : List UInt8) (first rounds : Nat) : List Word :=
  (List.range' first rounds).map fun i => .packet (chunk packetSize buffer i)

def uploadWords (buffer : List UInt8) : List Word :=
  .upload :: packetWords buffer 0 (packetsOf buffer.length)

/-- A component by its name, where it is found. -/
def Build.component (build : Build) (component : CText) : Checked (Option (List UInt8)) := do
  let path ← build.path component
  match path with
  | none => return none
  | some path => build.componentByPath path

def Build.data (build : Build) (component : CText) : List UInt8 :=
  match build.component component with
  | .ok (some data) => data
  | _ => []

theorem Build.component_of_path {build : Build} {component : CText} {path : List UInt8}
    (found : build.path component = .ok (some path)) :
    build.component component = build.componentByPath path := by
  rw [Build.component, found]
  rfl

theorem Build.data_of_component {build : Build} {component : CText} {data : List UInt8}
    (there : build.component component = .ok (some data)) : build.data component = data := by
  rw [Build.data, there]

def stageWords (build : Build) (component : CText) (commands : List CText) : List Word :=
  uploadWords (build.data component) ++ commandWords commands

/-- The whole boot. -/
def bootScript (build : Build) : List Word :=
  commandWords [cText "setenv auto-boot true", cText "saveenv"] ++
  (stageWords build (cText "iBEC") [cText "go"] ++
  (stageWords build (cText "AppleLogo") [cText "setpicture 1", cText "bgcolor 0 0 0"] ++
  (stageWords build (cText "RestoreDeviceTree") [cText "devicetree"] ++
  (stageWords build (cText "RestoreRamDisk") [cText "ramdisk"] ++
  stageWords build (cText "RestoreKernelCache") [cText "bootx"]))))

/-- A command that is sent as it is. -/
def Short (command : CText) : Prop := 0 < command.val.length ∧ command.val.length < 0x100

instance (command : CText) : Decidable (Short command) :=
  inferInstanceAs (Decidable (_ ∧ _))

/-! ## Over the bus -/

section Bus

variable {usb : Usb} {client : IrecvClient Callback}

theorem follows_act (action : Action Callback) :
    Follows wordsOf (act action) (fun _ => True) (wordOf action).toList := by
  refine fun before => ensures_modify fun history same => ?_
  have single : [action].filterMap wordOf = (wordOf action).toList := by
    rw [List.filterMap_cons]
    cases wordOf action <;> rfl
  have said : wordsOf (history ++ [action]) = before ++ (wordOf action).toList := by
    rw [wordsOf, List.filterMap_append, single]
    exact congrArg (· ++ _) same
  exact ⟨fun _ => said, _, List.prefix_refl _, said⟩

theorem follows_control (bmRequestType bRequest : UInt8) (data : List UInt8) :
    Follows wordsOf (irecvControlTransfer usb.outside bmRequestType bRequest data)
      (fun _ => True) (wordOf (.control bmRequestType bRequest data)).toList := by
  rw [← List.append_nil (wordOf _).toList]
  exact follows_keeps (fun _ => keeps_get) fun _ =>
    follows_behind (follows_act _) fun _ => follows_pure _

theorem follows_bulk (data : List UInt8) :
    Follows wordsOf (irecvBulkTransfer usb.outside data) (fun _ => True) [.packet data] := by
  refine follows_keeps (fun _ => keeps_get) fun history => ?_
  refine @follows_behind _ _ _ _ _ _ [] _ _ _ (follows_act (.bulk data)) fun _ => ?_
  exact follows_ite (fun _ => @follows_behind _ _ _ _ _ [] [] _ _ _ (follows_act .clearHalt)
    fun _ => follows_pure _) fun _ => follows_pure _

/-- The callbacks of this program go on with 0. -/
theorem callback_quiet (callee : Option Callback) (event : IrecvEvent) (before : List Word) :
    Ensures (fun history => wordsOf history = before) (callback usb.outside callee event)
      (fun answer history => wordsOf history = before ∧ answer = 0)
      fun history => wordsOf history = before := by
  cases callee with
  | none => exact ensures_pure fun _ same => ⟨same, rfl⟩
  | some callee =>
    refine ensures_of_run fun history same => ⟨_, _, rfl, ?_, rfl⟩
    rw [wordsOf, List.filterMap_append]
    exact (List.append_nil _).trans same

theorem getStatus_keeps (before : List Word) :
    Keeps (fun history => wordsOf history = before) (irecvGetStatus usb.outside client) := by
  refine keeps_ite (keeps_pure _) (keeps_bind ?_ fun _ => keeps_ite (keeps_pure _) (keeps_pure _))
  refine keeps_bind keeps_get fun _ => keeps_bind (ensures_modify fun history same => ?_)
    fun _ => keeps_pure _
  rw [wordsOf, List.filterMap_append]
  exact (List.append_nil _).trans same

/-- A short command is sent as it is. -/
theorem irecvSendCommand_follows {command : CText} (short : Short command) :
    Follows wordsOf (irecvSendCommand usb.outside client command) (· = IRECV_E_SUCCESS)
      [.command command.block] := by
  have length : commandLength command = command.val.length := if_neg (by have := short.2; omega)
  have block : command.block.take (commandLength command + 1) = command.block := by
    rw [length, List.take_of_length_le]
    simp [CText.block]
  have raw : Follows wordsOf (irecvSendCommandRaw usb.outside command) (fun _ => True)
      [.command command.block] := by
    unfold irecvSendCommandRaw
    rw [if_pos (length ▸ short.1), block]
    exact @follows_behind _ _ _ _ _ _ [] _ _ _ (follows_control 0x40 0 command.block)
      fun _ => follows_pure _
  refine follows_ite (fun _ => follows_pure_of_not (by decide) _) fun _ => ?_
  refine follows_quiet (callback_quiet _ _) fun handled zero => ?_
  rw [if_neg (not_not.mpr zero)]
  refine @follows_behind _ _ _ _ _ _ [] _ _ _ raw fun error => ?_
  refine follows_ite (fun _ => follows_pure _) fun _ => ?_
  exact follows_quiet (callback_quiet _ _) fun _ _ => follows_pure _

theorem sendPacket_follows (data : List UInt8) (size : Nat) :
    Follows wordsOf (sendPacket usb.outside client data size) (· = none) [.packet data] := by
  refine follows_ite (fun _ => ?_) fun _ => ?_
  · refine @follows_behind _ _ _ _ _ _ [] _ _ _ (follows_bulk data) fun _ => ?_
    exact follows_ite (fun _ => follows_pure _) fun _ =>
      follows_ite (fun _ => follows_pure _) fun _ => follows_pure _
  · refine @follows_behind _ _ _ _ _ _ [] _ _ _ (follows_control 0x21 1 data) fun _ => ?_
    refine follows_ite (fun _ => follows_pure _) fun _ => follows_keeps getStatus_keeps fun _ => ?_
    exact follows_ite (fun _ => follows_pure _) fun _ =>
      follows_ite (fun _ => follows_pure _) fun _ => follows_pure _

/-- The loop from packet `i` on. -/
theorem sendPackets_follows (buffer : List UInt8) (rounds : Nat) :
    ∀ i count : Nat, i + rounds = packetsOf buffer.length →
      Follows wordsOf (sendPackets usb.outside client buffer rounds i count) (· = none)
        (packetWords buffer i rounds) := by
  induction rounds with
  | zero => exact fun _ _ _ => follows_pure _
  | succ rounds ih =>
    intro i count total
    have isChunk := (@packet_eq_chunk buffer i (by omega)).1
    rw [sendPackets, isChunk, packetWords, List.range'_succ]
    refine @follows_bind _ _ _ _ _ [_] _ _ _ _ _ (sendPacket_follows _ _)
      (fun failed whole => ?_) fun failed refused => ?_
    · subst whole
      exact follows_quiet (callback_quiet _ _) fun _ _ => ih (i + 1) _ (by omega)
    · cases failed with
      | none => exact absurd rfl refused
      | some error =>
        refine ⟨some error, rfl, fun same => ?_⟩
        cases same

/-- An upload announces itself and sends the packets of its buffer. -/
theorem irecvSendBuffer_follows (buffer : List UInt8) :
    Follows wordsOf (irecvSendBuffer usb.outside client buffer false) (· = IRECV_E_SUCCESS)
      (uploadWords buffer) := by
  refine follows_ite (fun _ => follows_pure_of_not (by decide) _) fun missing => ?_
  have present : client.handle = true := by simpa using missing
  have announced : Follows wordsOf (initiateTransfer usb.outside client) (fun _ => True)
      [.upload] :=
    follows_ite (fun _ => follows_control 0x41 0 []) fun _ => follows_control 0x21 4 []
  have differ : ∀ history after failed,
      (sendPackets usb.outside client buffer (packetsOf buffer.length) 0 0).run history =
        (.ok failed, after) → failed ≠ some IRECV_E_SUCCESS := by
    intro history after failed ran
    obtain ⟨failed', _, _, ran', differ, -⟩ := @sendPackets_transfers _ usb.outside client present
      buffer (packetsOf buffer.length) 0 0 history (Nat.zero_add _)
    rw [ran] at ran'
    cases ran'
    exact differ
  refine @follows_behind _ _ _ _ _ [_] _ _ _ _ announced fun answer => ?_
  refine follows_ite (fun refused => ?_) fun _ => ?_
  · exact @follows_pure_of_not _ _ _ _ (· = IRECV_E_SUCCESS) _ refused _
  have packets : Follows wordsOf
      (sendPackets usb.outside client buffer (packetsOf buffer.length) 0 0)
      (fun failed => failed = none ∨ failed = some IRECV_E_SUCCESS)
      (packetWords buffer 0 (packetsOf buffer.length)) :=
    (sendPackets_follows buffer _ 0 0 (Nat.zero_add _)).mono fun history after failed ran good =>
      good.resolve_right (differ history after failed ran)
  refine follows_last packets (fun failed _ => ?_) fun failed bad => ?_
  · cases failed with
    | none =>
      refine follows_ite (fun finished => absurd finished.1 Bool.false_ne_true) fun _ => ?_
      exact follows_pure _
    | some error => exact follows_pure _
  · cases failed with
    | none => exact absurd (Or.inl rfl) bad
    | some error => exact ⟨error, rfl, fun same => bad (Or.inr (congrArg some same))⟩

end Bus

/-! ## The boot -/

section Boot

variable {usb : Usb} {build : Build}

/-- Results of 0 and more go on. -/
abbrev Good (result : Int) : Prop := 0 ≤ result

theorem follows_onBus {α : Type} {call : Program (List (Action Callback)) α} {fine : α → Prop}
    {script : List Word} (run : Follows wordsOf call fine script) :
    Follows Boot.words (onBus call) fine script :=
  follows_zoom (fun _ _ => rfl) run

theorem follows_orReturn {first rest : Program Boot Int} {script more : List Word}
    (run : Follows Boot.words first Good script) (next : Follows Boot.words rest Good more) :
    Follows Boot.words (orReturn first rest) Good (script ++ more) := by
  refine follows_bind run (fun result good => ?_) fun result bad => ?_
  · exact follows_ite (fun failed => absurd good (by omega)) fun _ => next
  · exact ⟨-1, if_pos (by omega), by decide⟩

theorem theClient_keeps (before : List Word) :
    Keeps (fun boot => boot.words = before) theClient := by
  refine keeps_bind keeps_get fun boot => ?_
  match boot.recovery with
  | none => exact keeps_lift _
  | some none => exact keeps_lift _
  | some (some client) => exact keeps_pure _

theorem sendCommand_follows {command : CText} (short : Short command) :
    Follows Boot.words (sendCommand usb command) Good [.command command.block] := by
  refine follows_keeps theClient_keeps fun client => ?_
  refine follows_last (follows_onBus (irecvSendCommand_follows short)) (fun _ _ => follows_pure _)
    fun error failed => ⟨-1, ?_, by decide⟩
  rw [if_pos failed]

theorem sendCommands_follows : ∀ {commands : List CText}, (∀ command ∈ commands, Short command) →
    Follows Boot.words (sendCommands usb commands) Good (commandWords commands)
  | [], _ => follows_pure _
  | _ :: _, short => follows_orReturn (sendCommand_follows (short _ List.mem_cons_self))
      (sendCommands_follows fun command member => short command (List.mem_cons_of_mem _ member))

theorem upload_follows (data : List UInt8) :
    Follows Boot.words (upload usb data) Good (uploadWords data) := by
  refine follows_keeps theClient_keeps fun client => ?_
  refine follows_last (follows_onBus (irecvSendBuffer_follows data)) (fun _ _ => follows_pure _)
    fun error failed => ⟨-1, ?_, by decide⟩
  rw [if_pos failed]

/-- A component is uploaded if it is there. -/
theorem recoverySendComponent_follows (component : CText) :
    Follows Boot.words (recoverySendComponent usb build component) Good
      (uploadWords (build.data component)) := by
  refine follows_lift fun path found => ?_
  cases path with
  | none => exact follows_pure_of_not (by decide) _
  | some path =>
    refine follows_keeps theClient_keeps fun client => ?_
    refine @follows_behind _ _ _ _ _ [] _ _ _ _ (follows_onBus (follows_act .reset)) fun _ => ?_
    refine follows_lift fun data fetched => ?_
    cases data with
    | none => exact follows_pure_of_not (by decide) _
    | some data =>
      rw [← Build.component_of_path found] at fetched
      rw [Build.data_of_component fetched]
      exact upload_follows data

theorem attempts_keeps (before : List Word) : ∀ rounds,
    Keeps (fun boot => boot.words = before) (attempts usb rounds)
  | 0 => keeps_pure _
  | rounds + 1 => by
      refine keeps_bind (keeps_of_state fun _ same => same) fun recovery => ?_
      cases recovery with
      | none => exact attempts_keeps before rounds
      | some client => exact keeps_pure _

theorem openClient_keeps (before : List Word) :
    Keeps (fun boot => boot.words = before) (openClient usb) := by
  refine keeps_bind (attempts_keeps before 10) fun recovery => ?_
  cases recovery with
  | none => exact keeps_pure _
  | some client => exact keeps_bind (ensures_modify fun _ same => same) fun _ => keeps_pure _

theorem recoveryClientFree_keeps (before : List Word) :
    Keeps (fun boot => boot.words = before) recoveryClientFree :=
  keeps_bind keeps_get fun _ => keeps_ite
    (keeps_bind (theClient_keeps before) fun _ => ensures_modify fun _ same => same) (keeps_pure _)

theorem recoveryOpenWithTimeout_keeps (before : List Word) :
    Keeps (fun boot => boot.words = before) (recoveryOpenWithTimeout usb) := by
  refine keeps_bind keeps_get fun _ => keeps_ite (openClient_keeps before) ?_
  refine keeps_bind (ensures_modify fun _ same => same) fun _ => ?_
  refine keeps_bind (openClient_keeps before) fun _ => keeps_ite ?_ (keeps_pure _)
  exact keeps_bind (recoveryClientFree_keeps before) fun _ => keeps_pure _

theorem Opening.keeps (before : List Word) (opening : Opening) :
    Keeps (fun boot => boot.words = before) (opening.program usb) := by
  cases opening with
  | never => exact keeps_pure _
  | always => exact recoveryOpenWithTimeout_keeps before
  | whenNull =>
    exact keeps_bind keeps_get fun _ =>
      keeps_ite (recoveryOpenWithTimeout_keeps before) (keeps_pure _)

theorem Opening.follows (opening : Opening) :
    Follows Boot.words (opening.program usb) Good [] :=
  follows_of_keeps (fun before => opening.keeps before) _

theorem sendStage_follows (opening : Opening) (component : CText) {commands : List CText}
    (short : ∀ command ∈ commands, Short command) :
    Follows Boot.words (sendStage usb build opening component commands) Good
      (stageWords build component commands) := by
  have sent : Follows Boot.words (orReturn (recoverySendComponent usb build component)
      (sendCommands usb commands)) Good (stageWords build component commands) :=
    follows_orReturn (recoverySendComponent_follows component) (sendCommands_follows short)
  rw [← List.nil_append (stageWords _ _ _)]
  exact follows_orReturn opening.follows sent

theorem recoveryEnterRestore_script (restoreOpened : List (Action Callback) → Int) :
    Follows Boot.words (recoveryEnterRestore usb build restoreOpened) Good (bootScript build) := by
  refine follows_orReturn (sendCommands_follows (by decide)) ?_
  refine follows_orReturn (sendStage_follows .never _ (by decide)) ?_
  refine follows_orReturn (sendStage_follows .always _ (by decide)) ?_
  refine follows_orReturn (sendStage_follows .whenNull _ (by decide)) ?_
  refine follows_orReturn (sendStage_follows .whenNull _ (by decide)) ?_
  rw [← List.append_nil (stageWords _ _ _)]
  refine follows_orReturn (sendStage_follows .always _ (by decide)) ?_
  exact follows_keeps (fun _ => keeps_get) fun _ => follows_pure _

/-! ## Success -/

def bootComponents : List CText :=
  [cText "iBEC", cText "AppleLogo", cText "RestoreDeviceTree", cText "RestoreRamDisk",
    cText "RestoreKernelCache"]

/-- The component is found. -/
def Build.Has (build : Build) (component : CText) : Prop :=
  ∃ data, build.component component = .ok (some data)

/-- The program gets through, from one state to another. -/
def Passes (program : Program Boot Int) (boot boot' : Boot) : Prop :=
  ∃ result, program.run boot = (.ok result, boot') ∧ Good result

theorem passes_orReturn {first rest : Program Boot Int} {boot boot' : Boot}
    (passes : Passes (orReturn first rest) boot boot') :
    ∃ between, Passes first boot between ∧ Passes rest between boot' := by
  obtain ⟨result, ran, good⟩ := passes
  obtain ⟨result', between, begun, later⟩ := run_bind_eq_ok.mp ran
  by_cases failed : result' < 0
  · rw [if_pos failed] at later
    cases later
    exact absurd good (by decide)
  · rw [if_neg failed] at later
    exact ⟨between, ⟨result', begun, not_lt.mp failed⟩, result, later, good⟩

theorem recoverySendComponent_has {component : CText} {boot boot' : Boot}
    (passes : Passes (recoverySendComponent usb build component) boot boot') :
    build.Has component := by
  obtain ⟨result, ran, good⟩ := passes
  obtain ⟨path, found, ran⟩ := run_lift_bind_eq_ok.mp ran
  cases path with
  | none =>
    cases ran
    exact absurd good (by decide)
  | some path =>
    obtain ⟨_, _, _, ran⟩ := run_bind_eq_ok.mp ran
    obtain ⟨_, _, _, ran⟩ := run_bind_eq_ok.mp ran
    obtain ⟨data, fetched, ran⟩ := run_lift_bind_eq_ok.mp ran
    cases data with
    | none =>
      cases ran
      exact absurd good (by decide)
    | some data => exact ⟨data, (Build.component_of_path found).trans fetched⟩

theorem sendStage_has {opening : Opening} {component : CText} {commands : List CText}
    {boot boot' : Boot}
    (passes : Passes (sendStage usb build opening component commands) boot boot') :
    build.Has component := by
  obtain ⟨_, _, passes⟩ := passes_orReturn passes
  obtain ⟨_, passes, _⟩ := passes_orReturn passes
  exact recoverySendComponent_has passes

theorem recoveryEnterRestore_has {restoreOpened : List (Action Callback) → Int} {boot boot' : Boot}
    (passes : Passes (recoveryEnterRestore usb build restoreOpened) boot boot') :
    (∀ component ∈ bootComponents, build.Has component) ∧ 0 ≤ restoreOpened boot'.history := by
  obtain ⟨_, _, passes⟩ := passes_orReturn passes
  obtain ⟨_, ibec, passes⟩ := passes_orReturn passes
  obtain ⟨_, applelogo, passes⟩ := passes_orReturn passes
  obtain ⟨_, devicetree, passes⟩ := passes_orReturn passes
  obtain ⟨_, ramdisk, passes⟩ := passes_orReturn passes
  obtain ⟨_, kernelcache, result, ran, good⟩ := passes_orReturn passes
  constructor
  · simp only [bootComponents, List.forall_mem_cons]
    exact ⟨sendStage_has ibec, sendStage_has applelogo, sendStage_has devicetree,
      sendStage_has ramdisk, sendStage_has kernelcache, by simp⟩
  · cases ran
    by_contra closed
    rw [Good, if_pos (not_le.mp closed)] at good
    exact absurd good (by decide)

/-- **The boot says its script**, from any state and to any device: behind what was said before
stands a beginning of it, and when it succeeds, all of it, each component as the build has it. -/
theorem recoveryEnterRestore_follows (usb : Usb) (build : Build)
    (restoreOpened : List (Action Callback) → Int) (boot : Boot) :
    ∃ said, said <+: bootScript build ∧
      ((recoveryEnterRestore usb build restoreOpened).state boot).words = boot.words ++ said ∧
      ∀ result, ((recoveryEnterRestore usb build restoreOpened).run boot).1 = .ok result →
        0 ≤ result →
          said = bootScript build ∧ (∀ component ∈ bootComponents, build.Has component) ∧
            0 ≤ restoreOpened
              ((recoveryEnterRestore usb build restoreOpened).state boot).history := by
  have follows := @recoveryEnterRestore_script usb build restoreOpened
  obtain ⟨said, isPrefix, same⟩ := follows.begun (rfl : boot.words = boot.words)
  refine ⟨said, isPrefix, same, fun result ended good => ?_⟩
  have ran : (recoveryEnterRestore usb build restoreOpened).run boot =
      (.ok result, (recoveryEnterRestore usb build restoreOpened).state boot) :=
    Prod.ext ended rfl
  have whole := ((follows boot.words).ok rfl ran).1 good
  exact ⟨List.append_cancel_left (same.symm.trans whole),
    recoveryEnterRestore_has ⟨result, ran, good⟩⟩

end Boot

/-! ## A device that takes everything -/

/-- Every transfer is complete, the status behind a packet is 5, and the device comes back
within ten attempts to open it. -/
structure Accepting (usb : Usb) : Prop where
  control : ∀ history bmRequestType bRequest data, bmRequestType ≠ 0xA1 →
    (usb.control history bmRequestType bRequest data).1 = data.length
  status : ∀ history, ∃ buffer, usb.control history 0xA1 3 [] = (6, buffer) ∧ buffer.getD 4 0 = 5
  bulk : ∀ history data, usb.bulk history data = (IRECV_E_SUCCESS, (data.length : Int))
  opens : ∀ history opened, ∃ later < 10, (usb.opens history (opened + later)).isSome

/-- There is a client, of a device that is there. -/
def Ready (boot : Boot) : Prop :=
  ∃ client, boot.recovery = some (some client) ∧ client.handle = true

section Accepting

variable {usb : Usb} {build : Build} {client : IrecvClient Callback}

/-- A program over the bus that ends. -/
abbrev Responds {α : Type} (program : Program (List (Action Callback)) α)
    (post : α → Prop) : Prop :=
  Yields (fun _ => True) program post

theorem responds_act (action : Action Callback) : Responds (act action) fun _ => True :=
  ensures_modify fun _ _ => ⟨trivial, trivial⟩

theorem responds_get :
    Responds (Program.get : Program (List (Action Callback)) _) fun _ => True :=
  ensures_get fun _ _ => ⟨trivial, trivial⟩

theorem responds_callback (callee : Option Callback) (event : IrecvEvent) :
    Responds (callback usb.outside callee event) (· = 0) := by
  cases callee with
  | none => exact yields_pure rfl
  | some callee =>
    exact yields_bind responds_get fun _ _ =>
      yields_bind (responds_act _) fun _ _ => yields_pure rfl

theorem responds_control {bmRequestType bRequest : UInt8} {data : List UInt8}
    (post : Int × List UInt8 → Prop)
    (answer : ∀ history, post (usb.control history bmRequestType bRequest data)) :
    Responds (irecvControlTransfer usb.outside bmRequestType bRequest data) post :=
  yields_bind responds_get fun history _ =>
    yields_bind (responds_act _) fun _ _ => yields_pure (answer history)

theorem responds_bulk (accepting : Accepting usb) (data : List UInt8) :
    Responds (irecvBulkTransfer usb.outside data) (· = (IRECV_E_SUCCESS, (data.length : Int))) := by
  refine yields_bind responds_get fun history _ => yields_bind (responds_act _) fun _ _ => ?_
  have whole : usb.outside.bulk history data = (IRECV_E_SUCCESS, (data.length : Int)) :=
    accepting.bulk history data
  have cleared : ¬ IRECV_E_SUCCESS < 0 := by decide
  rw [whole, if_neg cleared]
  exact yields_pure rfl

theorem responds_getStatus (accepting : Accepting usb) (present : client.handle = true) :
    Responds (irecvGetStatus usb.outside client) (· = (IRECV_E_SUCCESS, 5)) := by
  have there : ¬ client.handle = false := by simp [present]
  rw [irecvGetStatus, if_neg there]
  refine yields_bind (responds_control (fun answer => ∃ buffer, answer = (6, buffer) ∧
    buffer.getD 4 0 = 5) accepting.status) fun answer given => ?_
  obtain ⟨buffer, rfl, five⟩ := given
  rw [← five]
  exact yields_pure rfl

/-- Commands are not answered, so they always end well. -/
theorem responds_sendCommand (present : client.handle = true) (command : CText) :
    Responds (irecvSendCommand usb.outside client command) (· = IRECV_E_SUCCESS) := by
  have there : ¬ client.handle = false := by simp [present]
  rw [irecvSendCommand, if_neg there]
  have raw : Responds (irecvSendCommandRaw usb.outside command) (· = IRECV_E_SUCCESS) :=
    yields_ite (fun _ => yields_bind (responds_control (fun _ => True) fun _ => trivial)
      fun _ _ => yields_pure rfl) fun _ => yields_pure rfl
  refine yields_bind (responds_callback _ _) fun handled _ => yields_ite (fun _ => yields_pure rfl)
    fun _ => yields_bind raw fun error success => ?_
  rw [if_neg (fun failed => failed.1 success)]
  exact yields_bind (responds_callback _ _) fun _ _ => yields_pure rfl

theorem responds_sendPacket (accepting : Accepting usb) (present : client.handle = true)
    (data : List UInt8) :
    Responds (sendPacket usb.outside client data data.length) (· = none) := by
  refine yields_ite (fun _ => ?_) fun _ => ?_
  · refine yields_bind (responds_bulk accepting data) fun answer whole => ?_
    subst whole
    dsimp only
    rw [if_neg (not_not.mpr rfl), if_neg (not_not.mpr rfl)]
    exact yields_pure rfl
  · refine yields_bind (responds_control (fun answer => answer.1 = data.length) fun history =>
      accepting.control history 0x21 1 data (by decide)) fun answer whole => ?_
    dsimp only
    rw [if_neg (not_not.mpr whole)]
    refine yields_bind (responds_getStatus accepting present) fun status five => ?_
    subst five
    exact yields_pure rfl

theorem responds_sendPackets (accepting : Accepting usb) (present : client.handle = true)
    (buffer : List UInt8) : ∀ rounds i count : Nat, i + rounds = packetsOf buffer.length →
      Responds (sendPackets usb.outside client buffer rounds i count) (· = none)
  | 0, _, _, _ => yields_pure rfl
  | rounds + 1, i, count, total => by
      obtain ⟨isChunk, width, -⟩ := @packet_eq_chunk buffer i (by omega)
      rw [sendPackets, isChunk, ← width]
      refine yields_bind (responds_sendPacket accepting present _) fun failed whole => ?_
      subst whole
      refine yields_bind (responds_callback _ _) fun _ _ => ?_
      exact responds_sendPackets accepting present buffer rounds (i + 1) _ (by omega)

theorem responds_sendBuffer (accepting : Accepting usb) (present : client.handle = true)
    (buffer : List UInt8) :
    Responds (irecvSendBuffer usb.outside client buffer false) (· = IRECV_E_SUCCESS) := by
  have there : ¬ client.handle = false := by simp [present]
  have initiated : Responds (initiateTransfer usb.outside client) (·.1 = IRECV_E_SUCCESS) :=
    yields_ite
      (fun _ => responds_control _ fun history => accepting.control history 0x41 0 [] (by decide))
      fun _ => responds_control _ fun history => accepting.control history 0x21 4 [] (by decide)
  rw [irecvSendBuffer, if_neg there]
  refine yields_bind initiated fun answer success => ?_
  dsimp only
  rw [if_neg (not_not.mpr success)]
  refine yields_bind (responds_sendPackets accepting present buffer _ 0 0 (Nat.zero_add _))
    fun failed whole => ?_
  subst whole
  exact yields_pure rfl

/-! ## Booting it -/

theorem theClient_yields : Yields Ready theClient fun client => client.handle = true := by
  refine ensures_of_run fun boot ready => ?_
  obtain ⟨client, there, present⟩ := id ready
  refine ⟨client, boot, ?_, ready, present⟩
  rw [theClient, run_get_bind, there]
  rfl

theorem onBus_yields {α : Type} {call : Program (List (Action Callback)) α} {post : α → Prop}
    (responds : Responds call post) : Yields Ready (onBus call) post :=
  yields_zoom (fun _ _ ready => ready) responds

theorem orReturn_andThen {first rest : Program Boot Int} {post : Int → Boot → Prop}
    (run : Yields Ready first (· = 0)) (next : Ensures Ready rest post fun _ => False) :
    Ensures Ready (orReturn first rest) post fun _ => False := by
  refine run.andThen fun result zero => ?_
  subst zero
  exact next

theorem sendCommands_yields : ∀ commands, Yields Ready (sendCommands usb commands) (· = 0)
  | [] => yields_pure rfl
  | command :: commands => by
      refine orReturn_andThen ?_ (sendCommands_yields commands)
      refine yields_bind theClient_yields fun client present => ?_
      refine yields_bind (onBus_yields (responds_sendCommand present command))
        fun error success => ?_
      exact yields_pure (if_neg (not_not.mpr success))

theorem recoverySendComponent_yields (accepting : Accepting usb) {component : CText}
    (has : build.Has component) :
    Yields Ready (recoverySendComponent usb build component) (· = 0) := by
  obtain ⟨data, found⟩ := has
  rw [Build.component] at found
  obtain ⟨path, there, fetched⟩ := bind_eq_ok.mp found
  cases path with
  | none => cases fetched
  | some path =>
    rw [recoverySendComponent, there]
    refine yields_bind (yields_lift (rfl : some path = some path)) fun _ same => ?_
    subst same
    refine yields_bind theClient_yields fun client present => ?_
    refine yields_bind (onBus_yields (responds_act _)) fun _ _ => ?_
    dsimp only at fetched
    rw [fetched]
    refine yields_bind (yields_lift (rfl : some data = some data)) fun _ same => ?_
    subst same
    refine yields_bind theClient_yields fun client present => ?_
    refine yields_bind (onBus_yields (responds_sendBuffer accepting present data))
      fun error success => ?_
    exact yields_pure (if_neg (not_not.mpr success))

/-- The device comes back while there are attempts left. -/
theorem attempts_yields : ∀ {later rounds : Nat}, later < rounds →
    ∀ history opened, (usb.opens history (opened + later)).isSome →
      Ensures (fun boot => Ready boot ∧ boot.history = history ∧ boot.opened = opened)
        (attempts usb rounds)
        (fun recovery boot => Ready boot ∧ ∃ client, recovery = some client ∧ client.handle = true)
        fun _ => False
  | later, rounds + 1, inside, history, opened, there => by
      refine ensures_each fun boot atStart => ?_
      obtain ⟨ready, rfl, rfl⟩ := atStart
      refine ensures_step (rfl : (irecvOpen usb).run boot = _) ?_
      cases first : usb.opens boot.history boot.opened with
      | some mode => exact ensures_pure fun _ same => same ▸ ⟨ready, _, rfl, rfl⟩
      | none =>
        cases later with
        | zero => rw [Nat.add_zero, first] at there; cases there
        | succ later =>
          have next := attempts_yields (Nat.lt_of_succ_lt_succ inside) boot.history
            (boot.opened + 1) (by rwa [Nat.add_assoc, Nat.add_comm 1])
          refine ensures_mono next (fun after same => ?_) fun _ _ held => held
          subst same
          exact ⟨ready, rfl, rfl⟩

theorem Opening.yields (accepting : Accepting usb) (opening : Opening) :
    Yields Ready (opening.program usb) (· = 0) := by
  have opened : Yields Ready (openClient usb) (· = 0) := by
    refine ensures_each fun boot ready => ?_
    obtain ⟨later, inside, there⟩ := accepting.opens boot.history boot.opened
    have found := attempts_yields inside boot.history boot.opened there
    refine ensures_bind (ensures_mono found (fun after same => ?_) fun _ _ held => held)
      fun recovery => ensures_fact fun found => ?_
    · subst same
      exact ⟨ready, rfl, rfl⟩
    · obtain ⟨client, rfl, present⟩ := found
      refine ensures_between (fun _ => Ready) ?_ fun _ => yields_pure rfl
      exact ensures_modify fun _ _ => ⟨_, rfl, present⟩
  have reopened : Yields Ready (recoveryOpenWithTimeout usb) (· = 0) := by
    refine ensures_each fun boot ready => ?_
    obtain ⟨client, there, -⟩ := id ready
    refine ensures_step (rfl : (Program.get : Program Boot Boot).run boot = _) ?_
    rw [there]
    exact ensures_mono opened (fun _ same => same ▸ ready) fun _ _ held => held
  cases opening with
  | never => exact yields_pure rfl
  | always => exact reopened
  | whenNull =>
    refine yields_bind (ensures_get fun _ ready => ⟨ready, trivial⟩) fun boot _ => ?_
    exact yields_ite (fun _ => reopened) fun _ => yields_pure rfl

theorem sendStage_yields (accepting : Accepting usb) (opening : Opening) {component : CText}
    (has : build.Has component) (commands : List CText) :
    Yields Ready (sendStage usb build opening component commands) (· = 0) :=
  orReturn_andThen (opening.yields accepting) (orReturn_andThen
    (recoverySendComponent_yields accepting has) (sendCommands_yields commands))

end Accepting

/-- **A device that takes everything is booted** exactly when every component is found and the
restore mode is there in the end. -/
theorem recoveryEnterRestore_iff (usb : Usb) (build : Build)
    (restoreOpened : List (Action Callback) → Int) (boot : Boot) (accepting : Accepting usb)
    (ready : Ready boot) :
    ((recoveryEnterRestore usb build restoreOpened).run boot).1 = .ok 0 ↔
      (∀ component ∈ bootComponents, build.Has component) ∧
        0 ≤ restoreOpened ((recoveryEnterRestore usb build restoreOpened).state boot).history := by
  constructor
  · intro ended
    exact recoveryEnterRestore_has ⟨0, Prod.ext ended rfl, Int.le_refl 0⟩
  rintro ⟨has, restored⟩
  simp only [bootComponents, List.forall_mem_cons] at has
  obtain ⟨ibec, applelogo, devicetree, ramdisk, kernelcache, -⟩ := has
  have last : Ensures Ready (do
      let boot ← Program.get
      return if restoreOpened boot.history < 0 then -1 else 0 : Program Boot Int)
      (fun result boot => 0 ≤ restoreOpened boot.history → result = 0) fun _ => False :=
    ensures_of_run fun boot _ => ⟨_, boot, rfl, fun opened => if_neg (not_lt.mpr opened)⟩
  have all : Ensures Ready (recoveryEnterRestore usb build restoreOpened)
      (fun result boot => 0 ≤ restoreOpened boot.history → result = 0) fun _ => False :=
    orReturn_andThen (sendCommands_yields _) <|
    orReturn_andThen (sendStage_yields accepting _ ibec _) <|
    orReturn_andThen (sendStage_yields accepting _ applelogo _) <|
    orReturn_andThen (sendStage_yields accepting _ devicetree _) <|
    orReturn_andThen (sendStage_yields accepting _ ramdisk _) <|
    orReturn_andThen (sendStage_yields accepting _ kernelcache _) last
  match ran : (recoveryEnterRestore usb build restoreOpened).run boot with
  | (.error fault, after) => exact (all.fault ready ran).elim
  | (.ok result, after) =>
    rw [Program.state, ran] at restored
    rw [all.ok ready ran restored]

/-- A device in recovery mode that takes everything. -/
def acceptingUsb : Usb where
  control _ bmRequestType _ data :=
    if bmRequestType = 0xA1 then (6, [0, 0, 0, 0, 5, 0]) else (data.length, [])
  bulk _ data := (IRECV_E_SUCCESS, data.length)
  opens _ _ := some 0x1281

theorem acceptingUsb_accepting : Accepting acceptingUsb where
  control _ _ _ _ other := by
    change (if _ then _ else _ : Int × List UInt8).1 = _
    rw [if_neg other]
  status _ := ⟨_, rfl, rfl⟩
  bulk _ _ := rfl
  opens _ _ := ⟨0, by decide, rfl⟩

/-- A manifest with the components under their own names, and the filesystem. -/
def fullManifest : PlistNode :=
  (plistNewDict, chainOf ((cText "OS" :: bootComponents).map fun component =>
    (component, (plistNewDict, chainOf [(cText "Info",
      (plistNewDict, chainOf [(cText "Path", leaf (plistNewString component.val))]))]))))

/-- An unsigned firmware whose files are their own names. -/
def fullBuild : Build where
  extract path := some path
  buildIdentity := (plistNewDict, chainOf [(cText "Manifest", fullManifest)])
  tss := none
  unset := 0

def connected : Boot := ⟨[], 0, some (some { mode := 0x1281, handle := true })⟩

theorem fullBuild_booted :
    ((recoveryEnterRestore acceptingUsb fullBuild fun _ => 0).run connected).1 = .ok 0 := by
  refine (recoveryEnterRestore_iff _ _ _ _ acceptingUsb_accepting ⟨_, rfl, rfl⟩).mpr
    ⟨fun component member => ?_, Int.le_refl 0⟩
  simp only [bootComponents, List.mem_cons, List.not_mem_nil, or_false] at member
  rcases member with rfl | rfl | rfl | rfl | rfl <;> exact ⟨_, rfl⟩

end Irestore.Restore
