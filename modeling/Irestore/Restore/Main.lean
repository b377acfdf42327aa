/-
# Restore.Main — a restore, from the mode the device is found in

`main` of idevicerestore reads its options, finds out what mode a device is in, brings it into
restore mode from there and restores it.

* `Host` — what is attached to the host, and what the services and the archive answer.
* `parseOptions`, `run` — the options, and the program behind them; `none` while the restore goes
  on.
* `parseOptions_ok_iff`, `parseOptions_help_iff` — what the options come to.
* `normalEnterRecovery_fails` — no device gets out of normal mode.
* `main_done` — how a run ends that returns 0.
-/
import Irestore.Plist.Array
import Irestore.Restore.BootOrder
import Irestore.Restore.Device

namespace Irestore.Restore.Main

open Irestore.Library Irestore.Library.Program Irestore.Library.CMemory Irestore.Plist
  Irestore.Recovery

set_option autoImplicit false

/-! ## The host -/

/-- `idevicerestore_modes`. -/
inductive Mode where
  | dfu
  | recovery
  | restore
  | normal
  deriving DecidableEq

/-- What `getopt_long` returns for an option. -/
inductive Opt where
  | help
  | debug
  | erase
  | custom
  | cydia
  | exclude
  | uuid
  | unknown
  deriving DecidableEq

/-- The flags of the command line that the program looks at, and `use_apple_server`. -/
structure Options where
  erase : Bool
  custom : Bool
  exclude : Bool
  useAppleServer : Bool
  deriving DecidableEq

def Options.start : Options := ⟨false, false, false, true⟩

/-- The loop over the options: the flags, or what `main` returns at once.  Debugging output and
the device that is asked for are left to the host. -/
def parseOptions : List Opt → Options → Except Int Options
  | [], options => .ok options
  | .help :: _, _ => .error 0
  | .unknown :: _, _ => .error (-1)
  | .debug :: opts, options | .uuid :: opts, options => parseOptions opts options
  | .erase :: opts, options => parseOptions opts { options with erase := true }
  | .custom :: opts, options => parseOptions opts { options with custom := true }
  -- there is no break behind this case
  | .cydia :: opts, options =>
      parseOptions opts { options with useAppleServer := false, exclude := true }
  | .exclude :: opts, options => parseOptions opts { options with exclude := true }

/-- What `sscanf` reads out of the serial number of a client. -/
structure Serial where
  cpid : IrecvClient Callback → Option Nat
  bdid : IrecvClient Callback → Option Nat
  ecid : IrecvClient Callback → Option Nat

/-- The devices on the bus and behind usbmuxd, the archive and the signing servers.  `quit` is
whether `FLAG_QUIT` is set when the restore begins; `manifest` is what is parsed of the build
manifest, if there is one, and whether it asks for signatures. -/
structure Host where
  usb : Usb
  serial : Serial
  normalMode : Bool
  normalDevice : Option Nat
  normalEcid : Option Nat
  /-- the device, lockdownd and `EnterRecovery` -/
  entersRecovery : Bool
  restoreMode : Bool
  restoreDevice : Option Nat
  rebooted : Int
  restoreOpened : List (Action Callback) → Int
  started : Bool
  quit : Bool
  turns : List Turn
  manifest : Option (Option PlistNode × Bool)
  shsh : Bool → Nat → Option PlistNode → Option PlistNode
  extract : List UInt8 → Option (List UInt8)
  extractToFile : List UInt8 → Bool
  unset : Nat

/-! ## The mode -/

section Main

variable (host : Host)

/-- `recovery_check_mode`. -/
def recoveryCheckMode : Program Boot Bool := do
  let client ← irecvOpen host.usb
  match client with
  | none => return false
  | some client => return client.mode ≠ kDfuMode

/-- `dfu_check_mode` returns -1. -/
def dfuCheckMode : Bool := false

/-- `check_mode`. -/
def checkMode : Program Boot (Option Mode) := do
  let recovery ← recoveryCheckMode host
  if recovery then return some .recovery
  else if dfuCheckMode then return some .dfu
  else if host.normalMode then return some .normal
  else if host.restoreMode then return some .restore
  else return none

/-! ## The device -/

/-- `recovery_get_cpid`, `recovery_get_bdid` and `recovery_get_ecid`. -/
def recoveryGet (number : IrecvClient Callback → Option Nat) : Program Boot (Option Nat) := do
  let opened ← Opening.whenNull.program host.usb
  if opened < 0 then return none
  else do
    let client ← theClient
    return if client.handle then number client else none

/-- The devices of a chip, by their board; a chip with one device only is not asked. -/
def boards : Nat → Option (List (Nat × Nat))
  | 8900 => some [(0, 0), (4, 2), (2, 1)]
  | 8930 => some [(2, 6), (0, 7), (8, 8), (10, 9), (6, 10)]
  | 8940 => some [(4, 11), (6, 12), (2, 13)]
  | _ => none

def deviceOfChip : Nat → Option Nat
  | 8920 => some 4
  | 8720 => some 3
  | 8922 => some 5
  | _ => none

/-- The `switch` over the chip. -/
def deviceByChip (cpid : Nat) : Program Boot (Option Nat) :=
  match boards cpid with
  | none => return deviceOfChip cpid
  | some devices => do
      let bdid ← recoveryGet host host.serial.bdid
      return bdid.bind fun bdid => List.lookup bdid devices

/-- `check_device`; without a chip `client->device` is looked at, which is NULL still. -/
def checkDevice : Mode → Program Boot (Option Nat)
  | .restore => return host.restoreDevice
  | .normal => return host.normalDevice
  | .dfu | .recovery => do
      let cpid ← recoveryGet host host.serial.cpid
      match cpid with
      | none => Program.lift (.error .nullPointer)
      | some cpid => deviceByChip host cpid

/-- `get_ecid`. -/
def getEcid : Mode → Program Boot (Option Nat)
  | .normal => return host.normalEcid
  | .dfu | .recovery => recoveryGet host host.serial.ecid
  | .restore => return none

/-! ## The build -/

/-- The array of build identities. -/
def buildIdentities (manifest : Option PlistNode) : Checked (Option PlistNode) :=
  match manifest with
  | none => return none
  | some manifest => do
      let identities ← plistDictGetItem manifest (cText "BuildIdentities")
      return if plistGetNodeType identities = .array then identities else none

/-- `build_manifest_get_build_identity`. -/
def buildManifestGetBuildIdentity (manifest : Option PlistNode) (identity : Nat) :
    Checked (Option PlistNode) := do
  let identities ← buildIdentities manifest
  match identities with
  | none => return none
  | some identities =>
      if plistArrayGetSize identities ≤ identity then return none
      else
        match plistArrayGetItem identities identity with
        | none => return none
        | some item =>
            if item.1.type = .dict then do
              let copied ← plistCopyNode item
              return some copied
            else return none

/-- `build_manifest_get_identity_count`; nothing is counted for a return code of -1. -/
def buildManifestGetIdentityCount (manifest : Option PlistNode) : Checked Nat := do
  let identities ← buildIdentities manifest
  return match identities with
    | none => 0
    | some identities => plistArrayGetSize identities

/-- The loop over the identities keeps the last one. -/
def lastIdentity (manifest : Option PlistNode) (rounds : Nat) : Checked (Option PlistNode) :=
  (List.range rounds).foldlM (fun _ i => buildManifestGetBuildIdentity manifest i) none

/-- The build identity chosen; `none` when there has to be one and is none. -/
def chooseIdentity (options : Options) (manifest : Option PlistNode) :
    Checked (Option (Option PlistNode)) :=
  if options.erase then do
    let identity ← buildManifestGetBuildIdentity manifest 0
    return identity.map some
  else do
    let count ← buildManifestGetIdentityCount manifest
    let identity ← lastIdentity manifest count
    return some identity

/-- The TSS record, `get_shsh_blobs` included; `none` where it is needed and not found. -/
def tssRecord (useAppleServer : Bool) (mode : Mode) (enabled : Bool)
    (identity : Option PlistNode) : Program Boot (Option (Option PlistNode)) :=
  if enabled then do
    let ecid ← getEcid host mode
    match ecid with
    | none => return none
    | some ecid => return (host.shsh useAppleServer ecid identity).map some
  else return some none

/-- `ipsw_extract_filesystem`; there is no path in a build identity that is NULL. -/
def ipswExtractFilesystem (identity : Option PlistNode) : Checked (Option PlistNode) :=
  match identity with
  | none => return none
  | some identity => do
      let filename ← buildIdentityGetComponentPath identity (cText "OS")
      match filename with
      | none => return none
      | some filename => return if host.extractToFile filename then some identity else none

/-! ## The ways into restore mode -/

/-- `irecv_send_command` of a client that may be NULL. -/
def irecvSendCommandTo (client : Option (IrecvClient Callback)) (command : CText) :
    Program Boot IrecvError :=
  match client with
  | none => return IRECV_E_NO_DEVICE
  | some client => onBus (irecvSendCommand host.usb.outside client command)

/-- `normal_enter_recovery`. -/
def normalEnterRecovery : Program Boot Int :=
  if host.entersRecovery then
    orReturn (recoveryOpenWithTimeout host.usb) do
      -- the local variable `recovery`, which nothing is stored in
      let recovery : Option (IrecvClient Callback) := none
      let error ← irecvSendCommandTo host recovery (cText "setenv auto-boot true")
      if error ≠ IRECV_E_SUCCESS then return -1
      else do
        let error ← irecvSendCommandTo host recovery (cText "saveenv")
        return if error ≠ IRECV_E_SUCCESS then -1 else 0
  else return -1

/-- `dfu_enter_recovery`; the variable `dfu` it looks at is NULL. -/
def dfuEnterRecovery : Program Boot Int :=
  orReturn (recoveryOpenWithTimeout host.usb) (Program.lift (.error .nullPointer))

/-- The device is brought out of its mode; the mode it is in then. -/
def leaveMode (build : Build) : Mode → Program Boot (Option Mode)
  | .normal => do
      let entered ← normalEnterRecovery host
      return if entered < 0 then none else some .normal
  | .dfu => do
      let entered ← dfuEnterRecovery host
      return if entered < 0 then none else some .recovery
  | .recovery => do
      let entered ← recoveryEnterRestore host.usb build host.restoreOpened
      return if entered < 0 then none else some .restore
  | .restore => return some .restore

/-- The end of `main`, in this mode: `restore_device` is called in restore mode. -/
def restoreIn (exclude : Bool) (mode : Mode) : Program Boot (Option Int) :=
  if mode = .restore then do
    let boot ← Program.get
    let opened := decide (0 ≤ host.restoreOpened boot.history)
    let (_, ret) ← Program.lift
      (Restore.restoreDevice opened host.started ⟨host.quit, exclude⟩ host.turns)
    return ret.map fun ret => if ret < 0 then -1 else 0
  else return some 0

/-! ## The program -/

/-- `main` once the build is chosen. -/
def restoreWith (exclude : Bool) (mode : Mode) (identity tss : Option PlistNode) :
    Program Boot (Option Int) := do
  let identity ← Program.lift (ipswExtractFilesystem host identity)
  match identity with
  | none => return some (-1)
  | some buildIdentity => do
      let mode ← leaveMode host ⟨host.extract, buildIdentity, tss, host.unset⟩ mode
      match mode with
      | none => return some (-1)
      | some mode => restoreIn host exclude mode

/-- `main` once the device is known. -/
def restoreFrom (options : Options) (mode : Mode) : Program Boot (Option Int) :=
  if mode = .restore ∧ host.rebooted < 0 then return some (-1)
  else
    match host.manifest with
    | none => return some (-1)
    | some (manifest, personalized) => do
        let identity ← Program.lift (chooseIdentity options manifest)
        match identity with
        | none => return some (-1)
        | some identity => do
            let tss ← tssRecord host options.useAppleServer mode
              (personalized && !options.custom) identity
            match tss with
            | none => return some (-1)
            | some tss => restoreWith host options.exclude mode identity tss

/-- `main` behind its options. -/
def run (options : Options) : Program Boot (Option Int) := do
  let mode ← checkMode host
  match mode with
  | none => return some (-1)
  | some mode => do
      let device ← checkDevice host mode
      match device with
      | none => return some (-1)
      | some _ => restoreFrom host options mode

/-- `main`, with what `getopt_long` returns and how many arguments are left then. -/
def main (opts : List Opt) (arguments : Nat) : Program Boot (Option Int) :=
  match parseOptions opts .start with
  | .error ret => return some ret
  | .ok options => if arguments = 1 then run host options else return some (-1)

end Main

/-! ## The options -/

/-- The flags that options set. -/
def Options.given (options : Options) (opts : List Opt) : Options where
  erase := options.erase || decide (.erase ∈ opts)
  custom := options.custom || decide (.custom ∈ opts)
  exclude := options.exclude || decide (.exclude ∈ opts ∨ .cydia ∈ opts)
  useAppleServer := options.useAppleServer && decide (.cydia ∉ opts)

/-- Help is asked for, in front of every option that is not known. -/
def HelpFirst (opts : List Opt) : Prop :=
  ∃ before behind, opts = before ++ .help :: behind ∧ .unknown ∉ before

/-- **The flags**: what is given sets them, in any order, when help is not asked for and all is
known. -/
theorem parseOptions_ok_iff (opts : List Opt) : ∀ start options,
    parseOptions opts start = .ok options ↔
      .help ∉ opts ∧ .unknown ∉ opts ∧ options = start.given opts := by
  induction opts with
  | nil =>
    intro start options
    have none : start.given [] = start := by simp [Options.given]
    rw [parseOptions, none, Except.ok.injEq, eq_comm]
    simp
  | cons opt opts ih =>
    intro start options
    cases opt <;>
      simp [parseOptions, ih, Options.given]

theorem helpFirst_cons {opt : Opt} {opts : List Opt} :
    HelpFirst (opt :: opts) ↔ opt = .help ∨ opt ≠ .unknown ∧ HelpFirst opts := by
  constructor
  · rintro ⟨before, behind, same, known⟩
    cases before with
    | nil => exact .inl (List.cons.inj same).1
    | cons first before =>
      obtain ⟨rfl, rest⟩ := List.cons.inj same
      obtain ⟨differ, known⟩ := not_or.mp (mt List.mem_cons.mpr known)
      exact .inr ⟨Ne.symm differ, before, behind, rest, known⟩
  · rintro (rfl | ⟨differ, before, behind, rfl, known⟩)
    · exact ⟨[], opts, rfl, List.not_mem_nil⟩
    · refine ⟨opt :: before, behind, rfl, fun member => ?_⟩
      rcases List.mem_cons.mp member with same | later
      · exact differ same.symm
      · exact known later

/-- **Help**: `main` returns 0 at once for it, and for nothing else. -/
theorem parseOptions_help_iff (opts : List Opt) : ∀ start,
    parseOptions opts start = .error 0 ↔ HelpFirst opts := by
  induction opts with
  | nil =>
    refine fun start => iff_of_false (by simp [parseOptions]) ?_
    rintro ⟨before, behind, same, -⟩
    exact absurd same (by simp)
  | cons opt opts ih =>
    intro start
    rw [helpFirst_cons]
    cases opt <;> simp [parseOptions, ih]

/-! ## Nothing is said -/

section Keeps

variable {host : Host}

theorem recoveryGet_keeps (before : List Word) (number : IrecvClient Callback → Option Nat) :
    Keeps (fun boot => boot.words = before) (recoveryGet host number) :=
  keeps_bind (Opening.keeps before .whenNull) fun _ =>
    keeps_ite (keeps_pure _) (keeps_bind (theClient_keeps before) fun _ => keeps_pure _)

theorem deviceByChip_keeps (before : List Word) (cpid : Nat) :
    Keeps (fun boot => boot.words = before) (deviceByChip host cpid) := by
  unfold deviceByChip
  cases boards cpid with
  | none => exact keeps_pure _
  | some devices => exact keeps_bind (recoveryGet_keeps before _) fun _ => keeps_pure _

theorem checkDevice_keeps (before : List Word) (mode : Mode) :
    Keeps (fun boot => boot.words = before) (checkDevice host mode) := by
  have asked : Keeps (fun boot => boot.words = before) (do
      let cpid ← recoveryGet host host.serial.cpid
      match cpid with
      | none => Program.lift (.error .nullPointer)
      | some cpid => deviceByChip host cpid) := by
    refine keeps_bind (recoveryGet_keeps before _) fun cpid => ?_
    cases cpid with
    | none => exact keeps_lift _
    | some cpid => exact deviceByChip_keeps before cpid
  cases mode with
  | restore => exact keeps_pure _
  | normal => exact keeps_pure _
  | dfu => exact asked
  | recovery => exact asked

theorem tssRecord_keeps (before : List Word) (useAppleServer : Bool) (mode : Mode)
    (enabled : Bool) (identity : Option PlistNode) :
    Keeps (fun boot => boot.words = before)
      (tssRecord host useAppleServer mode enabled identity) := by
  refine keeps_ite (keeps_bind ?_ fun ecid => ?_) (keeps_pure _)
  · cases mode with
    | restore => exact keeps_pure _
    | normal => exact keeps_pure _
    | dfu => exact recoveryGet_keeps before _
    | recovery => exact recoveryGet_keeps before _
  · cases ecid with
    | none => exact keeps_pure _
    | some ecid => exact keeps_pure _

end Keeps

/-! ## The modes -/

section Modes

variable {host : Host} {boot after : Boot}

/-- A device in recovery mode is found before all others. -/
def FindsRecovery (host : Host) (boot : Boot) : Prop :=
  ∃ mode, host.usb.opens boot.history boot.opened = some mode ∧ mode ≠ kDfuMode

theorem recoveryCheckMode_keeps (before : List Word) :
    Keeps (fun boot => boot.words = before) (recoveryCheckMode host) := by
  refine keeps_bind (keeps_of_state fun _ same => same) fun client => ?_
  cases client with
  | none => exact keeps_pure _
  | some client => exact keeps_pure _

theorem finds_of_check (ran : (recoveryCheckMode host).run boot = (.ok true, after)) :
    FindsRecovery host boot := by
  obtain ⟨client, _, opened, answer⟩ := run_bind_eq_ok.mp ran
  cases opened
  cases isOpen : host.usb.opens boot.history boot.opened with
  | none => rw [isOpen] at answer; cases answer
  | some mode =>
    rw [isOpen] at answer
    exact ⟨mode, isOpen, by simpa using Except.ok.inj (Prod.mk.inj answer).1⟩

/-- The mode a device is found in; nothing is said to find it. -/
theorem checkMode_spec {mode : Option Mode}
    (ran : (checkMode host).run boot = (.ok mode, after)) :
    after.words = boot.words ∧ mode ≠ some .dfu ∧
      (mode = some .recovery → FindsRecovery host boot) ∧
      (mode = some .restore → host.normalMode = false ∧ host.restoreMode = true) := by
  obtain ⟨recovery, probed, began, rest⟩ := run_bind_eq_ok.mp ran
  have same : probed.words = boot.words := (recoveryCheckMode_keeps boot.words).ok rfl began
  cases recovery with
  | true =>
    cases rest
    exact ⟨same, by decide, fun _ => finds_of_check began, fun never => absurd never (by decide)⟩
  | false =>
    cases normal : host.normalMode with
    | true =>
      simp only [normal] at rest
      cases rest
      exact ⟨same, by decide, fun never => absurd never (by decide),
        fun never => absurd never (by decide)⟩
    | false =>
      cases restore : host.restoreMode with
      | true =>
        simp only [normal, restore] at rest
        cases rest
        exact ⟨same, by decide, fun never => absurd never (by decide), fun _ => ⟨rfl, rfl⟩⟩
      | false =>
        simp only [normal, restore] at rest
        cases rest
        exact ⟨same, by decide, fun never => absurd never (by decide),
          fun never => absurd never (by decide)⟩

/-- The client that the commands of `normal_enter_recovery` are sent to is NULL. -/
theorem normalEnterRecovery_fails {result : Int}
    (ran : (normalEnterRecovery host).run boot = (.ok result, after)) : result = -1 := by
  unfold normalEnterRecovery at ran
  by_cases enters : host.entersRecovery = true
  · rw [if_pos enters] at ran
    obtain ⟨opened, _, _, rest⟩ := run_bind_eq_ok.mp ran
    by_cases failed : opened < 0
    · rw [if_pos failed] at rest
      cases rest
      rfl
    · rw [if_neg failed] at rest
      cases rest
      rfl
  · rw [if_neg enters] at ran
    cases ran
    rfl

end Modes

/-! ## The build -/

section Builds

variable {options : Options} {manifest : Option PlistNode} {identity : PlistNode}

/-- The build identity is one of the manifest's. -/
def IsIdentity (manifest : Option PlistNode) (identity : PlistNode) : Prop :=
  ∃ i, buildManifestGetBuildIdentity manifest i = .ok (some identity)

theorem isIdentity_of_last : ∀ {rounds : Nat},
    lastIdentity manifest rounds = .ok (some identity) → IsIdentity manifest identity := by
  intro rounds found
  cases rounds with
  | zero => cases found
  | succ rounds =>
    rw [lastIdentity, List.range_succ, List.foldlM_append] at found
    obtain ⟨_, -, last⟩ := bind_eq_ok.mp found
    obtain ⟨_, last, same⟩ := bind_eq_ok.mp last
    cases same
    exact ⟨rounds, last⟩

theorem isIdentity_of_chosen
    (chosen : chooseIdentity options manifest = .ok (some (some identity))) :
    IsIdentity manifest identity := by
  unfold chooseIdentity at chosen
  by_cases erase : options.erase = true
  · rw [if_pos erase] at chosen
    obtain ⟨first, found, same⟩ := bind_eq_ok.mp chosen
    cases first with
    | none => cases same
    | some first =>
      cases same
      exact ⟨0, found⟩
  · rw [if_neg erase] at chosen
    obtain ⟨count, -, rest⟩ := bind_eq_ok.mp chosen
    obtain ⟨last, found, same⟩ := bind_eq_ok.mp rest
    cases same
    exact isIdentity_of_last found

variable {host : Host} {boot after : Boot}

/-- There is a TSS record exactly when one is needed, which it is not in restore mode. -/
theorem tssRecord_spec {useAppleServer : Bool} {mode : Mode} {enabled : Bool}
    {chosen : Option PlistNode} {tss : Option PlistNode}
    (ran : (tssRecord host useAppleServer mode enabled chosen).run boot =
      (.ok (some tss), after)) :
    after.words = boot.words ∧ tss.isSome = enabled ∧ (mode = .restore → tss = none) := by
  have same :=
    (@tssRecord_keeps host boot.words useAppleServer mode enabled chosen).ok rfl ran
  refine ⟨same, ?_⟩
  cases enabled with
  | false =>
    cases ran
    exact ⟨rfl, fun _ => rfl⟩
  | true =>
    obtain ⟨ecid, _, asked, rest⟩ := run_bind_eq_ok.mp ran
    cases ecid with
    | none => cases rest
    | some ecid =>
      dsimp only at rest
      cases record : host.shsh useAppleServer ecid chosen with
      | none => rw [record] at rest; cases rest
      | some record' =>
        rw [record] at rest
        cases rest
        refine ⟨rfl, fun restore => ?_⟩
        subst restore
        cases asked

/-- The build of a run: one of the manifest's, with a record if the manifest asks for it and
the firmware is not custom, and with a filesystem that was extracted. -/
structure Chosen (host : Host) (options : Options) (build : Build) : Prop where
  archive : build.extract = host.extract
  identity : ∃ manifest personalized, host.manifest = some (manifest, personalized) ∧
    IsIdentity manifest build.buildIdentity ∧
      build.tss.isSome = (personalized && !options.custom)
  filesystem : ∃ filename, host.extractToFile filename = true ∧
    buildIdentityGetComponentPath build.buildIdentity (cText "OS") = .ok (some filename)

theorem extract_spec {chosen : Option PlistNode}
    (extracted : ipswExtractFilesystem host chosen = .ok (some identity)) :
    chosen = some identity ∧ ∃ filename, host.extractToFile filename = true ∧
      buildIdentityGetComponentPath identity (cText "OS") = .ok (some filename) := by
  cases chosen with
  | none => cases extracted
  | some chosen =>
    obtain ⟨filename, found, rest⟩ := bind_eq_ok.mp extracted
    cases filename with
    | none => cases rest
    | some filename =>
      cases written : host.extractToFile filename with
      | false => simp only [written] at rest; cases rest
      | true =>
        simp only [written] at rest
        cases rest
        exact ⟨rfl, filename, written, found⟩

end Builds

/-! ## The end of a run -/

section Runs

variable {host : Host} {options : Options} {boot after : Boot} {build : Build}

/-- What a run has done with the device: booted it out of recovery mode, or rebooted a device
in restore mode that needs no signatures. -/
inductive Way (host : Host) (build : Build) (boot after : Boot) : Prop where
  | booted (finds : FindsRecovery host boot) (said : after.words = boot.words ++ bootScript build)
      (has : ∀ component ∈ bootComponents, build.Has component)
  | rebooted (found : host.normalMode = false ∧ host.restoreMode = true)
      (rebooted : 0 ≤ host.rebooted) (unsigned : build.tss = none) (said : after.words = boot.words)

/-- What is done to bring a device into restore mode. -/
theorem leaveMode_spec {mode mode' : Mode} (differ : some mode ≠ some .dfu)
    (ran : (leaveMode host build mode).run boot = (.ok (some mode'), after)) :
    mode' = .restore ∧
      (mode = .recovery ∧ after.words = boot.words ++ bootScript build ∧
          (∀ component ∈ bootComponents, build.Has component) ∨
        mode = .restore ∧ after.words = boot.words) := by
  cases mode with
  | dfu => exact absurd rfl differ
  | restore =>
    cases ran
    exact ⟨rfl, .inr ⟨rfl, rfl⟩⟩
  | normal =>
    obtain ⟨entered, _, begun, rest⟩ := run_bind_eq_ok.mp ran
    rw [normalEnterRecovery_fails begun] at rest
    cases rest
  | recovery =>
    obtain ⟨entered, between, begun, rest⟩ := run_bind_eq_ok.mp ran
    by_cases failed : entered < 0
    · rw [if_pos failed] at rest
      cases rest
    · rw [if_neg failed] at rest
      cases rest
      have said := (recoveryEnterRestore_script host.restoreOpened boot.words).ok rfl begun
      exact ⟨rfl, .inl ⟨rfl, said.1 (not_lt.mp failed),
        (recoveryEnterRestore_has ⟨entered, begun, not_lt.mp failed⟩).1⟩⟩

/-- The restore is done: the device was opened in restore mode, the restore was started, and its
loop has ended. -/
structure Restored (host : Host) (exclude : Bool) (after : Boot) : Prop where
  opened : 0 ≤ host.restoreOpened after.history
  started : host.started = true
  ended : ∃ reads,
    Restore.restoreDevice true true ⟨host.quit, exclude⟩ host.turns = .ok (reads, some 0)

theorem restoreDevice_spec {opened started : Bool} {flags : Flags} {turns : List Turn}
    {reads : List (Option Int)} {ret : Int}
    (ran : Restore.restoreDevice opened started flags turns = .ok (reads, some ret))
    (fine : 0 ≤ ret) : opened = true ∧ started = true ∧ ret = 0 := by
  cases opened with
  | false =>
    cases ran
    exact absurd fine (by decide)
  | true =>
    cases started with
    | false =>
      cases ran
      exact absurd fine (by decide)
    | true =>
      obtain ⟨result, -, same⟩ := bind_eq_ok.mp ran
      refine ⟨rfl, rfl, ?_⟩
      cases ended : result.2 with
      | false => simp [ended] at same
      | true =>
        simp only [ended, if_true] at same
        cases same
        rfl

theorem restoreIn_spec {exclude : Bool}
    (ran : (restoreIn host exclude .restore).run boot = (.ok (some 0), after)) :
    after = boot ∧ Restored host exclude after := by
  rw [restoreIn, if_pos rfl, run_get_bind] at ran
  obtain ⟨result, restored, rest⟩ := run_lift_bind_eq_ok.mp ran
  obtain ⟨reads, ret⟩ := result
  cases ret with
  | none => cases rest
  | some ret =>
    by_cases failed : ret < 0
    · simp only [Option.map_some, if_pos failed] at rest
      cases rest
    · obtain ⟨opened, started, zero⟩ := restoreDevice_spec restored (not_lt.mp failed)
      simp only [Option.map_some, if_neg failed] at rest
      cases rest
      subst zero
      rw [opened, started] at restored
      exact ⟨rfl, of_decide_eq_true opened, started, reads, restored⟩

theorem restoreWith_spec {exclude : Bool} {mode : Mode} {chosen tss : Option PlistNode}
    (differ : some mode ≠ some .dfu)
    (ran : (restoreWith host exclude mode chosen tss).run boot = (.ok (some 0), after)) :
    ∃ identity, chosen = some identity ∧
      (∃ filename, host.extractToFile filename = true ∧
        buildIdentityGetComponentPath identity (cText "OS") = .ok (some filename)) ∧
      (mode = .recovery ∧
          after.words = boot.words ++ bootScript ⟨host.extract, identity, tss, host.unset⟩ ∧
          (∀ component ∈ bootComponents,
            Build.Has ⟨host.extract, identity, tss, host.unset⟩ component) ∨
        mode = .restore ∧ after.words = boot.words) ∧
      Restored host exclude after := by
  obtain ⟨identity, extracted, rest⟩ := run_lift_bind_eq_ok.mp ran
  cases identity with
  | none => cases rest
  | some identity =>
    obtain ⟨same, filesystem⟩ := extract_spec extracted
    obtain ⟨mode', between, left, rest⟩ := run_bind_eq_ok.mp rest
    cases mode' with
    | none => cases rest
    | some mode' =>
      obtain ⟨rfl, way⟩ := leaveMode_spec differ left
      obtain ⟨rfl, restored⟩ := restoreIn_spec rest
      exact ⟨identity, same, filesystem, way, restored⟩

/-- A run with these options that returns 0. -/
theorem run_done (ran : (run host options).run boot = (.ok (some 0), after)) :
    ∃ build, Chosen host options build ∧ Way host build boot after ∧
      Restored host options.exclude after := by
  obtain ⟨mode, checked, check, rest⟩ := run_bind_eq_ok.mp ran
  obtain ⟨quiet, differ, recovery, restore⟩ := checkMode_spec check
  cases mode with
  | none => cases rest
  | some mode =>
    obtain ⟨device, known, identified, rest⟩ := run_bind_eq_ok.mp rest
    have quiet' := (@checkDevice_keeps host checked.words mode).ok rfl identified
    cases device with
    | none => cases rest
    | some device =>
      dsimp only [restoreFrom] at rest
      by_cases stuck : mode = .restore ∧ host.rebooted < 0
      · rw [if_pos stuck] at rest
        cases rest
      rw [if_neg stuck] at rest
      cases isManifest : host.manifest with
      | none => simp only [isManifest] at rest; cases rest
      | some found =>
        obtain ⟨manifest, personalized⟩ := found
        simp only [isManifest] at rest
        obtain ⟨chosen, chose, rest⟩ := run_lift_bind_eq_ok.mp rest
        cases chosen with
        | none => cases rest
        | some chosen =>
          obtain ⟨tss, signed, asked, rest⟩ := run_bind_eq_ok.mp rest
          cases tss with
          | none => cases rest
          | some tss =>
            obtain ⟨quiet'', needed, unsigned⟩ := tssRecord_spec asked
            obtain ⟨identity, rfl, filesystem, way, restored⟩ := restoreWith_spec differ rest
            have before : signed.words = boot.words := quiet''.trans (quiet'.trans quiet)
            refine ⟨⟨host.extract, identity, tss, host.unset⟩, ⟨rfl, ⟨manifest, personalized,
              isManifest, isIdentity_of_chosen chose, needed⟩, filesystem⟩, ?_, restored⟩
            rcases way with ⟨rfl, said, has⟩ | ⟨rfl, said⟩
            · exact .booted (recovery rfl) (before ▸ said) has
            · exact .rebooted (restore rfl) (not_lt.mp fun negative => stuck ⟨rfl, negative⟩)
                (unsigned rfl) (said.trans before)

/-- **A run that returns 0**, from any state and on any host: help was asked for and nothing was
done; or the build is one of the manifest's, a device in recovery mode was booted by the whole
script or one in restore mode was rebooted, and the restore is done. -/
theorem main_done {opts : List Opt} {arguments : Nat}
    (ran : (main host opts arguments).run boot = (.ok (some 0), after)) :
    (HelpFirst opts ∧ after = boot) ∨
      .help ∉ opts ∧ .unknown ∉ opts ∧ arguments = 1 ∧
        ∃ build, Chosen host (Options.start.given opts) build ∧ Way host build boot after ∧
          Restored host (Options.start.given opts).exclude after := by
  rw [main] at ran
  cases parsed : parseOptions opts .start with
  | error ret =>
    rw [parsed] at ran
    cases ran
    exact .inl ⟨(parseOptions_help_iff opts .start).mp parsed, rfl⟩
  | ok options =>
    rw [parsed] at ran
    obtain ⟨helpless, known, rfl⟩ := (parseOptions_ok_iff opts .start options).mp parsed
    by_cases one : arguments = 1
    · dsimp only at ran
      rw [if_pos one] at ran
      exact .inr ⟨helpless, known, one, run_done ran⟩
    · dsimp only at ran
      rw [if_neg one] at ran
      cases ran

end Runs

/-- An iPhone in recovery mode, an unsigned firmware, and a device that is removed as soon as it
is restored. -/
def oneDevice : Host where
  usb := acceptingUsb
  serial := ⟨fun _ => some 8920, fun _ => none, fun _ => none⟩
  normalMode := false
  normalDevice := none
  normalEcid := none
  entersRecovery := false
  restoreMode := false
  restoreDevice := none
  rebooted := -1
  restoreOpened _ := 0
  started := true
  quit := true
  turns := []
  manifest := some (some (plistNewDict, chainOf [(cText "BuildIdentities",
    plistArrayAppendItem (leaf plistNewArray) fullBuild.buildIdentity)]), false)
  shsh _ _ _ := none
  extract := fullBuild.extract
  extractToFile _ := true
  unset := 0

theorem oneDevice_ran :
    ((main oneDevice [.debug, .exclude] 1).run ⟨[], 0, none⟩).1 = .ok (some 0) := by
  decide +kernel

theorem oneDevice_done : ∃ build after, Chosen oneDevice ⟨false, false, true, true⟩ build ∧
    Way oneDevice build ⟨[], 0, none⟩ after ∧ Restored oneDevice true after := by
  rcases main_done (Prod.ext oneDevice_ran rfl) with ⟨asked, -⟩ | ⟨-, -, -, build, done⟩
  · obtain ⟨before, behind, same, -⟩ := asked
    have member : Opt.help ∈ [.debug, .exclude] := same ▸ List.mem_append_right _ List.mem_cons_self
    exact absurd member (by decide)
  · exact ⟨build, _, done⟩

end Irestore.Restore.Main
