/-
# Restore.Boot — from recovery mode into restore mode

`recovery_enter_restore` uploads the components of the firmware one after the other and has the
device run each.  It goes on only behind a success, and a client is opened again where the
device comes back on the bus.

* `Usb` — the device on the bus, and what `irecv_open` finds.
* `Boot` — the history of the bus, and the client of recovery mode.
* `Build` — the firmware, the build identity and the TSS record.
* `recoveryEnterRestore` — the whole sequence.
-/
import Irestore.Recovery.Client
import Irestore.Restore.Nor
import Irestore.Restore.TssBlob

namespace Irestore.Restore

open Irestore.Library Irestore.Library.Program Irestore.Library.CMemory Irestore.Plist
  Irestore.Recovery Irestore.Img3

set_option autoImplicit false

/-! ## The device and the client -/

/-- The callbacks this program subscribes. -/
inductive Callback where
  | recoveryProgressCallback
  deriving DecidableEq

/-- What the device answers to transfers, and the mode of the client that `irecv_open` makes
when so many were asked for before. -/
structure Usb where
  control : List (Action Callback) → UInt8 → UInt8 → List UInt8 → Int × List UInt8
  bulk : List (Action Callback) → List UInt8 → Int × Int
  opens : List (Action Callback) → Nat → Option Nat

/-- `recovery_progress_callback` prints and returns 0. -/
def Usb.outside (usb : Usb) : Outside Callback where
  control := usb.control
  bulk := usb.bulk
  call _ _ _ := 0

/-- `struct recovery_client_t`; its client is set by the first successful open. -/
abbrev RecoveryClient := Option (IrecvClient Callback)

/-- The bus, the number of opens, and `client->recovery`. -/
structure Boot where
  history : List (Action Callback)
  opened : Nat
  recovery : Option RecoveryClient

/-- What a component is taken from: the archive, `build_identity` and `client->tss`, and what
malloc leaves in a header. -/
structure Build where
  extract : List UInt8 → Option (List UInt8)
  buildIdentity : PlistNode
  tss : Option PlistNode
  unset : Nat

/-! ## Components -/

/-- A dictionary below a dictionary. -/
def dictItem (node : PlistNode) (key : CText) : Checked (Option PlistNode) := do
  let item ← plistDictGetItem node key
  return if plistGetNodeType item = .dict then item else none

/-- `tss_get_entry_path`; `none` is its return code -1. -/
def tssGetEntryPath (tss : PlistNode) (entry : CText) : Checked (Option (List UInt8)) := do
  let entryNode ← dictItem tss entry
  match entryNode with
  | none => return none
  | some entryNode => stringItem entryNode (cText "Path")

/-- `build_identity_get_component_path`; `none` is its return code -1. -/
def buildIdentityGetComponentPath (buildIdentity : PlistNode) (component : CText) :
    Checked (Option (List UInt8)) := do
  let manifest ← dictItem buildIdentity (cText "Manifest")
  match manifest with
  | none => return none
  | some manifest => do
      let node ← dictItem manifest component
      match node with
      | none => return none
      | some node => do
          let info ← dictItem node (cText "Info")
          match info with
          | none => return none
          | some info => stringItem info (cText "Path")

/-- The path of a component. -/
def Build.path (build : Build) (component : CText) : Checked (Option (List UInt8)) :=
  match build.tss with
  | some tss => tssGetEntryPath tss component
  | none => buildIdentityGetComponentPath build.buildIdentity component

/-- The string in a path. -/
def pathText (path : List UInt8) : CText := ⟨cString path, nul_free_cString path⟩

/-- `ipsw_get_component_by_path` of this build; the blob is looked up for a file that was
parsed. -/
def Build.componentByPath (build : Build) (path : List UInt8) : Checked (Option (List UInt8)) :=
  match build.extract path, build.tss with
  | none, _ => return none
  | some data, none => return some data
  | some data, some tss => do
      let parsed ← img3ParseFile data
      match parsed with
      | none => return none
      | some _ => do
          let (_, blob) ← tssGetBlobByPath tss (pathText path)
          match blob with
          | none => return none
          | some blob => img3Sign data blob build.unset

/-- It is the call of `restore_send_nor`, with the blob there is for the path. -/
theorem Build.componentByPath_eq {build : Build} {path : List UInt8} {tss : PlistNode}
    (signed : build.tss = some tss) {ret : Int} {blob : Option (List UInt8)}
    (found : tssGetBlobByPath tss (pathText path) = .ok (ret, blob)) :
    build.componentByPath path =
      ipswGetComponentByPath ⟨build.extract, some fun _ => blob, build.unset⟩ path := by
  rw [componentByPath, ipswGetComponentByPath, signed]
  dsimp only
  cases build.extract path with
  | none => rfl
  | some data =>
    dsimp only
    rw [found]
    cases parsed : img3ParseFile data with
    | error fault =>
      cases blob with
      | none => rfl
      | some blob =>
        dsimp only
        rw [img3Sign, parsed]
        rfl
    | ok image =>
      cases image with
      | none =>
        cases blob with
        | none => rfl
        | some blob =>
          dsimp only
          rw [img3Sign, parsed]
          rfl
      | some image =>
        cases blob with
        | none => rfl
        | some blob => rfl

/-! ## Calls of the client -/

section Calls

variable (usb : Usb) (build : Build)

/-- `client->recovery->client`. -/
def theClient : Program Boot (IrecvClient Callback) := do
  let boot ← Program.get
  match boot.recovery with
  | none => Program.lift (.error .nullPointer)
  | some none => Program.lift (.error .wildPointer)
  | some (some client) => return client

/-- A call that transfers over the bus. -/
def onBus {α : Type} (call : Program (List (Action Callback)) α) : Program Boot α :=
  zoom Boot.history (fun history boot => { boot with history }) call

/-- `irecv_open`: the client made, without callbacks. -/
def irecvOpen : Program Boot (Option (IrecvClient Callback)) :=
  ⟨fun boot =>
    (.ok ((usb.opens boot.history boot.opened).map fun mode => { mode, handle := true }),
      { boot with opened := boot.opened + 1 })⟩

/-- The attempts of `recovery_open_with_timeout`. -/
def attempts : Nat → Program Boot (Option (IrecvClient Callback))
  | 0 => return none
  | rounds + 1 => do
      let recovery ← irecvOpen usb
      match recovery with
      | some client => return some client
      | none => attempts rounds

/-- The loop of `recovery_open_with_timeout` and what follows it. -/
def openClient : Program Boot Int := do
  let recovery ← attempts usb 10
  match recovery with
  | none => return -1
  | some client => do
      let (client, _) := irecvEventSubscribe client .progress (some .recoveryProgressCallback)
      Program.modify fun boot => { boot with recovery := some (some client) }
      return 0

/-- `recovery_client_free`; it looks at the client of a structure that may be unset. -/
def recoveryClientFree : Program Boot Unit := do
  let boot ← Program.get
  if boot.recovery.isSome then do
    let _ ← theClient
    Program.modify fun boot => { boot with recovery := none }
  else return ()

/-- `recovery_open_with_timeout`, with `recovery_client_new` where there is no client yet. -/
def recoveryOpenWithTimeout : Program Boot Int := do
  let boot ← Program.get
  if boot.recovery.isSome then openClient usb
  else do
    Program.modify fun boot => { boot with recovery := some none }
    let opened ← openClient usb
    if opened < 0 then do
      recoveryClientFree
      return -1
    else return 0

/-- `irecv_send_command` of the client there is. -/
def sendCommand (command : CText) : Program Boot Int := do
  let client ← theClient
  let error ← onBus (irecvSendCommand usb.outside client command)
  return if error ≠ IRECV_E_SUCCESS then -1 else 0

/-- `if (first < 0) return -1`, and the rest. -/
def orReturn (first rest : Program Boot Int) : Program Boot Int := do
  let result ← first
  if result < 0 then return -1 else rest

def sendCommands : List CText → Program Boot Int
  | [] => return 0
  | command :: commands => orReturn (sendCommand usb command) (sendCommands commands)

/-- `recovery_enable_autoboot`. -/
def recoveryEnableAutoboot : Program Boot Int :=
  sendCommands usb [cText "setenv auto-boot true", cText "saveenv"]

/-- The upload of a component that is there. -/
def upload (data : List UInt8) : Program Boot Int := do
  let client ← theClient
  let error ← onBus (irecvSendBuffer usb.outside client data false)
  return if error ≠ IRECV_E_SUCCESS then -1 else 0

/-- `recovery_send_component`; the result of the reset is not looked at. -/
def recoverySendComponent (component : CText) : Program Boot Int := do
  let path ← Program.lift (build.path component)
  match path with
  | none => return -1
  | some path => do
      let _ ← theClient
      onBus (act .reset)
      let data ← Program.lift (build.componentByPath path)
      match data with
      | none => return -1
      | some data => upload usb data

/-- When a stage opens the device first. -/
inductive Opening where
  | never | whenNull | always

def Opening.program : Opening → Program Boot Int
  | .never => return 0
  | .always => recoveryOpenWithTimeout usb
  | .whenNull => do
      let boot ← Program.get
      if boot.recovery.isNone then recoveryOpenWithTimeout usb else return 0

/-- A component is sent, then commands that make the device use it. -/
def sendStage (opening : Opening) (component : CText) (commands : List CText) : Program Boot Int :=
  orReturn (opening.program usb)
    (orReturn (recoverySendComponent usb build component) (sendCommands usb commands))

/-- `recovery_send_ibec`. -/
def recoverySendIbec : Program Boot Int :=
  sendStage usb build .never (cText "iBEC") [cText "go"]

/-- `recovery_send_applelogo`. -/
def recoverySendApplelogo : Program Boot Int :=
  sendStage usb build .always (cText "AppleLogo") [cText "setpicture 1", cText "bgcolor 0 0 0"]

/-- `recovery_send_devicetree`. -/
def recoverySendDevicetree : Program Boot Int :=
  sendStage usb build .whenNull (cText "RestoreDeviceTree") [cText "devicetree"]

/-- `recovery_send_ramdisk`. -/
def recoverySendRamdisk : Program Boot Int :=
  sendStage usb build .whenNull (cText "RestoreRamDisk") [cText "ramdisk"]

/-- `recovery_send_kernelcache`. -/
def recoverySendKernelcache : Program Boot Int :=
  sendStage usb build .always (cText "RestoreKernelCache") [cText "bootx"]

/-- `recovery_enter_restore`, without the mode it sets in the end; `restoreOpened` is what
`restore_open_with_timeout` returns for the bus as it is then. -/
def recoveryEnterRestore (restoreOpened : List (Action Callback) → Int) : Program Boot Int :=
  orReturn (recoveryEnableAutoboot usb) <|
  orReturn (recoverySendIbec usb build) <|
  orReturn (recoverySendApplelogo usb build) <|
  orReturn (recoverySendDevicetree usb build) <|
  orReturn (recoverySendRamdisk usb build) <|
  orReturn (recoverySendKernelcache usb build) do
    let boot ← Program.get
    return if restoreOpened boot.history < 0 then -1 else 0

end Calls

end Irestore.Restore
