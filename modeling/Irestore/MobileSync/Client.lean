/-
# MobileSync.Client — the calls of the mobilesync client

A client synchronises one data class at a time: `data_class` names it, and
`direction` says which side sends its changes.  Every call checks these two,
exchanges at most one message and one reply with the device, and reads the reply.

What the outside does during a call is an argument of the call, its `Answer`.
`World` is the client and the history of what went over the transport and of what
the calls returned.  The client and the pointers to results are never NULL, apart
from the results a caller may leave out.
-/
import Irestore.Library.Program
import Irestore.Plist.Access

namespace Irestore.MobileSync

open Irestore.Library Irestore.Library.CMemory Irestore.Plist

set_option autoImplicit false

/-- The codes of `mobilesync_error_t` that these functions return. -/
inductive MobilesyncError where
  | success | invalidArg | plistError | muxError | syncRefused | cancelled | wrongDirection
  | notReady
  deriving DecidableEq, Repr

/-- `mobilesync_sync_direction_t`. -/
inductive SyncDirection where
  | deviceToComputer | computerToDevice
  deriving DecidableEq, Repr

/-- `mobilesync_sync_type_t`. -/
inductive SyncType where
  | fast | slow | reset
  deriving DecidableEq, Repr

/-- `struct mobilesync_client_private`. -/
structure MobilesyncClient where
  direction : SyncDirection
  dataClass : Option CText
  deriving DecidableEq

/-- The client as `mobilesync_client_new` makes it, and as `mobilesync_finish` and
`mobilesync_cancel` leave it. -/
def MobilesyncClient.idle : MobilesyncClient := ⟨.deviceToComputer, none⟩

structure Anchors where
  deviceAnchor : Option CText
  computerAnchor : Option CText

/-- The calls of the client.  A reason may be NULL. -/
inductive Operation where
  | start | finish | getRecords | receiveChanges | clear | acknowledge | readyToSend | sendChanges
  | remap
  | cancel (reason : Option CText)
  deriving DecidableEq

inductive Event where
  | sent (operation : Operation) (message : PlistNode)
  | received (reply : Option PlistNode)
  | pinged (went : Bool)
  | returned (operation : Operation) (err : MobilesyncError) (before after : MobilesyncClient)

structure World where
  client : MobilesyncClient
  history : List Event

def mobilesyncClientNew : World := ⟨.idle, []⟩

def World.record (event : Event) (w : World) : World := { w with history := w.history ++ [event] }

def World.setClient (client : MobilesyncClient) (w : World) : World := { w with client := client }

/-- What the outside does during a call: do the send and the ping go through, and
which plist is received, if any. -/
structure Answer where
  sent : Bool
  reply : Option PlistNode
  pinged : Bool

/-! ## The transport -/

def EMPTY_PARAMETER_STRING : PlistNode :=
  leaf (plistNewString (cText "___EmptyParameterString___").val)

def stringNode (text : CText) : PlistNode := leaf (plistNewString text.val)

/-- An array of the items. -/
def messageOf (items : List PlistNode) : PlistNode :=
  items.foldl plistArrayAppendItem (leaf plistNewArray)

/-- What a call stores through its result pointers; `none` where it stores nothing.
`actions` holds what is stored there, NULL included. -/
structure Results where
  syncType : Option SyncType := none
  version : Option UInt64 := none
  entities : Option PlistNode := none
  isLastRecord : Option Bool := none
  actions : Option (Option PlistNode) := none
  mapping : Option (Option PlistNode) := none

/-- The code a call returns, and its results. -/
abbrev Outcome := MobilesyncError × Results

def Outcome.alone (err : MobilesyncError) : Outcome := (err, {})

/-- `mobilesync_send`; `device_link_service_send` fails with `MUX_ERROR` only. -/
def mobilesyncSend (operation : Operation) (message : PlistNode) (answer : Answer) :
    Program World MobilesyncError := do
  Program.modify (World.record (.sent operation message))
  return if answer.sent then .success else .muxError

/-- `mobilesync_receive`, whose caller goes on with the plist. -/
def mobilesyncReceive (answer : Answer) (read : PlistNode → Program World Outcome) :
    Program World Outcome := do
  Program.modify (World.record (.received answer.reply))
  match answer.reply with
  | none => return .alone .muxError
  | some msg => read msg

def sendPing (answer : Answer) : Program World MobilesyncError := do
  Program.modify (World.record (.pinged answer.pinged))
  return if answer.pinged then .success else .muxError

/-- Only send a message. -/
def sendOnly (operation : Operation) (message : PlistNode) (answer : Answer) :
    Program World Outcome := do
  let err ← mobilesyncSend operation message answer
  return .alone err

/-- Send a message and read the reply. -/
def exchange (operation : Operation) (message : PlistNode) (answer : Answer)
    (read : PlistNode → Checked Outcome) : Program World Outcome := do
  let err ← mobilesyncSend operation message answer
  if err ≠ .success then return .alone err
  else mobilesyncReceive answer fun msg => Program.lift (read msg)

/-! ## Reading replies -/

/-- The response type of a reply, handed on; an array without items has none. -/
def responseType (msg : PlistNode) (read : List UInt8 → Checked Outcome) : Checked Outcome :=
  match plistArrayGetItem msg 0 with
  | none => return .alone .plistError
  | some node => do
      let text ← plistGetStringVal (some node)
      read text

/-- A reply that ends the call with its reason, the third item. -/
def reasoned (msg : PlistNode) (err : MobilesyncError) : Checked Outcome := do
  let _reason ← plistGetStringVal (plistArrayGetItem msg 2)
  return .alone err

/-- The response type of a reply, unless the device cancels the session. -/
def unlessCancelled (msg : PlistNode) (read : List UInt8 → Checked Outcome) : Checked Outcome :=
  responseType msg fun text =>
    if text = (cText "SDMessageCancelSession").val then reasoned msg .cancelled else read text

def syncTypeOf (text : List UInt8) : Option SyncType :=
  if text = (cText "SDSyncTypeFast").val then some .fast
  else if text = (cText "SDSyncTypeSlow").val then some .slow
  else if text = (cText "SDSyncTypeReset").val then some .reset
  else none

/-- The version a start asks for, when it does. -/
def startVersion (msg : PlistNode) (wantsVersion : Bool) (results : Results) : Checked Outcome :=
  if wantsVersion then
    match plistArrayGetItem msg 5 with
    | none => return (.plistError, results)
    | some node => do
        let version ← plistGetUintVal (some node)
        return (.success, { results with version := some version })
  else return (.success, results)

/-- The reply to `mobilesync_start`. -/
def startReply (wantsType wantsVersion : Bool) (msg : PlistNode) : Checked Outcome :=
  responseType msg fun text =>
    if text = (cText "SDMessageRefuseToSyncDataClassWithComputer").val then
      reasoned msg .syncRefused
    else if text = (cText "SDMessageCancelSession").val then reasoned msg .cancelled
    else if wantsType then
      match plistArrayGetItem msg 4 with
      | none => return .alone .plistError
      | some node => do
          let type ← plistGetStringVal (some node)
          match syncTypeOf type with
          | none => return .alone .plistError
          | some type => startVersion msg wantsVersion { syncType := some type }
    else startVersion msg wantsVersion {}

/-- The reply to `mobilesync_finish`; its text changes nothing. -/
def finishReply (msg : PlistNode) : Checked Outcome :=
  responseType msg fun _ => return .alone .success

/-- The reply to `mobilesync_clear_all_records_on_device`. -/
def clearReply (msg : PlistNode) : Checked Outcome :=
  unlessCancelled msg fun text =>
    return .alone (if text = (cText "SDMessageDeviceWillClearAllRecords").val then .success
      else .plistError)

/-- What a variable of the caller holds: NULL, or a pointer.  Of the memory that it points to,
only the word matters where a `plist_data_s` has its type, if it can be read. -/
inductive Variable where
  | null
  | pointer (typeWord : Checked UInt32)

/-- `plist_get_node_type (actions)`: the variable itself is taken for a node, and what
it holds for the data of one. -/
def nodeTypeOfVariable : Variable → Checked UInt32
  | .null => .ok PlistType.none.code
  | .pointer typeWord => typeWord

/-- `plist_copy`; it asserts that there is a node. -/
def plistCopy : Option PlistNode → Checked PlistNode
  | none => .error .assertion
  | some node => plistCopyNode node

/-- A result that is stored only when its pointer is not NULL. -/
def wanted {α : Type} (wants : Bool) (read : Checked α) : Checked (Option α) :=
  if wants then do
    let value ← read
    return some value
  else return none

/-- What `mobilesync_receive_changes` stores for `actions`, whose variable holds
`before`. -/
def readActions (msg : PlistNode) (before : Variable) : Checked (Option PlistNode) := do
  let type ← nodeTypeOfVariable before
  if type = PlistType.dict.code then do
    let copied ← plistCopy (plistArrayGetItem msg 4)
    return some copied
  else return none

/-- The results of `mobilesync_receive_changes`. -/
def readChanges (wantsEntities wantsLast : Bool) (actions : Option Variable)
    (msg : PlistNode) : Checked Outcome := do
  let entities ← wanted wantsEntities (plistCopy (plistArrayGetItem msg 2))
  let more ← wanted wantsLast (plistGetBoolVal (plistArrayGetItem msg 3))
  let isLastRecord := more.map fun more => decide (more = 0)
  let stored ← wanted actions.isSome (readActions msg (actions.getD .null))
  return (.success, { entities := entities, isLastRecord := isLastRecord, actions := stored })

/-- The reply to `mobilesync_ready_to_send_changes_from_computer`. -/
def readyReply (msg : PlistNode) : Checked Outcome :=
  unlessCancelled msg fun text =>
    return .alone (if text = (cText "SDMessageDeviceReadyToReceiveChanges").val then .success
      else .notReady)

/-- The reply to `mobilesync_remap_identifiers`. -/
def remapReply (wantsMapping : Bool) (msg : PlistNode) : Checked Outcome :=
  unlessCancelled msg fun text =>
    if text = (cText "SDMessageRemapRecordIdentifiers").val then do
      let isDict := plistGetNodeType (plistArrayGetItem msg 2) = .dict
      let copied ← wanted (wantsMapping && isDict) (plistCopy (plistArrayGetItem msg 2))
      return (.success, { mapping := if wantsMapping then some copied else none })
    else return .alone .plistError

/-! ## The calls -/

/-- Run with the data class of the session; without one the call is refused. -/
def withDataClass (call : CText → Program World Outcome) :
    Program World Outcome := do
  let w ← Program.get
  match w.client.dataClass with
  | none => return .alone .invalidArg
  | some dataClass => call dataClass

/-- `mobilesync_start`.  Its exits all pass the end of the function, which stores the
data class. -/
def mobilesyncStart (dataClass : Option CText) (anchors : Option Anchors) (version : UInt64)
    (wantsType wantsVersion : Bool) (answer : Answer) : Program World Outcome := do
  let w ← Program.get
  match w.client.dataClass, dataClass, anchors with
  | none, some dataClass, some ⟨deviceAnchor, some computerAnchor⟩ => do
      let message := messageOf
        [stringNode (cText "SDMessageSyncDataClassWithDevice"), stringNode dataClass,
          stringNode (deviceAnchor.getD (cText "---")), stringNode computerAnchor,
          leaf (plistNewUint version), EMPTY_PARAMETER_STRING]
      let outcome ← exchange .start message answer (startReply wantsType wantsVersion)
      Program.modify (World.setClient ⟨.deviceToComputer, some dataClass⟩)
      return outcome
  | _, _, _ => return .alone .invalidArg

/-- `mobilesync_finish`. -/
def mobilesyncFinish (answer : Answer) : Program World Outcome :=
  withDataClass fun dataClass => do
    let message := messageOf
      [stringNode (cText "SDMessageFinishSessionOnDevice"), stringNode dataClass]
    let outcome ← exchange .finish message answer finishReply
    Program.modify (World.setClient .idle)
    return outcome

/-- `mobilesync_get_records`; it only sends. -/
def mobilesyncGetRecords (operation : CText) (answer : Answer) : Program World Outcome :=
  withDataClass fun dataClass =>
    sendOnly .getRecords (messageOf [stringNode operation, stringNode dataClass]) answer

def mobilesyncGetAllRecordsFromDevice : Answer → Program World Outcome :=
  mobilesyncGetRecords (cText "SDMessageGetAllRecordsFromDevice")

def mobilesyncGetChangesFromDevice : Answer → Program World Outcome :=
  mobilesyncGetRecords (cText "SDMessageGetChangesFromDevice")

/-- `mobilesync_receive_changes`. -/
def mobilesyncReceiveChanges (wantsEntities wantsLast : Bool)
    (actions : Option Variable) (answer : Answer) : Program World Outcome :=
  withDataClass fun _ => mobilesyncReceive answer fun msg => Program.lift <|
    unlessCancelled msg fun _ => readChanges wantsEntities wantsLast actions msg

/-- `mobilesync_clear_all_records_on_device`. -/
def mobilesyncClearAllRecordsOnDevice (answer : Answer) : Program World Outcome :=
  withDataClass fun dataClass =>
    exchange .clear (messageOf [stringNode (cText "SDMessageClearAllRecordsOnDevice"),
      stringNode dataClass, EMPTY_PARAMETER_STRING]) answer clearReply

/-- `mobilesync_acknowledge_changes_from_device`. -/
def mobilesyncAcknowledgeChangesFromDevice (answer : Answer) : Program World Outcome :=
  withDataClass fun dataClass =>
    sendOnly .acknowledge (messageOf
      [stringNode (cText "SDMessageAcknowledgeChangesFromDevice"), stringNode dataClass]) answer

/-- `mobilesync_ready_to_send_changes_from_computer`. -/
def mobilesyncReadyToSendChangesFromComputer (answer : Answer) : Program World Outcome :=
  withDataClass fun dataClass => do
    let w ← Program.get
    if w.client.direction ≠ .deviceToComputer then return .alone .wrongDirection
    else mobilesyncReceive answer fun msg => do
      let outcome ← Program.lift (readyReply msg)
      if outcome.1 ≠ .success then return outcome
      else do
        let err ← sendPing answer
        if err ≠ .success then return .alone err
        else do
          Program.modify (World.setClient ⟨.computerToDevice, some dataClass⟩)
          return .alone .success

/-- `create_process_changes_message`. -/
def createProcessChangesMessage (dataClass : CText) (entities : PlistNode) (moreChanges : UInt8)
    (actions : Option PlistNode) : Checked PlistNode := do
  let entities ← plistCopy (some entities)
  let actions ← (match actions with
    | some actions => plistCopy (some actions)
    | none => .ok EMPTY_PARAMETER_STRING)
  return messageOf [stringNode (cText "SDMessageProcessChanges"), stringNode dataClass, entities,
    leaf (plistNewBool moreChanges), actions]

/-- `mobilesync_send_changes`. -/
def mobilesyncSendChanges (entities : Option PlistNode) (isLastRecord : UInt8)
    (actions : Option PlistNode) (answer : Answer) : Program World Outcome :=
  withDataClass fun dataClass =>
    match entities with
    | none => return .alone .invalidArg
    | some entities =>
        if plistGetNodeType (some entities) ≠ .dict then return .alone .invalidArg
        else do
          let w ← Program.get
          if w.client.direction ≠ .computerToDevice then return .alone .wrongDirection
          else do
            let message ← Program.lift (createProcessChangesMessage dataClass entities
              (if isLastRecord > 0 then 0 else 1) actions)
            sendOnly .sendChanges message answer

/-- `mobilesync_remap_identifiers`. -/
def mobilesyncRemapIdentifiers (wantsMapping : Bool) (answer : Answer) :
    Program World Outcome :=
  withDataClass fun _ => do
    let w ← Program.get
    if w.client.direction = .deviceToComputer then return .alone .wrongDirection
    else mobilesyncReceive answer fun msg => Program.lift (remapReply wantsMapping msg)

/-- `mobilesync_cancel`. -/
def mobilesyncCancel (reason : Option CText) (answer : Answer) : Program World Outcome :=
  withDataClass fun dataClass =>
    match reason with
    | none => return .alone .invalidArg
    | some text => do
        let outcome ← sendOnly (.cancel reason) (messageOf
          [stringNode (cText "SDMessageCancelSession"), stringNode dataClass, stringNode text])
          answer
        Program.modify (World.setClient .idle)
        return outcome

/-! ## Runs -/

/-- One call, with its arguments and the answer it meets. -/
inductive Call where
  | start (dataClass : Option CText) (anchors : Option Anchors) (version : UInt64)
      (wantsType wantsVersion : Bool) (answer : Answer)
  | finish (answer : Answer)
  | getAllRecords (answer : Answer)
  | getChanges (answer : Answer)
  | receiveChanges (wantsEntities wantsLast : Bool) (actions : Option Variable)
      (answer : Answer)
  | clear (answer : Answer)
  | acknowledge (answer : Answer)
  | readyToSend (answer : Answer)
  | sendChanges (entities : Option PlistNode) (isLastRecord : UInt8) (actions : Option PlistNode)
      (answer : Answer)
  | remap (wantsMapping : Bool) (answer : Answer)
  | cancel (reason : Option CText) (answer : Answer)

def Call.operation : Call → Operation
  | .start .. => .start
  | .finish _ => .finish
  | .getAllRecords _ | .getChanges _ => .getRecords
  | .receiveChanges .. => .receiveChanges
  | .clear _ => .clear
  | .acknowledge _ => .acknowledge
  | .readyToSend _ => .readyToSend
  | .sendChanges .. => .sendChanges
  | .remap .. => .remap
  | .cancel reason _ => .cancel reason

def Call.program : Call → Program World Outcome
  | .start dataClass anchors version wantsType wantsVersion answer =>
      mobilesyncStart dataClass anchors version wantsType wantsVersion answer
  | .finish answer => mobilesyncFinish answer
  | .getAllRecords answer => mobilesyncGetAllRecordsFromDevice answer
  | .getChanges answer => mobilesyncGetChangesFromDevice answer
  | .receiveChanges wantsEntities wantsLast actions answer =>
      mobilesyncReceiveChanges wantsEntities wantsLast actions answer
  | .clear answer => mobilesyncClearAllRecordsOnDevice answer
  | .acknowledge answer => mobilesyncAcknowledgeChangesFromDevice answer
  | .readyToSend answer => mobilesyncReadyToSendChangesFromComputer answer
  | .sendChanges entities isLastRecord actions answer =>
      mobilesyncSendChanges entities isLastRecord actions answer
  | .remap wantsMapping answer => mobilesyncRemapIdentifiers wantsMapping answer
  | .cancel reason answer => mobilesyncCancel reason answer

/-- The call; what it returned and made of the client is noted. -/
def Call.perform (call : Call) : Program World PUnit := do
  let before ← Program.get
  let (err, _) ← call.program
  let after ← Program.get
  Program.modify (World.record (.returned call.operation err before.client after.client))

/-- A run of calls. -/
def calls (run : List Call) : Program World PUnit := run.forM Call.perform

end Irestore.MobileSync
