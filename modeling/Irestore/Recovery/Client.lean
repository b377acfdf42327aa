/-
# Recovery.Client — the client of a device in recovery or DFU mode

`irecv_event_subscribe` and `irecv_event_unsubscribe` set the six callbacks of a client;
`irecv_send_command` and `irecv_send_buffer` transfer over USB and call some of them.

What a program does to the outside is an `Action`, a transfer or a call of a callback,
and its history the list of them.  `Outside` answers each action by the history before it:
the device a transfer, the callback a call.
-/
import Irestore.Library.Program

namespace Irestore.Recovery

open Irestore.Library Irestore.Library.CMemory

set_option autoImplicit false

/-! ## Constants -/

/-- An `irecv_error_t`. -/
abbrev IrecvError := Int

def IRECV_E_SUCCESS : IrecvError := 0
def IRECV_E_NO_DEVICE : IrecvError := -1
def IRECV_E_USB_UPLOAD : IrecvError := -6
def IRECV_E_USB_STATUS : IrecvError := -7
def IRECV_E_PIPE : IrecvError := -10
def IRECV_E_UNKNOWN_ERROR : IrecvError := -255

def kDfuMode : Nat := 0x1227

/-- `irecv_event_type`. -/
inductive IrecvEventType where
  | received
  | precommand
  | postcommand
  | connected
  | disconnected
  | progress
  deriving DecidableEq

/-- `irecv_event_t`; the progress is so much of a total, and left unset for a command. -/
structure IrecvEvent where
  size : Int
  data : List UInt8
  progress : Option (Nat × Nat)
  type : IrecvEventType
  deriving DecidableEq

/-! ## The client -/

/-- `struct irecv_client`, of a handle that is NULL or not; `none` is a NULL callback. -/
structure IrecvClient (C : Type) where
  mode : Nat
  handle : Bool
  receivedCallback : Option C := none
  progressCallback : Option C := none
  connectedCallback : Option C := none
  precommandCallback : Option C := none
  postcommandCallback : Option C := none
  disconnectedCallback : Option C := none

/-- The callback stored for a type. -/
def IrecvClient.callback {C : Type} (client : IrecvClient C) : IrecvEventType → Option C
  | .received => client.receivedCallback
  | .progress => client.progressCallback
  | .connected => client.connectedCallback
  | .precommand => client.precommandCallback
  | .postcommand => client.postcommandCallback
  | .disconnected => client.disconnectedCallback

/-- The `switch` of both functions.  The cases of PROGRESS and CONNECTED run into the next
one, that of DISCONNECTED into the default. -/
def setCallback {C : Type} (client : IrecvClient C) (type : IrecvEventType)
    (callback : Option C) : IrecvClient C × IrecvError :=
  match type with
  | .received => ({ client with receivedCallback := callback }, IRECV_E_SUCCESS)
  | .progress =>
      ({ client with
          progressCallback := callback
          connectedCallback := callback
          precommandCallback := callback }, IRECV_E_SUCCESS)
  | .connected =>
      ({ client with connectedCallback := callback, precommandCallback := callback },
        IRECV_E_SUCCESS)
  | .precommand => ({ client with precommandCallback := callback }, IRECV_E_SUCCESS)
  | .postcommand => ({ client with postcommandCallback := callback }, IRECV_E_SUCCESS)
  | .disconnected => ({ client with disconnectedCallback := callback }, IRECV_E_UNKNOWN_ERROR)

/-- `irecv_event_subscribe`, of a callback that may be NULL. -/
def irecvEventSubscribe {C : Type} (client : IrecvClient C) (type : IrecvEventType)
    (callback : Option C) : IrecvClient C × IrecvError :=
  setCallback client type callback

/-- `irecv_event_unsubscribe`. -/
def irecvEventUnsubscribe {C : Type} (client : IrecvClient C) (type : IrecvEventType) :
    IrecvClient C × IrecvError :=
  setCallback client type none

/-! ## The outside -/

inductive Action (C : Type) where
  | control (bmRequestType bRequest : UInt8) (data : List UInt8)
  | bulk (data : List UInt8)
  | clearHalt
  | reset
  | call (callback : C) (event : IrecvEvent)

/-- What `libusb_control_transfer` returns, with the bytes it read, what a bulk transfer
returns, with the number of bytes transferred, and what a callback returns. -/
structure Outside (C : Type) where
  control : List (Action C) → UInt8 → UInt8 → List UInt8 → Int × List UInt8
  bulk : List (Action C) → List UInt8 → Int × Int
  call : List (Action C) → C → IrecvEvent → Int

section Calls

variable {C : Type} (outside : Outside C) (client : IrecvClient C)

def act (action : Action C) : Program (List (Action C)) Unit :=
  Program.modify fun history => history ++ [action]

def irecvControlTransfer (bmRequestType bRequest : UInt8) (data : List UInt8) :
    Program (List (Action C)) (Int × List UInt8) := do
  let history ← Program.get
  act (.control bmRequestType bRequest data)
  return outside.control history bmRequestType bRequest data

def irecvBulkTransfer (data : List UInt8) : Program (List (Action C)) (Int × Int) := do
  let history ← Program.get
  act (.bulk data)
  if (outside.bulk history data).1 < 0 then act .clearHalt
  return outside.bulk history data

/-- Call a callback unless it is NULL; 0 is returned for one that is. -/
def callback (callback : Option C) (event : IrecvEvent) : Program (List (Action C)) Int :=
  match callback with
  | none => return 0
  | some callback => do
      let history ← Program.get
      act (.call callback event)
      return outside.call history callback event

/-! ## Commands -/

/-- What is said of the length of a command. -/
def commandLength (command : CText) : Nat :=
  if 0x100 ≤ command.val.length then 0xFF else command.val.length

/-- `irecv_send_command_raw`; the result of the transfer is not looked at. -/
def irecvSendCommandRaw (command : CText) : Program (List (Action C)) IrecvError :=
  if 0 < commandLength command then do
    let _ ← irecvControlTransfer outside 0x40 0 (command.block.take (commandLength command + 1))
    return IRECV_E_SUCCESS
  else return IRECV_E_SUCCESS

def commandEvent (command : CText) (type : IrecvEventType) : IrecvEvent :=
  ⟨commandLength command, command.val, none, type⟩

/-- `irecv_send_command`. -/
def irecvSendCommand (command : CText) : Program (List (Action C)) IrecvError :=
  if client.handle = false then return IRECV_E_NO_DEVICE
  else do
    let handled ← callback outside client.precommandCallback (commandEvent command .precommand)
    if handled ≠ 0 then return IRECV_E_SUCCESS
    else do
      let error ← irecvSendCommandRaw outside command
      if error ≠ IRECV_E_SUCCESS ∧ error ≠ IRECV_E_PIPE then return error
      else do
        let _ ← callback outside client.postcommandCallback (commandEvent command .postcommand)
        return IRECV_E_SUCCESS

/-! ## Buffers -/

/-- `irecv_get_status`; it returns its code and `*status`. -/
def irecvGetStatus : Program (List (Action C)) (IrecvError × UInt8) :=
  if client.handle = false then return (IRECV_E_NO_DEVICE, 0)
  else do
    let (ret, buffer) ← irecvControlTransfer outside 0xA1 3 []
    if ret ≠ 6 then return (IRECV_E_USB_STATUS, 0)
    else return (IRECV_E_SUCCESS, buffer.getD 4 0)

/-- One round of the loop in `irecv_send_buffer`, up to the report; `none` when the packet
went through. -/
def sendPacket (data : List UInt8) (size : Nat) :
    Program (List (Action C)) (Option IrecvError) :=
  if client.mode ≠ kDfuMode then do
    let (error, bytes) ← irecvBulkTransfer outside data
    if bytes ≠ size then return some IRECV_E_USB_UPLOAD
    else if error ≠ IRECV_E_SUCCESS then return some error
    else return none
  else do
    let (bytes, _) ← irecvControlTransfer outside 0x21 1 data
    if bytes ≠ size then return some IRECV_E_USB_UPLOAD
    else do
      let (error, status) ← irecvGetStatus outside client
      if error ≠ IRECV_E_SUCCESS then return some error
      else if status ≠ 5 then return some IRECV_E_USB_UPLOAD
      else return none

def packetSize : Nat := 0x800

/-- `packets`, and the size of the one with number `i`. -/
def packetsOf (length : Nat) : Nat :=
  if length % packetSize ≠ 0 then length / packetSize + 1 else length / packetSize

def sizeOfPacket (length i : Nat) : Nat :=
  if i + 1 < packetsOf length then packetSize
  else if length % packetSize ≠ 0 then length % packetSize else packetSize

/-- The report behind a packet, `count` bytes being through. -/
def progressEvent (length count : Nat) : IrecvEvent :=
  ⟨toInt32 count, (cText "Uploading").val, some (count, length), .progress⟩

/-- The loop of `irecv_send_buffer` from packet `i` on.  The source has the position
`i * packet_size` as an `int`, which it is for buffers below 2 GiB. -/
def sendPackets (buffer : List UInt8) : Nat → Nat → Nat →
    Program (List (Action C)) (Option IrecvError)
  | 0, _, _ => return none
  | rounds + 1, i, count => do
      let size := sizeOfPacket buffer.length i
      let failed ← sendPacket outside client ((buffer.drop (i * packetSize)).take size) size
      match failed with
      | some error => return some error
      | none => do
          let _ ← callback outside client.progressCallback
            (progressEvent buffer.length (count + size))
          sendPackets buffer rounds (i + 1) (count + size)

/-- The three `irecv_get_status` behind the last packet in DFU mode. -/
def getStatuses : Nat → Program (List (Action C)) (Option IrecvError)
  | 0 => return none
  | rounds + 1 => do
      let (error, _) ← irecvGetStatus outside client
      if error ≠ IRECV_E_SUCCESS then return some error else getStatuses rounds

/-- The end of `irecv_send_buffer`. -/
def notifyFinished (dfuNotifyFinished : Bool) : Program (List (Action C)) IrecvError :=
  if dfuNotifyFinished ∧ client.mode = kDfuMode then do
    let _ ← irecvControlTransfer outside 0x21 1 []
    let failed ← getStatuses outside client 3
    match failed with
    | some error => return error
    | none => do
        act .reset
        return IRECV_E_SUCCESS
  else return IRECV_E_SUCCESS

/-- The transfer that `irecv_send_buffer` begins with. -/
def initiateTransfer : Program (List (Action C)) (Int × List UInt8) :=
  if client.mode ≠ kDfuMode then irecvControlTransfer outside 0x41 0 []
  else irecvControlTransfer outside 0x21 4 []

/-- `irecv_send_buffer`. -/
def irecvSendBuffer (buffer : List UInt8) (dfuNotifyFinished : Bool) :
    Program (List (Action C)) IrecvError :=
  if client.handle = false then return IRECV_E_NO_DEVICE
  else do
    let (error, _) ← initiateTransfer outside client
    if error ≠ IRECV_E_SUCCESS then return error
    else do
      let failed ← sendPackets outside client buffer (packetsOf buffer.length) 0 0
      match failed with
      | some error => return error
      | none => notifyFinished outside client dfuNotifyFinished

end Calls

end Irestore.Recovery
