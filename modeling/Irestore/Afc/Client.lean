/-
# Afc.Client — the AFC client: one packet at a time over a connection

`afc_dispatch_packet` sends the client's packet header and the payload of an
operation; `afc_receive_data` reads one reply.  All operations share the one
header in the client, and its two length fields say how the next packet is cut.

An `Environment` is what the client stands on: the device connection, whose
sends and receives may fall short, the C type `afc_error_t`, and what a fresh
block of memory holds.  `World` is the client's header, the connection and the
history: every packet dispatched with the pieces it was sent in, and every call
of `afc_receive_data` with the connection before and after it.
-/
import Irestore.Library.Program

namespace Irestore.Afc

open Irestore.Library Irestore.Library.Bytes Irestore.Library.CMemory

set_option autoImplicit false

/-! ## Constants -/

/-- `AFC_MAGIC`, the bytes of `CFA6LPAA`. -/
def AFC_MAGIC : List UInt8 := [0x43, 0x46, 0x41, 0x36, 0x4C, 0x50, 0x41, 0x41]

def AFC_OP_STATUS : UInt64 := 0x01
def AFC_OP_DATA : UInt64 := 0x02
def AFC_OP_READ_DIR : UInt64 := 0x03
def AFC_OP_TRUNCATE : UInt64 := 0x07
def AFC_OP_REMOVE_PATH : UInt64 := 0x08
def AFC_OP_MAKE_DIR : UInt64 := 0x09
def AFC_OP_GET_FILE_INFO : UInt64 := 0x0A
def AFC_OP_GET_DEVINFO : UInt64 := 0x0B
def AFC_OP_FILE_OPEN : UInt64 := 0x0D
def AFC_OP_FILE_OPEN_RES : UInt64 := 0x0E
def AFC_OP_READ : UInt64 := 0x0F
def AFC_OP_WRITE : UInt64 := 0x10
def AFC_OP_FILE_SEEK : UInt64 := 0x11
def AFC_OP_FILE_TELL : UInt64 := 0x12
def AFC_OP_FILE_TELL_RES : UInt64 := 0x13
def AFC_OP_FILE_CLOSE : UInt64 := 0x14
def AFC_OP_FILE_SET_SIZE : UInt64 := 0x15
def AFC_OP_RENAME_PATH : UInt64 := 0x18
def AFC_OP_FILE_LOCK : UInt64 := 0x1B
def AFC_OP_MAKE_LINK : UInt64 := 0x1C
def AFC_OP_SET_FILE_TIME : UInt64 := 0x1E

/-- An `afc_error_t`. -/
abbrev AfcError := Int

def AFC_E_SUCCESS : AfcError := 0
def AFC_E_UNKNOWN_ERROR : AfcError := 1
def AFC_E_OP_HEADER_INVALID : AfcError := 2
def AFC_E_INVALID_ARG : AfcError := 7
def AFC_E_OP_NOT_SUPPORTED : AfcError := 15
def AFC_E_IO_ERROR : AfcError := 20
def AFC_E_INTERNAL_ERROR : AfcError := 23
def AFC_E_MUX_ERROR : AfcError := 30
def AFC_E_NOT_ENOUGH_DATA : AfcError := 32
def AFC_E_DIR_NOT_EMPTY : AfcError := 33

/-! ## Packets -/

/-- `AFCPacket`; `sizeof(AFCPacket)` is 40. -/
structure AFCPacket where
  magic : List UInt8
  entireLength : UInt64
  thisLength : UInt64
  packetNum : UInt64
  operation : UInt64
  deriving DecidableEq, Repr

/-- The header's bytes after `AFCPacket_to_LE`. -/
def AFCPacket.toLE (packet : AFCPacket) : List UInt8 :=
  packet.magic ++ (le 8 packet.entireLength.toNat ++ (le 8 packet.thisLength.toNat ++
    (le 8 packet.packetNum.toNat ++ le 8 packet.operation.toNat)))

def AFCPacket.fromLE (bytes : List UInt8) : AFCPacket :=
  { magic := slice bytes 0 8
    entireLength := UInt64.ofNat (ofLE (slice bytes 8 8))
    thisLength := UInt64.ofNat (ofLE (slice bytes 16 8))
    packetNum := UInt64.ofNat (ofLE (slice bytes 24 8))
    operation := UInt64.ofNat (ofLE (slice bytes 32 8)) }

/-! ## The client and what it stands on -/

/-- The connection (`idevice_connection_send` and `_receive` by the number of
bytes they report, 0 on an error), the cast `(afc_error_t)` of a status code,
and the byte a fresh heap block holds at a position. -/
structure Environment (σ : Type) where
  send : σ → List UInt8 → Nat × σ
  send_le : ∀ s bytes, (send s bytes).1 ≤ bytes.length
  receive : σ → Nat → List UInt8 × σ
  receive_le : ∀ s n, (receive s n).1.length ≤ n
  statusError : UInt64 → AfcError
  heap : Nat → UInt8

/-- A piece handed to the connection, and how much of it was accepted. -/
structure Send where
  bytes : List UInt8
  accepted : Nat
  deriving DecidableEq, Repr

/-- A call of `afc_dispatch_packet`: its payload, and the pieces it sent. -/
structure Dispatch where
  payload : List UInt8
  sends : List Send
  deriving DecidableEq, Repr

inductive Event (σ : Type) where
  | dispatch (d : Dispatch)
  | receive (before after : σ)

structure World (σ : Type) where
  packet : AFCPacket
  connection : σ
  events : List (Event σ)

variable {σ : Type}

/-- How many calls of `afc_dispatch_packet` a history holds. -/
def dispatches : List (Event σ) → Nat
  | [] => 0
  | .dispatch _ :: events => dispatches events + 1
  | .receive .. :: events => dispatches events

/-- How many calls of `afc_receive_data` a history holds. -/
def receives : List (Event σ) → Nat
  | [] => 0
  | .dispatch _ :: events => receives events
  | .receive .. :: events => receives events + 1

/-- `afc_client_new_from_connection`; it leaves the operation as malloc gave it. -/
def afcClientNewFromConnection (connection : σ) (operation : UInt64) : World σ :=
  { packet := ⟨AFC_MAGIC, 0, 0, 0, operation⟩, connection := connection, events := [] }

def World.setPacket (change : AFCPacket → AFCPacket) (w : World σ) : World σ :=
  { w with packet := change w.packet }

def World.record (event : Event σ) (w : World σ) : World σ :=
  { w with events := w.events ++ [event] }

variable (env : Environment σ)

def connectionSend (bytes : List UInt8) : Program (World σ) Send :=
  ⟨fun w =>
    let sent := env.send w.connection bytes
    (.ok ⟨bytes, sent.1⟩, { w with connection := sent.2 })⟩

def connectionReceive (length : Nat) : Program (World σ) (List UInt8) :=
  ⟨fun w =>
    let received := env.receive w.connection length
    (.ok received.1, { w with connection := received.2 })⟩

/-! ## Dispatching -/

/-- The two length fields as `afc_dispatch_packet` sets them before it sends. -/
def AFCPacket.lengths (length : UInt32) (packet : AFCPacket) : AFCPacket :=
  let packet :=
    if packet.entireLength = 0 then
      let entire := if length ≠ 0 then 40 + length.toUInt64 else 40
      { packet with entireLength := entire, thisLength := entire }
    else packet
  if packet.thisLength = 0 then { packet with thisLength := 40 } else packet

/-- The sends of `afc_dispatch_packet`: its return code, `*bytes_sent`, and the
pieces sent. -/
def sendPacket (packet : AFCPacket) (data : List UInt8) (length : UInt32) :
    Program (World σ) (AfcError × Nat × List Send) :=
  if packet.thisLength ≠ packet.entireLength then
    let offset := (packet.thisLength - 40).toUInt32
    if length.toUInt64 < packet.entireLength - packet.thisLength then
      return (AFC_E_INTERNAL_ERROR, 0, [])
    else do
      let header ← connectionSend env packet.toLE
      if header.accepted = 0 then return (AFC_E_SUCCESS, 0, [header])
      else do
        let first ← connectionSend env (data.take offset.toNat)
        if first.accepted = 0 then return (AFC_E_SUCCESS, header.accepted, [header, first])
        else do
          let second ← connectionSend env ((data.drop offset.toNat).take (length - offset).toNat)
          return (AFC_E_SUCCESS, second.accepted, [header, first, second])
  else do
    let header ← connectionSend env packet.toLE
    if header.accepted = 0 then return (AFC_E_SUCCESS, 0, [header])
    else if 0 < length then do
      let body ← connectionSend env (data.take length.toNat)
      return (AFC_E_SUCCESS, header.accepted + body.accepted, [header, body])
    else return (AFC_E_SUCCESS, header.accepted, [header])

/-- `afc_dispatch_packet`; it returns its code and `*bytes_sent`. -/
def afcDispatchPacket (data : List UInt8) (length : UInt32) :
    Program (World σ) (AfcError × Nat) := do
  Program.modify (World.setPacket fun packet => { packet with packetNum := packet.packetNum + 1 })
  Program.modify (World.setPacket (AFCPacket.lengths length))
  let w ← Program.get
  let (err, bytesSent, sends) ← sendPacket env w.packet data length
  Program.modify (World.record (.dispatch ⟨data.take length.toNat, sends⟩))
  return (err, bytesSent)

/-! ## Receiving -/

/-- A block of the heap and the bytes written to it from its start. -/
structure Buffer where
  size : Nat
  filled : List UInt8

/-- The first `n` bytes of a block; what was never written is what the heap held. -/
def Buffer.read (buffer : Buffer) (n : Nat) : Checked (List UInt8) :=
  if n ≤ buffer.size then
    .ok ((buffer.filled ++ (List.range n).map fun i => env.heap (buffer.filled.length + i)).take n)
  else .error .outOfBounds

/-- The loop that receives the rest of a packet: what the block holds after it
and the last `*bytes_recv`.  The fuel is what is missing; every round but the
last receives at least one byte. -/
def receiveRest (entireLen : Nat) : Nat → List UInt8 → Nat → Program (World σ) (List UInt8 × Nat)
  | 0, filled, bytesRecv => return (filled, bytesRecv)
  | fuel + 1, filled, bytesRecv =>
      if filled.length < entireLen then do
        let piece ← connectionReceive env (entireLen - filled.length)
        if piece.length = 0 then return (filled, 0)
        else receiveRest entireLen fuel (filled ++ piece) piece.length
      else return (filled, bytesRecv)

/-- The end of `afc_receive_data`: what the reply means. -/
def readReply (operation : UInt64) (buffer : Buffer) (bytesRecv : Nat) :
    AfcError × Option Buffer × Nat :=
  let currentCount := buffer.filled.length
  let param1 := if 8 ≤ currentCount then UInt64.ofNat (ofLE (buffer.filled.take 8)) else -1
  if operation = AFC_OP_STATUS then
    if param1 ≠ 0 then (env.statusError param1, none, bytesRecv)
    else (AFC_E_SUCCESS, some buffer, currentCount)
  else if operation = AFC_OP_DATA ∨ operation = AFC_OP_FILE_OPEN_RES ∨
      operation = AFC_OP_FILE_TELL_RES then (AFC_E_SUCCESS, some buffer, currentCount)
  else (AFC_E_OP_NOT_SUPPORTED, none, 0)

/-- `afc_receive_data` after the header's checks.  The payload is received into a
block of `entireLen` bytes, whatever `thisLen` is. -/
def receivePayload (header : AFCPacket) : Program (World σ) (AfcError × Option Buffer × Nat) := do
  let entireLen := (header.entireLength.toUInt32 - 40).toNat
  let thisLen := (header.thisLength.toUInt32 - 40).toNat
  if 0 < thisLen then do
    let piece ← connectionReceive env thisLen
    if entireLen < piece.length then Program.lift (.error .outOfBounds)
    else if piece.length = 0 then return (AFC_E_NOT_ENOUGH_DATA, none, 0)
    else if piece.length < thisLen then return (AFC_E_NOT_ENOUGH_DATA, none, piece.length)
    else do
      let (filled, bytesRecv) ← receiveRest env entireLen (entireLen - thisLen) piece piece.length
      return readReply env header.operation ⟨entireLen, filled⟩ bytesRecv
  else do
    let (filled, bytesRecv) ← receiveRest env entireLen entireLen [] 40
    return readReply env header.operation ⟨entireLen, filled⟩ bytesRecv

/-- The body of `afc_receive_data`: its return code, `*dump_here` and
`*bytes_recv`.  A wrong magic is only reported. -/
def receivePacket : Program (World σ) (AfcError × Option Buffer × Nat) := do
  let bytes ← connectionReceive env 40
  if bytes.length = 0 then return (AFC_E_MUX_ERROR, none, 0)
  else if bytes.length < 40 then return (AFC_E_MUX_ERROR, none, bytes.length)
  else do
    let header := AFCPacket.fromLE bytes
    let w ← Program.get
    if header.packetNum ≠ w.packet.packetNum then return (AFC_E_OP_HEADER_INVALID, none, 40)
    else if header.thisLength < 40 then return (AFC_E_OP_HEADER_INVALID, none, 40)
    else if header.thisLength = header.entireLength ∧ header.entireLength = 40 then
      if header.operation = AFC_OP_DATA then return (AFC_E_SUCCESS, none, 0)
      else return (AFC_E_IO_ERROR, none, 0)
    else receivePayload env header

/-- `afc_receive_data`. -/
def afcReceiveData : Program (World σ) (AfcError × Option Buffer × Nat) :=
  (receivePacket env).noting fun before after =>
    after.record (.receive before.connection after.connection)

end Irestore.Afc
