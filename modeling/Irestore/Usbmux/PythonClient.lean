/-
# Usbmux.PythonClient — the conversation of the Python client

`MuxConnection` of `usbmux.py` sends a request under its next tag and takes the packet that
comes next for the reply; `process` takes the next packet for news of a device.  Any other
packet raises, and so does every call once a connect has succeeded.  The socket takes all
that is sent to it.

* `getpacket_iff` — which bytes are a packet.
* `perform_iff` — one call, by the packet it takes.
* `run_iff` — any calls over any bytes.
* `came_and_went` — a listen, then a device that comes and goes.
-/
import Irestore.Usbmux.Python

namespace Irestore.Usbmux

open Irestore.Library Irestore.Library.Bytes Irestore.Library.CMemory

set_option autoImplicit false

/-! ## `MuxConnection` -/

/-- What is still to come from usbmuxd, what was sent to it, and the fields of the object. -/
structure MuxConnection where
  stream : List UInt8
  sent : List (List UInt8)
  connected : Bool
  pkttag : Nat
  devices : List MuxDevice

/-- `struct.pack` of one number. -/
def structPack (width n : Nat) : Except Raised (List UInt8) :=
  if n < 256 ^ width then .ok (le width n) else .error .structError

/-- A request with its payload. -/
inductive MuxRequest where
  | connect (deviceId portNumber : Nat)
  | listen

/-- `TYPE_CONNECT` and `TYPE_LISTEN`. -/
def MuxRequest.type : MuxRequest → Nat
  | .connect _ _ => 2
  | .listen => 3

/-- `BinaryProtocol._pack`. -/
def BinaryProtocol.pack : MuxRequest → Except Raised (List UInt8)
  | .connect deviceId portNumber => do
      let deviceId ← structPack 4 deviceId
      let portNumber ← structPack 2 portNumber
      return deviceId ++ portNumber ++ [0, 0]
  | .listen => return []

/-- `BinaryProtocol.sendpacket`. -/
def BinaryProtocol.sendpacket (conn : MuxConnection) (req : MuxRequest) (tag : Nat) :
    Except Raised MuxConnection := do
  let payload ← BinaryProtocol.pack req
  if conn.connected then .error .muxError
  else do
    let length ← structPack 4 (16 + payload.length)
    let tag ← structPack 4 tag
    let data := length ++ (le 4 0 ++ (le 4 req.type ++ (tag ++ payload)))
    return { conn with sent := conn.sent ++ [data] }

namespace MuxConnection

/-- `BinaryProtocol.getpacket` of the protocol of a connection. -/
def getpacket (conn : MuxConnection) : Except Raised ((Nat × Nat × Unpacked) × MuxConnection) :=
  if conn.connected then .error .muxError
  else do
    let (packet, stream) ← BinaryProtocol.getpacket conn.stream
    return (packet, { conn with stream })

/-- `_getreply`. -/
def getreply (conn : MuxConnection) : Except Raised ((Nat × Nat) × MuxConnection) := do
  let ((_, tag, data), conn) ← conn.getpacket
  match data with
  | .result number => return ((tag, number), conn)
  | _ => .error .muxError

/-- `_exchange`. -/
def exchange (conn : MuxConnection) (req : MuxRequest) : Except Raised (Nat × MuxConnection) := do
  let mytag := conn.pkttag
  let conn ← BinaryProtocol.sendpacket { conn with pkttag := mytag + 1 } req mytag
  let ((recvtag, number), conn) ← conn.getreply
  if recvtag ≠ mytag then .error .muxError else return (number, conn)

def listen (conn : MuxConnection) : Except Raised MuxConnection := do
  let (ret, conn) ← conn.exchange .listen
  if ret ≠ 0 then .error .muxError else return conn

/-- The bytes of a port the other way around. -/
def swapPort (port : Nat) : Nat := ((port <<< 8) &&& 0xFF00) ||| (port >>> 8)

def connect (conn : MuxConnection) (device : MuxDevice) (port : Nat) :
    Except Raised MuxConnection := do
  let (ret, conn) ← conn.exchange (.connect device.devid (swapPort port))
  if ret ≠ 0 then .error .muxError else return { conn with connected := true }

/-- `process`, with what `select` says of the socket. -/
def process (conn : MuxConnection) (rlo xlo : Bool) : Except Raised MuxConnection :=
  if conn.connected then .error .muxError
  else if xlo then .error .muxError
  else if rlo then do
    let (devices, stream) ← processpacket conn.devices conn.stream
    return { conn with devices, stream }
  else return conn

end MuxConnection

/-- A call of a method. -/
inductive MuxCall where
  | listen
  | process (rlo xlo : Bool)
  | connect (device : MuxDevice) (port : Nat)

def MuxCall.perform (conn : MuxConnection) : MuxCall → Except Raised MuxConnection
  | .listen => conn.listen
  | .process rlo xlo => conn.process rlo xlo
  | .connect device port => conn.connect device port

/-- The calls one after the other, as far as none raises. -/
def MuxConnection.run (conn : MuxConnection) (calls : List MuxCall) : Except Raised MuxConnection :=
  calls.foldlM MuxCall.perform conn

/-- A new connection to a socket from which these bytes come. -/
def MuxConnection.start (stream : List UInt8) : MuxConnection := ⟨stream, [], false, 1, []⟩

/-! ## Packets -/

/-- A packet of version 0 that can be unpacked. -/
structure MuxPacket where
  resp : UInt32
  tag : UInt32
  payload : List UInt8
  data : Unpacked
  unpacked : BinaryProtocol.unpack resp.toNat payload = .ok data

def MuxPacket.bytes (packet : MuxPacket) : List UInt8 :=
  le 4 (16 + packet.payload.length) ++ (le 4 0 ++ (le 4 packet.resp.toNat ++
    (le 4 packet.tag.toNat ++ packet.payload)))

/-- A result under a tag. -/
def muxResult (tag number : UInt32) : MuxPacket where
  resp := 1
  tag := tag
  payload := le 4 number.toNat
  data := .result number.toNat
  unpacked := by
    rw [BinaryProtocol.unpack, if_pos (by decide)]
    exact structUnpack_word number.toNat_lt Unpacked.result

/-- News of a device, as a packet. -/
def DevicePacket.muxPacket : DevicePacket → MuxPacket
  | .add tag record => ⟨4, tag, record.bytes, .deviceAdd record.device, unpack_add record⟩
  | .remove tag deviceId =>
      ⟨5, tag, le 4 deviceId.toNat, .deviceRemove deviceId.toNat, unpack_remove deviceId⟩

theorem unpack_length {resp : Nat} {payload : List UInt8} {data : Unpacked}
    (unpacked : BinaryProtocol.unpack resp payload = .ok data) : payload.length ≤ 268 := by
  rw [BinaryProtocol.unpack] at unpacked
  repeat
    split at unpacked
    · rw [structUnpack] at unpacked
      split at unpacked
      · omega
      · cases unpacked
  cases unpacked

theorem raised_bind_eq_ok {α β : Type} {first : Except Raised α} {next : α → Except Raised β}
    {result : β} : (first >>= next) = .ok result ↔ ∃ a, first = .ok a ∧ next a = .ok result := by
  cases first with
  | error raised => simp [bind, Except.bind]
  | ok a => simp [bind, Except.bind]

theorem structUnpack_eq_ok {α : Type} {size : Nat} {fields : List UInt8 → α}
    {bytes : List UInt8} {a : α} :
    structUnpack size fields bytes = .ok a ↔ bytes.length = size ∧ fields bytes = a := by
  rw [structUnpack]
  split
  · rename_i width
    rw [Except.ok.injEq, and_iff_right width]
  · rename_i width
    exact iff_of_false (by simp) fun both => width both.1

theorem recv_eq_ok {size : Nat} {stream front rest : List UInt8} :
    SafeStreamSocket.recv size stream = .ok (front, rest) ↔
      front.length = size ∧ stream = front ++ rest := by
  constructor
  · intro received
    rw [SafeStreamSocket.recv] at received
    split at received
    · cases received
      exact ⟨List.length_take_of_le ‹_›, (List.take_append_drop _ _).symm⟩
    · cases received
  · rintro ⟨width, rfl⟩
    exact recv_append width

/-- A word written again as it was read. -/
theorem le_unsignedAt {bytes : List UInt8} {off : Nat} (inside : off + 4 ≤ bytes.length) :
    le 4 (unsignedAt bytes off 4) = slice bytes off 4 := by
  have width : (slice bytes off 4).length = 4 := by
    rw [slice, List.length_take, List.length_drop]
    omega
  have written := le_ofLE (slice bytes off 4)
  rwa [width] at written

theorem unsignedAt_lt (bytes : List UInt8) (off : Nat) : unsignedAt bytes off 4 < 2 ^ 32 := by
  have bound := ofLE_lt (slice bytes off 4)
  have width : (slice bytes off 4).length ≤ 4 := List.length_take_le _ _
  exact Nat.lt_of_lt_of_le bound (Nat.pow_le_pow_right (by decide) width)

/-- The words of a header, one behind the other. -/
theorem words_of_body {body : List UInt8} (whole : 12 ≤ body.length) :
    body = le 4 (unsignedAt body 0 4) ++ (le 4 (unsignedAt body 4 4) ++
      (le 4 (unsignedAt body 8 4) ++ body.drop 12)) := by
  rw [le_unsignedAt (by omega), le_unsignedAt (by omega), le_unsignedAt (by omega), slice, slice,
    slice, List.drop_zero]
  have third : (body.drop 8).take 4 ++ body.drop 12 = body.drop 8 := by
    rw [show 12 = 8 + 4 from rfl, ← List.drop_drop, List.take_append_drop]
  have second : (body.drop 4).take 4 ++ body.drop 8 = body.drop 4 := by
    rw [show 8 = 4 + 4 from rfl, ← List.drop_drop, List.take_append_drop]
  rw [third, second, List.take_append_drop]

/-- **Which bytes are a packet.** -/
theorem getpacket_iff {stream rest : List UInt8} {resp tag : Nat} {data : Unpacked} :
    BinaryProtocol.getpacket stream = .ok ((resp, tag, data), rest) ↔
      ∃ packet : MuxPacket, stream = packet.bytes ++ rest ∧ packet.resp.toNat = resp ∧
        packet.tag.toNat = tag ∧ packet.data = data := by
  constructor
  · intro got
    rw [BinaryProtocol.getpacket] at got
    obtain ⟨⟨head, behind⟩, isHead, got⟩ := raised_bind_eq_ok.mp got
    obtain ⟨dlen, isLength, got⟩ := raised_bind_eq_ok.mp got
    obtain ⟨⟨body, left⟩, isBody, got⟩ := raised_bind_eq_ok.mp got
    obtain ⟨⟨version, resp', tag'⟩, isWords, got⟩ := raised_bind_eq_ok.mp got
    obtain ⟨headWidth, rfl⟩ := recv_eq_ok.mp isHead
    obtain ⟨bodyWidth, rfl⟩ := recv_eq_ok.mp isBody
    obtain ⟨-, rfl⟩ := structUnpack_eq_ok.mp isLength
    obtain ⟨wordsWidth, words⟩ := structUnpack_eq_ok.mp isWords
    have whole : 12 ≤ body.length := by
      rw [List.length_take] at wordsWidth
      omega
    have word {off : Nat} (inside : off + 4 ≤ 12) :
        unsignedAt (body.take 12) off 4 = unsignedAt body off 4 := by
      rw [unsignedAt, slice_take inside, unsignedAt]
    rw [word (by decide), word (by decide), word (by decide)] at words
    cases words
    dsimp only at got
    by_cases mismatch : unsignedAt body 0 4 ≠ 0
    · rw [if_pos mismatch] at got
      cases got
    rw [if_neg mismatch] at got
    obtain ⟨data', unpacked, same⟩ := raised_bind_eq_ok.mp got
    cases same
    have resp : (UInt32.ofNat (unsignedAt body 4 4)).toNat = unsignedAt body 4 4 := by
      rw [UInt32.toNat_ofNat', Nat.mod_eq_of_lt (unsignedAt_lt _ _)]
    have tag : (UInt32.ofNat (unsignedAt body 8 4)).toNat = unsignedAt body 8 4 := by
      rw [UInt32.toNat_ofNat', Nat.mod_eq_of_lt (unsignedAt_lt _ _)]
    refine ⟨⟨.ofNat (unsignedAt body 4 4), .ofNat (unsignedAt body 8 4), body.drop 12, data,
      resp.symm ▸ unpacked⟩, ?_, resp, tag, rfl⟩
    have length : le 4 (16 + (body.drop 12).length) = head := by
      have dlen : 16 + (body.drop 12).length = ofLE head := by
        rw [List.length_drop]
        omega
      have written := le_ofLE head
      rwa [headWidth, ← dlen] at written
    rw [MuxPacket.bytes]
    dsimp only
    rw [resp, tag, length, List.append_assoc, ← not_not.mp mismatch, ← words_of_body whole]
  · rintro ⟨packet, rfl, rfl, rfl, rfl⟩
    have short := unpack_length packet.unpacked
    have fits : ∀ word : UInt32, word.toNat < 256 ^ 4 := fun word => word.toNat_lt
    have zero : (0 : Nat) < 256 ^ 4 := by decide
    have length : structUnpack 4 ofLE (le 4 (16 + packet.payload.length)) =
        .ok (16 + packet.payload.length) := by
      rw [structUnpack_ok (length_le _ _), ofLE_le (by omega)]
    have words : (le 4 0 ++ (le 4 packet.resp.toNat ++ (le 4 packet.tag.toNat ++
        packet.payload))).take 12 =
          le 4 0 ++ (le 4 packet.resp.toNat ++ (le 4 packet.tag.toNat ++ [])) := by
      rw [← List.append_assoc, ← List.append_assoc, List.take_left' (by simp), List.append_nil,
        List.append_assoc]
    have behind : (le 4 0 ++ (le 4 packet.resp.toNat ++ (le 4 packet.tag.toNat ++
        packet.payload))).drop 12 = packet.payload := by
      rw [← List.append_assoc, ← List.append_assoc, List.drop_left' (by simp)]
    have first := @unsignedAt_append [] (le 4 packet.resp.toNat ++
      (le 4 packet.tag.toNat ++ [])) 0 4 _ rfl zero
    have second := @unsignedAt_append (le 4 0) (le 4 packet.tag.toNat ++ []) 4 4 _
      (length_le _ _) (fits packet.resp)
    have third := @unsignedAt_append (le 4 0 ++ le 4 packet.resp.toNat) [] 8 4 _ (by simp)
      (fits packet.tag)
    rw [List.nil_append] at first
    rw [List.append_assoc] at third
    rw [BinaryProtocol.getpacket, MuxPacket.bytes, List.append_assoc,
      recv_append (length_le _ _), raised_ok_bind]
    dsimp only
    rw [length, raised_ok_bind, recv_append (by simp; omega), raised_ok_bind]
    dsimp only
    rw [words, structUnpack_ok (by simp), raised_ok_bind]
    dsimp only
    rw [first, second, third, behind, if_neg (not_not.mpr rfl), packet.unpacked, raised_ok_bind]
    rfl

/-! ## What a call takes -/

/-- The numbers of a request fit in their fields. -/
def MuxRequest.Fits : MuxRequest → Prop
  | .connect deviceId portNumber => deviceId < 2 ^ 32 ∧ portNumber < 2 ^ 16
  | .listen => True

def MuxRequest.payload : MuxRequest → List UInt8
  | .connect deviceId portNumber => le 4 deviceId ++ (le 2 portNumber ++ [0, 0])
  | .listen => []

/-- A request under a tag, as it is sent. -/
def MuxRequest.bytes (req : MuxRequest) (tag : Nat) : List UInt8 :=
  le 4 (16 + req.payload.length) ++ (le 4 0 ++ (le 4 req.type ++ (le 4 tag ++ req.payload)))

def MuxCall.request : MuxCall → Option MuxRequest
  | .listen => some .listen
  | .process _ _ => none
  | .connect device port => some (.connect device.devid (MuxConnection.swapPort port))

def MuxCall.connects : MuxCall → Bool
  | .listen => false
  | .process _ _ => false
  | .connect _ _ => true

/-- The reply that accepts the request of a tag. -/
def MuxPacket.Accepts (packet : MuxPacket) (tag : Nat) : Prop :=
  packet.tag.toNat = tag ∧ packet.data = .result 0

/-- News of a device, under any tag. -/
def MuxPacket.IsNews (packet : MuxPacket) : Prop := ∀ number, packet.data ≠ .result number

/-- What a packet makes of the devices. -/
def MuxPacket.news (devices : List MuxDevice) (packet : MuxPacket) : List MuxDevice :=
  match packet.data with
  | .deviceAdd device => devices ++ [device]
  | .deviceRemove devid => removeSkipping devid devices
  | .result _ => devices

/-- The packets a call takes when its request goes out under `tag`: one, but none for a
`process` that finds nothing to read. -/
def MuxCall.Takes (tag : Nat) (packets : List MuxPacket) : MuxCall → Prop
  | .listen => ∃ packet, packets = [packet] ∧ packet.Accepts tag
  | .process _ true => False
  | .process true false => ∃ packet, packets = [packet] ∧ packet.IsNews
  | .process false false => packets = []
  | .connect device port =>
      (MuxRequest.connect device.devid (MuxConnection.swapPort port)).Fits ∧
        ∃ packet, packets = [packet] ∧ packet.Accepts tag

/-- The connection behind a call that took these packets and left this stream. -/
def MuxCall.after (conn : MuxConnection) (packets : List MuxPacket) (stream : List UInt8)
    (call : MuxCall) : MuxConnection where
  stream := stream
  sent := conn.sent ++ (call.request.map fun req => req.bytes conn.pkttag).toList
  connected := conn.connected || call.connects
  pkttag := conn.pkttag + call.request.toList.length
  devices := packets.foldl MuxPacket.news conn.devices

/-- The call finds its packets at the head of the stream and leaves the connection `conn'`. -/
def MuxCall.Answered (conn conn' : MuxConnection) (call : MuxCall) : Prop :=
  conn.connected = false ∧ ∃ packets, call.Takes conn.pkttag packets ∧
    conn.stream = packets.flatMap MuxPacket.bytes ++ conn'.stream ∧
      conn' = call.after conn packets conn'.stream

/-! ## One call -/

theorem structPack_eq_ok {width n : Nat} {bytes : List UInt8} :
    structPack width n = .ok bytes ↔ n < 256 ^ width ∧ bytes = le width n := by
  rw [structPack]
  split
  · rename_i fits
    rw [Except.ok.injEq, and_iff_right fits, eq_comm]
  · rename_i wide
    exact iff_of_false (by simp) fun both => wide both.1

theorem pack_eq_ok {req : MuxRequest} {payload : List UInt8} :
    BinaryProtocol.pack req = .ok payload ↔ req.Fits ∧ payload = req.payload := by
  cases req with
  | listen =>
    rw [BinaryProtocol.pack, MuxRequest.Fits, true_and, MuxRequest.payload]
    constructor
    · intro packed
      cases packed
      rfl
    · rintro rfl
      rfl
  | connect deviceId portNumber =>
    rw [BinaryProtocol.pack, MuxRequest.Fits, MuxRequest.payload]
    constructor
    · intro packed
      obtain ⟨first, isFirst, packed⟩ := raised_bind_eq_ok.mp packed
      obtain ⟨second, isSecond, packed⟩ := raised_bind_eq_ok.mp packed
      obtain ⟨idFits, rfl⟩ := structPack_eq_ok.mp isFirst
      obtain ⟨portFits, rfl⟩ := structPack_eq_ok.mp isSecond
      cases packed
      exact ⟨⟨idFits, portFits⟩, List.append_assoc _ _ _⟩
    · rintro ⟨⟨idFits, portFits⟩, rfl⟩
      rw [structPack_eq_ok.mpr ⟨idFits, rfl⟩, raised_ok_bind, structPack_eq_ok.mpr ⟨portFits, rfl⟩,
        raised_ok_bind, List.append_assoc]
      rfl

theorem length_requestPayload (req : MuxRequest) : 16 + req.payload.length < 256 ^ 4 := by
  cases req with
  | listen => decide
  | connect deviceId portNumber =>
    rw [MuxRequest.payload, List.length_append, List.length_append, length_le, length_le]
    decide

theorem sendpacket_eq_ok {conn conn' : MuxConnection} {req : MuxRequest} {tag : Nat} :
    BinaryProtocol.sendpacket conn req tag = .ok conn' ↔
      conn.connected = false ∧ req.Fits ∧ tag < 2 ^ 32 ∧
        conn' = { conn with sent := conn.sent ++ [req.bytes tag] } := by
  rw [BinaryProtocol.sendpacket]
  constructor
  · intro sent
    obtain ⟨payload, packed, sent⟩ := raised_bind_eq_ok.mp sent
    obtain ⟨fits, rfl⟩ := pack_eq_ok.mp packed
    cases connected : conn.connected with
    | true =>
      rw [connected, if_pos rfl] at sent
      cases sent
    | false =>
      rw [connected, if_neg Bool.false_ne_true] at sent
      obtain ⟨length, isLength, sent⟩ := raised_bind_eq_ok.mp sent
      obtain ⟨word, isTag, sent⟩ := raised_bind_eq_ok.mp sent
      obtain ⟨-, rfl⟩ := structPack_eq_ok.mp isLength
      obtain ⟨tagFits, rfl⟩ := structPack_eq_ok.mp isTag
      cases sent
      exact ⟨rfl, fits, tagFits, rfl⟩
  · rintro ⟨open', fits, tagFits, rfl⟩
    rw [pack_eq_ok.mpr ⟨fits, rfl⟩, raised_ok_bind, open', if_neg Bool.false_ne_true,
      structPack_eq_ok.mpr ⟨length_requestPayload req, rfl⟩, raised_ok_bind,
      structPack_eq_ok.mpr ⟨tagFits, rfl⟩, raised_ok_bind]
    rfl

theorem MuxConnection.getpacket_eq_ok {conn conn' : MuxConnection} {resp tag : Nat}
    {data : Unpacked} :
    conn.getpacket = .ok ((resp, tag, data), conn') ↔
      conn.connected = false ∧ ∃ packet : MuxPacket,
        conn.stream = packet.bytes ++ conn'.stream ∧ packet.resp.toNat = resp ∧
          packet.tag.toNat = tag ∧ packet.data = data ∧
            conn' = { conn with stream := conn'.stream } := by
  rw [MuxConnection.getpacket]
  cases connected : conn.connected with
  | true =>
    rw [if_pos rfl]
    exact iff_of_false (by simp) fun both => Bool.noConfusion both.1
  | false =>
    rw [if_neg Bool.false_ne_true, and_iff_right rfl]
    constructor
    · intro got
      obtain ⟨⟨⟨resp', tag', data'⟩, rest⟩, read, same⟩ := raised_bind_eq_ok.mp got
      cases same
      obtain ⟨packet, isPacket, isResp, isTag, isData⟩ := getpacket_iff.mp read
      exact ⟨packet, isPacket, isResp, isTag, isData, rfl⟩
    · rintro ⟨packet, isPacket, isResp, isTag, isData, rest⟩
      rw [getpacket_iff.mpr ⟨packet, isPacket, isResp, isTag, isData⟩, raised_ok_bind]
      exact congrArg (fun next => Except.ok ((resp, tag, data), next)) rest.symm

/-- The reply to a request is the next packet, a result under the request's tag. -/
theorem exchange_eq_ok {conn conn' : MuxConnection} {req : MuxRequest} {number : Nat} :
    conn.exchange req = .ok (number, conn') ↔
      conn.connected = false ∧ req.Fits ∧ ∃ packet : MuxPacket,
        packet.tag.toNat = conn.pkttag ∧ packet.data = .result number ∧
          conn.stream = packet.bytes ++ conn'.stream ∧
            conn' = { conn with
              stream := conn'.stream
              sent := conn.sent ++ [req.bytes conn.pkttag]
              pkttag := conn.pkttag + 1 } := by
  rw [MuxConnection.exchange]
  constructor
  · intro exchanged
    obtain ⟨sentConn, sent, exchanged⟩ := raised_bind_eq_ok.mp exchanged
    obtain ⟨open', fits, -, rfl⟩ := sendpacket_eq_ok.mp sent
    obtain ⟨⟨⟨recvtag, answer⟩, next⟩, replied, exchanged⟩ := raised_bind_eq_ok.mp exchanged
    rw [MuxConnection.getreply] at replied
    obtain ⟨⟨⟨resp, tag, data⟩, behind⟩, got, replied⟩ := raised_bind_eq_ok.mp replied
    obtain ⟨-, packet, isPacket, -, isTag, isData, rest⟩ :=
      MuxConnection.getpacket_eq_ok.mp got
    cases data with
    | deviceAdd device => cases replied
    | deviceRemove devid => cases replied
    | result answered =>
      cases replied
      dsimp only at exchanged
      by_cases mismatch : recvtag ≠ conn.pkttag
      · rw [if_pos mismatch] at exchanged
        cases exchanged
      · rw [if_neg mismatch] at exchanged
        cases exchanged
        exact ⟨open', fits, packet, isTag.trans (not_not.mp mismatch), isData, isPacket, rest⟩
  · rintro ⟨open', fits, packet, isTag, isData, isPacket, rest⟩
    have tagFits : conn.pkttag < 2 ^ 32 := isTag ▸ packet.tag.toNat_lt
    have got := (@MuxConnection.getpacket_eq_ok
      { conn with sent := conn.sent ++ [req.bytes conn.pkttag], pkttag := conn.pkttag + 1 }
      conn' _ _ _).mpr ⟨open', packet, isPacket, rfl, isTag, isData, rest⟩
    have sent := (@sendpacket_eq_ok { conn with pkttag := conn.pkttag + 1 } _ req
      conn.pkttag).mpr ⟨open', fits, tagFits, rfl⟩
    rw [sent, raised_ok_bind, MuxConnection.getreply, got, raised_ok_bind]
    exact if_neg (not_not.mpr rfl)

/-- `process` that finds something to read takes the next packet for news. -/
theorem processpacket_eq_ok {devices devices' : List MuxDevice} {stream rest : List UInt8} :
    MuxConnection.processpacket devices stream = .ok (devices', rest) ↔
      ∃ packet : MuxPacket, packet.IsNews ∧ stream = packet.bytes ++ rest ∧
        devices' = packet.news devices := by
  rw [MuxConnection.processpacket]
  constructor
  · intro processed
    obtain ⟨⟨⟨resp, tag, data⟩, left⟩, got, processed⟩ := raised_bind_eq_ok.mp processed
    obtain ⟨packet, isPacket, -, -, rfl⟩ := getpacket_iff.mp got
    refine ⟨packet, ?_⟩
    rw [MuxPacket.IsNews, MuxPacket.news]
    cases data : packet.data with
    | result number =>
      rw [data] at processed
      cases processed
    | deviceAdd device =>
      rw [data] at processed
      cases processed
      exact ⟨fun _ => Unpacked.noConfusion, isPacket, rfl⟩
    | deviceRemove devid =>
      rw [data] at processed
      cases processed
      exact ⟨fun _ => Unpacked.noConfusion, isPacket, removeLoop_eq devid devices⟩
  · rintro ⟨packet, news, isPacket, rfl⟩
    rw [getpacket_iff.mpr ⟨packet, isPacket, rfl, rfl, rfl⟩, raised_ok_bind, MuxPacket.news]
    cases data : packet.data with
    | result number => exact absurd data (news number)
    | deviceAdd device => rfl
    | deviceRemove devid =>
      have kept := removeLoop_eq devid devices
      exact congrArg (fun kept => Except.ok (kept, rest)) kept

/-- A request that is accepted, in the words of `perform_iff`. -/
theorem accepted_iff {conn conn' : MuxConnection} {req : MuxRequest} :
    conn.exchange req = .ok (0, conn') ↔
      conn.connected = false ∧ req.Fits ∧ ∃ packets,
        (∃ packet, packets = [packet] ∧ packet.Accepts conn.pkttag) ∧
        conn.stream = packets.flatMap MuxPacket.bytes ++ conn'.stream ∧
          conn' = { conn with
            stream := conn'.stream
            sent := conn.sent ++ [req.bytes conn.pkttag]
            pkttag := conn.pkttag + 1
            devices := packets.foldl MuxPacket.news conn.devices } := by
  rw [exchange_eq_ok]
  refine and_congr_right fun _ => and_congr_right fun _ => ?_
  constructor
  · rintro ⟨packet, isTag, isData, isPacket, rest⟩
    refine ⟨[packet], ⟨packet, rfl, isTag, isData⟩, ?_, ?_⟩
    · rw [List.flatMap_singleton, isPacket]
    · rw [List.foldl_cons, List.foldl_nil, MuxPacket.news, isData]
      exact rest
  · rintro ⟨packets, ⟨packet, rfl, isTag, isData⟩, isPacket, rest⟩
    rw [List.flatMap_singleton] at isPacket
    rw [List.foldl_cons, List.foldl_nil, MuxPacket.news, isData] at rest
    exact ⟨packet, isTag, isData, isPacket, rest⟩

/-- A reply of 0, or the call raises. -/
theorem onlyZero_eq_ok {exchanged : Except Raised (Nat × MuxConnection)}
    {next : MuxConnection → MuxConnection} {conn' : MuxConnection} :
    (exchanged >>= fun answer => if answer.1 ≠ 0 then .error .muxError
      else return next answer.2) = .ok conn' ↔
        ∃ conn, exchanged = .ok (0, conn) ∧ conn' = next conn := by
  constructor
  · intro returned
    obtain ⟨⟨ret, conn⟩, isAnswer, returned⟩ := raised_bind_eq_ok.mp returned
    dsimp only at returned
    by_cases refused : ret ≠ 0
    · rw [if_pos refused] at returned
      cases returned
    · rw [if_neg refused] at returned
      cases returned
      exact ⟨conn, not_not.mp refused ▸ isAnswer, rfl⟩
  · rintro ⟨conn, isAnswer, rfl⟩
    rw [isAnswer, raised_ok_bind, if_neg (not_not.mpr rfl)]
    rfl

theorem listen_iff {conn conn' : MuxConnection} :
    conn.listen = .ok conn' ↔ MuxCall.listen.Answered conn conn' := by
  refine (@onlyZero_eq_ok (conn.exchange .listen) id conn').trans ?_
  constructor
  · rintro ⟨_, exchanged, rfl⟩
    obtain ⟨isOpen, -, packets, taken, isStream, behind⟩ := accepted_iff.mp exchanged
    refine ⟨isOpen, packets, taken, isStream, ?_⟩
    rw [MuxCall.after, MuxCall.connects, Bool.or_false]
    exact behind
  · rintro ⟨isOpen, packets, taken, isStream, behind⟩
    rw [MuxCall.after, MuxCall.connects, Bool.or_false] at behind
    exact ⟨conn', accepted_iff.mpr ⟨isOpen, trivial, packets, taken, isStream, behind⟩, rfl⟩

theorem connect_iff {conn conn' : MuxConnection} {device : MuxDevice} {port : Nat} :
    conn.connect device port = .ok conn' ↔ (MuxCall.connect device port).Answered conn conn' := by
  let req := MuxRequest.connect device.devid (MuxConnection.swapPort port)
  refine (@onlyZero_eq_ok (conn.exchange req) (fun next => { next with connected := true })
    conn').trans ?_
  constructor
  · rintro ⟨replied, exchanged, rfl⟩
    obtain ⟨isOpen, fits, packets, taken, isStream, behind⟩ := accepted_iff.mp exchanged
    refine ⟨isOpen, packets, ⟨fits, taken⟩, isStream, ?_⟩
    rw [MuxCall.after, MuxCall.connects, Bool.or_true]
    exact congrArg (fun next : MuxConnection => { next with connected := true }) behind
  · rintro ⟨isOpen, packets, ⟨fits, taken⟩, isStream, behind⟩
    rw [MuxCall.after, MuxCall.connects, Bool.or_true] at behind
    let replied : MuxConnection :=
      { conn with
        stream := conn'.stream
        sent := conn.sent ++ [req.bytes conn.pkttag]
        pkttag := conn.pkttag + 1
        devices := packets.foldl MuxPacket.news conn.devices }
    have exchanged : conn.exchange req = .ok (0, replied) :=
      accepted_iff.mpr ⟨isOpen, fits, packets, taken, isStream, rfl⟩
    exact ⟨replied, exchanged, behind⟩

/-- `process` touches the stream and the devices only. -/
theorem after_process (conn : MuxConnection) (packets : List MuxPacket) (stream : List UInt8)
    (rlo xlo : Bool) :
    (MuxCall.process rlo xlo).after conn packets stream =
      { conn with stream, devices := packets.foldl MuxPacket.news conn.devices } := by
  rw [MuxCall.after, MuxCall.connects, Bool.or_false]
  exact congrArg (fun sent => MuxConnection.mk stream sent _ _ _) (List.append_nil _)

theorem process_iff {conn conn' : MuxConnection} {rlo xlo : Bool} :
    conn.process rlo xlo = .ok conn' ↔ (MuxCall.process rlo xlo).Answered conn conn' := by
  rw [MuxConnection.process, MuxCall.Answered]
  cases isOpen : conn.connected with
  | true =>
    rw [if_pos rfl]
    exact iff_of_false (by simp) fun both => Bool.noConfusion both.1
  | false =>
    rw [if_neg Bool.false_ne_true, and_iff_right rfl]
    cases xlo with
    | true =>
      rw [if_pos rfl]
      refine iff_of_false (by simp) ?_
      rintro ⟨_, taken, -⟩
      exact taken
    | false =>
      rw [if_neg Bool.false_ne_true]
      cases rlo with
      | true =>
        rw [if_pos rfl]
        constructor
        · intro processed
          obtain ⟨⟨devices, stream⟩, processed, next⟩ := raised_bind_eq_ok.mp processed
          obtain ⟨packet, news, isStream, rfl⟩ := processpacket_eq_ok.mp processed
          cases next
          refine ⟨[packet], ⟨packet, rfl, news⟩, ?_, ?_⟩
          · rw [List.flatMap_singleton, isStream]
          · rw [after_process, isOpen]
            rfl
        · rintro ⟨_, ⟨packet, rfl, news⟩, isStream, behind⟩
          rw [List.flatMap_singleton] at isStream
          rw [processpacket_eq_ok.mpr ⟨packet, news, isStream, rfl⟩, raised_ok_bind, behind,
            after_process, isOpen]
          rfl
      | false =>
        rw [if_neg Bool.false_ne_true]
        constructor
        · intro idle
          cases idle
          exact ⟨[], rfl, rfl, (after_process conn [] conn.stream false false).symm⟩
        · rintro ⟨_, rfl, isStream, behind⟩
          have untouched : conn'.stream = conn.stream := isStream.symm
          rw [behind, after_process, untouched]
          rfl

/-- **One call**, by the packet it takes. -/
theorem perform_iff {conn conn' : MuxConnection} {call : MuxCall} :
    call.perform conn = .ok conn' ↔ call.Answered conn conn' := by
  cases call with
  | listen => exact listen_iff
  | process rlo xlo => exact process_iff
  | connect device port => exact connect_iff

/-! ## Calls one after the other -/

/-- The packets that calls take, when the next request goes out under `tag`.  Nothing is
called behind a connect. -/
inductive Converses : Nat → List MuxCall → List MuxPacket → Prop where
  | done {tag : Nat} : Converses tag [] []
  | call {tag : Nat} {call : MuxCall} {calls : List MuxCall} {taken later : List MuxPacket}
      (takes : call.Takes tag taken) (last : call.connects = true → calls = [])
      (behind : Converses (tag + call.request.toList.length) calls later) :
      Converses tag (call :: calls) (taken ++ later)

/-- What the calls send. -/
def requests : Nat → List MuxCall → List (List UInt8)
  | _, [] => []
  | tag, call :: calls =>
      (call.request.map fun req => req.bytes tag).toList ++
        requests (tag + call.request.toList.length) calls

/-- The connection behind calls that took these packets and left this stream. -/
def MuxConnection.afterCalls (conn : MuxConnection) (calls : List MuxCall)
    (packets : List MuxPacket) (stream : List UInt8) : MuxConnection where
  stream := stream
  sent := conn.sent ++ requests conn.pkttag calls
  connected := conn.connected || calls.any MuxCall.connects
  pkttag := conn.pkttag + (calls.flatMap fun call => call.request.toList).length
  devices := packets.foldl MuxPacket.news conn.devices

theorem afterCalls_nil (conn : MuxConnection) (stream : List UInt8) :
    conn.afterCalls [] [] stream = { conn with stream } := by
  rw [MuxConnection.afterCalls, requests, List.append_nil, List.any_nil, Bool.or_false]
  rfl

theorem afterCalls_cons (conn : MuxConnection) (call : MuxCall) (calls : List MuxCall)
    (taken later : List MuxPacket) (stream rest : List UInt8) :
    (call.after conn taken stream).afterCalls calls later rest =
      conn.afterCalls (call :: calls) (taken ++ later) rest := by
  rw [MuxConnection.afterCalls, MuxConnection.afterCalls, MuxCall.after, requests,
    List.foldl_append, List.any_cons, List.flatMap_cons, List.length_append]
  rw [List.append_assoc, Bool.or_assoc, Nat.add_assoc]

theorem runFrom_iff {calls : List MuxCall} : ∀ {conn conn' : MuxConnection},
    conn.run calls = .ok conn' ↔
      (conn.connected = true → calls = []) ∧ ∃ packets, Converses conn.pkttag calls packets ∧
        conn.stream = packets.flatMap MuxPacket.bytes ++ conn'.stream ∧
          conn' = conn.afterCalls calls packets conn'.stream := by
  induction calls with
  | nil =>
    intro conn conn'
    constructor
    · intro returned
      cases returned
      exact ⟨fun _ => rfl, [], .done, rfl, (afterCalls_nil conn conn.stream).symm⟩
    · rintro ⟨-, _, converses, isStream, isEnd⟩
      cases converses
      have untouched : conn'.stream = conn.stream := isStream.symm
      rw [isEnd, afterCalls_nil, untouched]
      rfl
  | cons call calls ih =>
    intro conn conn'
    have first : conn.run (call :: calls) = call.perform conn >>= fun next => next.run calls := rfl
    rw [first]
    constructor
    · intro returned
      obtain ⟨next, performed, returned⟩ := raised_bind_eq_ok.mp returned
      obtain ⟨isOpen, taken, takes, isStream, isNext⟩ := perform_iff.mp performed
      obtain ⟨last, later, converses, isLater, isEnd⟩ := ih.mp returned
      have tag : next.pkttag = conn.pkttag + call.request.toList.length :=
        congrArg MuxConnection.pkttag isNext
      have connected : next.connected = (conn.connected || call.connects) :=
        congrArg MuxConnection.connected isNext
      refine ⟨fun closed => Bool.noConfusion (isOpen.symm.trans closed), taken ++ later,
        .call takes ?_ (tag ▸ converses), ?_, ?_⟩
      · intro connects
        exact last (by rw [connected, connects, Bool.or_true])
      · rw [List.flatMap_append, List.append_assoc, ← isLater, isStream]
      · rw [← afterCalls_cons conn call calls taken later next.stream, ← isNext]
        exact isEnd
    · rintro ⟨isOpen, _, converses, isStream, isEnd⟩
      cases converses with
      | @call _ _ _ taken later takes last behind =>
        have notYet : conn.connected = false := by
          cases closed : conn.connected with
          | false => rfl
          | true => cases isOpen closed
        rw [List.flatMap_append, List.append_assoc] at isStream
        have performed := (@perform_iff conn (call.after conn taken
          (later.flatMap MuxPacket.bytes ++ conn'.stream)) call).mpr
            ⟨notYet, taken, takes, isStream, rfl⟩
        rw [performed, raised_ok_bind]
        refine ih.mpr ⟨fun closed => last ?_, later, behind, rfl, ?_⟩
        · rwa [MuxCall.after, notYet, Bool.false_or] at closed
        · rw [afterCalls_cons]
          exact isEnd

/-- **Any calls over any bytes.**  The calls on a new connection return when the bytes that
come are the packets they take, and what is left of the stream behind them. -/
theorem run_iff {stream : List UInt8} {calls : List MuxCall} {conn : MuxConnection} :
    (MuxConnection.start stream).run calls = .ok conn ↔
      ∃ packets, Converses 1 calls packets ∧
        stream = packets.flatMap MuxPacket.bytes ++ conn.stream ∧
          conn.sent = requests 1 calls ∧ conn.connected = calls.any MuxCall.connects ∧
            conn.pkttag = 1 + (calls.flatMap fun call => call.request.toList).length ∧
              conn.devices = packets.foldl MuxPacket.news [] := by
  refine runFrom_iff.trans ?_
  constructor
  · rintro ⟨-, packets, converses, isStream, isEnd⟩
    refine ⟨packets, converses, isStream, ?_⟩
    rw [isEnd]
    exact ⟨rfl, rfl, rfl, rfl⟩
  · rintro ⟨packets, converses, isStream, isSent, isConnected, isTag, isDevices⟩
    refine ⟨Bool.noConfusion, packets, converses, isStream, ?_⟩
    cases conn
    cases isSent
    cases isConnected
    cases isTag
    cases isDevices
    rfl

/-- **A device that comes and goes** behind a listen. -/
theorem came_and_went :
    (MuxConnection.start ((muxResult 1 0).bytes ++
      ((DevicePacket.add 0 (recordOf 7 0x61)).muxPacket.bytes ++
        (DevicePacket.remove 0 7).muxPacket.bytes))).run
          [.listen, .process true false, .process true false] =
      .ok ⟨[], [le 4 16 ++ (le 4 0 ++ (le 4 3 ++ (le 4 1 ++ [])))], false, 2, []⟩ := by
  refine run_iff.mpr ⟨[muxResult 1 0, (DevicePacket.add 0 (recordOf 7 0x61)).muxPacket,
    (DevicePacket.remove 0 7).muxPacket], ?_, ?_, rfl, rfl, rfl, rfl⟩
  · have listens : MuxCall.listen.Takes 1 [muxResult 1 0] := ⟨_, rfl, rfl, rfl⟩
    have hears (packet : DevicePacket) :
        (MuxCall.process true false).Takes 2 [packet.muxPacket] := by
      refine ⟨_, rfl, fun number => ?_⟩
      cases packet with
      | add tag record => exact Unpacked.noConfusion
      | remove tag deviceId => exact Unpacked.noConfusion
    exact .call listens Bool.noConfusion (.call (hears _) Bool.noConfusion
      (.call (hears _) Bool.noConfusion .done))
  · simp only [List.flatMap_cons, List.flatMap_nil, List.append_nil]

end Irestore.Usbmux
