/-
# Usbmux.Python — the Python client of usbmuxd, beside the C client

`MuxConnection` of `usbmux.py` keeps a list of the devices it was told of, as the C client
keeps its collection.  It takes a device off the list while it iterates over the list.

* `removeLoop_eq` — what the iteration takes off: a device behind one that was taken off
  is passed over.
* `in_step_iff` — over every sequence of packets, when the two clients hold the same
  devices.
* `third_of_one_id` — three devices under one id.
-/
import Irestore.Usbmux.Devices

namespace Irestore.Usbmux

open Irestore.Library Irestore.Library.Bytes Irestore.Library.CMemory Irestore.Plist

set_option autoImplicit false

/-! ## `usbmux.py` -/

inductive Raised where
  | muxError
  | muxVersionError
  | structError
  deriving DecidableEq

/-- `MuxDevice`. -/
structure MuxDevice where
  devid : Nat
  usbprod : Nat
  serial : List UInt8
  location : Nat
  deriving DecidableEq

/-- `SafeStreamSocket.recv`, which loops until it has what it is asked for. -/
def SafeStreamSocket.recv (size : Nat) (stream : List UInt8) :
    Except Raised (List UInt8 × List UInt8) :=
  if size ≤ stream.length then .ok (stream.take size, stream.drop size) else .error .muxError

/-- `struct.unpack` of a format of this size. -/
def structUnpack {α : Type} (size : Nat) (fields : List UInt8 → α) (bytes : List UInt8) :
    Except Raised α :=
  if bytes.length = size then .ok (fields bytes) else .error .structError

/-- An unsigned number of `width` bytes. -/
def unsignedAt (bytes : List UInt8) (off width : Nat) : Nat := ofLE (slice bytes off width)

inductive Unpacked where
  | result (number : Nat)
  | deviceAdd (device : MuxDevice)
  | deviceRemove (devid : Nat)

/-- `BinaryProtocol._unpack`.  The fields of `IH256sHI` stand without gaps between them. -/
def BinaryProtocol.unpack (resp : Nat) (payload : List UInt8) : Except Raised Unpacked :=
  if resp = 1 then structUnpack 4 (fun bytes => .result (unsignedAt bytes 0 4)) payload
  else if resp = 4 then
    structUnpack 268 (fun bytes => .deviceAdd
      ⟨unsignedAt bytes 0 4, unsignedAt bytes 4 2, cString (slice bytes 6 256),
        unsignedAt bytes 264 4⟩) payload
  else if resp = 5 then structUnpack 4 (fun bytes => .deviceRemove (unsignedAt bytes 0 4)) payload
  else .error .muxError

/-- `BinaryProtocol.getpacket`: the type, the tag and the payload. -/
def BinaryProtocol.getpacket (stream : List UInt8) :
    Except Raised ((Nat × Nat × Unpacked) × List UInt8) := do
  let (dlen, stream) ← SafeStreamSocket.recv 4 stream
  let dlen ← structUnpack 4 ofLE dlen
  let (body, stream) ← SafeStreamSocket.recv (dlen - 4) stream
  let (version, resp, tag) ← structUnpack 12
    (fun bytes => (unsignedAt bytes 0 4, unsignedAt bytes 4 4, unsignedAt bytes 8 4)) (body.take 12)
  if version ≠ 0 then .error .muxVersionError
  else do
    let payload ← BinaryProtocol.unpack resp (body.drop 12)
    return ((resp, tag, payload), stream)

/-- The iteration that takes off the devices of an id, from position `i` on.  The objects
are different ones, so `remove` takes off the one at the position; the next position is
then that of the device after the next. -/
def removeLoop (devid : Nat) : Nat → Nat → List MuxDevice → List MuxDevice
  | 0, _, devices => devices
  | n + 1, i, devices =>
      match devices[i]? with
      | none => devices
      | some dev =>
          if dev.devid = devid then removeLoop devid n (i + 1) (devices.eraseIdx i)
          else removeLoop devid n (i + 1) devices

/-- `MuxConnection._processpacket`: the devices, and what is left of the stream. -/
def MuxConnection.processpacket (devices : List MuxDevice) (stream : List UInt8) :
    Except Raised (List MuxDevice × List UInt8) := do
  let ((_, _, data), stream) ← BinaryProtocol.getpacket stream
  match data with
  | .deviceAdd device => return (devices ++ [device], stream)
  | .deviceRemove devid => return (removeLoop devid devices.length 0 devices, stream)
  | .result _ => .error .muxError

/-! ## Packets -/

/-- A `struct usbmuxd_device_record` whose serial number has at most 40 characters. -/
structure DeviceRecord where
  deviceId : UInt32
  productId : UInt16
  serialNumber : List UInt8
  padding : UInt16
  location : UInt32
  width : serialNumber.length = 256
  short : (cString serialNumber).length ≤ 40

def DeviceRecord.bytes (record : DeviceRecord) : List UInt8 :=
  le 4 record.deviceId.toNat ++ (le 2 record.productId.toNat ++ (record.serialNumber ++
    (le 2 record.padding.toNat ++ le 4 record.location.toNat)))

/-- A packet about a device, of version 0 and with its whole payload. -/
inductive DevicePacket where
  | add (tag : UInt32) (record : DeviceRecord)
  | remove (tag deviceId : UInt32)

namespace DevicePacket

def header : DevicePacket → UsbmuxdHeader
  | .add tag _ => ⟨284, 0, MESSAGE_DEVICE_ADD, tag⟩
  | .remove tag _ => ⟨20, 0, MESSAGE_DEVICE_REMOVE, tag⟩

def payload : DevicePacket → List UInt8
  | .add _ record => record.bytes
  | .remove _ deviceId => le 4 deviceId.toNat

/-- The packet on the wire. -/
def bytes (packet : DevicePacket) : List UInt8 :=
  le 4 packet.header.length.toNat ++ (le 4 packet.header.version.toNat ++
    (le 4 packet.header.message.toNat ++ (le 4 packet.header.tag.toNat ++ packet.payload)))

/-- The packet as the two receives of the C client give it. -/
def arrival (packet : DevicePacket) : Arrival := ⟨16, packet.header, some packet.payload⟩

end DevicePacket

/-! ## The two clients -/

/-- What a device is known by: its id, its product and its serial number. -/
def MuxDevice.key (dev : MuxDevice) : Nat × Nat × List UInt8 := (dev.devid, dev.usbprod, dev.serial)

def UsbmuxdDeviceInfo.key (info : UsbmuxdDeviceInfo) : Nat × Nat × List UInt8 :=
  (info.handle.toNat, info.productId, cString info.uuid)

/-- The two clients hold the same devices. -/
def Same (python : List MuxDevice) (client : Devices) : Prop :=
  (python.map MuxDevice.key).Perm (client.collection.infos.map UsbmuxdDeviceInfo.key)

section Runs

variable (fromXml : List UInt8 → Checked (Option PlistNode))

/-- What one packet makes of the two clients; `allocated` says whether the C client gets a
block for a new device. -/
structure Both (python : List MuxDevice) (client : Devices) (packet : DevicePacket)
    (allocated : Bool) (python' : List MuxDevice) (client' : Devices) : Prop where
  python : MuxConnection.processpacket python packet.bytes = .ok (python', [])
  client : ∃ ret, getNextEvent fromXml client packet.arrival allocated = .ok (client', ret)

/-- The two clients hold the same devices, now and behind every packet. -/
def InStep : List MuxDevice → Devices → List (DevicePacket × Bool) → Prop
  | python, client, [] => Same python client
  | python, client, (packet, allocated) :: rest =>
      Same python client ∧ ∃ python' client',
        Both fromXml python client packet allocated python' client' ∧ InStep python' client' rest

/-- A device can be kept by the C client; no device of an id to be taken off stands behind
the first one's next neighbour, and the first one is what the C client finds first. -/
def Alike (python : List MuxDevice) (client : Devices) (packet : DevicePacket)
    (allocated : Bool) : Prop :=
  match packet with
  | .add _ _ =>
      allocated = true ∧
        (none ∈ client.collection.slots ∨ client.collection.slots.length * 2 < 2 ^ 31)
  | .remove _ id =>
      (∀ dev ∈ (python.dropWhile fun dev => dev.devid ≠ id.toNat).drop 2, dev.devid ≠ id.toNat) ∧
        (python.find? fun dev => dev.devid = id.toNat).map MuxDevice.key =
          (devicesFind client.collection id).map fun device => device.info.key

/-- Every packet is alike for the two clients it finds. -/
def AllAlike : List MuxDevice → Devices → List (DevicePacket × Bool) → Prop
  | _, _, [] => True
  | python, client, (packet, allocated) :: rest =>
      Alike python client packet allocated ∧ ∀ python' client',
        Both fromXml python client packet allocated python' client' → AllAlike python' client' rest

end Runs

/-! ## Taking devices off a list -/

/-- Without the devices of an id, but for those passed over. -/
def removeSkipping (devid : Nat) : List MuxDevice → List MuxDevice
  | [] => []
  | [dev] => if dev.devid = devid then [] else [dev]
  | dev :: next :: rest =>
      if dev.devid = devid then next :: removeSkipping devid rest
      else dev :: removeSkipping devid (next :: rest)

theorem removeSkipping_cons_of_ne {devid : Nat} {dev : MuxDevice} (other : dev.devid ≠ devid)
    (rest : List MuxDevice) :
    removeSkipping devid (dev :: rest) = dev :: removeSkipping devid rest := by
  cases rest with
  | nil => simp only [removeSkipping, if_neg other]
  | cons next rest => rw [removeSkipping, if_neg other]

theorem removeSkipping_append {devid : Nat} : ∀ {front : List MuxDevice},
    (∀ dev ∈ front, dev.devid ≠ devid) → ∀ rest,
      removeSkipping devid (front ++ rest) = front ++ removeSkipping devid rest
  | [], _, _ => rfl
  | dev :: front, absent, rest => by
      rw [List.cons_append, removeSkipping_cons_of_ne (absent dev List.mem_cons_self),
        removeSkipping_append fun other member => absent other (List.mem_cons_of_mem _ member)]
      rfl

theorem removeSkipping_absent {devid : Nat} {devices : List MuxDevice}
    (absent : ∀ dev ∈ devices, dev.devid ≠ devid) : removeSkipping devid devices = devices := by
  have whole := removeSkipping_append absent []
  rwa [List.append_nil, removeSkipping, List.append_nil] at whole

/-- The iteration from behind `front` on. -/
theorem removeLoop_append {devid : Nat} : ∀ (n : Nat) (front rest : List MuxDevice),
    rest.length ≤ n →
      removeLoop devid n front.length (front ++ rest) = front ++ removeSkipping devid rest
  | 0, front, rest, enough => by
      rw [List.length_eq_zero_iff.mp (Nat.le_zero.mp enough)]
      rfl
  | n + 1, front, [], _ => by
      rw [removeLoop, List.append_nil, List.getElem?_eq_none (Nat.le_refl _), removeSkipping,
        List.append_nil]
  | n + 1, front, dev :: rest, enough => by
      have here : (front ++ dev :: rest)[front.length]? = some dev := by simp
      have erased : (front ++ dev :: rest).eraseIdx front.length = front ++ rest := by
        rw [List.eraseIdx_append_of_length_le (Nat.le_refl _), Nat.sub_self]
        rfl
      rw [List.length_cons] at enough
      rw [removeLoop, here]
      dsimp only
      split
      · rename_i hit
        rw [erased]
        cases rest with
        | nil =>
          -- the position is past the end of what is left
          rw [removeSkipping, if_pos hit, List.append_nil]
          cases n with
          | zero => rfl
          | succ n => rw [removeLoop, List.getElem?_eq_none (Nat.le_succ _)]
        | cons next rest =>
          have step := @removeLoop_append devid n (front ++ [next]) rest (by
            rw [List.length_cons] at enough
            omega)
          rw [removeSkipping, if_pos hit]
          rw [List.length_append, List.append_assoc, List.append_assoc] at step
          exact step
      · rename_i other
        have step := @removeLoop_append devid n (front ++ [dev]) rest (by omega)
        rw [removeSkipping_cons_of_ne other]
        rw [List.length_append, List.append_assoc, List.append_assoc] at step
        exact step

/-- **What the iteration takes off**: the first device of the id, and those behind it that
do not stand directly behind one taken off. -/
theorem removeLoop_eq (devid : Nat) (devices : List MuxDevice) :
    removeLoop devid devices.length 0 devices = removeSkipping devid devices :=
  removeLoop_append devices.length [] devices (Nat.le_refl _)

theorem length_removeSkipping_le (devid : Nat) : ∀ devices : List MuxDevice,
    (removeSkipping devid devices).length ≤ devices.length
  | [] => Nat.le_refl _
  | [dev] => by
      rw [removeSkipping]
      split <;> simp
  | dev :: next :: rest => by
      have tail := length_removeSkipping_le devid (next :: rest)
      have skipped := length_removeSkipping_le devid rest
      rw [removeSkipping]
      split
      · simp only [List.length_cons] at skipped ⊢
        omega
      · simp only [List.length_cons] at tail ⊢
        omega

/-- A device of the id is taken off. -/
theorem length_removeSkipping_lt {devid : Nat} : ∀ {devices : List MuxDevice} {dev : MuxDevice},
    dev ∈ devices → dev.devid = devid → (removeSkipping devid devices).length < devices.length
  | [only], dev, member, hit => by
      rw [List.mem_singleton.mp member] at hit
      rw [removeSkipping, if_pos hit]
      exact Nat.zero_lt_one
  | first :: next :: rest, dev, member, hit => by
      have skipped := length_removeSkipping_le devid rest
      rw [removeSkipping]
      split
      · simp only [List.length_cons] at skipped ⊢
        omega
      · rename_i other
        rcases List.mem_cons.mp member with rfl | later
        · exact absurd hit other
        · have tail := length_removeSkipping_lt later hit
          simp only [List.length_cons] at tail ⊢
          omega

/-- The first device of the id, and what stands behind it. -/
theorem split_of_found {devid : Nat} {devices : List MuxDevice} {dev : MuxDevice}
    (found : (devices.find? fun dev => dev.devid = devid) = some dev) :
    dev.devid = devid ∧ ∃ front rest, devices = front ++ dev :: rest ∧
      (∀ other ∈ front, other.devid ≠ devid) ∧
      (devices.dropWhile fun dev => dev.devid ≠ devid) = dev :: rest := by
  obtain ⟨hit, front, rest, rfl, absent⟩ := List.find?_eq_some_iff_append.mp found
  have isHit : dev.devid = devid := by simpa using hit
  have passed : ∀ other ∈ front, other.devid ≠ devid := fun other member => by
    simpa using absent other member
  refine ⟨isHit, front, rest, rfl, passed, ?_⟩
  rw [List.dropWhile_append_of_pos fun other member => decide_eq_true (passed other member),
    List.dropWhile_cons_of_neg (by simpa using isHit)]

/-- One device is taken off when no other of the id stands behind its next neighbour. -/
theorem removeSkipping_one {devid : Nat} {devices : List MuxDevice} {dev : MuxDevice}
    (found : (devices.find? fun dev => dev.devid = devid) = some dev)
    (lone : ∀ other ∈ (devices.dropWhile fun dev => dev.devid ≠ devid).drop 2,
      other.devid ≠ devid) :
    (dev :: removeSkipping devid devices).Perm devices := by
  obtain ⟨hit, front, rest, rfl, absent, behind⟩ := split_of_found found
  rw [behind] at lone
  rw [removeSkipping_append absent]
  have taken : removeSkipping devid (dev :: rest) = rest := by
    cases rest with
    | nil => rw [removeSkipping, if_pos hit]
    | cons next rest =>
      have behind : removeSkipping devid rest = rest := removeSkipping_absent lone
      rw [removeSkipping, if_pos hit, behind]
  rw [taken]
  exact List.perm_middle.symm

/-- More than one is taken off otherwise. -/
theorem removeSkipping_more {devid : Nat} {devices : List MuxDevice} {dev other : MuxDevice}
    (found : (devices.find? fun dev => dev.devid = devid) = some dev)
    (member : other ∈ (devices.dropWhile fun dev => dev.devid ≠ devid).drop 2)
    (same : other.devid = devid) :
    (removeSkipping devid devices).length + 1 < devices.length := by
  obtain ⟨hit, front, rest, rfl, absent, behind⟩ := split_of_found found
  rw [behind] at member
  rw [removeSkipping_append absent]
  cases rest with
  | nil => cases member
  | cons next rest =>
    have fewer : (removeSkipping devid rest).length < rest.length :=
      length_removeSkipping_lt member same
    rw [removeSkipping, if_pos hit]
    simp only [List.length_append, List.length_cons]
    omega

/-! ## One packet -/

/-- The device the Python client makes of a record. -/
def DeviceRecord.device (record : DeviceRecord) : MuxDevice :=
  ⟨record.deviceId.toNat, record.productId.toNat, cString record.serialNumber,
    record.location.toNat⟩

theorem length_payload (packet : DevicePacket) :
    packet.payload.length + 16 = packet.header.length.toNat := by
  cases packet with
  | add tag record =>
    simp [DevicePacket.payload, DeviceRecord.bytes, DevicePacket.header, record.width]
  | remove tag deviceId => simp [DevicePacket.payload, DevicePacket.header]

theorem raised_ok_bind {α β : Type} (a : α) (next : α → Except Raised β) :
    (Except.ok a >>= next) = next a := rfl

theorem recv_append {front back : List UInt8} {size : Nat} (width : front.length = size) :
    SafeStreamSocket.recv size (front ++ back) = .ok (front, back) := by
  have fits : size ≤ (front ++ back).length := by
    rw [List.length_append]
    omega
  rw [SafeStreamSocket.recv, if_pos fits, List.take_left' width, List.drop_left' width]

theorem structUnpack_ok {α : Type} {size : Nat} {fields : List UInt8 → α} {bytes : List UInt8}
    (width : bytes.length = size) : structUnpack size fields bytes = .ok (fields bytes) :=
  if_pos width

theorem unsignedAt_append {front back : List UInt8} {off width n : Nat}
    (here : front.length = off) (fits : n < 256 ^ width) :
    unsignedAt (front ++ (le width n ++ back)) off width = n := by
  have start := slice_append_right front (le width n ++ back) 0 width
  rw [Nat.add_zero, here] at start
  rw [unsignedAt, start, slice, List.drop_zero, List.take_left' (length_le width n), ofLE_le fits]

theorem getpacket_bytes (packet : DevicePacket) {data : Unpacked}
    (unpacked : BinaryProtocol.unpack packet.header.message.toNat packet.payload = .ok data) :
    BinaryProtocol.getpacket packet.bytes =
      .ok ((packet.header.message.toNat, packet.header.tag.toNat, data), []) := by
  have total := length_payload packet
  have version : packet.header.version.toNat = 0 := by cases packet <;> rfl
  have small : ∀ word : UInt32, word.toNat < 256 ^ 4 := fun word => word.toNat_lt
  have head : structUnpack 4 ofLE (le 4 packet.header.length.toNat) =
      .ok packet.header.length.toNat := by
    rw [structUnpack_ok (length_le _ _), ofLE_le (small _)]
  have words : (le 4 packet.header.version.toNat ++ (le 4 packet.header.message.toNat ++
      (le 4 packet.header.tag.toNat ++ packet.payload))).take 12 =
        le 4 packet.header.version.toNat ++ (le 4 packet.header.message.toNat ++
          (le 4 packet.header.tag.toNat ++ [])) := by
    rw [← List.append_assoc, ← List.append_assoc, List.take_left' (by simp), List.append_nil,
      List.append_assoc]
  have behind : (le 4 packet.header.version.toNat ++ (le 4 packet.header.message.toNat ++
      (le 4 packet.header.tag.toNat ++ packet.payload))).drop 12 = packet.payload := by
    rw [← List.append_assoc, ← List.append_assoc, List.drop_left' (by simp)]
  have first := @unsignedAt_append [] (le 4 packet.header.message.toNat ++
    (le 4 packet.header.tag.toNat ++ [])) 0 4 _ rfl (small packet.header.version)
  have second := @unsignedAt_append (le 4 packet.header.version.toNat)
    (le 4 packet.header.tag.toNat ++ []) 4 4 _ (length_le _ _) (small packet.header.message)
  have third := @unsignedAt_append (le 4 packet.header.version.toNat ++
    le 4 packet.header.message.toNat) [] 8 4 _ (by simp) (small packet.header.tag)
  rw [List.nil_append] at first
  rw [List.append_assoc] at third
  rw [BinaryProtocol.getpacket, DevicePacket.bytes, recv_append (length_le _ _), raised_ok_bind]
  dsimp only
  rw [head, raised_ok_bind, ← List.append_nil (le 4 packet.header.version.toNat ++ _),
    recv_append (by simp; omega), raised_ok_bind]
  dsimp only
  rw [words, structUnpack_ok (by simp), raised_ok_bind]
  dsimp only
  rw [first, second, third, behind, version, if_neg (not_not.mpr rfl), unpacked, raised_ok_bind]
  rfl

theorem unpack_add (record : DeviceRecord) :
    BinaryProtocol.unpack 4 record.bytes = .ok (.deviceAdd record.device) := by
  have devid := @unsignedAt_append [] (le 2 record.productId.toNat ++ (record.serialNumber ++
    (le 2 record.padding.toNat ++ le 4 record.location.toNat))) 0 4 _ rfl record.deviceId.toNat_lt
  have usbpid := @unsignedAt_append (le 4 record.deviceId.toNat) (record.serialNumber ++
    (le 2 record.padding.toNat ++ le 4 record.location.toNat)) 4 2 _ (length_le _ _)
    record.productId.toNat_lt
  have serial : slice record.bytes 6 256 = record.serialNumber := by
    rw [DeviceRecord.bytes, ← List.append_assoc, ← record.width]
    exact slice_of_drop (List.drop_left' (by simp))
  have location := @unsignedAt_append (le 4 record.deviceId.toNat ++
    (le 2 record.productId.toNat ++ (record.serialNumber ++ le 2 record.padding.toNat))) [] 264 4 _
    (by simp [record.width]) record.location.toNat_lt
  simp only [List.append_assoc, List.nil_append, List.append_nil] at devid usbpid location
  rw [← DeviceRecord.bytes] at devid usbpid location
  rw [BinaryProtocol.unpack, if_neg (by decide), if_pos rfl,
    structUnpack_ok (by simp [DeviceRecord.bytes, record.width]), devid, usbpid, serial, location]
  rfl

/-- A payload of one word, as it stands in a result and in the removal of a device. -/
theorem structUnpack_word {α : Type} {n : Nat} (fits : n < 256 ^ 4) (make : Nat → α) :
    structUnpack 4 (fun bytes => make (unsignedAt bytes 0 4)) (le 4 n) = .ok (make n) := by
  have word := @unsignedAt_append [] [] 0 4 _ rfl fits
  rw [List.nil_append, List.append_nil] at word
  rw [structUnpack_ok (length_le _ _), word]

theorem unpack_remove (deviceId : UInt32) :
    BinaryProtocol.unpack 5 (le 4 deviceId.toNat) = .ok (.deviceRemove deviceId.toNat) := by
  rw [BinaryProtocol.unpack, if_neg (by decide), if_neg (by decide), if_pos rfl]
  exact structUnpack_word deviceId.toNat_lt Unpacked.deviceRemove

theorem processpacket_add (python : List MuxDevice) (tag : UInt32) (record : DeviceRecord) :
    MuxConnection.processpacket python (DevicePacket.add tag record).bytes =
      .ok (python ++ [record.device], []) := by
  have got := @getpacket_bytes (.add tag record) _ (unpack_add record)
  rw [MuxConnection.processpacket, got]
  rfl

theorem processpacket_remove (python : List MuxDevice) (tag deviceId : UInt32) :
    MuxConnection.processpacket python (DevicePacket.remove tag deviceId).bytes =
      .ok (removeSkipping deviceId.toNat python, []) := by
  have got := @getpacket_bytes (.remove tag deviceId) _ (unpack_remove deviceId)
  rw [MuxConnection.processpacket, got, ← removeLoop_eq]
  rfl

/-- What the C client keeps of a record. -/
def DeviceRecord.info (record : DeviceRecord) : UsbmuxdDeviceInfo :=
  ⟨record.deviceId, record.productId.toNat, record.serialNumber.take 41⟩

theorem deviceInfo_bytes (record : DeviceRecord) : deviceInfo record.bytes = .ok record.info := by
  have front : record.bytes.take 47 = le 4 record.deviceId.toNat ++
      (le 2 record.productId.toNat ++ record.serialNumber.take 41) := by
    have within : 41 ≤ record.serialNumber.length := by
      rw [record.width]
      decide
    rw [DeviceRecord.bytes, List.take_append, length_le, List.take_of_length_le (by simp),
      List.take_append, length_le, List.take_of_length_le (by simp),
      List.take_append_of_le_length within]
  have enough : 47 ≤ record.bytes.length := by simp [DeviceRecord.bytes, record.width]
  rw [deviceInfo, memcpy, if_pos enough, ok_bind, front, List.take_left' (length_le _ _),
    ofLE_le record.deviceId.toNat_lt, List.drop_left' (length_le _ _),
    List.take_left' (length_le _ _), ofLE_le record.productId.toNat_lt, ← List.append_assoc,
    List.drop_left' (by simp), UInt32.ofNat_toNat]
  rfl

theorem cString_take {block : List UInt8} {n : Nat} (short : (cString block).length < n) :
    cString (block.take n) = cString block := by
  induction block generalizing n with
  | nil => rw [List.take_nil]
  | cons b bs ih =>
    obtain ⟨m, rfl⟩ : ∃ m, n = m + 1 := ⟨n - 1, by omega⟩
    rw [cString, List.takeWhile_cons] at short
    rw [List.take_succ_cons, cString, cString, List.takeWhile_cons, List.takeWhile_cons]
    split
    · rename_i differ
      rw [if_pos differ, List.length_cons] at short
      exact congrArg (b :: ·) (ih (Nat.lt_of_succ_lt_succ short))
    · rfl

/-- Both clients make the same of a record. -/
theorem key_device (record : DeviceRecord) : record.device.key = record.info.key := by
  have short := record.short
  rw [DeviceRecord.device, DeviceRecord.info, MuxDevice.key, UsbmuxdDeviceInfo.key,
    cString_take (by omega)]

section Steps

variable {fromXml : List UInt8 → Checked (Option PlistNode)} {client : Devices}

theorem receivePacket_arrival (packet : DevicePacket) :
    receivePacket fromXml packet.arrival =
      .ok (.whole packet.header (some (some packet.payload))) := by
  have announced : packet.header.length - 16 ≠ 0 := by
    cases packet with
    | add tag record => exact (by decide : (284 : UInt32) - 16 ≠ 0)
    | remove tag deviceId => exact (by decide : (20 : UInt32) - 16 ≠ 0)
  have isBinary : packet.header.message ≠ MESSAGE_PLIST := by
    cases packet with
    | add tag record => exact (by decide : MESSAGE_DEVICE_ADD ≠ MESSAGE_PLIST)
    | remove tag deviceId => exact (by decide : MESSAGE_DEVICE_REMOVE ≠ MESSAGE_PLIST)
  have came : ¬ packet.arrival.received < 16 := Int.lt_irrefl 16
  rw [receivePacket, if_neg came, DevicePacket.arrival]
  dsimp only
  rw [if_neg announced, interpretPacket, if_neg isBinary]
  rfl

theorem getNextEvent_add (tag : UInt32) (record : DeviceRecord) (allocated : Bool) :
    getNextEvent fromXml client (DevicePacket.add tag record).arrival allocated =
      if allocated then do
        let collection ← collectionAdd client.collection ⟨client.next, record.info⟩
        return (Devices.generateEvent ⟨collection, client.next + 1, client.history⟩
          (.added record.info), 0)
      else .ok (client, -1) := by
  rw [getNextEvent, receivePacket_arrival, ok_bind]
  cases allocated with
  | false => rfl
  | true =>
    show (do let info ← deviceInfo record.bytes; _) = _
    rw [deviceInfo_bytes]
    rfl

theorem getNextEvent_remove (tag deviceId : UInt32) (allocated : Bool) :
    getNextEvent fromXml client (DevicePacket.remove tag deviceId).arrival allocated =
      match devicesFind client.collection deviceId with
      | none => .ok (client, 0)
      | some device => .ok (client.remove device, 0) := by
  have handle : memcpy (le 4 deviceId.toNat) 4 = .ok (le 4 deviceId.toNat) := by
    simp [memcpy, List.take_of_length_le]
  have same : UInt32.ofNat (ofLE (le 4 deviceId.toNat)) = deviceId := by
    rw [ofLE_le deviceId.toNat_lt, UInt32.ofNat_toNat]
  rw [getNextEvent, receivePacket_arrival, ok_bind]
  show (do let handle ← memcpy (le 4 deviceId.toNat) 4; _) = _
  rw [handle, ok_bind, same]
  cases devicesFind client.collection deviceId <;> rfl

/-! ### The bags of keys -/

theorem keys_add {grown : Collection} {record : DeviceRecord}
    (run : collectionAdd client.collection ⟨client.next, record.info⟩ = .ok grown) :
    (grown.infos.map UsbmuxdDeviceInfo.key).Perm
      (record.info.key :: client.collection.infos.map UsbmuxdDeviceInfo.key) :=
  ((entries_add run).map Device.info).map UsbmuxdDeviceInfo.key

theorem keys_remove (fine : Fine client) {device : Device}
    (member : device ∈ client.collection.entries) :
    (device.info.key :: (client.remove device).collection.infos.map UsbmuxdDeviceInfo.key).Perm
      (client.collection.infos.map UsbmuxdDeviceInfo.key) :=
  ((entries_remove member fine.distinct).map Device.info).map UsbmuxdDeviceInfo.key

/-- Two bags stay the same when one key is taken from each exactly when it is one key. -/
theorem perm_of_cons_iff {α : Type} {a b : α} {xs xs' ys ys' : List α} (same : xs.Perm ys)
    (first : (a :: xs').Perm xs) (second : (b :: ys').Perm ys) : xs'.Perm ys' ↔ a = b := by
  have both : (a :: xs').Perm (b :: ys') := (first.trans same).trans second.symm
  constructor
  · intro rest
    have whole : (a ::ₘ (xs' : Multiset α)) = b ::ₘ xs' :=
      Multiset.coe_eq_coe.mpr (both.trans (rest.symm.cons b))
    exact (Multiset.cons_inj_left _).mp whole
  · rintro rfl
    exact both.cons_inv

/-- While they hold the same devices, an id is known to one client when it is to the
other. -/
theorem found_iff {python : List MuxDevice} (same : Same python client) (id : UInt32) :
    (python.find? fun dev => dev.devid = id.toNat) = none ↔
      devicesFind client.collection id = none := by
  have ids : (python.map MuxDevice.devid).Perm
      (client.collection.entries.map fun device => device.info.handle.toNat) := by
    have firsts := same.map Prod.fst
    rw [Collection.infos, List.map_map, List.map_map, List.map_map] at firsts
    exact firsts
  have known : id.toNat ∈ python.map MuxDevice.devid ↔
      id.toNat ∈ client.collection.entries.map fun device => device.info.handle.toNat :=
    ids.mem_iff
  rw [devicesFind, List.find?_eq_none, List.find?_eq_none]
  simp only [List.mem_map, UInt32.toNat_inj] at known
  simp only [decide_eq_true_eq]
  constructor
  · intro absent device member hit
    obtain ⟨dev, there, isId⟩ := known.mpr ⟨device, member, hit⟩
    exact absent dev there isId
  · intro absent dev member hit
    obtain ⟨device, there, isId⟩ := known.mp ⟨dev, member, hit⟩
    exact absent device there isId

/-- A device more for both, when the C client has a block and a slot for it. -/
theorem alike_add_iff {python : List MuxDevice} (same : Same python client) (tag : UInt32)
    (record : DeviceRecord) (allocated : Bool) :
    (∃ python' client', Both fromXml python client (.add tag record) allocated python' client' ∧
        Same python' client') ↔ Alike python client (.add tag record) allocated := by
  have longer : ((python ++ [record.device]).map MuxDevice.key).Perm
      (record.info.key :: client.collection.infos.map UsbmuxdDeviceInfo.key) := by
    rw [List.map_append, ← key_device]
    exact (List.perm_append_singleton _ _).trans (same.cons _)
  cases allocated with
  | false =>
    refine iff_of_false ?_ fun alike => Bool.false_ne_true alike.1
    rintro ⟨python', client', ⟨py, ret, c⟩, after⟩
    cases (processpacket_add python tag record).symm.trans py
    cases (getNextEvent_add tag record false).symm.trans c
    have count := longer.length_eq.symm.trans after.length_eq
    rw [List.length_cons] at count
    omega
  | true =>
    have room := @collectionAdd_ends_iff client.collection ⟨client.next, record.info⟩
    constructor
    · rintro ⟨python', client', ⟨-, ret, c⟩, -⟩
      obtain ⟨grown, added, -⟩ := bind_eq_ok.mp ((getNextEvent_add tag record true).symm.trans c)
      exact ⟨rfl, room.mp ⟨grown, added⟩⟩
    · intro alike
      obtain ⟨grown, added⟩ := room.mpr alike.2
      refine ⟨_, Devices.generateEvent ⟨grown, client.next + 1, client.history⟩
        (.added record.info), ⟨processpacket_add python tag record, 0, ?_⟩, ?_⟩
      · rw [getNextEvent_add, if_pos rfl, added]
        rfl
      · exact longer.trans (keys_add added).symm

/-- A device less for both, when the Python client takes off one only and it is the one that
the C client takes off. -/
theorem alike_remove_iff {python : List MuxDevice} (fine : Fine client)
    (same : Same python client) (tag id : UInt32) (allocated : Bool) :
    (∃ python' client', Both fromXml python client (.remove tag id) allocated python' client' ∧
        Same python' client') ↔ Alike python client (.remove tag id) allocated := by
  have py := processpacket_remove python tag id
  have c := @getNextEvent_remove fromXml client tag id allocated
  have known := found_iff same id
  rw [Alike]
  cases found : python.find? fun dev => dev.devid = id.toNat with
  | none =>
    have unknown := known.mp found
    have absent : ∀ dev ∈ python, dev.devid ≠ id.toNat := fun dev member => by
      simpa using List.find?_eq_none.mp found dev member
    have passed : (python.dropWhile fun dev => dev.devid ≠ id.toNat) = [] :=
      List.dropWhile_eq_nil_iff.mpr fun dev member => decide_eq_true (absent dev member)
    rw [unknown] at c ⊢
    rw [removeSkipping_absent absent] at py
    refine iff_of_true ⟨python, client, ⟨py, 0, c⟩, same⟩ ⟨fun dev member => ?_, rfl⟩
    rw [passed] at member
    cases member
  | some dev =>
    cases held : devicesFind client.collection id with
    | none => cases found.symm.trans (known.mpr held)
    | some device =>
      rw [held] at c
      have member : device ∈ client.collection.entries := List.mem_of_find?_eq_some held
      have less := keys_remove fine member
      constructor
      · rintro ⟨python', client', ⟨py', ret, c'⟩, after⟩
        cases py.symm.trans py'
        cases c.symm.trans c'
        have lone : ∀ other ∈ (python.dropWhile fun dev => dev.devid ≠ id.toNat).drop 2,
            other.devid ≠ id.toNat := by
          intro other behind isId
          have more := removeSkipping_more found behind isId
          have count := less.length_eq.trans same.length_eq.symm
          have left := after.length_eq
          simp only [List.length_cons, List.length_map] at count left
          omega
        have first := (removeSkipping_one found lone).map MuxDevice.key
        exact ⟨lone, congrArg some ((perm_of_cons_iff same first less).mp after)⟩
      · rintro ⟨lone, firsts⟩
        have first := (removeSkipping_one found lone).map MuxDevice.key
        refine ⟨_, _, ⟨py, 0, c⟩, (perm_of_cons_iff same first less).mpr ?_⟩
        exact Option.some.inj firsts

/-- **One packet.** -/
theorem alike_iff {python : List MuxDevice} (fine : Fine client) (same : Same python client)
    (packet : DevicePacket) (allocated : Bool) :
    (∃ python' client', Both fromXml python client packet allocated python' client' ∧
        Same python' client') ↔ Alike python client packet allocated := by
  cases packet with
  | add tag record => exact alike_add_iff same tag record allocated
  | remove tag id => exact alike_remove_iff fine same tag id allocated

/-- What a packet makes of the two clients is determined. -/
theorem Both.unique {python python₁ python₂ : List MuxDevice} {client₁ client₂ : Devices}
    {packet : DevicePacket} {allocated : Bool}
    (one : Both fromXml python client packet allocated python₁ client₁)
    (two : Both fromXml python client packet allocated python₂ client₂) :
    python₁ = python₂ ∧ client₁ = client₂ := by
  obtain ⟨ret₁, c₁⟩ := one.client
  obtain ⟨ret₂, c₂⟩ := two.client
  cases one.python.symm.trans two.python
  cases c₁.symm.trans c₂
  exact ⟨rfl, rfl⟩

theorem inStep_iff : ∀ {packets : List (DevicePacket × Bool)} {python : List MuxDevice}
    {client : Devices}, Fine client → Same python client →
      (InStep fromXml python client packets ↔ AllAlike fromXml python client packets)
  | [], _, _, _, same => iff_of_true same trivial
  | (packet, allocated) :: rest, python, client, fine, same => by
      rw [InStep, AllAlike, ← @alike_iff fromXml client python fine same packet allocated]
      constructor
      · rintro ⟨-, python', client', both, later⟩
        have after : Same python' client' := by
          cases rest with
          | nil => exact later
          | cons next rest => exact later.1
        refine ⟨⟨python', client', both, after⟩, fun python₂ client₂ again => ?_⟩
        obtain ⟨rfl, rfl⟩ := both.unique again
        obtain ⟨ret, run⟩ := both.client
        exact (inStep_iff (fine.step run) after).mp later
      · rintro ⟨⟨python', client', both, after⟩, later⟩
        obtain ⟨ret, run⟩ := both.client
        exact ⟨same, python', client', both,
          (inStep_iff (fine.step run) after).mpr (later python' client' both)⟩

end Steps

/-- **The two clients hold the same devices behind every packet exactly when every packet
is alike for them.** -/
theorem in_step_iff (fromXml : List UInt8 → Checked (Option PlistNode))
    (packets : List (DevicePacket × Bool)) :
    InStep fromXml [] .start packets ↔ AllAlike fromXml [] .start packets :=
  inStep_iff fine_start (.refl _)

/-- A record of a serial number. -/
def recordOf (deviceId : UInt32) (serial : UInt8) : DeviceRecord where
  deviceId := deviceId
  productId := 0x1290
  serialNumber := serial :: List.replicate 255 0
  padding := 0
  location := 0
  width := by rw [List.length_cons, List.length_replicate]
  short := by
    rw [cString, List.takeWhile_cons]
    split
    · rw [List.replicate_succ, List.takeWhile_cons, if_neg (by decide)]
      exact Nat.le_of_ble_eq_true rfl
    · exact Nat.zero_le _

/-- **Three devices under one id**: the Python client takes off the first and the third, the
C client the first. -/
theorem third_of_one_id :
    ¬ InStep (fun _ => .ok none) [] .start
      [(.add 0 (recordOf 1 0x61), true), (.add 0 (recordOf 1 0x62), true),
        (.add 0 (recordOf 1 0x63), true), (.remove 0 1, true)] := by
  rintro ⟨-, _, _, first, -, _, _, second, -, _, _, third, same, _, _, removed, after⟩
  cases (processpacket_add [] 0 (recordOf 1 0x61)).symm.trans first.python
  cases (processpacket_add _ 0 (recordOf 1 0x62)).symm.trans second.python
  cases (processpacket_add _ 0 (recordOf 1 0x63)).symm.trans third.python
  obtain ⟨_, run₁⟩ := first.client
  obtain ⟨_, run₂⟩ := second.client
  obtain ⟨_, run₃⟩ := third.client
  have fine := ((fine_start.step run₁).step run₂).step run₃
  have alike := (alike_remove_iff fine same 0 1 true).mp ⟨_, _, removed, after⟩
  have behind : (recordOf 1 0x63).device ∈ [(recordOf 1 0x63).device] := List.mem_cons_self
  exact alike.1 _ behind rfl

end Irestore.Usbmux
