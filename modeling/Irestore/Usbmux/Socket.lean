/-
# Usbmux.Socket — packets on a stream

`recv_buf_timeout` is one `recv`, which hands out as much as has come; `receive_packet`
makes one for the header and one for the payload.  The socket is a stream with the sizes of
its receives, and every byte has come before a timeout is over.  `errno` is what the last
failed call left there, and `fresh` is what a new block holds.

* `listDevices_newlist` — the loop of `usbmuxd_get_device_list` with its blocks.
* `packets_read_iff` — when every packet is read for what it is.
* `pieces_taken_for_packets` — a piece of a header is taken for a packet.
-/
import Irestore.Library.Transport
import Irestore.Usbmux.Requests

namespace Irestore.Usbmux

open Irestore.Library Irestore.Library.Bytes Irestore.Library.CMemory Irestore.Plist

set_option autoImplicit false

def EAGAIN : Int := 11

/-! ## Headers on the wire -/

def UsbmuxdHeader.bytes (header : UsbmuxdHeader) : List UInt8 :=
  le 4 header.length.toNat ++ (le 4 header.version.toNat ++ (le 4 header.message.toNat ++
    le 4 header.tag.toNat))

def UsbmuxdHeader.ofBytes (block : List UInt8) : UsbmuxdHeader :=
  let word := fun off => UInt32.ofNat (ofLE (slice block off 4))
  ⟨word 0, word 4, word 8, word 12⟩

@[simp] theorem length_bytes (header : UsbmuxdHeader) : header.bytes.length = 16 := by
  simp [UsbmuxdHeader.bytes]

theorem ofBytes_bytes (header : UsbmuxdHeader) : .ofBytes header.bytes = header := by
  have word : ∀ {off : Nat} {front back : List UInt8} {value : UInt32},
      header.bytes = front ++ (le 4 value.toNat ++ back) → front.length = off →
        UInt32.ofNat (ofLE (slice header.bytes off 4)) = value := by
    intro off front back value parts here
    have start : slice header.bytes off 4 = le 4 value.toNat := by
      rw [parts, ← here, slice, List.drop_left, List.take_left' (length_le _ _)]
    rw [start, ofLE_le value.toNat_lt, UInt32.ofNat_toNat]
  have length := @word 0 [] _ header.length rfl rfl
  have version := @word 4 (le 4 header.length.toNat) _ header.version rfl (length_le _ _)
  have message := @word 8 (le 4 header.length.toNat ++ le 4 header.version.toNat) _ header.message
    (by rw [UsbmuxdHeader.bytes, List.append_assoc]) (by simp)
  have tag := @word 12 (le 4 header.length.toNat ++ (le 4 header.version.toNat ++
    le 4 header.message.toNat)) [] header.tag (by simp [UsbmuxdHeader.bytes]) (by simp)
  rw [UsbmuxdHeader.ofBytes]
  dsimp only
  rw [length, version, message, tag]

/-! ## Receiving -/

section Receives

variable (errno : Nat) (fresh : Nat → UInt8)

/-- `recv_buf_timeout`: what it returns, the bytes it stores, and the socket behind it. -/
def recvBufTimeout (length : Nat) (socket : Transport) : Int × List UInt8 × Transport :=
  let received := socket.receive length
  let result := toInt32 received.1.length
  (if result = 0 then -EAGAIN else if result < 0 then -errno else result, received)

/-- The two receives of `receive_packet`.  What the second returns is compared with the
size as an unsigned number. -/
def arrive (socket : Transport) : Arrival × Transport :=
  let (received, bytes, socket) := recvBufTimeout errno 16 socket
  if received < 16 then (⟨received, ⟨0, 0, 0, 0⟩, none⟩, socket)
  else
    let header := UsbmuxdHeader.ofBytes bytes
    let payloadSize := (header.length - 16).toNat
    if payloadSize = 0 then (⟨received, header, none⟩, socket)
    else
      let (filled, bytes, socket) := recvBufTimeout errno payloadSize socket
      let block := bytes ++ ((List.range payloadSize).map fresh).drop bytes.length
      (⟨received, header, if filled % 2 ^ 32 = payloadSize then some block else none⟩, socket)

/-- What so many calls of `receive_packet` receive. -/
def arrivals : Nat → Transport → List Arrival
  | 0, _ => []
  | n + 1, socket =>
      (arrive errno fresh socket).1 :: arrivals n (arrive errno fresh socket).2

end Receives

/-! ## The device list -/

/-- The loop of `usbmuxd_get_device_list`: the block `payload` points to, by its number,
the blocks there have been, those freed, and the list. -/
structure Listing where
  payload : Option Nat
  blocks : List (List UInt8)
  freed : List Nat
  newlist : List UsbmuxdDeviceInfo

namespace Listing

def start : Listing := ⟨none, [], [], []⟩

def store (listing : Listing) (receipt : Receipt) : Listing :=
  match receipt.payload with
  | none => listing
  | some none => { listing with payload := none }
  | some (some block) =>
      { listing with payload := some listing.blocks.length, blocks := listing.blocks ++ [block] }

def record (listing : Listing) : Checked UsbmuxdDeviceInfo :=
  match listing.payload with
  | none => .error .nullPointer
  | some n =>
      if n ∈ listing.freed then .error .useAfterFree
      else deviceInfo (listing.blocks.getD n [])

def free (listing : Listing) : Checked Listing :=
  match listing.payload with
  | none => .ok listing
  | some n =>
      if n ∈ listing.freed then .error .useAfterFree
      else .ok { listing with freed := listing.freed ++ [n] }

def add (listing : Listing) (info : UsbmuxdDeviceInfo) : Listing :=
  { listing with newlist := listing.newlist ++ [info] }

end Listing

section Lists

variable (fromXml : List UInt8 → Checked (Option PlistNode))

/-- The loop over what arrives, while the list can be made longer. -/
def listDevices : List Arrival → Listing → Checked Listing
  | [], listing => return listing
  | arrival :: rest, listing => do
      let receipt ← receivePacket fromXml arrival
      let listing := listing.store receipt
      if receipt.ret ≤ 0 then return listing
      else if receipt.header.message = MESSAGE_DEVICE_ADD then do
        let info ← listing.record
        let listing ← listing.free
        listDevices rest (listing.add info)
      else do
        let listing ← listing.free
        listDevices rest listing

end Lists

/-! ## Well-formed packets -/

/-- A packet of the binary protocol. -/
structure BinaryPacket where
  header : UsbmuxdHeader
  payload : List UInt8
  binary : header.message ≠ MESSAGE_PLIST
  size : header.length.toNat = 16 + payload.length

namespace BinaryPacket

def bytes (packet : BinaryPacket) : List UInt8 := packet.header.bytes ++ packet.payload

def block (packet : BinaryPacket) : Option (List UInt8) :=
  if packet.payload = [] then none else some packet.payload

/-- The packet, as `receive_packet` returns it. -/
def receipt (packet : BinaryPacket) : Receipt :=
  ⟨packet.header.length.toNat, packet.header, some packet.block⟩

/-- What the device list keeps of a record. -/
def info (packet : BinaryPacket) : UsbmuxdDeviceInfo :=
  ⟨UInt32.ofNat (ofLE (packet.payload.take 4)), ofLE ((packet.payload.drop 4).take 2),
    (packet.payload.drop 6).take 41⟩

end BinaryPacket

def IsAdd (packet : BinaryPacket) : Prop := packet.header.message = MESSAGE_DEVICE_ADD

instance (packet : BinaryPacket) : Decidable (IsAdd packet) :=
  inferInstanceAs (Decidable (packet.header.message = MESSAGE_DEVICE_ADD))

section Statements

variable (fromXml : List UInt8 → Checked (Option PlistNode)) (errno : Nat) (fresh : Nat → UInt8)

/-- The next call of `receive_packet` returns a negative value. -/
def Rejected (socket : Transport) : Prop :=
  ∃ receipt, receivePacket fromXml (arrive errno fresh socket).1 = .ok receipt ∧ receipt.ret < 0

/-- Successive calls return these packets, and the one behind them a negative value. -/
def Delivered : Transport → List BinaryPacket → Prop
  | socket, [] => Rejected fromXml errno fresh socket
  | socket, packet :: rest =>
      receivePacket fromXml (arrive errno fresh socket).1 = .ok packet.receipt ∧
        Delivered (arrive errno fresh socket).2 rest

/-- The device list has the records of these packets, and every block is freed once. -/
def Listed (socket : Transport) (packets : List BinaryPacket) : Prop :=
  ∀ n, packets.length < n → ∃ listing,
    listDevices fromXml (arrivals errno fresh n socket) .start = .ok listing ∧
      listing.newlist = (packets.filter fun packet => IsAdd packet).map BinaryPacket.info ∧
      listing.freed = List.range listing.blocks.length

end Statements

/-- Every header comes in one receive, and so does every payload, and an `int` holds the
lengths. -/
def InOneReceive : (Nat → Nat) → List BinaryPacket → Prop
  | _, [] => True
  | sizes, packet :: rest =>
      16 ≤ sizes 0 + 1 ∧ packet.header.length.toNat < 2 ^ 31 ∧
        if packet.payload = [] then InOneReceive (fun k => sizes (k + 1)) rest
        else packet.payload.length ≤ sizes 1 + 1 ∧ InOneReceive (fun k => sizes (k + 2)) rest

/-- The header comes in one receive, and what the receive of the payload returns is not, by
chance, the size there would be. -/
structure Unmistaken (errno : Nat) (sizes : Nat → Nat) (header : UsbmuxdHeader)
    (rest : List UInt8) : Prop where
  inOne : 16 ≤ sizes 0 + 1
  notEnd : ¬ (header.length = 5 ∧ rest = [])
  notError : ¬ (2 ^ 31 ≤ sizes 1 + 1 ∧ 2 ^ 31 ≤ rest.length ∧
    (errno + header.length.toNat) % 2 ^ 32 = 16)

/-! ## One receive -/

/-- The sizes of the receives behind the next `n`. -/
def later (n : Nat) (sizes : Nat → Nat) : Nat → Nat := fun k => sizes (k + n)

section Receives

variable {errno : Nat} {fresh : Nat → UInt8} {sizes : Nat → Nat} {stream rest : List UInt8}
  {header : UsbmuxdHeader}

theorem recvBufTimeout_eq {length n : Nat}
    (handed : min (min length (sizes 0 + 1)) stream.length = n) (present : 0 < n)
    (small : n < 2 ^ 31) :
    recvBufTimeout errno length ⟨stream, sizes⟩ =
      ((n : Int), stream.take n, (⟨stream.drop n, later 1 sizes⟩ : Transport)) := by
  have count := Transport.length_receive ⟨stream, sizes⟩ length
  rw [handed] at count
  have bytes : (Transport.receive ⟨stream, sizes⟩ length).1 = stream.take n := by
    rw [← handed, ← List.take_eq_take_min]
    rfl
  have behind : (Transport.receive ⟨stream, sizes⟩ length).2 = ⟨stream.drop n, later 1 sizes⟩ := by
    rw [← count]
    rfl
  rw [recvBufTimeout, count, toInt32_of_lt small, if_neg (by omega), if_neg (by omega), ← bytes, ← behind]

/-- The stream has ended. -/
theorem recvBufTimeout_nil (length : Nat) :
    recvBufTimeout errno length ⟨[], sizes⟩ =
      (-EAGAIN, [], (⟨[], later 1 sizes⟩ : Transport)) := by
  simp [recvBufTimeout, Transport.receive, toInt32]
  rfl

theorem rejected_nil (fromXml : List UInt8 → Checked (Option PlistNode)) :
    Rejected fromXml errno fresh ⟨[], sizes⟩ := by
  have received : (-EAGAIN : Int) < 16 := by decide
  refine ⟨.failed (-EAGAIN), ?_, by decide⟩
  rw [arrive, recvBufTimeout_nil]
  dsimp only
  rw [if_pos received]
  rfl

/-- A piece of a header. -/
theorem arrive_piece (piece : sizes 0 + 1 < 16) :
    (arrive errno fresh ⟨header.bytes ++ rest, sizes⟩).1 =
      ⟨(sizes 0 + 1 : Nat), ⟨0, 0, 0, 0⟩, none⟩ := by
  have handed : min (min 16 (sizes 0 + 1)) (header.bytes ++ rest).length = sizes 0 + 1 := by
    rw [List.length_append, length_bytes]
    omega
  rw [arrive, recvBufTimeout_eq handed (by omega) (by omega)]
  dsimp only
  rw [if_pos (by omega)]

/-- A header in one receive. -/
theorem arrive_header (inOne : 16 ≤ sizes 0 + 1) :
    arrive errno fresh ⟨header.bytes ++ rest, sizes⟩ =
      if (header.length - 16).toNat = 0 then (⟨16, header, none⟩, ⟨rest, later 1 sizes⟩)
      else
        let (filled, bytes, socket) :=
          recvBufTimeout errno (header.length - 16).toNat ⟨rest, later 1 sizes⟩
        let block := bytes ++ ((List.range (header.length - 16).toNat).map fresh).drop bytes.length
        (⟨16, header, if filled % 2 ^ 32 = (header.length - 16).toNat then some block else none⟩,
          socket) := by
  have handed : min (min 16 (sizes 0 + 1)) (header.bytes ++ rest).length = 16 := by
    rw [List.length_append, length_bytes]
    omega
  rw [arrive, recvBufTimeout_eq handed (by omega) (by omega)]
  dsimp only
  rw [List.take_left' (length_bytes header), List.drop_left' (length_bytes header),
    ofBytes_bytes, if_neg (by omega)]
  rfl

end Receives

/-! ## One packet -/

section Packets

variable {fromXml : List UInt8 → Checked (Option PlistNode)} {errno : Nat} {fresh : Nat → UInt8}
  {sizes : Nat → Nat} {rest : List UInt8} {packet : BinaryPacket}

theorem payloadSize_eq (packet : BinaryPacket) :
    (packet.header.length - 16).toNat = packet.payload.length :=
  toNat_sub_sixteen packet.size

theorem receivePacket_of_binary {header : UsbmuxdHeader} (binary : header.message ≠ MESSAGE_PLIST)
    (payload : Option (List UInt8)) :
    receivePacket fromXml ⟨16, header, payload⟩ =
      if header.length - 16 = 0 then .ok (.whole header (some none))
      else
        match payload with
        | none => .ok (.failed (-EBADMSG))
        | some block => .ok (.whole header (some (some block))) := by
  have came : ¬ (16 : Int) < 16 := lt_irrefl 16
  rw [receivePacket, if_neg came, interpretPacket, if_neg binary]
  cases payload with
  | none => rfl
  | some block =>
    dsimp only
    rw [interpretPacket, if_neg binary]
    rfl

/-- What is returned fits an `int`. -/
theorem receipt_lt {header : UsbmuxdHeader} (binary : header.message ≠ MESSAGE_PLIST)
    {payload : Option (List UInt8)} {receipt : Receipt}
    (run : receivePacket fromXml ⟨16, header, payload⟩ = .ok receipt) : receipt.ret < 2 ^ 31 := by
  have whole := (toInt32_le header.length.toNat).2
  rw [receivePacket_of_binary binary] at run
  split at run
  · cases run
    exact whole
  · cases payload with
    | none =>
      cases run
      decide
    | some block =>
      cases run
      exact whole

theorem arrive_header_eq {header : UsbmuxdHeader} (inOne : 16 ≤ sizes 0 + 1) :
    ∃ payload, (arrive errno fresh ⟨header.bytes ++ rest, sizes⟩).1 = ⟨16, header, payload⟩ := by
  rw [arrive_header inOne]
  split
  · exact ⟨none, rfl⟩
  · exact ⟨_, rfl⟩

theorem arrive_empty (inOne : 16 ≤ sizes 0 + 1) (empty : packet.payload = []) :
    arrive errno fresh ⟨packet.bytes ++ rest, sizes⟩ =
      (⟨16, packet.header, none⟩, ⟨rest, later 1 sizes⟩) := by
  have none' : (packet.header.length - 16).toNat = 0 := by
    rw [payloadSize_eq, empty, List.length_nil]
  rw [BinaryPacket.bytes, empty, List.append_nil, arrive_header inOne, if_pos none']

/-- A payload, as much of it as the receive hands out. -/
theorem arrive_payload (inOne : 16 ≤ sizes 0 + 1) (present : packet.payload ≠ [])
    (small : packet.header.length.toNat < 2 ^ 31) :
    (packet.payload.length ≤ sizes 1 + 1 →
      arrive errno fresh ⟨packet.bytes ++ rest, sizes⟩ =
        (⟨16, packet.header, some packet.payload⟩, ⟨rest, later 2 sizes⟩)) ∧
    (sizes 1 + 1 < packet.payload.length →
      (arrive errno fresh ⟨packet.bytes ++ rest, sizes⟩).1 = ⟨16, packet.header, none⟩) := by
  have size := packet.size
  have some' : 0 < packet.payload.length := List.length_pos_iff.mpr present
  have second : later 1 sizes 0 = sizes 1 := rfl
  rw [BinaryPacket.bytes, List.append_assoc, arrive_header inOne, payloadSize_eq,
    if_neg (by omega)]
  constructor
  · intro whole
    have handed : min (min packet.payload.length (later 1 sizes 0 + 1))
        (packet.payload ++ rest).length = packet.payload.length := by
      rw [List.length_append]
      omega
    have bytes : packet.payload ++
        ((List.range packet.payload.length).map fresh).drop packet.payload.length =
          packet.payload := by
      rw [List.drop_of_length_le (by simp), List.append_nil]
    rw [recvBufTimeout_eq handed some' (by omega)]
    dsimp only
    rw [List.take_left, List.drop_left, bytes, if_pos (by omega)]
    rfl
  · intro piece
    have handed : min (min packet.payload.length (later 1 sizes 0 + 1))
        (packet.payload ++ rest).length = sizes 1 + 1 := by
      rw [List.length_append]
      omega
    rw [recvBufTimeout_eq handed (by omega) (by omega)]
    dsimp only
    rw [if_neg (by omega)]

/-- **One packet.** -/
theorem delivered_iff :
    receivePacket fromXml (arrive errno fresh ⟨packet.bytes ++ rest, sizes⟩).1 =
        .ok packet.receipt ↔
      16 ≤ sizes 0 + 1 ∧ packet.header.length.toNat < 2 ^ 31 ∧
        (packet.payload ≠ [] → packet.payload.length ≤ sizes 1 + 1) := by
  have size := packet.size
  rcases Nat.lt_or_ge (sizes 0 + 1) 16 with piece | inOne
  · refine iff_of_false (fun run => ?_) fun conditions => absurd conditions.1 (not_le.mpr piece)
    rw [BinaryPacket.bytes, List.append_assoc, arrive_piece piece, receivePacket] at run
    dsimp only at run
    rw [if_pos (by omega)] at run
    have ret : ((sizes 0 + 1 : Nat) : Int) = (packet.header.length.toNat : Nat) :=
      congrArg Receipt.ret (Except.ok.inj run)
    omega
  rcases Nat.lt_or_ge packet.header.length.toNat (2 ^ 31) with small | large
  swap
  · refine iff_of_false (fun run => ?_) fun conditions => absurd large (not_le.mpr conditions.2.1)
    obtain ⟨payload, arrived⟩ := @arrive_header_eq errno fresh sizes (packet.payload ++ rest) _ inOne
    rw [BinaryPacket.bytes, List.append_assoc, arrived] at run
    have below : packet.receipt.ret < 2 ^ 31 := receipt_lt packet.binary run
    rw [BinaryPacket.receipt] at below
    dsimp only at below
    omega
  have returned : toInt32 packet.header.length.toNat = (packet.header.length.toNat : Nat) :=
    toInt32_of_lt small
  have zero_iff : packet.header.length - 16 = 0 ↔ packet.payload = [] := by
    rw [← UInt32.toNat_inj, payloadSize_eq]
    exact List.length_eq_zero_iff
  by_cases empty : packet.payload = []
  · refine iff_of_true ?_ ⟨inOne, small, fun present => absurd empty present⟩
    rw [arrive_empty inOne empty, receivePacket_of_binary packet.binary,
      if_pos (zero_iff.mpr empty), Receipt.whole, returned, BinaryPacket.receipt,
      BinaryPacket.block, if_pos empty]
  · obtain ⟨whole, piece⟩ := @arrive_payload errno fresh sizes rest packet inOne empty small
    rcases Nat.lt_or_ge (sizes 1 + 1) packet.payload.length with short | enough
    · refine iff_of_false (fun run => ?_) fun conditions =>
        absurd (conditions.2.2 empty) (not_le.mpr short)
      rw [piece short, receivePacket_of_binary packet.binary,
        if_neg fun zero => empty (zero_iff.mp zero)] at run
      have ret : - EBADMSG = ((packet.header.length.toNat : Nat) : Int) :=
        congrArg Receipt.ret (Except.ok.inj run)
      rw [EBADMSG] at ret
      omega
    · refine iff_of_true ?_ ⟨inOne, small, fun _ => enough⟩
      rw [whole enough, receivePacket_of_binary packet.binary,
        if_neg fun zero => empty (zero_iff.mp zero)]
      dsimp only
      rw [Receipt.whole, returned, BinaryPacket.receipt, BinaryPacket.block, if_neg empty]

/-- The socket behind a packet that came whole. -/
theorem arrive_behind (inOne : 16 ≤ sizes 0 + 1) (small : packet.header.length.toNat < 2 ^ 31)
    (whole : packet.payload ≠ [] → packet.payload.length ≤ sizes 1 + 1) :
    (arrive errno fresh ⟨packet.bytes ++ rest, sizes⟩).2 =
      ⟨rest, later (if packet.payload = [] then 1 else 2) sizes⟩ := by
  by_cases empty : packet.payload = []
  · rw [arrive_empty inOne empty, if_pos empty]
  · rw [(arrive_payload inOne empty small).1 (whole empty), if_neg empty]

end Packets

/-! ## Every stream of packets -/

section Runs

variable {fromXml : List UInt8 → Checked (Option PlistNode)} {errno : Nat} {fresh : Nat → UInt8}

/-- **Every call returns a packet exactly when each comes in one receive for its header and
one for its payload.** -/
theorem delivered_all_iff : ∀ {packets : List BinaryPacket} {sizes : Nat → Nat},
    Delivered fromXml errno fresh ⟨packets.flatMap BinaryPacket.bytes, sizes⟩ packets ↔
      InOneReceive sizes packets
  | [], sizes => iff_of_true (rejected_nil fromXml) trivial
  | packet :: rest, sizes => by
      rw [List.flatMap_cons, Delivered, delivered_iff, InOneReceive, and_assoc, and_assoc]
      refine and_congr_right fun inOne => and_congr_right fun small => ?_
      by_cases empty : packet.payload = []
      · have behind := @arrive_behind errno fresh sizes (rest.flatMap BinaryPacket.bytes) packet
          inOne small fun present => absurd empty present
        rw [behind, if_pos empty, if_pos empty, delivered_all_iff]
        exact and_iff_right fun present => absurd empty present
      · rw [if_neg empty]
        refine Iff.trans (and_congr_left' (forall_prop_of_true empty)) (and_congr_right fun whole => ?_)
        have behind := @arrive_behind errno fresh sizes (rest.flatMap BinaryPacket.bytes) packet
          inOne small fun _ => whole
        rw [behind, if_neg empty, delivered_all_iff]
        rfl

/-! ### The device list -/

/-- Every block has been freed, in the order they were given. -/
def Listing.Tidy (listing : Listing) : Prop := listing.freed = List.range listing.blocks.length

variable {listing : Listing}

/-- The record is read when the payload has its fields. -/
theorem record_store (tidy : listing.Tidy) (packet : BinaryPacket) :
    (listing.store packet.receipt).record =
      if 47 ≤ packet.payload.length then .ok packet.info
      else .error (if packet.payload = [] then .nullPointer else .outOfBounds) := by
  rw [Listing.store, BinaryPacket.receipt, BinaryPacket.block]
  by_cases empty : packet.payload = []
  · rw [if_pos empty, if_pos empty, if_neg (by rw [empty]; decide)]
    rfl
  · have new : listing.blocks.length ∉ listing.freed := by
      rw [tidy]
      exact List.not_mem_range_self
    have block : (listing.blocks ++ [packet.payload]).getD listing.blocks.length [] =
        packet.payload := by simp
    rw [if_neg empty, if_neg empty]
    dsimp only [Listing.record]
    rw [if_neg new, block, deviceInfo, memcpy]
    split
    · rw [ok_bind, List.drop_take, List.take_take, List.take_take, List.drop_take]
      rfl
    · rfl

theorem free_store (tidy : listing.Tidy) (packet : BinaryPacket) :
    ∃ freed, (listing.store packet.receipt).free = .ok freed ∧ freed.newlist = listing.newlist ∧
      freed.Tidy := by
  rw [Listing.store, BinaryPacket.receipt]
  dsimp only
  cases packet.block with
  | none => exact ⟨_, rfl, rfl, tidy⟩
  | some block =>
    have new : listing.blocks.length ∉ listing.freed := by
      rw [tidy]
      exact List.not_mem_range_self
    refine ⟨_, if_neg new, rfl, ?_⟩
    show listing.freed ++ [_] = List.range (listing.blocks ++ [block]).length
    rw [tidy, List.length_append, List.length_singleton, List.range_succ]

theorem listDevices_cons {arrival : Arrival} {rest : List Arrival} {packet : BinaryPacket}
    (received : receivePacket fromXml arrival = .ok packet.receipt) :
    listDevices fromXml (arrival :: rest) listing =
      (if IsAdd packet then do
        let info ← (listing.store packet.receipt).record
        let listing ← (listing.store packet.receipt).free
        listDevices fromXml rest (listing.add info)
      else do
        let listing ← (listing.store packet.receipt).free
        listDevices fromXml rest listing) := by
  have positive : ¬ packet.receipt.ret ≤ 0 := by
    have size := packet.size
    rw [BinaryPacket.receipt]
    dsimp only
    omega
  rw [listDevices, received, ok_bind, if_neg positive]
  rfl

/-- The list has the records of the packets, when each record has its fields. -/
theorem listed_of_inOneReceive : ∀ {packets : List BinaryPacket} {sizes : Nat → Nat} {n : Nat}
    {listing : Listing}, InOneReceive sizes packets → packets.length < n → listing.Tidy →
      ((∃ final, listDevices fromXml
            (arrivals errno fresh n ⟨packets.flatMap BinaryPacket.bytes, sizes⟩) listing =
              .ok final ∧
          final.newlist = listing.newlist ++
            (packets.filter fun packet => IsAdd packet).map BinaryPacket.info ∧ final.Tidy) ↔
        ∀ packet ∈ packets, IsAdd packet → 47 ≤ packet.payload.length)
  | [], sizes, n + 1, listing, _, _, tidy => by
      have received : (-EAGAIN : Int) < 16 := by decide
      have last : receivePacket fromXml (arrive errno fresh ⟨[], sizes⟩).1 =
          .ok (.failed (-EAGAIN)) := by
        rw [arrive, recvBufTimeout_nil]
        dsimp only
        rw [if_pos received]
        rfl
      refine iff_of_true ⟨listing, ?_, (List.append_nil _).symm, tidy⟩ (by simp)
      rw [List.flatMap_nil, arrivals, listDevices, last, ok_bind]
      rfl
  | packet :: rest, sizes, n + 1, listing, inOne, enough, tidy => by
      rw [InOneReceive] at inOne
      obtain ⟨header, small, inOne⟩ := inOne
      have whole : packet.payload ≠ [] → packet.payload.length ≤ sizes 1 + 1 := fun present => by
        rw [if_neg present] at inOne
        exact inOne.1
      have next : InOneReceive (later (if packet.payload = [] then 1 else 2) sizes) rest := by
        split_ifs at inOne ⊢ with empty
        · exact inOne
        · exact inOne.2
      have received := (@delivered_iff fromXml errno fresh sizes
        (rest.flatMap BinaryPacket.bytes) packet).mpr ⟨header, small, whole⟩
      have behind := @arrive_behind errno fresh sizes (rest.flatMap BinaryPacket.bytes) packet
        header small whole
      obtain ⟨freed, free, kept, tidy'⟩ := free_store tidy packet
      have ih := fun listing tidy => @listed_of_inOneReceive rest _ n listing next
        (Nat.lt_of_succ_lt_succ enough) tidy
      rw [List.flatMap_cons, arrivals, listDevices_cons received, behind, List.forall_mem_cons,
        free, record_store tidy]
      by_cases add : IsAdd packet
      · have first : ((packet :: rest).filter fun packet => IsAdd packet) =
            packet :: rest.filter fun packet => IsAdd packet :=
          List.filter_cons_of_pos (decide_eq_true add)
        rw [if_pos add, first, List.map_cons]
        by_cases fields : 47 ≤ packet.payload.length
        · have tail := ih (freed.add packet.info) tidy'
          rw [Listing.add, kept] at tail
          rw [if_pos fields, ok_bind, ok_bind, Listing.add, kept, and_iff_right fun _ => fields,
            ← tail]
          simp only [List.append_assoc, List.singleton_append]
        · rw [if_neg fields]
          refine iff_of_false ?_ fun all => fields (all.1 add)
          rintro ⟨final, run, -⟩
          cases run
      · have first : ((packet :: rest).filter fun packet => IsAdd packet) =
            rest.filter fun packet => IsAdd packet :=
          List.filter_cons_of_neg (by simpa using add)
        rw [if_neg add, first, ok_bind,
          and_iff_right fun isAdd => absurd isAdd add, ← ih freed tidy', kept]

end Runs

/-! ## Short headers -/

section ShortHeaders

variable {fromXml : List UInt8 → Checked (Option PlistNode)} {errno : Nat} {fresh : Nat → UInt8}
  {sizes : Nat → Nat} {header : UsbmuxdHeader} {rest : List UInt8}

/-- The size of the payload has wrapped round. -/
theorem wrapped_eq (short : header.length.toNat < 16) :
    (header.length - 16).toNat = 2 ^ 32 - 16 + header.length.toNat := by
  have sixteen : (16 : UInt32).toNat = 16 := rfl
  rw [UInt32.toNat_sub, sixteen]
  omega

/-- A receive of the wrapped size returns what passes for the size at the end of the stream,
or with two gibibytes. -/
theorem filled_iff (short : header.length.toNat < 16) :
    (recvBufTimeout errno (header.length - 16).toNat ⟨rest, sizes⟩).1 % 2 ^ 32 =
        ((header.length - 16).toNat : Int) ↔
      header.length = 5 ∧ rest = [] ∨
        2 ^ 31 ≤ sizes 0 + 1 ∧ 2 ^ 31 ≤ rest.length ∧
          (errno + header.length.toNat) % 2 ^ 32 = 16 := by
  have size := wrapped_eq short
  have five : header.length = 5 ↔ header.length.toNat = 5 := UInt32.toNat_inj.symm
  have count := Transport.length_receive ⟨rest, sizes⟩ (header.length - 16).toNat
  dsimp only at count
  by_cases ended : rest = []
  · subst ended
    rw [recvBufTimeout_nil, five, size, EAGAIN, List.length_nil, eq_self_iff_true, and_true]
    dsimp only
    omega
  have present : 0 < rest.length := List.length_pos_iff.mpr ended
  rw [recvBufTimeout, count]
  generalize handed : min (min (header.length - 16).toNat (sizes 0 + 1)) rest.length = n
  rw [size] at handed ⊢
  dsimp only
  rcases Nat.lt_or_ge n (2 ^ 31) with small | large
  · rw [toInt32_of_lt small, if_neg (by omega), if_neg (by omega)]
    refine iff_of_false (by omega) ?_
    rintro (⟨-, isEnd⟩ | ⟨first, second, -⟩)
    · exact ended isEnd
    · omega
  · have negative : toInt32 n = n - 2 ^ 32 := by
      rw [toInt32, Nat.mod_eq_of_lt (by omega), if_neg (by omega)]
    rw [negative, if_neg (by omega), if_pos (by omega)]
    constructor
    · intro same
      exact .inr ⟨by omega, by omega, by omega⟩
    · rintro (⟨-, isEnd⟩ | ⟨-, -, same⟩)
      · exact absurd isEnd ended
      · omega

/-- What arrives behind a short header. -/
theorem arrive_short (short : header.length.toNat < 16) (inOne : 16 ≤ sizes 0 + 1) :
    ∃ block, (arrive errno fresh ⟨header.bytes ++ rest, sizes⟩).1 =
      ⟨16, header,
        if (recvBufTimeout errno (header.length - 16).toNat ⟨rest, later 1 sizes⟩).1 % 2 ^ 32 =
            ((header.length - 16).toNat : Int) then
          some block
        else none⟩ := by
  have size := wrapped_eq short
  rw [arrive_header inOne, if_neg (by omega)]
  exact ⟨_, rfl⟩

/-- **A short header is rejected**, unless what the second receive returns is taken for the
size. -/
theorem rejected_of_unmistaken (short : header.length.toNat < 16)
    (unmistaken : Unmistaken errno sizes header rest) :
    Rejected fromXml errno fresh ⟨header.bytes ++ rest, sizes⟩ := by
  have size := wrapped_eq short
  have nonzero : header.length - 16 ≠ 0 := by
    intro zero
    rw [zero] at size
    exact absurd size (by simp; omega)
  obtain ⟨block, arrived⟩ := @arrive_short errno fresh sizes header rest short unmistaken.inOne
  have notFilled : ¬ (recvBufTimeout errno (header.length - 16).toNat
      ⟨rest, later 1 sizes⟩).1 % 2 ^ 32 = ((header.length - 16).toNat : Int) := by
    rw [filled_iff short]
    rintro (isEnd | isError)
    · exact unmistaken.notEnd isEnd
    · exact unmistaken.notError isError
  have came : ¬ (16 : Int) < 16 := lt_irrefl 16
  refine ⟨.failed (-EBADMSG), ?_, by decide⟩
  rw [arrived, if_neg notFilled, receivePacket, if_neg came, if_neg nonzero]
  rfl

theorem rejected_iff (binary : header.message ≠ MESSAGE_PLIST)
    (short : header.length.toNat < 16) :
    Rejected fromXml errno fresh ⟨header.bytes ++ rest, sizes⟩ ↔
      Unmistaken errno sizes header rest := by
  refine ⟨?_, rejected_of_unmistaken short⟩
  rintro ⟨receipt, received, negative⟩
  rcases Nat.lt_or_ge (sizes 0 + 1) 16 with piece | inOne
  · rw [arrive_piece piece, receivePacket] at received
    dsimp only at received
    rw [if_pos (by omega)] at received
    cases received
    exact absurd negative (not_lt.mpr (Int.natCast_nonneg _))
  obtain ⟨block, arrived⟩ := @arrive_short errno fresh sizes header rest short inOne
  by_contra mistaken
  have filled : (recvBufTimeout errno (header.length - 16).toNat
      ⟨rest, later 1 sizes⟩).1 % 2 ^ 32 = ((header.length - 16).toNat : Int) := by
    rw [filled_iff short]
    by_contra neither
    exact mistaken ⟨inOne, fun isEnd => neither (.inl isEnd), fun isError => neither (.inr isError)⟩
  have returned : toInt32 header.length.toNat = header.length.toNat := toInt32_of_lt (by omega)
  rw [arrived, if_pos filled, receivePacket_of_binary binary] at received
  have whole : receipt.ret = toInt32 header.length.toNat := by
    split at received
    · cases received
      rfl
    · cases received
      rfl
  omega

end ShortHeaders

/-- **When every packet is read for what it is.**  Successive calls return the packets of a
stream, and the device list has the records and frees every block once, exactly when every
header and every payload comes in one receive, an `int` holds the lengths, and every record
has the fields that are read.  A header of a length below 16 is rejected when it comes in
one receive and the second is not mistaken, and exactly then in the binary protocol. -/
theorem packets_read_iff (fromXml : List UInt8 → Checked (Option PlistNode)) (errno : Nat)
    (fresh : Nat → UInt8) :
    (∀ (packets : List BinaryPacket) (sizes : Nat → Nat),
      Delivered fromXml errno fresh ⟨packets.flatMap BinaryPacket.bytes, sizes⟩ packets ∧
          Listed fromXml errno fresh ⟨packets.flatMap BinaryPacket.bytes, sizes⟩ packets ↔
        InOneReceive sizes packets ∧
          ∀ packet ∈ packets, IsAdd packet → 47 ≤ packet.payload.length) ∧
    ∀ (header : UsbmuxdHeader) (rest : List UInt8) (sizes : Nat → Nat),
      header.length.toNat < 16 →
        (Unmistaken errno sizes header rest →
          Rejected fromXml errno fresh ⟨header.bytes ++ rest, sizes⟩) ∧
        (header.message ≠ MESSAGE_PLIST →
          (Rejected fromXml errno fresh ⟨header.bytes ++ rest, sizes⟩ ↔
            Unmistaken errno sizes header rest)) := by
  refine ⟨fun packets sizes => ?_, fun header rest sizes short =>
    ⟨rejected_of_unmistaken short, fun binary => rejected_iff binary short⟩⟩
  rw [delivered_all_iff]
  refine and_congr_right fun inOne => ?_
  have listed := fun n (enough : packets.length < n) =>
    @listed_of_inOneReceive fromXml errno fresh packets sizes n .start inOne enough rfl
  constructor
  · exact fun all => (listed _ (Nat.lt_succ_self _)).mp (all _ (Nat.lt_succ_self _))
  · exact fun fields n enough => (listed n enough).mpr fields

/-- A result under a tag. -/
def resultPacket (tag : UInt32) : BinaryPacket where
  header := ⟨20, 0, MESSAGE_RESULT, tag⟩
  payload := [0, 0, 0, 0]
  binary := (by decide : MESSAGE_RESULT ≠ MESSAGE_PLIST)
  size := rfl

/-- The first packet comes whole, and three bytes of the header of the second: the loop
takes them for a packet and frees the payload of the first again. -/
theorem pieces_taken_for_packets :
    let fromXml : List UInt8 → Checked (Option PlistNode) := fun _ => .ok none
    let sizes := fun k => if k < 2 then 15 else 2
    let socket : Transport := ⟨[resultPacket 1, resultPacket 2].flatMap BinaryPacket.bytes, sizes⟩
    receivePacket fromXml (arrive 0 (fun _ => 0) (arrive 0 (fun _ => 0) socket).2).1 =
        .ok (.failed 3) ∧
      listDevices fromXml (arrivals 0 (fun _ => 0) 3 socket) .start = .error .useAfterFree ∧
      ¬ (Delivered fromXml 0 (fun _ => 0) socket [resultPacket 1, resultPacket 2] ∧
        Listed fromXml 0 (fun _ => 0) socket [resultPacket 1, resultPacket 2]) := by
  intro fromXml sizes socket
  have first : arrive 0 (fun _ => 0) socket =
      (⟨16, (resultPacket 1).header, some [0, 0, 0, 0]⟩,
        ⟨(resultPacket 2).bytes ++ [], later 2 sizes⟩) :=
    (@arrive_payload 0 _ sizes _ (resultPacket 1) (by decide) (by decide) (by decide)).1 (by decide)
  have second : (arrive 0 (fun _ => 0) ⟨(resultPacket 2).bytes ++ [], later 2 sizes⟩).1 =
      ⟨3, ⟨0, 0, 0, 0⟩, none⟩ :=
    arrive_piece (by decide)
  have freedTwice : listDevices fromXml (arrivals 0 (fun _ => 0) 3 socket) .start =
      .error .useAfterFree := by
    have received : receivePacket fromXml ⟨16, (resultPacket 1).header, some [0, 0, 0, 0]⟩ =
        .ok (resultPacket 1).receipt := rfl
    have piece : receivePacket fromXml ⟨3, ⟨0, 0, 0, 0⟩, none⟩ = .ok (.failed 3) := rfl
    have notAdd : ¬ IsAdd (resultPacket 1) := by decide
    rw [arrivals, arrivals, first, second, listDevices_cons received, if_neg notAdd]
    show listDevices fromXml _ ⟨some 0, [[0, 0, 0, 0]], [0], []⟩ = _
    rw [listDevices, piece]
    rfl
  refine ⟨?_, freedTwice, fun ⟨_, listed⟩ => ?_⟩
  · rw [first, second]
    rfl
  · obtain ⟨listing, run, -⟩ := listed 3 (by decide)
    cases freedTwice.symm.trans run

/-! ## The loop, and its blocks -/

namespace Listing

variable {listing : Listing}

/-- Where the pointer of the loop points to. -/
def pointer (listing : Listing) : Payload :=
  match listing.payload with
  | none => .null
  | some n => if n ∈ listing.freed then .released else .live (listing.blocks.getD n [])

/-- The numbers are of blocks there have been. -/
structure Known (listing : Listing) : Prop where
  payload : ∀ n ∈ listing.payload, n < listing.blocks.length
  freed : ∀ n ∈ listing.freed, n < listing.blocks.length

theorem known_start : start.Known := ⟨by simp [start], by simp [start]⟩

theorem Known.store (known : listing.Known) (receipt : Receipt) :
    (listing.store receipt).Known ∧ (listing.store receipt).pointer = receipt.store listing.pointer ∧
      (listing.store receipt).newlist = listing.newlist := by
  rw [Listing.store, Receipt.store]
  rcases receipt.payload with _ | _ | block
  · exact ⟨known, rfl, rfl⟩
  · exact ⟨⟨by simp, known.freed⟩, rfl, rfl⟩
  · have new : listing.blocks.length ∉ listing.freed := fun member =>
      Nat.lt_irrefl _ (known.freed _ member)
    refine ⟨⟨by simp, fun n member => ?_⟩, ?_, rfl⟩
    · have old := known.freed n member
      simp only [List.length_append, List.length_singleton]
      omega
    · simp [pointer, new]

theorem record_eq (listing : Listing) : listing.record = listing.pointer.record := by
  rw [record, pointer]
  cases listing.payload with
  | none => rfl
  | some n =>
    dsimp only
    split <;> rfl

theorem Known.free (known : listing.Known) :
    (listing.free.map pointer = listing.pointer.free) ∧
      ∀ after, listing.free = .ok after → after.Known ∧ after.newlist = listing.newlist := by
  rw [Listing.free, pointer]
  cases payload : listing.payload with
  | none =>
    refine ⟨?_, fun after run => ?_⟩
    · simp [Payload.free, Except.map, pointer, payload]
    · cases run
      exact ⟨known, rfl⟩
  | some n =>
    dsimp only
    split
    · exact ⟨rfl, fun after run => by cases run⟩
    · refine ⟨?_, fun after run => ?_⟩
      · simp [Payload.free, Except.map, pointer]
      · cases run
        refine ⟨⟨fun m member => known.payload m (payload.symm ▸ member), fun m member => ?_⟩, rfl⟩
        rcases List.mem_append.mp member with old | new
        · exact known.freed m old
        · rw [List.mem_singleton.mp new]
          exact known.payload n payload

end Listing

/-- **The loop with its blocks makes the list that the loop with the pointer makes.** -/
theorem listDevices_newlist (fromXml : List UInt8 → Checked (Option PlistNode)) :
    ∀ (arrivals : List Arrival) {listing : Listing}, listing.Known →
      (listDevices fromXml arrivals listing).map Listing.newlist =
        receiveDevices fromXml (arrivals.map fun arrival => (arrival, true)) listing.pointer
          listing.newlist
  | [], listing, _ => rfl
  | arrival :: rest, listing, known => by
      rw [listDevices, List.map_cons, receiveDevices]
      cases receivePacket fromXml arrival with
      | error fault => rfl
      | ok receipt =>
        obtain ⟨stored, pointer, newlist⟩ := known.store receipt
        obtain ⟨freed, free⟩ := stored.free
        rw [ok_bind, ok_bind]
        dsimp only
        rw [← newlist, ← pointer, ← Listing.record_eq, ← freed]
        split
        · rfl
        split
        · rw [if_pos rfl]
          cases (listing.store receipt).record with
          | error fault => rfl
          | ok info =>
            cases run : (listing.store receipt).free with
            | error fault => rfl
            | ok after =>
              obtain ⟨known', same⟩ := free after run
              have tail := @listDevices_newlist fromXml rest (after.add info)
                ⟨known'.payload, known'.freed⟩
              rw [← same]
              exact tail
        · cases run : (listing.store receipt).free with
          | error fault => rfl
          | ok after =>
            obtain ⟨known', same⟩ := free after run
            rw [← same]
            exact listDevices_newlist fromXml rest known'

/-- The call starts without blocks, and its list is that of the model with the pointer. -/
theorem listDevices_start (fromXml : List UInt8 → Checked (Option PlistNode))
    (arrivals : List Arrival) :
    (listDevices fromXml arrivals .start).map Listing.newlist =
      receiveDevices fromXml (arrivals.map fun arrival => (arrival, true)) .null [] :=
  listDevices_newlist fromXml arrivals Listing.known_start

end Irestore.Usbmux
