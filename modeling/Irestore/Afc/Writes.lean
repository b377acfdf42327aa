/-
# Afc.Writes — a file written segment by segment

`afc_file_write` cuts the data into segments and sends each behind the handle; the number
that the dispatch reports positions the next segment.

* `run_dispatchWrite` — one packet: its sends, and the number reported for them.
* `write_carried` — a connection that accepts and acknowledges every packet is handed the
  whole data.
* `write_accounted_iff` — when the count stored is that of data handed over, and the data
  handed over is a prefix, for any connection.
* `header_counted_for_data` — a packet of which only the header is accepted.
-/
import Irestore.Afc.Replies
import Mathlib.Data.List.Forall2

namespace Irestore.Afc

open Irestore.Library Irestore.Library.Program Irestore.Library.Bytes Irestore.Library.CMemory

set_option autoImplicit false

variable {σ : Type} (env : Environment σ)

/-! ## One packet -/

/-- What a write packet reports as sent, its pieces, and the connection behind them. -/
def sendWrite (header handle chunk : List UInt8) (connection : σ) : Nat × List Send × σ :=
  let sent := env.send connection header
  if sent.1 = 0 then (0, [⟨header, 0⟩], sent.2)
  else
    let first := env.send sent.2 handle
    if first.1 = 0 then (sent.1, [⟨header, sent.1⟩, ⟨handle, 0⟩], first.2)
    else
      let second := env.send first.2 chunk
      (second.1, [⟨header, sent.1⟩, ⟨handle, first.1⟩, ⟨chunk, second.1⟩], second.2)

theorem sendPacket_write {packet : AFCPacket} {chunk : UInt32} (lengths : WriteLengths chunk packet)
    {handle piece : List UInt8} (eight : handle.length = 8) (covers : piece.length = chunk.toNat)
    (w : World σ) :
    (sendPacket env packet (handle ++ piece) (chunk + 8)).run w =
      if chunk.toNat + 8 < 2 ^ 32 then
        let sent := sendWrite env packet.toLE handle piece w.connection
        (.ok (AFC_E_SUCCESS, sent.1, sent.2.1), { w with connection := sent.2.2 })
      else (.ok (AFC_E_INTERNAL_ERROR, 0, []), w) := by
  have offset : (packet.thisLength - 40).toUInt32 = 8 := by
    rw [lengths.this]
    decide
  rw [sendPacket, if_pos lengths.differ, offset]
  by_cases short : chunk.toNat + 8 < 2 ^ 32
  · have length := WriteLengths.length_toNat short
    have covered : ¬ (chunk + 8).toUInt64 < packet.entireLength - packet.thisLength := by
      rw [lengths.rest, UInt64.lt_iff_toNat_lt, UInt32.toNat_toUInt64, UInt32.toNat_toUInt64, length]
      omega
    have width : (8 : UInt32).toNat = 8 := rfl
    have rest : (chunk + 8 - 8).toNat = piece.length := by
      rw [UInt32.add_sub_cancel, covers]
    dsimp only
    rw [if_neg covered, if_pos short, width, List.take_left' eight, List.drop_left' eight, rest,
      List.take_length, sendWrite]
    simp only [run_bind_eq, run_connectionSend, run_ite, run_pure]
    split
    · rename_i none
      rw [none]
    · split
      · rename_i none
        rw [none]
      · rfl
  · dsimp only
    rw [if_pos (lengths.wrapped (by omega)), if_neg short]
    rfl

/-- The header of the packet that writes `chunk` bytes. -/
def AFCPacket.write (chunk : UInt32) (packet : AFCPacket) : AFCPacket :=
  { packet.command AFC_OP_WRITE (48 + chunk.toUInt64) 48 with packetNum := packet.packetNum + 1 }

/-- **One packet**: a dispatch of `chunk` bytes from `currentCount`. -/
theorem run_dispatchWrite (handle : UInt64) {data : List UInt8} {currentCount chunk : UInt32}
    (nonempty : chunk ≠ 0) (inside : currentCount.toNat + chunk.toNat ≤ data.length) (w : World σ) :
    (dispatchWrite env handle data currentCount chunk).run w =
      let packet := w.packet.write chunk
      let piece := (data.drop currentCount.toNat).take chunk.toNat
      let payload := (word handle ++ piece).take (chunk + 8).toNat
      if chunk.toNat + 8 < 2 ^ 32 then
        let sent := sendWrite env packet.toLE (word handle) piece w.connection
        (.ok (AFC_E_SUCCESS, sent.1),
          ⟨packet, sent.2.2, w.events ++ [.dispatch ⟨payload, sent.2.1⟩]⟩)
      else
        (.ok (AFC_E_INTERNAL_ERROR, 0),
          ⟨packet, w.connection, w.events ++ [.dispatch ⟨payload, []⟩]⟩) := by
  have copied : memcpy (data.drop currentCount.toNat) chunk.toNat =
      .ok ((data.drop currentCount.toNat).take chunk.toNat) := by
    rw [memcpy, if_pos (by rw [List.length_drop]; omega)]
  have width : ((data.drop currentCount.toNat).take chunk.toNat).length = chunk.toNat := by
    rw [List.length_take, List.length_drop]
    omega
  have command : WriteLengths chunk (w.packet.command AFC_OP_WRITE (48 + chunk.toUInt64) 48) :=
    ⟨rfl, rfl, nonempty⟩
  have lengths : WriteLengths chunk (w.packet.write chunk) := ⟨rfl, rfl, nonempty⟩
  have next : (w.packet.command AFC_OP_WRITE (48 + chunk.toUInt64) 48).next (chunk + 8) =
      w.packet.write chunk := command.next (chunk + 8)
  have eight : (word handle).length = 8 := length_le 8 handle.toNat
  have ran := sendPacket_write env lengths eight width { w with packet := w.packet.write chunk }
  rw [← next] at ran
  rw [dispatchWrite, run_modify_bind, run_bind_eq, run_lift, copied]
  dsimp only
  by_cases short : chunk.toNat + 8 < 2 ^ 32
  · rw [if_pos short] at ran ⊢
    rw [← next]
    exact dispatch_eq env _ _ (w := w.setPacket _) ran
  · rw [if_neg short] at ran ⊢
    rw [← next]
    exact dispatch_eq env _ _ (w := w.setPacket _) ran

/-! ## The packets of a history -/

def packetsOf : List (Event σ) → List Dispatch
  | [] => []
  | .dispatch d :: events => d :: packetsOf events
  | .receive .. :: events => packetsOf events

theorem packetsOf_append (front back : List (Event σ)) :
    packetsOf (front ++ back) = packetsOf front ++ packetsOf back := by
  induction front with
  | nil => rfl
  | cons event front ih =>
    cases event with
    | dispatch d => simp only [List.cons_append, packetsOf, ih]
    | receive before after => simp only [List.cons_append, packetsOf, ih]

/-! ## A connection that accepts and acknowledges -/

/-- The connection behind the sends of these pieces. -/
def sent (connection : σ) (pieces : List (List UInt8)) : σ :=
  pieces.foldl (fun s bytes => (env.send s bytes).2) connection

/-- The status of success under this number is handed out as it is asked for, and the device
is idle behind it. -/
def Answering (idle : σ → Prop) (number : UInt64) (connection : σ) : Prop :=
  ∃ behindHeader behind, env.receive connection 40 = ((statusReply number).header.toLE, behindHeader) ∧
    env.receive behindHeader 8 = ((statusReply number).body, behind) ∧ idle behind

/-- Every send is accepted completely, and a packet sent to an idle device, in whatever
pieces, is acknowledged. -/
structure Acknowledges (idle : σ → Prop) : Prop where
  accepts : ∀ s bytes, (env.send s bytes).1 = bytes.length
  answers : ∀ s n code payload pieces, idle s →
    pieces.flatten = headerBytes n code payload ++ payload →
      Answering env idle (UInt64.ofNat (n + 1)) (sent env s pieces)

/-- The packet carries the handle and this chunk of data, and all of it is accepted. -/
structure Carried (handle : UInt64) (chunk : List UInt8) (d : Dispatch) : Prop where
  payload : d.payload = word handle ++ chunk
  whole : ∃ header, header.length = 40 ∧ d.sends.flatMap Send.bytes = header ++ d.payload
  accepted : ∀ s ∈ d.sends, s.accepted = s.bytes.length
  nonempty : chunk ≠ []
  atMost : chunk.length ≤ 32768

/-- The packets since `old` carry these bytes, and the device is idle. -/
structure Wrote (idle : σ → Prop) (old : List (Event σ)) (handle : UInt64) (bytes : List UInt8)
    (w : World σ) : Prop where
  magic : w.packet.magic = AFC_MAGIC
  idle : idle w.connection
  history : ∃ new chunks, w.events = old ++ new ∧
    List.Forall₂ (Carried handle) chunks (packetsOf new) ∧ chunks.flatten = bytes

section Acknowledged

variable {env} {idle : σ → Prop}

/-- An acknowledgement is received. -/
theorem receive_answer {w : World σ} (answering : Answering env idle w.packet.packetNum w.connection) :
    ∃ buffer behind, (afcReceiveData env).run w =
      (.ok (AFC_E_SUCCESS, some buffer, 8),
        ⟨w.packet, behind, w.events ++ [.receive w.connection behind]⟩) ∧ idle behind := by
  obtain ⟨behindHeader, behind, header, body, rests⟩ := answering
  refine ⟨⟨8, (statusReply w.packet.packetNum).body⟩, behind, ?_, rests⟩
  have second : (connectionReceive env 8).run { w with connection := behindHeader } =
      (.ok (statusReply w.packet.packetNum).body, { w with connection := behind }) :=
    run_connectionReceive env body
  have width : (statusReply w.packet.packetNum).header.toLE.length = 40 := length_toLE rfl
  have payload : (receivePayload env (statusReply w.packet.packetNum).header).run
      { w with connection := behindHeader } =
        (.ok (AFC_E_SUCCESS, some ⟨8, (statusReply w.packet.packetNum).body⟩, 8),
          { w with connection := behind }) := by
    have eight : ((48 : UInt64).toUInt32 - 40).toNat = 8 := by decide
    have this : (statusReply w.packet.packetNum).header.thisLength = 48 := rfl
    have entire : (statusReply w.packet.packetNum).header.entireLength = 48 := rfl
    rw [receivePayload, this, entire]
    dsimp only
    rw [eight, if_pos (by decide), run_bind second]
    rfl
  have read : AFCPacket.fromLE (statusReply w.packet.packetNum).header.toLE =
      (statusReply w.packet.packetNum).header := fromLE_toLE rfl
  have packet : (receivePacket env).run w =
      (.ok (AFC_E_SUCCESS, some ⟨8, (statusReply w.packet.packetNum).body⟩, 8),
        { w with connection := behind }) := by
    rw [run_receivePacket_payload env header width (by rw [read]; rfl), read, payload]
    · rw [read]
      exact show (40 : UInt64) ≤ 48 by decide
    · rw [read]
      exact show ¬ ((48 : UInt64) = 48 ∧ (48 : UInt64) = 40) by decide
  rw [afcReceiveData, run_noting, packet]
  rfl

/-- **One packet is written and acknowledged.** -/
theorem Wrote.packet (acknowledges : Acknowledges env idle) {old : List (Event σ)}
    {handle : UInt64} {data : List UInt8} {currentCount chunk : UInt32} {w : World σ}
    (wrote : Wrote idle old handle (data.take currentCount.toNat) w) (nonempty : chunk ≠ 0)
    (atMost : chunk.toNat ≤ 32768) (inside : currentCount.toNat + chunk.toNat ≤ data.length) :
    ∃ before buffer after,
      (dispatchWrite env handle data currentCount chunk).run w =
        (.ok (AFC_E_SUCCESS, chunk.toNat), before) ∧
      (afcReceiveData env).run before = (.ok (AFC_E_SUCCESS, some buffer, 8), after) ∧
      Wrote idle old handle (data.take (currentCount.toNat + chunk.toNat)) after := by
  have positive : 0 < chunk.toNat := Nat.pos_of_ne_zero fun zero =>
    nonempty (UInt32.toNat_inj.mp zero)
  have short : chunk.toNat + 8 < 2 ^ 32 := by omega
  have lengths : WriteLengths chunk (w.packet.write chunk) := ⟨rfl, rfl, nonempty⟩
  generalize isPiece : (data.drop currentCount.toNat).take chunk.toNat = piece
  have width : piece.length = chunk.toNat := by
    rw [← isPiece, List.length_take, List.length_drop]
    omega
  have eight : (word handle).length = 8 := length_le 8 _
  have whole : (word handle ++ piece).take (chunk + 8).toNat = word handle ++ piece := by
    rw [List.take_of_length_le]
    rw [WriteLengths.length_toNat short, List.length_append, eight, width]
    omega
  have header : (w.packet.write chunk).toLE =
      headerBytes w.packet.packetNum.toNat AFC_OP_WRITE (word handle ++ piece) := by
    have total : (word handle ++ piece).length = 8 + chunk.toNat := by
      rw [List.length_append, eight, width]
    refine toLE_eq_headerBytes wrote.magic rfl ?_ ?_ ?_
    · rw [lengths.entire_toNat, total]
      omega
    · rw [thisLengthOf, if_pos ⟨rfl, by omega⟩]
      rfl
    · rw [UInt64.ofNat_toNat]
      rfl
  have forty : (w.packet.write chunk).toLE.length = 40 := length_toLE wrote.magic
  -- the three sends, each accepted completely
  have sends : sendWrite env (w.packet.write chunk).toLE (word handle) piece w.connection =
      (chunk.toNat, [⟨(w.packet.write chunk).toLE, 40⟩, ⟨word handle, 8⟩, ⟨piece, chunk.toNat⟩],
        sent env w.connection [(w.packet.write chunk).toLE, word handle, piece]) := by
    simp only [sendWrite, acknowledges.accepts, forty, eight, width]
    rfl
  have answering := acknowledges.answers w.connection w.packet.packetNum.toNat AFC_OP_WRITE
    (word handle ++ piece) [(w.packet.write chunk).toLE, word handle, piece] wrote.idle
    (by rw [header]; simp)
  rw [UInt64.ofNat_add, UInt64.ofNat_toNat] at answering
  have dispatched := run_dispatchWrite env handle nonempty inside w
  dsimp only at dispatched
  rw [isPiece, if_pos short, sends, whole] at dispatched
  generalize sent env w.connection _ = moved at dispatched answering
  obtain ⟨d, isDispatch⟩ : ∃ d : Dispatch, ⟨word handle ++ piece,
      [⟨(w.packet.write chunk).toLE, 40⟩, ⟨word handle, 8⟩, ⟨piece, chunk.toNat⟩]⟩ = d := ⟨_, rfl⟩
  have carried : Carried handle piece d := by
    rw [← isDispatch]
    refine ⟨rfl, ⟨(w.packet.write chunk).toLE, forty, by simp⟩, by simp [forty, eight, width], ?_,
      by omega⟩
    intro empty
    rw [empty, List.length_nil] at width
    omega
  rw [isDispatch] at dispatched
  obtain ⟨buffer, behind, received, rests⟩ := receive_answer
    (w := ⟨w.packet.write chunk, moved, w.events ++ [.dispatch d]⟩) answering
  refine ⟨_, buffer, _, dispatched, received, wrote.magic, rests, ?_⟩
  obtain ⟨new, chunks, events, all, bytes⟩ := wrote.history
  refine ⟨new ++ [.dispatch d, .receive moved behind], chunks ++ [piece], ?_, ?_, ?_⟩
  · dsimp only
    rw [events, List.append_assoc, List.append_assoc]
    rfl
  · rw [packetsOf_append]
    exact List.rel_append all (.cons carried .nil)
  · rw [List.flatten_append, bytes, List.flatten_singleton, ← isPiece, List.take_add]

theorem toNat_ofLength {data : List UInt8} (small : data.length < 2 ^ 32) :
    (UInt32.ofNat data.length).toNat = data.length := by
  rw [UInt32.toNat_ofNat', Nat.mod_eq_of_lt small]

/-- How many whole segments the data has. -/
theorem wholeSegments {data : List UInt8} (small : data.length < 2 ^ 32) :
    (UInt32.ofNat data.length / maximumWriteSize).toNat = data.length / 32768 := by
  rw [UInt32.toNat_div, toNat_ofLength small]
  rfl

/-- The loop over whole segments. -/
theorem Wrote.segments (acknowledges : Acknowledges env idle) {old : List (Event σ)}
    {handle : UInt64} {data : List UInt8} : ∀ (segments : Nat) {currentCount : UInt32} {w : World σ},
      Wrote idle old handle (data.take currentCount.toNat) w → data.length < 2 ^ 32 →
        currentCount.toNat + segments * 32768 ≤ data.length →
          ∃ after count, (writeSegments env handle data segments currentCount).run w =
              (.ok (.ok count), after) ∧
            count.toNat = currentCount.toNat + segments * 32768 ∧
            Wrote idle old handle (data.take count.toNat) after
  | 0, currentCount, w, wrote, _, _ => ⟨w, currentCount, rfl, by omega, wrote⟩
  | segments + 1, currentCount, w, wrote, small, inside => by
      have maximum : maximumWriteSize.toNat = 32768 := rfl
      have handed : (UInt32.ofNat maximumWriteSize.toNat) = maximumWriteSize := UInt32.ofNat_toNat
      obtain ⟨before, buffer, after, dispatched, received, wrote'⟩ :=
        wrote.packet acknowledges (show maximumWriteSize ≠ 0 by decide) (by omega) (by omega)
      have next : (currentCount + maximumWriteSize).toNat = currentCount.toNat + 32768 := by
        rw [UInt32.toNat_add, maximum, Nat.mod_eq_of_lt (by omega)]
      rw [maximum, ← next] at wrote'
      obtain ⟨final, count, ran, counted, wrote''⟩ :=
        Wrote.segments acknowledges segments wrote' small (by omega)
      refine ⟨final, count, ?_, by omega, wrote''⟩
      rw [writeSegments, run_bind dispatched]
      dsimp only
      rw [if_neg (not_not.mpr rfl), run_bind received]
      dsimp only
      rw [if_neg (not_not.mpr rfl), handed, ran]

/-- The segment that is left. -/
theorem Wrote.last (acknowledges : Acknowledges env idle) {old : List (Event σ)}
    {handle : UInt64} {data : List UInt8} {currentCount : UInt32} {w : World σ}
    (wrote : Wrote idle old handle (data.take currentCount.toNat) w) (small : data.length < 2 ^ 32)
    (inside : currentCount.toNat ≤ data.length)
    (rest : data.length ≤ currentCount.toNat + 32768) :
    ∃ after, (writeLast env handle data currentCount).run w =
        (.ok (AFC_E_SUCCESS, some (UInt32.ofNat data.length)), after) ∧
      Wrote idle old handle data after := by
  have length := toNat_ofLength small
  rw [writeLast]
  dsimp only
  by_cases done : currentCount = UInt32.ofNat data.length
  · rw [if_pos done, ← done]
    rw [done, length, List.take_length] at wrote
    exact ⟨w, rfl, wrote⟩
  · have left : (UInt32.ofNat data.length - currentCount).toNat =
        data.length - currentCount.toNat := by
      rw [UInt32.toNat_sub_of_le _ _ (by rw [UInt32.le_iff_toNat_le]; omega), length]
    have differ : currentCount.toNat ≠ data.length := fun same =>
      done (UInt32.toNat_inj.mp (same.trans length.symm))
    have nonempty : UInt32.ofNat data.length - currentCount ≠ 0 := by
      intro zero
      rw [zero, UInt32.toNat_zero] at left
      omega
    have written : currentCount + (UInt32.ofNat data.length - currentCount) =
        UInt32.ofNat data.length := by
      rw [UInt32.add_comm, UInt32.sub_add_cancel]
    obtain ⟨before, buffer, after, dispatched, received, wrote'⟩ :=
      wrote.packet acknowledges nonempty (by omega) (by omega)
    rw [left, Nat.add_sub_cancel' inside, List.take_length] at wrote'
    refine ⟨after, ?_, wrote'⟩
    rw [if_neg done, run_bind dispatched]
    dsimp only
    rw [if_neg (not_not.mpr rfl), run_bind received, UInt32.ofNat_toNat, written]
    rfl

end Acknowledged

/-- **A connection that accepts every send and acknowledges every packet is handed the
data**: the call returns success with the whole length, and the packets it dispatched carry
the handle and the data, in order, in chunks of 1 to 32768 bytes. -/
theorem write_carried {idle : σ → Prop} (acknowledges : Acknowledges env idle) {handle : UInt64}
    (nonzero : handle ≠ 0) {data : List UInt8} (small : data.length < 2 ^ 32) {w : World σ}
    (magic : w.packet.magic = AFC_MAGIC) (rests : idle w.connection) :
    ∃ after new chunks, (afcFileWrite env handle data).run w =
        (.ok (AFC_E_SUCCESS, some (UInt32.ofNat data.length)), after) ∧
      after.events = w.events ++ new ∧
      List.Forall₂ (Carried handle) chunks (packetsOf new) ∧ chunks.flatten = data := by
  have start : Wrote idle w.events handle (data.take (0 : UInt32).toNat) w :=
    ⟨magic, rests, [], [], (List.append_nil _).symm, .nil, rfl⟩
  have count := wholeSegments small
  have zero : (0 : UInt32).toNat = 0 := rfl
  obtain ⟨middle, currentCount, ran, counted, wrote⟩ :=
    start.segments acknowledges (data.length / 32768) small (by omega)
  obtain ⟨after, last, wrote'⟩ := wrote.last acknowledges small (by omega) (by omega)
  obtain ⟨new, chunks, events, carried, bytes⟩ := wrote'.history
  refine ⟨after, new, chunks, ?_, events, carried, bytes⟩
  rw [afcFileWrite, withHandle, if_neg nonzero]
  dsimp only
  rw [count, run_bind ran]
  exact last

/-- A device that accepts everything and acknowledges what is pending when it is asked: the
bytes pending, and how much of the reply it has handed out. -/
def acknowledging : Environment (List UInt8 × Nat) where
  send s bytes := (bytes.length, (s.1 ++ bytes, 0))
  send_le _ _ := Nat.le_refl _
  receive s n :=
    let number := UInt64.ofNat (ofLE (slice s.1 24 8))
    let handed := ((statusReply number).bytes.drop s.2).take n
    (handed, if s.2 + handed.length = 48 then ([], 0) else (s.1, s.2 + handed.length))
  receive_le _ n := List.length_take_le n _
  statusError code := code.toNat
  heap _ := 0

theorem sent_acknowledging (pieces : List (List UInt8)) : ∀ pending : List UInt8,
    sent acknowledging (pending, 0) pieces = (pending ++ pieces.flatten, 0) := by
  induction pieces with
  | nil =>
    intro pending
    rw [List.flatten_nil, List.append_nil]
    rfl
  | cons bytes rest ih =>
    intro pending
    rw [List.flatten_cons, ← List.append_assoc, ← ih]
    rfl

/-- The number of the packet, from its bytes. -/
theorem number_of_header (n : Nat) (code : UInt64) (payload : List UInt8) :
    UInt64.ofNat (ofLE (slice (headerBytes n code payload ++ payload) 24 8)) =
      UInt64.ofNat (n + 1) := by
  have parts : headerBytes n code payload ++ payload =
      (AFC_MAGIC ++ (le 8 (40 + payload.length) ++ le 8 (thisLengthOf code payload))) ++
        (le 8 (n + 1) ++ (le 8 code.toNat ++ payload)) := by
    simp only [headerBytes, List.append_assoc]
  have front : (AFC_MAGIC ++ (le 8 (40 + payload.length) ++
      le 8 (thisLengthOf code payload))).length = 24 := by
    simp [AFC_MAGIC]
  have number : ofLE (le 8 (n + 1)) = (n + 1) % 256 ^ 8 := by
    rw [← le_mod, ofLE_le (Nat.mod_lt _ (by decide))]
  rw [parts, slice, List.drop_left' front, List.take_left' (length_le 8 _), number]
  apply UInt64.toNat_inj.mp
  rw [UInt64.toNat_ofNat', UInt64.toNat_ofNat']
  exact Nat.mod_mod (n + 1) (2 ^ 64)

theorem acknowledging_acknowledges : Acknowledges acknowledging (· = ([], 0)) where
  accepts _ _ := rfl
  answers := by
    rintro _ n code payload pieces rfl whole
    have moved := sent_acknowledging pieces []
    rw [whole, List.nil_append] at moved
    have number := number_of_header n code payload
    have width : (statusReply (UInt64.ofNat (n + 1))).header.toLE.length = 40 := length_toLE rfl
    have first : ((statusReply (UInt64.ofNat (n + 1))).bytes.drop 0).take 40 =
        (statusReply (UInt64.ofNat (n + 1))).header.toLE := List.take_left' width
    have second : ((statusReply (UInt64.ofNat (n + 1))).bytes.drop 40).take 8 =
        (statusReply (UInt64.ofNat (n + 1))).body := by
      rw [WirePacket.bytes, List.drop_left' width]
      rfl
    rw [moved]
    refine ⟨(headerBytes n code payload ++ payload, 40), ([], 0), ?_, ?_, rfl⟩
    · dsimp only [acknowledging]
      rw [number, first, width]
      rfl
    · dsimp only [acknowledging]
      rw [number, second]
      rfl

/-- Three bytes for the device that acknowledges. -/
theorem three_bytes_carried :
    ∃ after new chunks, (afcFileWrite acknowledging 5 [1, 2, 3]).run
        (afcClientNewFromConnection ([], 0) 0) = (.ok (AFC_E_SUCCESS, some 3), after) ∧
      after.events = (afcClientNewFromConnection (([] : List UInt8), 0) 0).events ++ new ∧
      List.Forall₂ (Carried 5) chunks (packetsOf new) ∧ chunks.flatten = [1, 2, 3] :=
  write_carried acknowledging acknowledging_acknowledges (by decide) (by decide) rfl rfl

/-! ## Any connection -/

/-- The bytes of data the connection accepted of a packet: the third piece is the data. -/
def Dispatch.handed (d : Dispatch) : List UInt8 :=
  match d.sends with
  | [_, _, chunk] => chunk.bytes.take chunk.accepted
  | _ => []

/-- The bytes of the header that are counted for data: the handle was refused behind it. -/
def Dispatch.slip (d : Dispatch) : Nat :=
  match d.sends with
  | [header, _] => header.accepted
  | _ => 0

def handedData (packets : List Dispatch) : List UInt8 := packets.flatMap Dispatch.handed

def slips (packets : List Dispatch) : Nat := (packets.map Dispatch.slip).sum

/-- What is stored is at most the data handed over, which is a prefix of the data. -/
def Accounted (data : List UInt8) (result : Checked (AfcError × Option UInt32))
    (packets : List Dispatch) : Prop :=
  (∀ err written, result = .ok (err, some written) → written.toNat ≤ (handedData packets).length) ∧
    handedData packets <+: data

/-- After `k` packets the count is that of the data handed over and of the slips. -/
structure Counted (data : List UInt8) (k n : Nat) (packets : List Dispatch) : Prop where
  count : n = (handedData packets).length + slips packets
  few : slips packets ≤ 40 * k
  place : slips packets = 0 → handedData packets = data.take n

theorem counted_nil (data : List UInt8) : Counted data 0 0 [] := ⟨rfl, Nat.le_refl 0, fun _ => rfl⟩

theorem handedData_concat (packets : List Dispatch) (d : Dispatch) :
    handedData (packets ++ [d]) = handedData packets ++ d.handed := by
  rw [handedData, List.flatMap_append, List.flatMap_singleton]
  rfl

theorem slips_concat (packets : List Dispatch) (d : Dispatch) :
    slips (packets ++ [d]) = slips packets + d.slip := by
  rw [slips, List.map_append, List.sum_append, List.map_singleton, List.sum_singleton]
  rfl

/-- A packet that hands over data from the count on, or slips. -/
theorem Counted.concat {data : List UInt8} {k n : Nat} {packets : List Dispatch}
    (counted : Counted data k n packets) {d : Dispatch} (few : d.slip ≤ 40)
    (place : d.handed = (data.drop n).take d.handed.length) :
    Counted data (k + 1) (n + (d.handed.length + d.slip)) (packets ++ [d]) := by
  have total := counted.count
  have few' := counted.few
  refine ⟨?_, ?_, fun none => ?_⟩
  · rw [handedData_concat, slips_concat, List.length_append]
    omega
  · rw [slips_concat]
    omega
  · rw [slips_concat] at none
    have before : slips packets = 0 := by omega
    have here : d.slip = 0 := by omega
    rw [handedData_concat, counted.place before, here, Nat.add_zero, List.take_add, ← place]

theorem eq_take_of_eq_take_take {front bytes : List UInt8} {n : Nat}
    (place : front = (bytes.take n).take front.length) : front = bytes.take front.length := by
  have within : front.length ≤ n := by
    have count := congrArg List.length place
    rw [List.length_take, List.length_take] at count
    omega
  rw [List.take_take, Nat.min_eq_left within] at place
  exact place

/-- What a write packet reports is the data handed over, or the header that slipped. -/
theorem sendWrite_counted (header handle chunk payload : List UInt8) (connection : σ)
    (forty : header.length = 40) :
    let sent := sendWrite env header handle chunk connection
    let d : Dispatch := ⟨payload, sent.2.1⟩
    sent.1 = d.handed.length + d.slip ∧ d.slip ≤ 40 ∧ d.handed = chunk.take d.handed.length ∧
      sent.1 ≤ max 40 chunk.length := by
  have headerFits := env.send_le connection header
  rw [sendWrite]
  dsimp only
  split
  · simp [Dispatch.handed, Dispatch.slip]
  split
  · simp only [Dispatch.handed, Dispatch.slip, List.length_nil, List.take_zero, Nat.zero_add]
    exact ⟨trivial, by omega, trivial, by omega⟩
  · have chunkFits := env.send_le (env.send (env.send connection header).2 handle).2 chunk
    simp only [Dispatch.handed, Dispatch.slip, List.length_take, Nat.min_eq_left chunkFits]
    exact ⟨rfl, by omega, trivial, by omega⟩

/-- Since `old` there were `k` packets, and the count is `n`. -/
structure Progress (old : List (Event σ)) (data : List UInt8) (k n : Nat) (packet : AFCPacket)
    (events : List (Event σ)) : Prop where
  magic : packet.magic = AFC_MAGIC
  history : ∃ new, events = old ++ new ∧ Counted data k n (packetsOf new)

section Runs

variable {env} {old : List (Event σ)} {handle : UInt64} {data : List UInt8}

theorem Progress.receive (k n : Nat) :
    Keeps (fun w => Progress old data k n w.packet w.events) (afcReceiveData env) :=
  afcReceiveData_keeps env fun packet events before after progress => by
    obtain ⟨new, rfl, counted⟩ := progress.history
    refine ⟨progress.magic, new ++ [.receive before after], List.append_assoc _ _ _, ?_⟩
    rw [packetsOf_append, packetsOf, packetsOf, List.append_nil]
    exact counted

theorem Progress.dispatch {k n : Nat} {packet next : AFCPacket} {events : List (Event σ)}
    (progress : Progress old data k n packet events) (magic : next.magic = packet.magic)
    {d : Dispatch} (few : d.slip ≤ 40) (place : d.handed = (data.drop n).take d.handed.length) :
    Progress old data (k + 1) (n + (d.handed.length + d.slip)) next (events ++ [.dispatch d]) := by
  obtain ⟨new, rfl, counted⟩ := progress.history
  refine ⟨magic.trans progress.magic, new ++ [.dispatch d], List.append_assoc _ _ _, ?_⟩
  rw [packetsOf_append]
  exact counted.concat few place

/-- **One packet, to any connection.** -/
theorem Progress.packet {k : Nat} {currentCount chunk : UInt32} {w : World σ}
    (progress : Progress old data k currentCount.toNat w.packet w.events) (nonempty : chunk ≠ 0)
    (inside : currentCount.toNat + chunk.toNat ≤ data.length) :
    ∃ err bytes after, (dispatchWrite env handle data currentCount chunk).run w =
        (.ok (err, bytes), after) ∧ bytes ≤ max 40 chunk.toNat ∧
      Progress old data (k + 1) (currentCount.toNat + bytes) after.packet after.events := by
  have dispatched := run_dispatchWrite env handle nonempty inside w
  dsimp only at dispatched
  have width : ((data.drop currentCount.toNat).take chunk.toNat).length = chunk.toNat := by
    rw [List.length_take, List.length_drop]
    omega
  by_cases short : chunk.toNat + 8 < 2 ^ 32
  · rw [if_pos short] at dispatched
    obtain ⟨bytes, few, place, most⟩ := sendWrite_counted env (w.packet.write chunk).toLE
      (word handle) ((data.drop currentCount.toNat).take chunk.toNat)
      ((word handle ++ (data.drop currentCount.toNat).take chunk.toNat).take (chunk + 8).toNat)
      w.connection (length_toLE progress.magic)
    rw [width] at most
    refine ⟨_, _, _, dispatched, most, ?_⟩
    rw [bytes]
    exact progress.dispatch (show (w.packet.write chunk).magic = w.packet.magic from rfl) few
      (eq_take_of_eq_take_take place)
  · rw [if_neg short] at dispatched
    refine ⟨_, _, _, dispatched, Nat.zero_le _, ?_⟩
    exact progress.dispatch (d := ⟨_, []⟩)
      (show (w.packet.write chunk).magic = w.packet.magic from rfl) (Nat.zero_le _) rfl

/-- Some number of packets, and some count. -/
def Underway (old : List (Event σ)) (data : List UInt8) (w : World σ) : Prop :=
  ∃ k n, Progress old data k n w.packet w.events

theorem Progress.dispatchWrite {k : Nat} {currentCount chunk : UInt32} (nonempty : chunk ≠ 0)
    (inside : currentCount.toNat + chunk.toNat ≤ data.length) :
    Ensures (fun w => Progress old data k currentCount.toNat w.packet w.events)
      (dispatchWrite env handle data currentCount chunk)
      (fun sent w => Progress old data (k + 1) (currentCount.toNat + sent.2) w.packet w.events ∧
        sent.2 ≤ max 40 chunk.toNat)
      (Underway old data) :=
  ensures_of_run fun w progress => by
    obtain ⟨err, bytes, after, ran, most, progress'⟩ := progress.packet nonempty inside
    exact ⟨_, after, ran, progress', most⟩

theorem Progress.received (k n : Nat) :
    Ensures (fun w => Progress old data k n w.packet w.events) (afcReceiveData env)
      (fun _ w => Progress old data k n w.packet w.events) (Underway old data) :=
  ⟨(Progress.receive k n).ok, fun progress ran => ⟨k, n, (Progress.receive k n).fault progress ran⟩⟩

/-- The loop over whole segments: the count is below where the segments end. -/
theorem Progress.segments (small : data.length < 2 ^ 32) : ∀ (segments k : Nat) {currentCount : UInt32},
    currentCount.toNat + segments * 32768 ≤ data.length →
      Ensures (fun w => Progress old data k currentCount.toNat w.packet w.events)
        (writeSegments env handle data segments currentCount)
        (fun looped w => match looped with
          | .error _ => Underway old data w
          | .ok count => Progress old data (k + segments) count.toNat w.packet w.events ∧
              count.toNat ≤ currentCount.toNat + segments * 32768)
        (Underway old data)
  | 0, k, currentCount, _ => ensures_pure fun w progress => ⟨progress, by omega⟩
  | segments + 1, k, currentCount, inside => by
      have maximum : maximumWriteSize.toNat = 32768 := rfl
      refine ensures_bind (Progress.dispatchWrite (by decide) (by omega)) fun sent =>
        ensures_fact fun most => ?_
      obtain ⟨ret, bytes⟩ := sent
      have count : (currentCount + UInt32.ofNat bytes).toNat = currentCount.toNat + bytes := by
        dsimp only at most
        rw [UInt32.toNat_add, UInt32.toNat_ofNat', Nat.mod_eq_of_lt (by omega),
          Nat.mod_eq_of_lt (by omega)]
      refine ensures_ite (fun _ => ensures_pure fun w progress => ⟨_, _, progress⟩) fun _ => ?_
      refine ensures_bind (Progress.received _ _) fun reply => ?_
      refine ensures_ite (fun _ => ensures_pure fun w progress => ⟨_, _, progress⟩) fun _ => ?_
      dsimp only at most ⊢
      rw [← count]
      refine ensures_mono (Progress.segments small segments (k + 1) (by omega)) (fun _ => id) ?_
      intro looped w done
      cases looped with
      | error ret => exact done
      | ok final =>
        rw [Nat.add_right_comm k 1 segments] at done
        exact ⟨done.1, by omega⟩

/-- The segment that is left: the count stored is 32 bits of the count. -/
theorem Progress.last (small : data.length < 2 ^ 32) {k : Nat} {currentCount : UInt32}
    (inside : currentCount.toNat ≤ data.length) :
    Ensures (fun w => Progress old data k currentCount.toNat w.packet w.events)
      (writeLast env handle data currentCount)
      (fun result w => ∃ k' n, Progress old data k' n w.packet w.events ∧ k' ≤ k + 1 ∧
        ∀ written, result.2 = some written → written.toNat = n % 2 ^ 32)
      (Underway old data) := by
  have length := toNat_ofLength small
  have fits := currentCount.toNat_lt
  refine ensures_ite (fun _ => ?_) fun differ => ?_
  · refine ensures_pure fun w progress => ⟨k, _, progress, Nat.le_succ k, ?_⟩
    intro written same
    cases same
    exact (Nat.mod_eq_of_lt fits).symm
  · have left : (UInt32.ofNat data.length - currentCount).toNat =
        data.length - currentCount.toNat := by
      rw [UInt32.toNat_sub_of_le _ _ (by rw [UInt32.le_iff_toNat_le]; omega), length]
    have nonempty : UInt32.ofNat data.length - currentCount ≠ 0 := by
      intro zero
      rw [zero, UInt32.toNat_zero] at left
      exact differ (UInt32.toNat_inj.mp (by omega))
    have stored : ∀ bytes : Nat, (currentCount + UInt32.ofNat bytes).toNat =
        (currentCount.toNat + bytes) % 2 ^ 32 := fun bytes => by
      rw [UInt32.toNat_add, UInt32.toNat_ofNat', Nat.add_mod_mod]
    refine ensures_bind (Progress.dispatchWrite nonempty (by omega)) fun sent => ?_
    obtain ⟨ret, bytes⟩ := sent
    refine ensures_fact fun _ => ensures_ite (fun _ => ?_) fun _ => ?_
    · refine ensures_pure fun w progress => ⟨_, _, progress, Nat.le_refl _, ?_⟩
      intro written same
      cases same
      exact stored bytes
    · refine ensures_bind (Progress.received _ _) fun reply => ?_
      refine ensures_pure fun w progress => ⟨_, _, progress, Nat.le_refl _, ?_⟩
      intro written same
      cases same
      exact stored bytes

/-- **A whole write, to any connection.** -/
theorem Progress.write (small : data.length < 2 ^ 32) :
    Ensures (fun w => Progress old data 0 0 w.packet w.events) (afcFileWrite env handle data)
      (fun result w => ∃ k n, Progress old data k n w.packet w.events ∧
        ∀ written, result.2 = some written → k ≤ 2 ^ 17 ∧ written.toNat = n % 2 ^ 32)
      (Underway old data) := by
  have count := wholeSegments small
  have zero : (0 : UInt32).toNat = 0 := rfl
  refine ensures_ite (fun _ => ?_) fun _ => ?_
  · exact ensures_pure fun w progress => ⟨0, 0, progress, fun written stored => by cases stored⟩
  rw [count]
  have loop := @Progress.segments σ env old handle data small (data.length / 32768) 0 0 (by omega)
  refine ensures_bind loop fun looped => ?_
  cases looped with
  | error ret =>
    refine ensures_pure fun w underway => ?_
    obtain ⟨k, n, progress⟩ := underway
    exact ⟨k, n, progress, fun written stored => by cases stored⟩
  | ok currentCount =>
    refine ensures_fact fun most => ?_
    refine ensures_mono (Progress.last small (by omega)) (fun _ => id) fun result w done => ?_
    obtain ⟨k, n, progress, few, stored⟩ := done
    exact ⟨k, n, progress, fun written same => ⟨by omega, stored written same⟩⟩

end Runs

/-- **When the count stored is that of data handed over**, and the data handed over is a
prefix: no packet has its header accepted and nothing of its handle.  Otherwise the
two hold by chance alone: nothing is stored, or the count reaches 32 bits, and the bytes
handed over behind such a packet are those at the place where they should have begun. -/
theorem write_accounted_iff (handle : UInt64) {data : List UInt8} (small : data.length < 2 ^ 32)
    {w : World σ} (magic : w.packet.magic = AFC_MAGIC) :
    let run := (afcFileWrite env handle data).run w
    let packets := packetsOf (run.2.events.drop w.events.length)
    Accounted data run.1 packets ↔
      slips packets = 0 ∨
        ((∀ err written, run.1 ≠ .ok (err, some written)) ∨
            2 ^ 32 ≤ (handedData packets).length + slips packets) ∧
          handedData packets <+: data := by
  have start : Progress w.events data 0 0 w.packet w.events :=
    ⟨magic, [], (List.append_nil _).symm, counted_nil data⟩
  have ensures := @Progress.write σ env w.events handle data small
  dsimp only
  generalize ran : (afcFileWrite env handle data).run w = run
  obtain ⟨result, after⟩ := run
  -- what is known of the packets, whether the call ended or not
  have known : ∃ k n, Progress w.events data k n after.packet after.events ∧
      ∀ err written, result = .ok (err, some written) → k ≤ 2 ^ 17 ∧ written.toNat = n % 2 ^ 32 := by
    cases result with
    | error fault =>
      obtain ⟨k, n, progress⟩ := ensures.fault start ran
      exact ⟨k, n, progress, fun err written stored => by cases stored⟩
    | ok value =>
      obtain ⟨k, n, progress, stored⟩ := ensures.ok start ran
      refine ⟨k, n, progress, fun err written same => stored written ?_⟩
      rw [Except.ok.inj same]
  obtain ⟨k, n, progress, stored⟩ := known
  obtain ⟨new, events, counted⟩ := progress.history
  dsimp only
  rw [events, List.drop_left]
  have count := counted.count
  have few := counted.few
  constructor
  · rintro ⟨most, isPrefix⟩
    by_cases none : slips (packetsOf new) = 0
    · exact .inl none
    · refine .inr ⟨?_, isPrefix⟩
      by_contra neither
      obtain ⟨stores, small'⟩ := not_or.mp neither
      refine stores fun err written same => ?_
      have bound := most err written same
      have value := (stored err written same).2
      rw [Nat.mod_eq_of_lt (by omega)] at value
      omega
  · rintro (none | ⟨chance, isPrefix⟩)
    · have place := counted.place none
      have within : (handedData (packetsOf new)).length ≤ data.length := by
        rw [place, List.length_take]
        exact Nat.min_le_right _ _
      refine ⟨fun err written same => ?_, place ▸ List.take_prefix n data⟩
      rw [(stored err written same).2, Nat.mod_eq_of_lt (by omega)]
      omega
    · have within := isPrefix.length_le
      refine ⟨fun err written same => ?_, isPrefix⟩
      obtain ⟨bound, value⟩ := stored err written same
      rcases chance with unstored | wraps
      · exact absurd same (unstored err written)
      · omega

/-- A connection that accepts so many sends, and hands out nothing. -/
def stopping (n : Nat) : Environment Nat where
  send k bytes := (if k < n then bytes.length else 0, k + 1)
  send_le k bytes := by
    split
    · exact Nat.le_refl _
    · exact Nat.zero_le _
  receive k _ := ([], k)
  receive_le _ n := Nat.zero_le n
  statusError code := code.toNat
  heap _ := 0

theorem three_sends_accounted :
    Accounted [1, 2, 3]
      ((afcFileWrite (stopping 3) 5 [1, 2, 3]).run (afcClientNewFromConnection 0 0)).1
      (packetsOf (((afcFileWrite (stopping 3) 5 [1, 2, 3]).run
        (afcClientNewFromConnection 0 0)).2.events.drop 0)) :=
  (write_accounted_iff (stopping 3) 5 (by decide) rfl).mpr (.inl rfl)

/-- A packet of which only the header is accepted: its 40 bytes are stored as written. -/
theorem header_counted_for_data :
    ((afcFileWrite (stopping 1) 5 [1, 2, 3]).run (afcClientNewFromConnection 0 0)).1 =
        .ok (AFC_E_MUX_ERROR, some 40) ∧
      ¬ Accounted [1, 2, 3]
        ((afcFileWrite (stopping 1) 5 [1, 2, 3]).run (afcClientNewFromConnection 0 0)).1
        (packetsOf (((afcFileWrite (stopping 1) 5 [1, 2, 3]).run
          (afcClientNewFromConnection 0 0)).2.events.drop 0)) := by
  refine ⟨rfl, fun accounted => ?_⟩
  have most := accounted.1 AFC_E_MUX_ERROR 40 rfl
  exact absurd most (by decide)

end Irestore.Afc
