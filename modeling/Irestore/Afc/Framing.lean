/-
# Afc.Framing — one dispatch, from any state of the client

All operations share the one header of the client, so the lengths and the code
of an earlier operation could survive into the next packet.  `headerBytes n code
payload` is the header of the packet dispatched after `n` others under `code`
with `payload`, a function of nothing else.

* `sendPacket_plain`, `sendPacket_split` — the two ways a packet is sent; on
  either one the header goes first and the payload follows.
* `Ready` — how an operation must leave the header before it dispatches.
* `Ready.dispatched` — from there a dispatch sends `headerBytes` and the payload,
  raises the packet number and records one event.
-/
import Irestore.Afc.Operations

namespace Irestore.Afc

open Irestore.Library Irestore.Library.Program Irestore.Library.Bytes Irestore.Library.CMemory

set_option autoImplicit false

variable {σ : Type} (env : Environment σ)

/-! ## Frames -/

/-- `this_length` of a packet: up to the handle for a write with data, else the
whole packet. -/
def thisLengthOf (code : UInt64) (payload : List UInt8) : Nat :=
  if code = AFC_OP_WRITE ∧ 8 < payload.length then 48 else 40 + payload.length

/-- The 40 bytes of the header of a packet dispatched after `n` others. -/
def headerBytes (n : Nat) (code : UInt64) (payload : List UInt8) : List UInt8 :=
  AFC_MAGIC ++ (le 8 (40 + payload.length) ++ (le 8 (thisLengthOf code payload) ++
    (le 8 (n + 1) ++ le 8 code.toNat)))

/-- What was sent, if anything, began with the header; if all of it was accepted,
the payload followed and nothing else. -/
def Pieces (header payload : List UInt8) (sends : List Send) : Prop :=
  ∀ first rest, sends = first :: rest → first.bytes = header ∧
    ((∀ s ∈ sends, s.accepted = s.bytes.length) → sends.flatMap Send.bytes = header ++ payload)

/-! ## Sending a packet -/

theorem length_toLE_of_width {packet : AFCPacket} (width : packet.magic.length = 8) :
    packet.toLE.length = 40 := by
  simp [AFCPacket.toLE, width]

theorem length_toLE {packet : AFCPacket} (magic : packet.magic = AFC_MAGIC) :
    packet.toLE.length = 40 :=
  length_toLE_of_width (by rw [magic]; rfl)

@[simp] theorem run_connectionSend (bytes : List UInt8) (w : World σ) :
    (connectionSend env bytes).run w =
      (.ok ⟨bytes, (env.send w.connection bytes).1⟩,
        { w with connection := (env.send w.connection bytes).2 }) := rfl

theorem run_connectionReceive {length : Nat} {w : World σ} {bytes : List UInt8} {after : σ}
    (received : env.receive w.connection length = (bytes, after)) :
    (connectionReceive env length).run w = (.ok bytes, { w with connection := after }) := by
  change (Except.ok (env.receive w.connection length).1, _) = _
  rw [received]

/-- A header of which nothing was accepted. -/
theorem pieces_refused {header payload : List UInt8} {accepted : Nat} (width : header.length = 40)
    (refused : accepted = 0) : Pieces header payload [⟨header, accepted⟩] := by
  intro first rest sent
  cases sent
  refine ⟨rfl, fun all => ?_⟩
  have taken := all ⟨header, accepted⟩ (by simp)
  simp only [refused, width] at taken
  cases taken

theorem pieces_whole {header payload : List UInt8} {accepted : Nat} {body : List Send}
    (whole : (∀ s ∈ body, s.accepted = s.bytes.length) → body.flatMap Send.bytes = payload) :
    Pieces header payload (⟨header, accepted⟩ :: body) := by
  intro first rest sent
  cases sent
  refine ⟨rfl, fun all => ?_⟩
  rw [List.flatMap_cons, whole fun s member => all s (List.mem_cons_of_mem _ member)]

/-- The pieces were handed to the connection one after another, each to what the one before
it left. -/
def Handed : σ → List Send → σ → Prop
  | before, [], after => after = before
  | before, s :: rest, after =>
      s.accepted = (env.send before s.bytes).1 ∧ Handed (env.send before s.bytes).2 rest after

variable {env} in
theorem Handed.mem : ∀ {sends : List Send} {before after : σ}, Handed env before sends after →
    ∀ s ∈ sends, ∃ connection, s.accepted = (env.send connection s.bytes).1
  | _ :: _, _, _, handed, s, member => by
      rcases List.mem_cons.mp member with rfl | later
      · exact ⟨_, handed.1⟩
      · exact handed.2.mem s later

variable {env} in
/-- What sending leaves alone in the connection, the pieces leave alone. -/
theorem Handed.view {τ : Type} {view : σ → τ}
    (kept : ∀ s bytes, view (env.send s bytes).2 = view s) :
    ∀ {sends : List Send} {before after : σ}, Handed env before sends after →
      view after = view before
  | [], _, _, handed => congrArg view handed
  | _ :: _, _, _, handed => (handed.2.view kept).trans (kept _ _)

/-- The program moves the connection only, and sends the header and the payload. -/
def Sends (header payload : List UInt8) (program : Program (World σ) (AfcError × Nat × List Send))
    (w : World σ) : Prop :=
  ∃ err sent sends connection,
    program.run w = (.ok (err, sent, sends), { w with connection := connection }) ∧
    Pieces header payload sends ∧ Handed env w.connection sends connection ∧ sends ≠ []

/-- A packet sent whole: the header, then the payload if there is one. -/
theorem sendPacket_plain {packet : AFCPacket} {data : List UInt8} {length : UInt32}
    (magic : packet.magic = AFC_MAGIC) (same : packet.thisLength = packet.entireLength)
    (w : World σ) :
    Sends env packet.toLE (data.take length.toNat) (sendPacket env packet data length) w := by
  have whole : ¬ packet.thisLength ≠ packet.entireLength := fun differ => differ same
  simp only [Sends, sendPacket, whole, if_false, run_bind_eq, run_connectionSend, run_ite, run_pure]
  split_ifs with refused nonempty
  · exact ⟨_, _, _, _, rfl, pieces_refused (length_toLE magic) refused, ⟨rfl, rfl⟩, by simp⟩
  · exact ⟨_, _, _, _, rfl, pieces_whole fun _ => by simp, ⟨rfl, rfl, rfl⟩, by simp⟩
  · have zero : length.toNat = 0 := by
      rw [UInt32.lt_iff_toNat_lt] at nonempty
      exact Nat.eq_zero_of_not_pos nonempty
    exact ⟨_, _, _, _, rfl, pieces_whole fun _ => by simp [zero], ⟨rfl, rfl⟩, by simp⟩

/-- A packet in two segments, the first of which ends behind an 8-byte handle. -/
theorem sendPacket_split {packet : AFCPacket} {data : List UInt8} {length : UInt32}
    (magic : packet.magic = AFC_MAGIC) (handle : packet.thisLength = 48)
    (differ : packet.thisLength ≠ packet.entireLength) (long : 8 ≤ length)
    (fits : packet.entireLength - packet.thisLength ≤ length.toUInt64) (w : World σ) :
    Sends env packet.toLE (data.take length.toNat) (sendPacket env packet data length) w := by
  have eight : (packet.thisLength - 40).toUInt32 = 8 := by rw [handle]; decide
  have offset : (packet.thisLength - 40).toUInt32.toNat = 8 := by rw [eight]; decide
  have covered : ¬ length.toUInt64 < packet.entireLength - packet.thisLength :=
    UInt64.not_lt.mpr fits
  have halves : data.take 8 ++ (data.drop 8).take (length - (packet.thisLength - 40).toUInt32).toNat =
      data.take length.toNat := by
    rw [eight, UInt32.toNat_sub_of_le _ _ long, ← List.take_add]
    rw [UInt32.le_iff_toNat_le] at long
    congr 1
    exact Nat.add_sub_cancel' long
  simp only [Sends, sendPacket, differ, covered, if_false, run_bind_eq, run_connectionSend, run_ite,
    run_pure, offset, ne_eq, not_false_eq_true, if_true]
  split_ifs with refused none
  · exact ⟨_, _, _, _, rfl, pieces_refused (length_toLE magic) refused, ⟨rfl, rfl⟩, by simp⟩
  · refine ⟨_, _, _, _, rfl, pieces_whole fun all => ?_, ⟨rfl, rfl, rfl⟩, by simp⟩
    have taken := all ⟨data.take 8, _⟩ (List.mem_singleton.mpr rfl)
    simp only [none, List.length_take] at taken
    have empty : data = [] := List.length_eq_zero_iff.mp (by omega)
    simp [empty]
  · exact ⟨_, _, _, _, rfl, pieces_whole fun _ => by simpa using halves, ⟨rfl, rfl, rfl, rfl⟩,
      by simp⟩

/-! ## One dispatch -/

/-- The header as an operation leaves it before it dispatches `data`: both
lengths zero, or those of a write whose handle is followed by `chunk` bytes. -/
inductive Ready (code : UInt64) (data : List UInt8) (length : UInt32) (packet : AFCPacket) : Prop
  | plain (own : packet.operation = code) (ordinary : code ≠ AFC_OP_WRITE)
      (entire : packet.entireLength = 0) (this : packet.thisLength = 0)
      (covers : length.toNat ≤ data.length)
  | write (chunk : UInt32) (own : packet.operation = code) (isWrite : code = AFC_OP_WRITE)
      (entire : packet.entireLength = 48 + chunk.toUInt64) (this : packet.thisLength = 48)
      (nonempty : chunk ≠ 0) (covers : data.length = 8 + chunk.toNat) (total : length = chunk + 8)

/-- What one dispatch leaves and what it sent: nothing at all only when the length
of a write wraps around. -/
def Dispatched (code : UInt64) (data : List UInt8) (length : UInt32) (w : World σ) : Prop :=
  ∃ err sent sends packet connection,
    (afcDispatchPacket env data length).run w =
      (.ok (err, sent), ⟨packet, connection,
        w.events ++ [.dispatch ⟨data.take length.toNat, sends⟩]⟩) ∧
    packet.magic = w.packet.magic ∧ packet.packetNum = w.packet.packetNum + 1 ∧
    (∀ n, w.packet.packetNum = UInt64.ofNat n →
      Pieces (headerBytes n code (data.take length.toNat)) (data.take length.toNat) sends) ∧
    Handed env w.connection sends connection ∧
    (sends = [] → code = AFC_OP_WRITE ∧ length.toNat < 8)

/-- The bytes of a header, from its fields. -/
theorem toLE_eq_headerBytes {packet : AFCPacket} {n : Nat} {code : UInt64} {payload : List UInt8}
    (magic : packet.magic = AFC_MAGIC) (own : packet.operation = code)
    (entire : packet.entireLength.toNat = 40 + payload.length)
    (this : packet.thisLength.toNat = thisLengthOf code payload)
    (number : packet.packetNum = UInt64.ofNat n + 1) : packet.toLE = headerBytes n code payload := by
  have low : le 8 packet.packetNum.toNat = le 8 (n + 1) := by
    have word : packet.packetNum.toNat = (n + 1) % 256 ^ 8 := by
      rw [number, UInt64.toNat_add, UInt64.toNat_ofNat']
      simp
    rw [word, le_mod]
  rw [AFCPacket.toLE, headerBytes, magic, own, entire, this, low]

/-- The header's fields when `afc_dispatch_packet` sends it. -/
def AFCPacket.next (length : UInt32) (packet : AFCPacket) : AFCPacket :=
  AFCPacket.lengths length { packet with packetNum := packet.packetNum + 1 }

theorem dispatch_eq (data : List UInt8) (length : UInt32) {w w' : World σ}
    {err : AfcError} {sent : Nat} {sends : List Send}
    (ran : (sendPacket env (w.packet.next length) data length).run
      { w with packet := w.packet.next length } = (.ok (err, sent, sends), w')) :
    (afcDispatchPacket env data length).run w =
      (.ok (err, sent), w'.record (.dispatch ⟨data.take length.toNat, sends⟩)) := by
  have set : World.setPacket (AFCPacket.lengths length) (World.setPacket
      (fun packet => { packet with packetNum := packet.packetNum + 1 }) w) =
        { w with packet := w.packet.next length } := rfl
  simp only [afcDispatchPacket, run_bind_eq, run_modify, run_get, set, ran, run_pure]

theorem dispatched_of_sends {code : UInt64} {data : List UInt8} {length : UInt32} {w : World σ}
    {next : AFCPacket} (set : w.packet.next length = next)
    (magic : next.magic = w.packet.magic) (number : next.packetNum = w.packet.packetNum + 1)
    (header : ∀ n, w.packet.packetNum = UInt64.ofNat n →
      next.toLE = headerBytes n code (data.take length.toNat))
    (sends : Sends env next.toLE (data.take length.toNat) (sendPacket env next data length)
      { w with packet := next }) : Dispatched env code data length w := by
  subst set
  obtain ⟨err, sent, sends, connection, ran, pieces, handed, nonempty⟩ := sends
  refine ⟨err, sent, sends, _, connection, dispatch_eq env data length ran, magic, number, ?_,
    handed, fun none => absurd none nonempty⟩
  intro n counted
  rw [← header n counted]
  exact pieces

/-- A dispatch whose lengths are set from the data. -/
theorem dispatched_plain {code : UInt64} {data : List UInt8} {length : UInt32} {w : World σ}
    (own : w.packet.operation = code) (ordinary : code ≠ AFC_OP_WRITE)
    (entire : w.packet.entireLength = 0) (covers : length.toNat ≤ data.length)
    (magic : w.packet.magic = AFC_MAGIC) :
    Dispatched env code data length w := by
  have width : (data.take length.toNat).length = length.toNat := by
    rw [List.length_take]
    omega
  have small : 40 + length.toNat < 2 ^ 64 := by
    have := length.toNat_lt
    omega
  have total : (40 + length.toUInt64).toNat = 40 + length.toNat := by
    rw [UInt64.toNat_add, UInt32.toNat_toUInt64]
    exact Nat.mod_eq_of_lt small
  have positive : (40 + length.toUInt64) ≠ 0 := by
    intro zero
    rw [zero, UInt64.toNat_zero] at total
    omega
  have set : w.packet.next length = { w.packet with
      entireLength := 40 + length.toUInt64, thisLength := 40 + length.toUInt64,
      packetNum := w.packet.packetNum + 1 } := by
    have whole : (if length ≠ 0 then 40 + length.toUInt64 else 40) = 40 + length.toUInt64 := by
      split
      · rfl
      · rename_i none
        have zero : length = 0 := by simpa using none
        rw [zero]
        rfl
    simp only [AFCPacket.next, AFCPacket.lengths, entire, if_true, whole, positive, if_false]
  refine dispatched_of_sends env set rfl rfl (fun n counted => ?_) ?_
  · refine toLE_eq_headerBytes ?_ ?_ ?_ ?_ ?_
    · exact magic
    · exact own
    · exact total.trans (by rw [width])
    · simp only [thisLengthOf, ordinary, false_and, if_false, total, width]
    · exact congrArg (· + 1) counted
  · refine sendPacket_plain env ?_ ?_ _
    · exact magic
    · rfl

/-- The length fields of a write packet of `chunk` bytes of data. -/
structure WriteLengths (chunk : UInt32) (packet : AFCPacket) : Prop where
  entire : packet.entireLength = 48 + chunk.toUInt64
  this : packet.thisLength = 48
  nonempty : chunk ≠ 0

namespace WriteLengths

variable {packet : AFCPacket} {chunk : UInt32} (lengths : WriteLengths chunk packet)

include lengths

theorem entire_toNat : packet.entireLength.toNat = 48 + chunk.toNat := by
  have chunkSmall := chunk.toNat_lt
  rw [lengths.entire, UInt64.toNat_add, UInt32.toNat_toUInt64]
  exact Nat.mod_eq_of_lt (by simp; omega)

theorem chunk_pos : 0 < chunk.toNat :=
  Nat.pos_of_ne_zero fun zero => lengths.nonempty (UInt32.toNat_inj.mp zero)

theorem differ : packet.thisLength ≠ packet.entireLength := by
  intro same
  have entire := lengths.entire_toNat
  have positive := lengths.chunk_pos
  have handle : (48 : UInt64).toNat = 48 := rfl
  rw [← same, lengths.this] at entire
  omega

/-- What the header promises behind the handle. -/
theorem rest : packet.entireLength - packet.thisLength = chunk.toUInt64 := by
  have entire := lengths.entire_toNat
  have handle : (48 : UInt64).toNat = 48 := rfl
  apply UInt64.toNat_inj.mp
  rw [lengths.this, UInt64.toNat_sub_of_le _ _ (by rw [UInt64.le_iff_toNat_le]; omega), entire,
    UInt32.toNat_toUInt64]
  exact Nat.add_sub_cancel_left 48 _

/-- A dispatch leaves the lengths alone. -/
theorem next (length : UInt32) :
    packet.next length = { packet with packetNum := packet.packetNum + 1 } := by
  have entireSet : packet.entireLength ≠ 0 := by
    intro zero
    have entire := lengths.entire_toNat
    rw [zero, UInt64.toNat_zero] at entire
    omega
  have thisSet : packet.thisLength ≠ 0 := by
    rw [lengths.this]
    decide
  simp only [AFCPacket.next, AFCPacket.lengths, entireSet, thisSet, if_false]

omit lengths in
/-- The length passed with the packet, unless it wraps around. -/
theorem length_toNat {chunk : UInt32} (short : chunk.toNat + 8 < 2 ^ 32) :
    (chunk + 8).toNat = chunk.toNat + 8 := by
  have eight : (8 : UInt32).toNat = 8 := rfl
  rw [UInt32.toNat_add, eight, Nat.mod_eq_of_lt short]

/-- A 32-bit length that has wrapped is below what the header promises. -/
theorem wrapped (wraps : 2 ^ 32 ≤ chunk.toNat + 8) :
    (chunk + 8).toUInt64 < packet.entireLength - packet.thisLength := by
  have chunkSmall := chunk.toNat_lt
  have eight : (8 : UInt32).toNat = 8 := rfl
  rw [lengths.rest, UInt64.lt_iff_toNat_lt, UInt32.toNat_toUInt64, UInt32.toNat_toUInt64,
    UInt32.toNat_add, eight]
  omega

end WriteLengths

/-- A dispatch of a write, whose lengths are set before. -/
theorem dispatched_write {code : UInt64} {data : List UInt8} {length : UInt32} {w : World σ}
    {chunk : UInt32} (own : w.packet.operation = code) (isWrite : code = AFC_OP_WRITE)
    (lengths : WriteLengths chunk w.packet) (covers : data.length = 8 + chunk.toNat)
    (total : length = chunk + 8) (magic : w.packet.magic = AFC_MAGIC) :
    Dispatched env code data length w := by
  have chunkSmall := chunk.toNat_lt
  have chunkPos := lengths.chunk_pos
  have set := lengths.next length
  have differ := lengths.differ
  have rest := lengths.rest
  by_cases wraps : 2 ^ 32 ≤ 8 + chunk.toNat
  · -- the 32-bit length has wrapped, and is below what the header promises
    have short : length.toUInt64 < w.packet.entireLength - w.packet.thisLength :=
      total ▸ lengths.wrapped (by omega)
    have ran : (sendPacket env (w.packet.next length) data length).run
        { w with packet := w.packet.next length } =
          (.ok (AFC_E_INTERNAL_ERROR, 0, []), { w with packet := w.packet.next length }) := by
      rw [set]
      simp only [sendPacket, differ, short, ne_eq, not_false_eq_true, if_true, run_pure]
    refine ⟨_, _, _, w.packet.next length, w.connection, dispatch_eq env data length ran,
      by rw [set], by rw [set], ?_, rfl, fun _ => ⟨isWrite, ?_⟩⟩
    · intro _ _ first rest none
      cases none
    · rw [total, UInt32.toNat_add]
      have eight : (8 : UInt32).toNat = 8 := rfl
      rw [eight]
      omega
  · have lengthNat : length.toNat = 8 + chunk.toNat := by
      rw [total, WriteLengths.length_toNat (by omega)]
      omega
    have width : (data.take length.toNat).length = 8 + chunk.toNat := by
      rw [List.length_take]
      omega
    refine dispatched_of_sends env set rfl rfl (fun n counted => ?_) ?_
    · refine toLE_eq_headerBytes ?_ ?_ ?_ ?_ ?_
      · exact magic
      · exact own
      · change w.packet.entireLength.toNat = _
        rw [lengths.entire_toNat, width]
        omega
      · change w.packet.thisLength.toNat = _
        have long : 8 < (data.take length.toNat).length := by omega
        simp only [thisLengthOf, isWrite, long, and_self, if_true, lengths.this]
        rfl
      · exact congrArg (· + 1) counted
    · refine sendPacket_split env ?_ ?_ ?_ ?_ ?_ _
      · exact magic
      · exact lengths.this
      · exact differ
      · rw [UInt32.le_iff_toNat_le, lengthNat]
        exact Nat.le_add_right 8 _
      · change w.packet.entireLength - w.packet.thisLength ≤ _
        rw [rest, UInt64.le_iff_toNat_le, UInt32.toNat_toUInt64, UInt32.toNat_toUInt64, lengthNat]
        exact Nat.le_add_left _ _

/-- **A dispatch frames its packet by the operation, the payload and the count of
the dispatches before it.** -/
theorem Ready.dispatched {code : UInt64} {data : List UInt8} {length : UInt32} {w : World σ}
    (ready : Ready code data length w.packet) (magic : w.packet.magic = AFC_MAGIC) :
    Dispatched env code data length w := by
  cases ready with
  | plain own ordinary entire _ covers =>
    exact dispatched_plain env own ordinary entire covers magic
  | write chunk own isWrite entire this nonempty covers total =>
    exact dispatched_write env own isWrite ⟨entire, this, nonempty⟩ covers total magic

end Irestore.Afc
