/-
# Afc.Replies — how much of the reply stream each receive consumes

The device's replies are one byte stream.  A receive that does not consume
exactly one packet of it leaves the next operation to read payload as a header.

* `WirePacket` — a well-formed packet, as its bytes stand in the stream.
* `receivePacket_consumes` — one receive at a packet's start consumes exactly that
  packet if and only if the packet `Answers` the client: it carries the client's
  packet number or nothing behind its header, and its payload fits 32 bits.
* `consumesWhole_iff` — over a run: every receive consumes one whole packet if and
  only if every packet met answers.
* `mismatch_leaves_payload` — a reply with another packet number and a payload.
-/
import Irestore.Afc.Sessions

namespace Irestore.Afc

open Irestore.Library Irestore.Library.Program Irestore.Library.Bytes Irestore.Library.CMemory

set_option autoImplicit false

/-! ## The stream -/

/-- A well-formed packet: any operation, number and status. -/
structure WirePacket where
  header : AFCPacket
  body : List UInt8
  magic : header.magic = AFC_MAGIC
  header_le : 40 ≤ header.thisLength
  this_le : header.thisLength ≤ header.entireLength
  entire : header.entireLength.toNat = 40 + body.length

def WirePacket.bytes (p : WirePacket) : List UInt8 := p.header.toLE ++ p.body

/-- The connection receives from the stream `view` shows, every byte asked for as
long as there is one; sending leaves the stream alone. -/
structure Delivers {σ : Type} (env : Environment σ) (view : σ → List UInt8) : Prop where
  receive : ∀ s n, (env.receive s n).1 = (view s).take n ∧
    view (env.receive s n).2 = (view s).drop n
  send : ∀ s bytes, view (env.send s bytes).2 = view s

/-- The packet is read to its end by a client that has dispatched `n` packets. -/
def Answers (n : Nat) (p : WirePacket) : Prop :=
  (p.header.packetNum = UInt64.ofNat n ∨ p.body = []) ∧ p.body.length < 2 ^ 32

variable {σ : Type}

/-- Every receive of the history began where a packet begins and ended where the
next one does. -/
def ConsumesWhole (view : σ → List UInt8) : List WirePacket → List (Event σ) → Prop
  | _, [] => True
  | packets, .dispatch _ :: events => ConsumesWhole view packets events
  | packets, .receive before after :: events =>
      view before = packets.flatMap WirePacket.bytes ∧
        view after = packets.tail.flatMap WirePacket.bytes ∧
        ConsumesWhole view packets.tail events

/-- Every packet met by a receive of the history answers, the first of them a
client that has dispatched `n` packets. -/
def Answered : Nat → List WirePacket → List (Event σ) → Prop
  | _, _, [] => True
  | n, packets, .dispatch _ :: events => Answered (n + 1) packets events
  | n, [], .receive .. :: events => Answered n [] events
  | n, p :: packets, .receive .. :: events => Answers n p ∧ Answered n packets events

theorem consumesWhole_append {view : σ → List UInt8} {packets : List WirePacket}
    {front back : List (Event σ)} :
    ConsumesWhole view packets (front ++ back) ↔ ConsumesWhole view packets front ∧
      ConsumesWhole view (packets.drop (receives front)) back := by
  induction front generalizing packets with
  | nil => simp [ConsumesWhole, receives]
  | cons event front ih =>
    cases event with
    | dispatch d => simp only [List.cons_append, ConsumesWhole, receives, ih]
    | receive before after =>
      simp only [List.cons_append, ConsumesWhole, receives, ih, and_assoc, List.drop_tail]

theorem answered_append {n : Nat} {packets : List WirePacket} {front back : List (Event σ)} :
    Answered n packets (front ++ back) ↔ Answered n packets front ∧
      Answered (n + dispatches front) (packets.drop (receives front)) back := by
  induction front generalizing n packets with
  | nil => simp [Answered, dispatches, receives]
  | cons event front ih =>
    cases event with
    | dispatch d =>
      have shift : n + 1 + dispatches front = n + (dispatches front + 1) := by omega
      simp only [List.cons_append, Answered, dispatches, receives, ih, shift]
    | receive before after =>
      cases packets with
      | nil => simp only [List.cons_append, Answered, dispatches, receives, ih, List.drop_nil]
      | cons p packets =>
        simp only [List.cons_append, Answered, dispatches, receives, ih, and_assoc,
          List.drop_succ_cons]

theorem receives_append (front back : List (Event σ)) :
    receives (front ++ back) = receives front + receives back := by
  induction front with
  | nil => simp [receives]
  | cons event front ih =>
    cases event with
    | dispatch d => simp only [List.cons_append, receives, ih]
    | receive before after =>
      simp only [List.cons_append, receives, ih]
      omega

/-! ## One receive -/

/-- The header read back, whatever its magic. -/
theorem fromLE_toLE_of_width {packet : AFCPacket} (eight : packet.magic.length = 8) :
    AFCPacket.fromLE packet.toLE = packet := by
  have field : ∀ (n : UInt64), UInt64.ofNat (ofLE (le 8 n.toNat)) = n := by
    intro n
    rw [ofLE_le n.toNat_lt, UInt64.ofNat_toNat]
  have width : ∀ (n : Nat) (rest : List UInt8), (le 8 n ++ rest).take 8 = le 8 n := by
    intro n rest
    exact List.take_left' (length_le 8 n)
  have drop : ∀ (n : Nat) (rest : List UInt8) (k : Nat),
      (le 8 n ++ rest).drop (8 + k) = rest.drop k := by
    intro n rest k
    rw [← List.drop_drop, List.drop_left' (length_le 8 n)]
  have start : ∀ (rest : List UInt8) (k : Nat),
      (packet.magic ++ rest).drop (8 + k) = rest.drop k := by
    intro rest k
    rw [← List.drop_drop, List.drop_left' eight]
  have first : ∀ rest : List UInt8, slice (packet.magic ++ rest) 0 8 = packet.magic := by
    intro rest
    rw [slice, List.drop_zero, List.take_left' eight]
  have whole : (le 8 packet.operation.toNat).take 8 = le 8 packet.operation.toNat :=
    List.take_of_length_le (Nat.le_of_eq (length_le 8 _))
  obtain ⟨m, entire, this, number, operation⟩ := packet
  simp only [AFCPacket.fromLE, AFCPacket.toLE, first, AFCPacket.mk.injEq, true_and]
  refine ⟨?_, ?_, ?_, ?_⟩
  · rw [slice, start _ 0, List.drop_zero, width, field]
  · rw [slice, start _ 8, drop _ _ 0, List.drop_zero, width, field]
  · rw [slice, start _ 16, drop _ _ 8, drop _ _ 0, List.drop_zero, width, field]
  · rw [slice, start _ 24, drop _ _ 16, drop _ _ 8, drop _ _ 0, List.drop_zero, whole, field]

theorem fromLE_toLE {packet : AFCPacket} (magic : packet.magic = AFC_MAGIC) :
    AFCPacket.fromLE packet.toLE = packet :=
  fromLE_toLE_of_width (by rw [magic]; rfl)

/-- An accepted header that is not that of an empty packet. -/
theorem run_receivePacket_payload (env : Environment σ) {w : World σ} {bytes : List UInt8} {behind : σ}
    (received : env.receive w.connection 40 = (bytes, behind)) (whole : bytes.length = 40)
    (number : (AFCPacket.fromLE bytes).packetNum = w.packet.packetNum)
    (long : 40 ≤ (AFCPacket.fromLE bytes).thisLength)
    (notEmpty : ¬ ((AFCPacket.fromLE bytes).thisLength = (AFCPacket.fromLE bytes).entireLength ∧
      (AFCPacket.fromLE bytes).entireLength = 40)) :
    (receivePacket env).run w =
      (receivePayload env (AFCPacket.fromLE bytes)).run { w with connection := behind } := by
  rw [receivePacket, run_bind (run_connectionReceive env received), if_neg (by omega),
    if_neg (by omega)]
  dsimp only
  rw [run_get_bind]
  dsimp only
  rw [if_neg (not_not.mpr number), if_neg (UInt64.not_lt.mpr long), if_neg notEmpty]

variable {env : Environment σ} {view : σ → List UInt8} (delivers : Delivers env view)

include delivers

theorem receiveRest_consumes (w : World σ) (entireLen fuel bytesRecv : Nat)
    (filled missing : List UInt8) {rest : List UInt8}
    (stream : view w.connection = missing ++ rest)
    (total : filled.length + missing.length = entireLen) (enough : missing.length ≤ fuel) :
    ∃ result connection, (receiveRest env entireLen fuel filled bytesRecv).run w =
      (.ok result, { w with connection := connection }) ∧ view connection = rest := by
  induction fuel generalizing w filled missing bytesRecv with
  | zero =>
    have none : missing = [] := List.length_eq_zero_iff.mp (by omega)
    exact ⟨_, w.connection, rfl, by rw [stream, none, List.nil_append]⟩
  | succ fuel ih =>
    by_cases none : missing = []
    · have done : ¬ filled.length < entireLen := by
        rw [none, List.length_nil] at total
        omega
      simp only [receiveRest, done, if_false]
      exact ⟨_, w.connection, rfl, by rw [stream, none, List.nil_append]⟩
    · have positive : 0 < missing.length := List.length_pos_iff.mpr none
      have short : filled.length < entireLen := by omega
      have left : entireLen - filled.length = missing.length := by omega
      obtain ⟨got, after⟩ := delivers.receive w.connection (entireLen - filled.length)
      rw [stream, left, List.take_left] at got
      rw [stream, left, List.drop_left] at after
      have received : (connectionReceive env (entireLen - filled.length)).run w =
          (.ok missing, { w with connection := (env.receive w.connection missing.length).2 }) := by
        rw [left]
        exact congrArg (fun piece => (Except.ok piece, _)) got
      have some : ¬ missing.length = 0 := by omega
      simp only [receiveRest, short, if_true, run_bind received, some, if_false]
      -- everything is there now, and the next round returns
      exact ih { w with connection := (env.receive w.connection missing.length).2 } missing.length
        (filled ++ missing) [] (by simpa using after) (by simpa using total) (by simp)

omit delivers in
/-- The 32-bit length behind the header, from a 64-bit length field. -/
theorem payloadLength {length : UInt64} {n : Nat} (counts : length.toNat = 40 + n) :
    (length.toUInt32 - 40).toNat = n % 2 ^ 32 := by
  have forty : (40 : UInt32).toNat = 40 := rfl
  rw [UInt32.toNat_sub, UInt64.toNat_toUInt32, counts, forty]
  omega

/-- What is read of a payload: as much as the larger of the two 32-bit lengths. -/
theorem receivePayload_consumes (header : AFCPacket) (w : World σ) {body rest : List UInt8}
    (stream : view w.connection = body ++ rest)
    (this : (header.thisLength.toUInt32 - 40).toNat ≤ body.length)
    (entire : (header.entireLength.toUInt32 - 40).toNat ≤ body.length) :
    view ((receivePayload env header).state w).connection =
      body.drop (max (header.thisLength.toUInt32 - 40).toNat
        (header.entireLength.toUInt32 - 40).toNat) ++ rest := by
  generalize thisLen : (header.thisLength.toUInt32 - 40).toNat = t at this ⊢
  generalize entireLen : (header.entireLength.toUInt32 - 40).toNat = e at entire ⊢
  unfold receivePayload
  simp only [thisLen, entireLen]
  by_cases some : 0 < t
  · simp only [some, if_true]
    obtain ⟨got, after⟩ := delivers.receive w.connection t
    rw [stream, List.take_append_of_le_length this] at got
    rw [stream, List.drop_append_of_le_length this] at after
    have received : (connectionReceive env t).run w =
        (.ok (body.take t), { w with connection := (env.receive w.connection t).2 }) :=
      congrArg (fun piece => (Except.ok piece, _)) got
    have width : (body.take t).length = t := by rw [List.length_take]; omega
    have whole : ¬ t < t := Nat.lt_irrefl t
    have positive : ¬ t = 0 := by omega
    rw [Program.state, run_bind received]
    simp only [width, positive, whole, if_false]
    by_cases fits : e < t
    · simp only [fits, if_true, run_lift, Nat.max_eq_left (Nat.le_of_lt fits)]
      exact after
    · simp only [fits, if_false]
      rw [Nat.max_eq_right (by omega)]
      have split : body.drop t ++ rest = (body.drop t).take (e - t) ++ (body.drop e ++ rest) := by
        rw [← List.append_assoc, ← drop_eq_append (Nat.not_lt.mp fits)]
      have count : ((body.drop t).take (e - t)).length = e - t := by
        rw [List.length_take, List.length_drop]
        omega
      obtain ⟨result, connection, ran, consumed⟩ := receiveRest_consumes delivers
        { w with connection := (env.receive w.connection t).2 } e (e - t) t (body.take t) _
        (after.trans split) (by rw [width, count]; omega) (Nat.le_of_eq count)
      rw [run_bind ran]
      exact consumed
  · have zero : t = 0 := by omega
    subst zero
    simp only [Nat.lt_irrefl, if_false, Nat.zero_max]
    have count : (body.take e).length = e := by rw [List.length_take]; omega
    have split : body ++ rest = body.take e ++ (body.drop e ++ rest) := by
      rw [← List.append_assoc, List.take_append_drop]
    obtain ⟨result, connection, ran, consumed⟩ := receiveRest_consumes delivers w e e 40 [] _
      (stream.trans split) (by rw [count]; simp) (Nat.le_of_eq count)
    rw [Program.state, run_bind ran]
    exact consumed

/-- **A receive that begins where a packet begins ends where the next one does
exactly when the packet answers.** -/
theorem receivePacket_consumes {w : World σ} {n : Nat} {p : WirePacket} {rest : List UInt8}
    (counted : w.packet.packetNum = UInt64.ofNat n)
    (stream : view w.connection = p.bytes ++ rest) :
    view ((receivePacket env).state w).connection = rest ↔ Answers n p := by
  have width := length_toLE p.magic
  obtain ⟨got, after⟩ := delivers.receive w.connection 40
  rw [stream, WirePacket.bytes, List.append_assoc, List.take_left' width] at got
  rw [stream, WirePacket.bytes, List.append_assoc, List.drop_left' width] at after
  have received : (connectionReceive env 40).run w =
      (.ok p.header.toLE, { w with connection := (env.receive w.connection 40).2 }) :=
    congrArg (fun piece => (Except.ok piece, _)) got
  have some : ¬ p.header.toLE.length = 0 := by omega
  have whole : ¬ p.header.toLE.length < 40 := by omega
  have tail : ∀ {front : List UInt8}, front ++ rest = rest ↔ front = [] := by simp
  have header_le : ¬ p.header.thisLength < 40 := UInt64.not_lt.mpr p.header_le
  rw [Program.state, receivePacket, run_bind received]
  simp only [some, whole, if_false, run_bind_eq, run_get, fromLE_toLE p.magic, run_ite, run_pure,
    header_le, counted]
  by_cases number : p.header.packetNum = UInt64.ofNat n
  · simp only [number, ne_eq, not_true_eq_false, if_false]
    by_cases empty : p.header.thisLength = p.header.entireLength ∧ p.header.entireLength = 40
    · have none : p.body = [] := by
        have entire := p.entire
        rw [empty.2] at entire
        exact List.length_eq_zero_iff.mp (by simpa using entire)
      rw [if_pos empty]
      have answers : Answers n p := ⟨.inl number, by simp [none]⟩
      have consumed : view (env.receive w.connection 40).2 = rest := by rw [after, none, List.nil_append]
      simp only [answers, iff_true]
      split <;> exact consumed
    · rw [if_neg empty]
      have header40 : (40 : UInt64).toNat = 40 := rfl
      have this_ge := UInt64.le_iff_toNat_le.mp p.header_le
      have this_le := UInt64.le_iff_toNat_le.mp p.this_le
      rw [header40] at this_ge
      rw [p.entire] at this_le
      have entireLen := payloadLength p.entire
      have thisLen := @payloadLength p.header.thisLength (p.header.thisLength.toNat - 40) (by omega)
      have consumed := receivePayload_consumes delivers p.header
        { w with connection := (env.receive w.connection 40).2 } after
        (by omega) (by omega)
      rw [Program.state] at consumed
      rw [consumed, tail, List.drop_eq_nil_iff, entireLen, thisLen]
      constructor
      · intro covered
        exact ⟨.inl number, by omega⟩
      · rintro ⟨-, small⟩
        omega
  · simp only [number, ne_eq, not_false_eq_true, if_true]
    rw [after, tail]
    constructor
    · intro none
      exact ⟨.inr none, by simp [none]⟩
    · rintro ⟨same | none, -⟩
      · exact absurd same number
      · exact none

/-- At the end of the stream a receive consumes nothing. -/
theorem receivePacket_at_end {w : World σ} (ended : view w.connection = []) :
    view ((receivePacket env).state w).connection = [] := by
  obtain ⟨got, after⟩ := delivers.receive w.connection 40
  rw [ended, List.take_nil] at got
  rw [ended, List.drop_nil] at after
  have received : (connectionReceive env 40).run w =
      (.ok [], { w with connection := (env.receive w.connection 40).2 }) :=
    congrArg (fun piece => (Except.ok piece, _)) got
  rw [Program.state, receivePacket, run_bind received]
  exact after

/-! ## Runs -/

omit delivers in
/-- The history so far, and where in the stream the client stands. -/
structure Streaming (view : σ → List UInt8) (packets : List WirePacket) (w : World σ) : Prop where
  magic : w.packet.magic = AFC_MAGIC
  counted : w.packet.packetNum = UInt64.ofNat (dispatches w.events)
  whole : ConsumesWhole view packets w.events ↔ Answered 0 packets w.events
  aligned : Answered 0 packets w.events →
    view w.connection = (packets.drop (receives w.events)).flatMap WirePacket.bytes

/-- One receive, noted in the history. -/
theorem Streaming.receive {packets : List WirePacket} {w : World σ} {after : σ}
    (streaming : Streaming view packets w)
    (reached : ((receivePacket env).state w).connection = after) :
    Streaming view packets
      { w with connection := after, events := w.events ++ [.receive w.connection after] } := by
  have counted : dispatches (w.events ++ [.receive w.connection after]) = dispatches w.events := by
    rw [dispatches_append]
    rfl
  have count : receives (w.events ++ [.receive w.connection after]) = receives w.events + 1 := by
    rw [receives_append]
    rfl
  -- what the receive consumes, if it begins where a packet begins
  have step : Answered 0 packets w.events →
      (view after = (packets.drop (receives w.events)).tail.flatMap WirePacket.bytes ↔
        Answered (0 + dispatches w.events) (packets.drop (receives w.events))
          [.receive w.connection after]) := by
    intro answered
    have start := streaming.aligned answered
    cases left : packets.drop (receives w.events) with
    | nil =>
      rw [left] at start
      have ended := receivePacket_at_end delivers start
      rw [reached] at ended
      simp [Answered, ended]
    | cons p rest =>
      rw [left, List.flatMap_cons] at start
      have consumed := receivePacket_consumes delivers streaming.counted start
      rw [reached] at consumed
      simp only [List.tail_cons, Answered, and_true, Nat.zero_add]
      exact consumed
  refine ⟨streaming.magic, streaming.counted.trans (by rw [counted]), ?_, ?_⟩
  · rw [consumesWhole_append, answered_append, streaming.whole]
    refine and_congr_right fun answered => ?_
    simp only [ConsumesWhole, and_true, streaming.aligned answered, true_and]
    exact step answered
  · intro answered
    rw [answered_append] at answered
    rw [count, ← List.tail_drop]
    exact (step answered.1).mpr answered.2

theorem Streaming.invariant (packets : List WirePacket) (code : UInt64) :
    Invariant env code (Streaming view packets) where
  command w _ _ streaming :=
    ⟨streaming.magic, streaming.counted, streaming.whole, streaming.aligned⟩
  dispatch data length := by
    refine ensures_of_run fun w ⟨streaming, ready⟩ => ?_
    obtain ⟨err, sent, sends, packet, connection, ran, magic, number, -, handed, -⟩ :=
      ready.dispatched env streaming.magic
    have same := handed.view delivers.send
    refine ⟨_, _, ran, magic.trans streaming.magic, ?_, ?_, ?_⟩
    · rw [number, streaming.counted, dispatches_append]
      exact (UInt64.ofNat_add _ 1).symm
    · rw [consumesWhole_append, answered_append]
      exact and_congr_left' streaming.whole
    · intro answered
      rw [answered_append] at answered
      rw [receives_append]
      exact same.trans (streaming.aligned answered.1)
  receive := by
    refine ensures_noting fun w streaming => ?_
    have fixed := receivePacket_keeps env (P := fun packet events =>
      packet = w.packet ∧ events = w.events)
    have noted : ∀ w', (receivePacket env).state w = w' → w'.packet = w.packet →
        w'.events = w.events →
        Streaming view packets (w'.record (.receive w.connection w'.connection)) := by
      intro w' reached packet events
      obtain ⟨_, connection, _⟩ := w'
      subst packet events
      exact streaming.receive delivers (congrArg World.connection reached)
    refine ⟨fun same ran => ?_, fun same ran => ?_⟩
    · subst same
      obtain ⟨packet, events⟩ := fixed.ok ⟨rfl, rfl⟩ ran
      exact noted _ (congrArg Prod.snd ran) packet events
    · subst same
      obtain ⟨packet, events⟩ := fixed.fault ⟨rfl, rfl⟩ ran
      exact noted _ (congrArg Prod.snd ran) packet events

/-- **In every run, every receive consumes one whole packet exactly when every
packet met answers.** -/
theorem consumesWhole_iff {packets : List WirePacket} {connection : σ}
    (stream : view connection = packets.flatMap WirePacket.bytes) (operation : UInt64)
    (requests : List Request) :
    ConsumesWhole view packets (session env connection operation requests).events ↔
      Answered 0 packets (session env connection operation requests).events := by
  have start : Streaming view packets (afcClientNewFromConnection connection operation) :=
    ⟨rfl, rfl, Iff.rfl, fun _ => stream⟩
  have each : ∀ request, Keeps (Streaming view packets) (perform env request) := fun request =>
    Invariant.perform (Streaming.invariant delivers packets request.code)
  exact ((keeps_forM each requests).state start).whole

omit delivers

/-- A connection that accepts every byte and delivers a fixed stream. -/
def streamEnvironment : Environment (List UInt8) where
  send s bytes := (bytes.length, s)
  send_le _ _ := Nat.le_refl _
  receive s n := (s.take n, s.drop n)
  receive_le s n := List.length_take_le n s
  statusError code := code.toNat
  heap _ := 0

theorem streamEnvironment_delivers : Delivers streamEnvironment id :=
  ⟨fun _ _ => ⟨rfl, rfl⟩, fun _ _ => rfl⟩

/-- The reply `number` of a device that reports success. -/
def statusReply (number : UInt64) : WirePacket where
  header := ⟨AFC_MAGIC, 48, 48, number, AFC_OP_STATUS⟩
  body := [0, 0, 0, 0, 0, 0, 0, 0]
  magic := rfl
  header_le := show (40 : UInt64) ≤ 48 by decide
  this_le := UInt64.le_refl 48
  entire := rfl

/-- Two operations whose replies carry their numbers. -/
theorem numbered_replies_consumed :
    ConsumesWhole id [statusReply 1, statusReply 2]
      (session streamEnvironment ((statusReply 1).bytes ++ (statusReply 2).bytes) 0
        [.fileClose 1, .getDeviceInfo]).events :=
  (consumesWhole_iff streamEnvironment_delivers (by simp) 0 _).mpr
    ⟨⟨.inl rfl, by decide⟩, ⟨.inl rfl, by decide⟩, trivial⟩

/-- A reply with another number: its payload stays in the stream, and the next
operation reads it as the start of a header. -/
theorem mismatch_leaves_payload :
    ¬ ConsumesWhole id [statusReply 7, statusReply 2]
      (session streamEnvironment ((statusReply 7).bytes ++ (statusReply 2).bytes) 0
        [.fileClose 1, .getDeviceInfo]).events := by
  intro whole
  exact absurd whole.2.1 (by decide)

end Irestore.Afc
