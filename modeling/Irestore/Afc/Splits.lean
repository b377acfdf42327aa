/-
# Afc.Splits — one reply, in whatever pieces it arrives

`afc_receive_data` takes the header from one receive, the first part of the payload from a
second, and only the rest from as many as it needs.  It allocates what `entire_length` says
and receives into it what `this_length` says, both as 32-bit lengths.

* `ReplyPacket`, `Splits` — a packet of the device, and a transport that hands out its bytes
  in pieces none of which is empty.
* `receive_answer_of_packet` — what each packet, in each split, is answered with.
* `within_iff` — when nothing is stored past the block.
* `receive_returned_iff` — both together: exactly when the payload is returned, and exactly
  when the block is enough.
* `split_header_and_long_part` — a header in two pieces, and a first part that is longer
  than the whole.
-/
import Irestore.Afc.Replies

namespace Irestore.Afc

open Irestore.Library Irestore.Library.Program Irestore.Library.Bytes Irestore.Library.CMemory

set_option autoImplicit false

variable {σ : Type} (env : Environment σ)

/-! ## The block -/

/-- Nothing was stored behind the block, and what it holds fits it. -/
def Within (result : Checked (AfcError × Option Buffer × Nat)) : Prop :=
  result ≠ .error .outOfBounds ∧
    ∀ err buffer bytes, result = .ok (err, some buffer, bytes) → buffer.filled.length ≤ buffer.size

/-- The header is accepted, and the receive behind it hands out more than the block holds. -/
def Overruns (w : World σ) : Prop :=
  let first := env.receive w.connection 40
  let header := AFCPacket.fromLE first.1
  let thisLen := (header.thisLength.toUInt32 - 40).toNat
  first.1.length = 40 ∧ header.packetNum = w.packet.packetNum ∧ 40 ≤ header.thisLength ∧
    0 < thisLen ∧
    (header.entireLength.toUInt32 - 40).toNat < (env.receive first.2 thisLen).1.length

/-- The first part of a payload runs past the block. -/
theorem run_receivePayload_overrun {header : AFCPacket} {w : World σ} {piece : List UInt8}
    {behind : σ} (some : 0 < (header.thisLength.toUInt32 - 40).toNat)
    (received : env.receive w.connection (header.thisLength.toUInt32 - 40).toNat = (piece, behind))
    (past : (header.entireLength.toUInt32 - 40).toNat < piece.length) :
    (receivePayload env header).run w =
      (.error .outOfBounds, { w with connection := behind }) := by
  rw [receivePayload]
  dsimp only
  rw [if_pos some, run_bind (run_connectionReceive env received), if_pos past]
  rfl

/-- A header that promises a first part is not that of an empty packet. -/
theorem not_empty_of_part {header : AFCPacket}
    (some : 0 < (header.thisLength.toUInt32 - 40).toNat) :
    ¬ (header.thisLength = header.entireLength ∧ header.entireLength = 40) := by
  rintro ⟨same, forty⟩
  rw [same, forty] at some
  exact absurd some (by decide)

theorem run_receivePacket_overrun {w : World σ} (overruns : Overruns env w) :
    ((receivePacket env).run w).1 = .error .outOfBounds := by
  obtain ⟨whole, number, long, some, past⟩ := overruns
  rw [run_receivePacket_payload env rfl whole number long (not_empty_of_part some),
    run_receivePayload_overrun env some rfl past]

/-- The loop stores inside the block: it asks for no more than is left. -/
theorem receiveRest_within {broken : World σ → Prop} (entireLen fuel : Nat) {filled : List UInt8}
    (bytesRecv : Nat) (fits : filled.length ≤ entireLen) :
    Ensures (fun _ => True) (receiveRest env entireLen fuel filled bytesRecv)
      (fun result _ => result.1.length ≤ entireLen) broken := by
  induction fuel generalizing filled bytesRecv with
  | zero => exact ensures_pure fun _ _ => fits
  | succ fuel ih =>
    have receive : Ensures (fun _ => True) (connectionReceive env (entireLen - filled.length))
        (fun piece _ => True ∧ piece.length ≤ entireLen - filled.length) broken :=
      ensures_of_run fun w _ => ⟨_, _, rfl, trivial, env.receive_le _ _⟩
    refine ensures_ite (fun _ => ensures_bind receive fun piece => ensures_fact fun most => ?_)
      fun _ => ensures_pure fun _ _ => fits
    refine ensures_ite (fun _ => ensures_pure fun _ _ => fits) fun _ => ih _ ?_
    rw [List.length_append]
    omega

/-- A buffer comes with success and the count of the bytes in it, and they fit its block. -/
def Sound (reply : AfcError × Option Buffer × Nat) : Prop :=
  ∀ buffer, reply.2.1 = some buffer → reply.1 = AFC_E_SUCCESS ∧
    reply.2.2 = buffer.filled.length ∧ buffer.filled.length ≤ buffer.size

omit env in
theorem sound_none (err : AfcError) (bytes : Nat) : Sound (err, none, bytes) := by
  intro buffer same
  cases same

theorem readReply_sound (operation : UInt64) {buffer : Buffer} (bytesRecv : Nat)
    (fits : buffer.filled.length ≤ buffer.size) :
    Sound (readReply env operation buffer bytesRecv) := by
  have whole : Sound (AFC_E_SUCCESS, some buffer, buffer.filled.length) := by
    intro buffer' same
    cases same
    exact ⟨rfl, rfl, fits⟩
  unfold readReply
  extract_lets currentCount param1
  split_ifs
  · exact sound_none _ _
  · exact whole
  · exact whole
  · exact sound_none _ _

theorem receivePayload_sound (header : AFCPacket) (w : World σ) :
    Ensures (· = w) (receivePayload env header) (fun reply _ => Sound reply)
      fun _ => 0 < (header.thisLength.toUInt32 - 40).toNat ∧
        (header.entireLength.toUInt32 - 40).toNat <
          (env.receive w.connection (header.thisLength.toUInt32 - 40).toNat).1.length := by
  have rest : ∀ {pre broken : World σ → Prop} (fuel bytesRecv : Nat) {filled : List UInt8},
      filled.length ≤ (header.entireLength.toUInt32 - 40).toNat →
        Ensures pre (do
          let rest ← receiveRest env (header.entireLength.toUInt32 - 40).toNat fuel filled bytesRecv
          return readReply env header.operation ⟨(header.entireLength.toUInt32 - 40).toNat, rest.1⟩
            rest.2) (fun reply _ => Sound reply) broken := by
    intro pre broken fuel bytesRecv filled fits
    refine ensures_bind (ensures_mono (receiveRest_within env _ fuel bytesRecv fits)
      (fun _ _ => trivial) fun _ _ => id) fun result => ?_
    exact ensures_pure fun _ fits' => readReply_sound env _ _ fits'
  refine ensures_ite (fun some => ensures_step rfl ?_) fun _ => rest _ _ (Nat.zero_le _)
  refine ensures_ite (fun past => ?_) fun fits => ?_
  · exact ensures_lift (fun _ ran => by cases ran) fun _ _ => ⟨some, past⟩
  refine ensures_ite (fun _ => ensures_pure fun _ _ => sound_none _ _) fun _ => ?_
  refine ensures_ite (fun _ => ensures_pure fun _ _ => sound_none _ _) fun _ => ?_
  exact rest _ _ (Nat.not_lt.mp fits)

theorem receivePacket_sound (w : World σ) :
    Ensures (· = w) (receivePacket env) (fun reply _ => Sound reply) fun _ => Overruns env w := by
  refine ensures_step rfl ?_
  refine ensures_ite (fun _ => ensures_pure fun _ _ => sound_none _ _) fun _ => ?_
  refine ensures_ite (fun _ => ensures_pure fun _ _ => sound_none _ _) fun short => ?_
  refine ensures_step rfl ?_
  refine ensures_ite (fun _ => ensures_pure fun _ _ => sound_none _ _) fun number => ?_
  refine ensures_ite (fun _ => ensures_pure fun _ _ => sound_none _ _) fun long => ?_
  refine ensures_ite (fun _ => ?_) fun _ => ?_
  · exact ensures_ite (fun _ => ensures_pure fun _ _ => sound_none _ _)
      fun _ => ensures_pure fun _ _ => sound_none _ _
  · have payload := receivePayload_sound env
      (AFCPacket.fromLE (env.receive w.connection 40).1)
      { w with connection := (env.receive w.connection 40).2 }
    refine ⟨payload.ok, fun same ran => ?_⟩
    have most := env.receive_le w.connection 40
    obtain ⟨some, past⟩ := payload.fault same ran
    exact ⟨by omega, not_not.mp number, UInt64.not_lt.mp long, some, past⟩

/-- **When nothing is stored past the block**: the receive behind an accepted header does not
hand out more than the block holds. -/
theorem within_iff (w : World σ) : Within ((afcReceiveData env).run w).1 ↔ ¬ Overruns env w := by
  change Within ((receivePacket env).run w).1 ↔ _
  constructor
  · intro within overruns
    exact within.1 (run_receivePacket_overrun env overruns)
  · intro inside
    match ran : (receivePacket env).run w with
    | (.error fault, after) => exact absurd ((receivePacket_sound env w).fault rfl ran) inside
    | (.ok reply, after) =>
      refine ⟨fun same => (by cases same), fun err buffer bytes same => ?_⟩
      cases same
      exact ((receivePacket_sound env w).ok rfl ran buffer rfl).2.2

/-! ## Packets in pieces -/

/-- A packet of the device, of any magic: its lengths count the header and what follows it. -/
structure ReplyPacket where
  header : AFCPacket
  body : List UInt8
  magic : header.magic.length = 8
  header_le : 40 ≤ header.thisLength
  this_le : header.thisLength ≤ header.entireLength
  entire : header.entireLength.toNat = 40 + body.length

namespace ReplyPacket

def bytes (p : ReplyPacket) : List UInt8 := p.header.toLE ++ p.body

/-- The 32-bit lengths behind the header. -/
def thisLen (p : ReplyPacket) : Nat := (p.header.thisLength.toUInt32 - 40).toNat
def entireLen (p : ReplyPacket) : Nat := (p.header.entireLength.toUInt32 - 40).toNat

theorem entireLen_eq (p : ReplyPacket) : p.entireLen = p.body.length % 2 ^ 32 :=
  payloadLength p.entire

theorem thisLen_eq (p : ReplyPacket) :
    p.thisLen = (p.header.thisLength.toNat - 40) % 2 ^ 32 ∧
      p.header.thisLength.toNat - 40 ≤ p.body.length := by
  have forty : (40 : UInt64).toNat = 40 := rfl
  have header_le := UInt64.le_iff_toNat_le.mp p.header_le
  have this_le := UInt64.le_iff_toNat_le.mp p.this_le
  rw [forty] at header_le
  rw [p.entire] at this_le
  exact ⟨payloadLength (by omega), by omega⟩

/-- Both lengths are that of the header alone exactly when nothing follows it. -/
theorem empty_iff (p : ReplyPacket) :
    (p.header.thisLength = p.header.entireLength ∧ p.header.entireLength = 40) ↔ p.body = [] := by
  have forty : (40 : UInt64).toNat = 40 := rfl
  have entire := p.entire
  constructor
  · rintro ⟨-, whole⟩
    rw [whole, forty] at entire
    exact List.length_eq_zero_iff.mp (by omega)
  · intro none
    rw [none, List.length_nil] at entire
    have whole : p.header.entireLength = 40 := UInt64.toNat_inj.mp entire
    have this_le := p.this_le
    rw [whole] at this_le ⊢
    exact ⟨UInt64.le_antisymm this_le p.header_le, rfl⟩

/-- The status that a payload carries. -/
def status (p : ReplyPacket) : UInt64 := UInt64.ofNat (ofLE (p.body.take 8))

/-- A status that is not zero. -/
def Failed (p : ReplyPacket) : Prop :=
  p.header.operation = AFC_OP_STATUS ∧ 8 ≤ p.body.length ∧ p.status ≠ 0

end ReplyPacket

/-- The stream `view` shows arrives in pieces, none of which is empty while bytes remain. -/
structure Splits (view : σ → List UInt8) : Prop where
  receive : ∀ s n, (env.receive s n).1 ++ view (env.receive s n).2 = view s
  nonempty : ∀ s n, 0 < n → view s ≠ [] → (env.receive s n).1 ≠ []

/-- How many bytes the receive of the header is handed, and the one behind it. -/
def headerHanded (s : σ) : Nat := (env.receive s 40).1.length
def partHanded (s : σ) (p : ReplyPacket) : Nat :=
  (env.receive (env.receive s 40).2 p.thisLen).1.length

/-- What the reply to a packet is, from how the first two receives fall. -/
inductive Answer (s : σ) (p : ReplyPacket) : Checked (AfcError × Option Buffer × Nat) → Prop
  | shortHeader (bytes : Nat) (short : headerHanded env s < 40) :
      Answer s p (.ok (AFC_E_MUX_ERROR, none, bytes))
  | emptyData (whole : headerHanded env s = 40) (nothing : p.body = [])
      (data : p.header.operation = AFC_OP_DATA) : Answer s p (.ok (AFC_E_SUCCESS, none, 0))
  | empty (whole : headerHanded env s = 40) (nothing : p.body = [])
      (other : p.header.operation ≠ AFC_OP_DATA) : Answer s p (.ok (AFC_E_IO_ERROR, none, 0))
  | overrun (whole : headerHanded env s = 40) (some : p.body ≠ []) (part : 0 < p.thisLen)
      (past : p.entireLen < partHanded env s p) : Answer s p (.error .outOfBounds)
  | shortPart (bytes : Nat) (whole : headerHanded env s = 40) (some : p.body ≠ [])
      (part : 0 < p.thisLen) (fits : partHanded env s p ≤ p.entireLen)
      (short : partHanded env s p < p.thisLen) :
      Answer s p (.ok (AFC_E_NOT_ENOUGH_DATA, none, bytes))
  | read (bytes : Nat) (whole : headerHanded env s = 40) (some : p.body ≠ [])
      (part : 0 < p.thisLen → partHanded env s p = p.thisLen) (fits : p.thisLen ≤ p.entireLen) :
      Answer s p (.ok (readReply env p.header.operation
        ⟨p.entireLen, p.body.take p.entireLen⟩ bytes))

section Split

variable {env} {view : σ → List UInt8} (splits : Splits env view)

include splits

/-- What a receive hands out begins what is to come. -/
theorem Splits.piece {s : σ} {n : Nat} {front rest : List UInt8} (stream : view s = front ++ rest)
    (inside : n ≤ front.length) :
    (env.receive s n).1 = front.take (env.receive s n).1.length ∧
      view (env.receive s n).2 = front.drop (env.receive s n).1.length ++ rest := by
  have most := env.receive_le s n
  have whole := splits.receive s n
  rw [stream] at whole
  generalize env.receive s n = received at most whole
  obtain ⟨piece, behind⟩ := received
  dsimp only at most whole ⊢
  have start : piece = (front ++ rest).take piece.length := by rw [← whole, List.take_left]
  have left : view behind = (front ++ rest).drop piece.length := by rw [← whole, List.drop_left]
  rw [List.take_append_of_le_length (by omega)] at start
  rw [List.drop_append_of_le_length (by omega)] at left
  exact ⟨start, left⟩

/-- The loop receives all that is missing, however it is split. -/
theorem Splits.receiveRest (entireLen fuel bytesRecv : Nat) (filled missing : List UInt8)
    {rest : List UInt8} {w : World σ} (stream : view w.connection = missing ++ rest)
    (total : filled.length + missing.length = entireLen) (enough : missing.length ≤ fuel) :
    ∃ bytes connection, (receiveRest env entireLen fuel filled bytesRecv).run w =
      (.ok (filled ++ missing, bytes), { w with connection := connection }) := by
  induction fuel generalizing w filled missing bytesRecv with
  | zero =>
    have none : missing = [] := List.length_eq_zero_iff.mp (by omega)
    exact ⟨bytesRecv, w.connection, by rw [none, List.append_nil]; rfl⟩
  | succ fuel ih =>
    by_cases none : missing = []
    · have done : ¬ filled.length < entireLen := by
        rw [none, List.length_nil] at total
        omega
      rw [Irestore.Afc.receiveRest, if_neg done, none, List.append_nil]
      exact ⟨bytesRecv, w.connection, rfl⟩
    have positive : 0 < missing.length := List.length_pos_iff.mpr none
    have left : entireLen - filled.length = missing.length := by omega
    have some : view w.connection ≠ [] := by simp [stream, none]
    obtain ⟨start, behind⟩ := splits.piece stream (Nat.le_refl missing.length)
    have nonempty := splits.nonempty w.connection missing.length positive some
    have most := env.receive_le w.connection missing.length
    generalize isReceived : env.receive w.connection missing.length = received
      at start behind nonempty most
    obtain ⟨piece, after⟩ := received
    dsimp only at start behind nonempty most
    have width : piece.length ≠ 0 := fun zero => nonempty (List.length_eq_zero_iff.mp zero)
    rw [Irestore.Afc.receiveRest, if_pos (by omega), left,
      run_bind (run_connectionReceive env isReceived), if_neg width]
    obtain ⟨bytes, connection, ran⟩ := ih piece.length (filled ++ piece)
      (missing.drop piece.length) (w := { w with connection := after }) behind
      (by rw [List.length_append, List.length_drop]; omega) (by rw [List.length_drop]; omega)
    refine ⟨bytes, connection, ran.trans ?_⟩
    have joined : piece ++ missing.drop piece.length = missing := by
      conv_lhs => rw [start]
      rw [List.length_take, Nat.min_eq_left most, List.take_append_drop]
    rw [List.append_assoc, joined]

omit splits in
theorem receivePayload_of_packet (p : ReplyPacket) : receivePayload env p.header =
    if 0 < p.thisLen then do
      let piece ← connectionReceive env p.thisLen
      if p.entireLen < piece.length then Program.lift (.error .outOfBounds)
      else if piece.length = 0 then return (AFC_E_NOT_ENOUGH_DATA, none, 0)
      else if piece.length < p.thisLen then return (AFC_E_NOT_ENOUGH_DATA, none, piece.length)
      else do
        let rest ← Irestore.Afc.receiveRest env p.entireLen (p.entireLen - p.thisLen) piece
          piece.length
        return readReply env p.header.operation ⟨p.entireLen, rest.1⟩ rest.2
    else do
      let rest ← Irestore.Afc.receiveRest env p.entireLen p.entireLen [] 40
      return readReply env p.header.operation ⟨p.entireLen, rest.1⟩ rest.2 := rfl

/-- The payload behind an accepted header. -/
theorem receivePayload_answer {p : ReplyPacket} {s : σ} {w : World σ} {rest : List UInt8}
    (whole : headerHanded env s = 40) (behind : w.connection = (env.receive s 40).2)
    (stream : view w.connection = p.body ++ rest) (some : p.body ≠ []) :
    Answer env s p ((receivePayload env p.header).run w).1 := by
  have entire := p.entireLen_eq
  have this := p.thisLen_eq
  have positive : 0 < p.body.length := List.length_pos_iff.mpr some
  have entire_le : p.entireLen ≤ p.body.length := by omega
  by_cases part : 0 < p.thisLen
  · obtain ⟨start, later⟩ := splits.piece stream (n := p.thisLen) (by omega)
    have nonempty := splits.nonempty w.connection p.thisLen part (by simp [stream, some])
    have most := env.receive_le w.connection p.thisLen
    have handed : partHanded env s p = (env.receive w.connection p.thisLen).1.length := by
      rw [partHanded, behind]
    generalize isReceived : env.receive w.connection p.thisLen = received
      at start later nonempty most handed
    obtain ⟨piece, after⟩ := received
    dsimp only at start later nonempty most handed
    have width : piece.length ≠ 0 := fun zero => nonempty (List.length_eq_zero_iff.mp zero)
    by_cases past : p.entireLen < piece.length
    · rw [run_receivePayload_overrun env part isReceived past]
      exact .overrun whole some part (handed ▸ past)
    rw [receivePayload_of_packet, if_pos part, run_bind (run_connectionReceive env isReceived), if_neg past, if_neg width]
    by_cases short : piece.length < p.thisLen
    · rw [if_pos short]
      exact .shortPart piece.length whole some part (by rw [handed]; exact Nat.not_lt.mp past)
        (handed ▸ short)
    · rw [if_neg short]
      have full : piece.length = p.thisLen := Nat.le_antisymm most (Nat.not_lt.mp short)
      have fits : p.thisLen ≤ p.entireLen := full ▸ Nat.not_lt.mp past
      -- what is missing is the body between the two lengths
      have split : view after =
          (p.body.drop p.thisLen).take (p.entireLen - p.thisLen) ++
            (p.body.drop p.entireLen ++ rest) := by
        rw [later, full, ← List.append_assoc, ← drop_eq_append fits]
      have count : ((p.body.drop p.thisLen).take (p.entireLen - p.thisLen)).length =
          p.entireLen - p.thisLen := by
        rw [List.length_take, List.length_drop]
        omega
      obtain ⟨bytes, connection, ran⟩ := splits.receiveRest p.entireLen
        (p.entireLen - p.thisLen) piece.length piece _ (w := { w with connection := after }) split
        (by omega) (Nat.le_of_eq count)
      have joined : piece ++ (p.body.drop p.thisLen).take (p.entireLen - p.thisLen) =
          p.body.take p.entireLen := by
        rw [start, full, ← List.take_add, Nat.add_sub_cancel' fits]
      rw [joined] at ran
      have answer : Answer env s p _ :=
        .read bytes whole some (fun _ => handed.trans full) fits
      exact (congrArg Prod.fst (run_bind ran)) ▸ answer
  · have none : p.thisLen = 0 := by omega
    have split : view w.connection = p.body.take p.entireLen ++ (p.body.drop p.entireLen ++ rest) := by
      rw [stream, ← List.append_assoc, List.take_append_drop]
    have count : (p.body.take p.entireLen).length = p.entireLen := by
      rw [List.length_take]
      omega
    obtain ⟨bytes, connection, ran⟩ := splits.receiveRest p.entireLen p.entireLen 40 [] _ split
      (by rw [count]; exact Nat.zero_add _) (Nat.le_of_eq count)
    have answer : Answer env s p _ :=
      .read bytes whole some (fun part' => absurd part' part) (by omega)
    rw [receivePayload_of_packet, if_neg part]
    exact (congrArg Prod.fst (run_bind ran)) ▸ answer

/-- **What a packet is answered with**, in whatever pieces it arrives. -/
theorem receive_answer_of_packet {p : ReplyPacket} {w : World σ} {rest : List UInt8}
    (number : p.header.packetNum = w.packet.packetNum)
    (stream : view w.connection = p.bytes ++ rest) :
    Answer env w.connection p ((afcReceiveData env).run w).1 := by
  change Answer env w.connection p ((receivePacket env).run w).1
  have width := length_toLE_of_width p.magic
  have header := fromLE_toLE_of_width p.magic
  rw [ReplyPacket.bytes, List.append_assoc] at stream
  obtain ⟨start, later⟩ := splits.piece stream (n := 40) (Nat.le_of_eq width.symm)
  have most := env.receive_le w.connection 40
  by_cases whole : headerHanded env w.connection = 40
  · have handed : (env.receive w.connection 40).1.length = 40 := whole
    rw [handed, ← width, List.take_length] at start
    rw [handed, ← width, List.drop_length, List.nil_append] at later
    rw [width] at start later
    generalize isReceived : env.receive w.connection 40 = received at start later
    obtain ⟨bytes, after⟩ := received
    dsimp only at start later
    subst start
    by_cases nothing : p.body = []
    · have empty := p.empty_iff.mpr nothing
      have long : ¬ p.header.thisLength < 40 := UInt64.not_lt.mpr p.header_le
      rw [receivePacket, run_bind (run_connectionReceive env isReceived), if_neg (by omega),
        if_neg (by omega), header]
      dsimp only
      rw [run_get_bind]
      dsimp only
      rw [if_neg (not_not.mpr number), if_neg long, if_pos empty]
      split
      · exact .emptyData whole nothing ‹_›
      · exact .empty whole nothing ‹_›
    · have notEmpty := mt p.empty_iff.mp nothing
      rw [run_receivePacket_payload env isReceived width (by rw [header]; exact number)
        (by rw [header]; exact p.header_le) (by rw [header]; exact notEmpty), header]
      exact receivePayload_answer splits whole (by rw [isReceived]) later nothing
  · have short : headerHanded env w.connection < 40 := Nat.lt_of_le_of_ne most whole
    rw [receivePacket, run_bind (run_connectionReceive env rfl)]
    split
    · exact .shortHeader 0 short
    · rw [if_pos (show (env.receive w.connection 40).1.length < 40 from short)]
      exact .shortHeader _ short

end Split

/-! ## What is returned -/

def KnownOperation (operation : UInt64) : Prop :=
  operation = AFC_OP_STATUS ∨ operation = AFC_OP_DATA ∨ operation = AFC_OP_FILE_OPEN_RES ∨
    operation = AFC_OP_FILE_TELL_RES

/-- What a reply hands over. -/
def payload : Checked (AfcError × Option Buffer × Nat) → List UInt8
  | .ok (_, some buffer, _) => buffer.filled
  | _ => []

/-- The code of a status that is not zero, and else success with the whole payload. -/
def Returned (p : ReplyPacket) (result : Checked (AfcError × Option Buffer × Nat)) : Prop :=
  (p.Failed → ∃ bytes, result = .ok (env.statusError p.status, none, bytes)) ∧
    (¬ p.Failed → ∃ dump, result = .ok (AFC_E_SUCCESS, dump, p.body.length) ∧
      payload result = p.body)

/-- The header comes out of one receive, and the first part of the payload out of one. -/
def HandedWhole (s : σ) (p : ReplyPacket) : Prop :=
  headerHanded env s = 40 ∧ (0 < p.thisLen → partHanded env s p = p.thisLen)

/-- Its payload fits 32 bits, none comes under data only, and a status has its eight bytes. -/
def ReplyPacket.Plain (p : ReplyPacket) : Prop :=
  p.body.length < 2 ^ 32 ∧ (p.body = [] → p.header.operation = AFC_OP_DATA) ∧
    (p.header.operation = AFC_OP_STATUS → 8 ≤ p.body.length)

/-- The code returned is that of the status all the same: its eight bytes are there, or it
happens to be the code of what went wrong. -/
def StatusKept (s : σ) (p : ReplyPacket) : Prop :=
  (headerHanded env s < 40 ∧ env.statusError p.status = AFC_E_MUX_ERROR) ∨
    (headerHanded env s = 40 ∧ partHanded env s p < p.thisLen ∧ partHanded env s p ≤ p.entireLen ∧
      env.statusError p.status = AFC_E_NOT_ENOUGH_DATA) ∨
    HandedWhole env s p ∧ p.thisLen ≤ p.entireLen ∧
      (8 ≤ p.entireLen ∨ env.statusError p.status = env.statusError (-1))

section Results

variable {env} {p : ReplyPacket} {s : σ}

omit env in
theorem not_failed_of_nil (nothing : p.body = []) : ¬ p.Failed := by
  rintro ⟨-, long, -⟩
  rw [nothing] at long
  exact absurd long (by decide)

/-- An answer without a payload. -/
theorem returned_code {code : AfcError} {bytes : Nat}
    (other : code ≠ AFC_E_SUCCESS ∨ p.body ≠ []) :
    Returned env p (.ok (code, none, bytes)) ↔ p.Failed ∧ env.statusError p.status = code := by
  constructor
  · rintro ⟨code', whole⟩
    by_cases failed : p.Failed
    · obtain ⟨_, same⟩ := code' failed
      cases same
      exact ⟨failed, rfl⟩
    · obtain ⟨dump, same, carries⟩ := whole failed
      cases same
      exact (other.elim (absurd rfl) fun some => some carries.symm).elim
  · rintro ⟨failed, rfl⟩
    exact ⟨fun _ => ⟨bytes, rfl⟩, fun not => absurd failed not⟩

/-- An answer with what the block holds of a payload. -/
theorem returned_take (failed : ¬ p.Failed) :
    Returned env p (.ok (AFC_E_SUCCESS, some ⟨p.entireLen, p.body.take p.entireLen⟩,
      (p.body.take p.entireLen).length)) ↔ p.body.length < 2 ^ 32 := by
  have entire := p.entireLen_eq
  constructor
  · rintro ⟨-, whole⟩
    obtain ⟨dump, same, carries⟩ := whole failed
    have count : (p.body.take p.entireLen).length = p.body.length := congrArg List.length carries
    rw [List.length_take] at count
    omega
  · intro small
    have whole : p.body.take p.entireLen = p.body := by
      rw [entire, Nat.mod_eq_of_lt small, List.take_length]
    rw [whole]
    exact ⟨fun failed' => absurd failed' failed, fun _ => ⟨_, rfl, rfl⟩⟩

/-- A payload that is received as far as the lengths go. -/
theorem returned_read_iff {bytes : Nat} (known : KnownOperation p.header.operation)
    (some : p.body ≠ []) :
    Returned env p (.ok (readReply env p.header.operation
        ⟨p.entireLen, p.body.take p.entireLen⟩ bytes)) ↔
      p.Plain ∨ p.Failed ∧ (8 ≤ p.entireLen ∨ env.statusError p.status = env.statusError (-1)) := by
  have entire := p.entireLen_eq
  have count : (p.body.take p.entireLen).length = p.entireLen := by
    rw [List.length_take]
    omega
  have plain_iff : p.Plain ↔ p.body.length < 2 ^ 32 ∧
      (p.header.operation = AFC_OP_STATUS → 8 ≤ p.body.length) :=
    and_congr_right fun _ => and_iff_right fun nothing => absurd nothing some
  by_cases status : p.header.operation = AFC_OP_STATUS
  · by_cases eight : 8 ≤ p.entireLen
    · have param1 : UInt64.ofNat (ofLE ((p.body.take p.entireLen).take 8)) = p.status := by
        rw [List.take_take, Nat.min_eq_left eight]
        rfl
      by_cases zero : p.status = 0
      · have failed : ¬ p.Failed := fun failed => failed.2.2 zero
        have reply : readReply env p.header.operation ⟨p.entireLen, p.body.take p.entireLen⟩ bytes =
            (AFC_E_SUCCESS, Option.some ⟨p.entireLen, p.body.take p.entireLen⟩,
              (p.body.take p.entireLen).length) := by
          simp only [readReply, status, count, eight, param1, zero, if_true, ne_eq,
            not_true_eq_false, if_false]
        rw [reply, returned_take failed, plain_iff]
        constructor
        · exact fun small => .inl ⟨small, fun _ => by omega⟩
        · rintro (plain | ⟨failed', -⟩)
          · exact plain.1
          · exact absurd failed' failed
      · have reply : readReply env p.header.operation ⟨p.entireLen, p.body.take p.entireLen⟩ bytes =
            (env.statusError p.status, none, bytes) := by
          simp only [readReply, status, count, eight, param1, zero, if_true, ne_eq,
            not_false_eq_true]
        have failed : p.Failed := ⟨status, by omega, zero⟩
        rw [reply, returned_code (.inr some)]
        exact iff_of_true ⟨failed, rfl⟩ (.inr ⟨failed, .inl eight⟩)
    · have param1 : (-1 : UInt64) ≠ 0 := by decide
      have reply : readReply env p.header.operation ⟨p.entireLen, p.body.take p.entireLen⟩ bytes =
          (env.statusError (-1), none, bytes) := by
        simp only [readReply, status, count, eight, param1, if_true, if_false, ne_eq,
          not_false_eq_true]
      rw [reply, returned_code (.inr some), plain_iff]
      constructor
      · rintro ⟨failed, same⟩
        exact .inr ⟨failed, .inr same⟩
      · rintro (⟨small, long⟩ | ⟨failed, long | same⟩)
        · have := long status
          omega
        · exact absurd long eight
        · exact ⟨failed, same⟩
  · have failed : ¬ p.Failed := fun failed => status failed.1
    have reply : readReply env p.header.operation ⟨p.entireLen, p.body.take p.entireLen⟩ bytes =
        (AFC_E_SUCCESS, Option.some ⟨p.entireLen, p.body.take p.entireLen⟩,
          (p.body.take p.entireLen).length) := by
      have kind := known.resolve_left status
      simp only [readReply, status, kind, if_true, if_false]
    rw [reply, returned_take failed, plain_iff]
    constructor
    · exact fun small => .inl ⟨small, fun same => absurd same status⟩
    · rintro (plain | ⟨failed', -⟩)
      · exact plain.1
      · exact absurd failed' failed

/-- **When the payload is returned**, from how the first two receives fall. -/
theorem returned_iff {result : Checked (AfcError × Option Buffer × Nat)}
    (answer : Answer env s p result) (known : KnownOperation p.header.operation) :
    Returned env p result ↔
      HandedWhole env s p ∧ p.Plain ∨ p.Failed ∧ StatusKept env s p := by
  have entire := p.entireLen_eq
  have this := p.thisLen_eq
  have most : partHanded env s p ≤ p.thisLen := env.receive_le _ _
  cases answer with
  | shortHeader bytes short =>
    rw [returned_code (.inl (by decide))]
    constructor
    · rintro ⟨failed, same⟩
      exact .inr ⟨failed, .inl ⟨short, same⟩⟩
    · rintro (⟨⟨whole, -⟩, -⟩ | ⟨failed, ⟨-, same⟩ | ⟨whole, -⟩ | ⟨⟨whole, -⟩, -⟩⟩)
      · omega
      · exact ⟨failed, same⟩
      · omega
      · omega
  | emptyData whole nothing data =>
    have none : p.thisLen = 0 := by
      rw [nothing, List.length_nil] at this
      omega
    have failed := not_failed_of_nil nothing
    refine iff_of_true ⟨fun failed' => absurd failed' failed, fun _ => ?_⟩ (.inl ⟨⟨whole, ?_⟩, ?_⟩)
    · rw [nothing]
      exact ⟨Option.none, rfl, rfl⟩
    · intro part
      omega
    · refine ⟨by rw [nothing]; decide, fun _ => data, fun status => ?_⟩
      rw [data] at status
      exact absurd status (by decide)
  | empty whole nothing other =>
    have failed := not_failed_of_nil nothing
    rw [returned_code (.inl (by decide))]
    refine iff_of_false (fun failed' => failed failed'.1) ?_
    rintro (⟨-, plain⟩ | ⟨failed', -⟩)
    · exact other (plain.2.1 nothing)
    · exact failed failed'
  | overrun whole some part past =>
    refine iff_of_false ?_ ?_
    · rintro ⟨code, returned⟩
      by_cases failed : p.Failed
      · obtain ⟨_, same⟩ := code failed
        cases same
      · obtain ⟨_, same, -⟩ := returned failed
        cases same
    · rintro (⟨-, small, -⟩ | ⟨-, ⟨short, -⟩ | ⟨-, -, fits, -⟩ | ⟨-, fits, -⟩⟩)
      · omega
      · omega
      · omega
      · omega
  | shortPart bytes whole some part fits short =>
    rw [returned_code (.inl (by decide))]
    constructor
    · rintro ⟨failed, same⟩
      exact .inr ⟨failed, .inr (.inl ⟨whole, short, fits, same⟩)⟩
    · rintro (⟨⟨-, full⟩, -⟩ | ⟨failed, ⟨broken, -⟩ | ⟨-, -, -, same⟩ | ⟨⟨-, full⟩, -⟩⟩)
      · exact absurd (full part) (by omega)
      · omega
      · exact ⟨failed, same⟩
      · exact absurd (full part) (by omega)
  | read bytes whole some part fits =>
    have handed : HandedWhole env s p := ⟨whole, part⟩
    rw [returned_read_iff known some]
    constructor
    · rintro (plain | ⟨failed, kept⟩)
      · exact .inl ⟨handed, plain⟩
      · exact .inr ⟨failed, .inr (.inr ⟨handed, fits, kept⟩)⟩
    · rintro (⟨-, plain⟩ | ⟨failed, ⟨short, -⟩ | ⟨-, short, -⟩ | ⟨-, -, kept⟩⟩)
      · exact .inl plain
      · omega
      · have := part (by omega)
        omega
      · exact .inr ⟨failed, kept⟩

end Results

/-- **When a packet's payload is returned, and when the block is enough**, for every transport:
the header comes out of one receive and the part that `this_length` counts out of the next,
and the payload fits 32 bits; nothing is stored past the block unless that next receive hands
out more than `entire_length` counts. -/
theorem receive_returned_iff :
    (∀ w : World σ, Within ((afcReceiveData env).run w).1 ↔ ¬ Overruns env w) ∧
      ∀ {view : σ → List UInt8} {p : ReplyPacket} {w : World σ} {rest : List UInt8},
        Splits env view → p.header.packetNum = w.packet.packetNum →
          KnownOperation p.header.operation → view w.connection = p.bytes ++ rest →
            (Returned env p ((afcReceiveData env).run w).1 ↔
              HandedWhole env w.connection p ∧ p.Plain ∨ p.Failed ∧ StatusKept env w.connection p) :=
  ⟨within_iff env, fun splits number known stream =>
    returned_iff (receive_answer_of_packet splits number stream) known⟩

/-! ## Two packets -/

/-- The packet of three bytes that answers the first dispatch. -/
def threeBytes : ReplyPacket where
  header := ⟨AFC_MAGIC, 43, 43, 1, AFC_OP_DATA⟩
  body := [1, 2, 3]
  magic := rfl
  header_le := show (40 : UInt64) ≤ 43 by decide
  this_le := UInt64.le_refl 43
  entire := rfl

/-- A client that has dispatched one packet. -/
def awaiting {σ : Type} (connection : σ) : World σ :=
  ⟨⟨AFC_MAGIC, 40, 40, 1, AFC_OP_READ⟩, connection, []⟩

theorem streamEnvironment_splits : Splits streamEnvironment id where
  receive s n := List.take_append_drop n s
  nonempty s n asked some := by
    intro none
    rcases List.take_eq_nil_iff.mp (none : s.take n = []) with zero | empty
    · omega
    · exact some empty

/-- All of it in the receives that ask for it. -/
theorem three_bytes_returned :
    Returned streamEnvironment threeBytes
      ((afcReceiveData streamEnvironment).run (awaiting threeBytes.bytes)).1 :=
  ((receive_returned_iff streamEnvironment).2 streamEnvironment_splits rfl (.inr (.inl rfl))
    (List.append_nil _).symm).mpr
      (.inl ⟨⟨rfl, fun _ => rfl⟩, by decide, fun _ => rfl, fun status => absurd status (by decide)⟩)

/-- A stream of which no receive hands out more than 20 bytes. -/
def trickling : Environment (List UInt8) :=
  { streamEnvironment with
    receive := fun s n => if n ≤ 20 then (s.take n, s.drop n) else (s.take 20, s.drop 20)
    receive_le := by
      intro s n
      split
      · exact List.length_take_le n s
      · exact Nat.le_trans (List.length_take_le 20 s) (by omega) }

theorem trickling_splits : Splits trickling id where
  receive s n := by
    unfold trickling
    dsimp only
    split
    · exact List.take_append_drop n s
    · exact List.take_append_drop 20 s
  nonempty s n asked some := by
    unfold trickling
    dsimp only
    have left : s ≠ [] := some
    split
    · exact fun none => (List.take_eq_nil_iff.mp none).elim (Nat.ne_of_gt asked) left
    · exact fun none => (List.take_eq_nil_iff.mp none).elim (by decide) left

/-- A header whose first part is longer than the whole, and its eight bytes. -/
def longPart : List UInt8 :=
  AFCPacket.toLE ⟨AFC_MAGIC, 44, 48, 1, AFC_OP_DATA⟩ ++ [1, 2, 3, 4, 5, 6, 7, 8]

/-- A header in two pieces of 20 bytes is given up, and eight bytes are received into a block
of four. -/
theorem split_header_and_long_part :
    (Splits trickling id ∧
        ((afcReceiveData trickling).run (awaiting threeBytes.bytes)).1 =
          .ok (AFC_E_MUX_ERROR, none, 20) ∧
        ¬ Returned trickling threeBytes
          ((afcReceiveData trickling).run (awaiting threeBytes.bytes)).1) ∧
      ¬ Within ((afcReceiveData streamEnvironment).run (awaiting longPart)).1 := by
  have refused : ((afcReceiveData trickling).run (awaiting threeBytes.bytes)).1 =
      .ok (AFC_E_MUX_ERROR, none, 20) := rfl
  refine ⟨⟨trickling_splits, refused, fun returned => ?_⟩, fun within => within.1 rfl⟩
  have whole := returned.2 fun failed => absurd failed.1 (by decide)
  rw [refused] at whole
  obtain ⟨dump, same, -⟩ := whole
  cases same

end Irestore.Afc
