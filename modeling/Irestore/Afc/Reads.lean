/-
# Afc.Reads — a file read chunk by chunk

`afc_file_read` asks for what is still missing, and stores whatever each reply carries
behind what it has.  It cuts a payload at the length of the whole block, not at what is
left of it.

* `replyOf` — a reply depends on the packet number and the connection alone
  (`run_receivePacket`), so that a history tells its replies and payloads.
* `readLoop_outcome` — the ways a read ends, from any point of the loop.
* `read_kept_iff` — when a read stays inside the block and returns the payloads in order.
* `second_payload_overruns` — two payloads of three bytes, read into a block of four.
-/
import Irestore.Afc.Splits

namespace Irestore.Afc

open Irestore.Library Irestore.Library.Program Irestore.Library.Bytes Irestore.Library.CMemory

set_option autoImplicit false

variable {σ : Type} (env : Environment σ)

/-! ## Replies -/

/-- What a reply depends on. -/
def SameTurn (w w' : World σ) : Prop :=
  w.packet.packetNum = w'.packet.packetNum ∧ w.connection = w'.connection

theorem connectionReceive_respects (length : Nat) :
    Respects SameTurn (connectionReceive env length) := by
  rintro ⟨packet, connection, events⟩ ⟨packet', connection', events'⟩ ⟨number, same⟩
  cases same
  exact ⟨rfl, number, rfl⟩

theorem receiveRest_respects (entireLen fuel : Nat) (filled : List UInt8) (bytesRecv : Nat) :
    Respects SameTurn (receiveRest env entireLen fuel filled bytesRecv) := by
  induction fuel generalizing filled bytesRecv with
  | zero => exact respects_pure _
  | succ fuel ih =>
    refine respects_ite (respects_bind (connectionReceive_respects env _) fun piece => ?_)
      (respects_pure _)
    exact respects_ite (respects_pure _) (ih _ _)

theorem receivePayload_respects (header : AFCPacket) :
    Respects SameTurn (receivePayload env header) := by
  refine respects_ite ?_ (respects_bind (receiveRest_respects env _ _ _ _) fun _ => respects_pure _)
  refine respects_bind (connectionReceive_respects env _) fun piece =>
    respects_ite (respects_lift _) ?_
  refine respects_ite (respects_pure _) (respects_ite (respects_pure _) ?_)
  exact respects_bind (receiveRest_respects env _ _ _ _) fun _ => respects_pure _

theorem receivePacket_respects : Respects SameTurn (receivePacket env) := by
  refine respects_bind (connectionReceive_respects env _) fun bytes => ?_
  refine respects_ite (respects_pure _) (respects_ite (respects_pure _) ?_)
  refine respects_get_bind (fun w w' alike => ?_) fun w => ?_
  · rw [alike.1]
  · refine respects_ite (respects_pure _) (respects_ite (respects_pure _) (respects_ite ?_ ?_))
    · exact respects_ite (respects_pure _) (respects_pure _)
    · exact receivePayload_respects env _

/-- The reply a client under this packet number takes from the connection. -/
def replyOf (number : UInt64) (connection : σ) : Checked (AfcError × Option Buffer × Nat) :=
  ((receivePacket env).run ⟨⟨AFC_MAGIC, 0, 0, number, 0⟩, connection, []⟩).1

theorem run_receivePacket (w : World σ) :
    ∃ after, (receivePacket env).run w =
      (replyOf env w.packet.packetNum w.connection, { w with connection := after }) := by
  have same := (receivePacket_respects env w
    ⟨⟨AFC_MAGIC, 0, 0, w.packet.packetNum, 0⟩, w.connection, []⟩ ⟨rfl, rfl⟩).1
  have fixed := (receivePacket_keeps env (P := fun packet events =>
    packet = w.packet ∧ events = w.events)).state ⟨rfl, rfl⟩
  rw [Program.state] at fixed
  refine ⟨((receivePacket env).run w).2.connection, Prod.ext same ?_⟩
  generalize ((receivePacket env).run w).2 = reached at fixed
  obtain ⟨packet, connection, events⟩ := reached
  obtain ⟨rfl, rfl⟩ := fixed
  rfl

theorem run_afcReceiveData (w : World σ) :
    ∃ after, (afcReceiveData env).run w =
      (replyOf env w.packet.packetNum w.connection,
        ⟨w.packet, after, w.events ++ [.receive w.connection after]⟩) := by
  obtain ⟨after, ran⟩ := run_receivePacket env w
  refine ⟨after, ?_⟩
  rw [afcReceiveData, run_noting, ran]
  rfl

theorem replyOf_sound {number : UInt64} {connection : σ} {reply : AfcError × Option Buffer × Nat}
    (replied : replyOf env number connection = .ok reply) : Sound reply :=
  (receivePacket_sound env _).ok rfl (Prod.ext replied rfl)

/-! ## One exchange -/

theorem run_sendPacket (packet : AFCPacket) (data : List UInt8) (length : UInt32) (w : World σ) :
    ∃ sent connection, (sendPacket env packet data length).run w =
      (.ok sent, { w with connection := connection }) := by
  simp only [sendPacket, run_bind_eq, run_connectionSend, run_ite, run_pure]
  split_ifs <;> exact ⟨_, _, rfl⟩

omit env in
theorem AFCPacket.next_packetNum (length : UInt32) (packet : AFCPacket) :
    (packet.next length).packetNum = packet.packetNum + 1 := by
  rw [AFCPacket.next, AFCPacket.lengths]
  dsimp only
  split_ifs <;> rfl

/-- **One exchange**: a dispatch, and unless that fails the reply behind it. -/
theorem run_exchange (operation : UInt64) (data : List UInt8) (sendError : AfcError) (w : World σ) :
    ∃ d packet connection, packet.packetNum = w.packet.packetNum + 1 ∧
      ((exchange env operation data sendError).run w =
          (.ok (sendError, none, 0), ⟨packet, connection, w.events ++ [.dispatch d]⟩) ∨
        ∃ after, (exchange env operation data sendError).run w =
          (replyOf env packet.packetNum connection,
            ⟨packet, after, w.events ++ [.dispatch d, .receive connection after]⟩)) := by
  generalize isPacket :
    (w.packet.command operation 0 0).next (UInt32.ofNat data.length) = packet
  have number : packet.packetNum = w.packet.packetNum + 1 :=
    isPacket ▸ AFCPacket.next_packetNum _ _
  obtain ⟨⟨err, sent, sends⟩, connection, ran⟩ := run_sendPacket env packet data
    (UInt32.ofNat data.length) { w with packet := packet }
  rw [← isPacket] at ran
  have dispatched := dispatch_eq env data (UInt32.ofNat data.length)
    (w := w.setPacket (AFCPacket.command operation 0 0)) ran
  rw [isPacket] at dispatched
  refine ⟨⟨data.take (UInt32.ofNat data.length).toNat, sends⟩, packet, connection, number, ?_⟩
  rw [exchange, run_modify_bind, run_bind dispatched]
  dsimp only
  by_cases refused : err ≠ AFC_E_SUCCESS
  · rw [if_pos refused]
    exact .inl rfl
  · rw [if_neg refused]
    obtain ⟨after, received⟩ := run_afcReceiveData env (World.record _ _)
    refine .inr ⟨after, received.trans ?_⟩
    simp only [World.record, List.append_assoc, List.cons_append, List.nil_append]

/-! ## The replies of a history -/

/-- The replies of a history that begins under this packet number. -/
def replies (number : UInt64) : List (Event σ) → List (Checked (AfcError × Option Buffer × Nat))
  | [] => []
  | .dispatch _ :: events => replies (number + 1) events
  | .receive before _ :: events => replyOf env number before :: replies number events

/-- The payloads of a history, without the empty ones. -/
def payloads (number : UInt64) (events : List (Event σ)) : List (List UInt8) :=
  ((replies env number events).map payload).filter (· ≠ [])

/-! ## The loop -/

/-- Nothing of these payloads, that follow `data`, runs past the block: they fit, or there
is only the first, which is cut. -/
def Fits (length : Nat) (data : List UInt8) (pieces : List (List UInt8)) : Prop :=
  (data = [] ∧ pieces.length ≤ 1) ∨ data.length + pieces.flatten.length ≤ length

/-- How a read ends that goes on behind `data` and meets these replies. -/
inductive Outcome (length : Nat) (data : List UInt8) (pieces : List (List UInt8))
    (met : List (Checked (AfcError × Option Buffer × Nat))) :
    Checked (AfcError × Option (List UInt8)) → Prop
  | read (fits : Fits length data pieces) :
      Outcome length data pieces met
        (.ok (AFC_E_SUCCESS, some ((data ++ pieces.flatten).take length)))
  | refused {err : AfcError} (failed : err ≠ AFC_E_SUCCESS) (fits : Fits length data pieces) :
      Outcome length data pieces met (.ok (err, none))
  | overrun (past : ¬ Fits length data pieces) (answered : ∀ reply ∈ met, Ends reply) :
      Outcome length data pieces met (.error .outOfBounds)
  | broken {fault : Fault} (fits : Fits length data pieces)
      (failed : ¬ ∀ reply ∈ met, Ends reply) : Outcome length data pieces met (.error fault)
  | endless (fits : Fits length data pieces) : Outcome length data pieces met (.error .diverges)

section Loop

variable {env} {length : Nat} {data : List UInt8} {pieces : List (List UInt8)}
  {met : List (Checked (AfcError × Option Buffer × Nat))}
  {result : Checked (AfcError × Option (List UInt8))}

omit env

theorem fits_nil (inside : data.length ≤ length) : Fits length data [] := by
  refine .inr ?_
  rw [List.flatten_nil, List.length_nil]
  exact inside

/-- A first piece that fills the block ends the loop, and any that fits goes into it whole. -/
theorem fits_cons {piece : List UInt8} (nonempty : piece ≠ [])
    (inside : data.length + piece.length ≤ length) :
    Fits length data (piece :: pieces) ↔ Fits length (data ++ piece) pieces := by
  have behind : data ++ piece ≠ [] := by simp [nonempty]
  rw [Fits, Fits, List.flatten_cons, List.length_append, List.length_append, List.length_cons]
  constructor
  · rintro (⟨-, few⟩ | fits)
    · have none : pieces = [] := List.length_eq_zero_iff.mp (by omega)
      right
      rw [none, List.flatten_nil, List.length_nil]
      omega
    · exact .inr (by omega)
  · rintro (⟨empty, -⟩ | fits)
    · exact absurd empty behind
    · exact .inr (by omega)

/-- A piece behind others that runs past the block. -/
theorem not_fits_cons {piece : List UInt8} (behind : data ≠ [])
    (past : length < data.length + piece.length) : ¬ Fits length data (piece :: pieces) := by
  rintro (⟨empty, -⟩ | fits)
  · exact behind empty
  · rw [List.flatten_cons, List.length_append] at fits
    omega

/-- A reply without a payload changes nothing. -/
theorem Outcome.met_cons (outcome : Outcome length data pieces met result)
    (reply : AfcError × Option Buffer × Nat) :
    Outcome length data pieces (.ok reply :: met) result := by
  have ends : (∀ reply' ∈ Except.ok reply :: met, Ends reply') ↔ ∀ reply ∈ met, Ends reply :=
    List.forall_mem_cons.trans (and_iff_right ⟨reply, rfl⟩)
  cases outcome with
  | read fits => exact .read fits
  | refused failed fits => exact .refused failed fits
  | overrun past answered => exact .overrun past (ends.mpr answered)
  | broken fits failed => exact .broken fits (mt ends.mp failed)
  | endless fits => exact .endless fits

/-- A payload that fits goes behind the data. -/
theorem Outcome.cons {piece : List UInt8} (nonempty : piece ≠ [])
    (inside : data.length + piece.length ≤ length)
    (outcome : Outcome length (data ++ piece) pieces met result)
    (reply : AfcError × Option Buffer × Nat) :
    Outcome length data (piece :: pieces) (.ok reply :: met) result := by
  have fits_iff := @fits_cons length data pieces piece nonempty inside
  cases outcome.met_cons reply with
  | read fits =>
    rw [List.append_assoc, ← List.flatten_cons]
    exact .read (fits_iff.mpr fits)
  | refused failed fits => exact .refused failed (fits_iff.mpr fits)
  | overrun past answered => exact .overrun (mt fits_iff.mp past) answered
  | broken fits failed => exact .broken (fits_iff.mpr fits) failed
  | endless fits => exact .endless (fits_iff.mpr fits)

end Loop

/-- The events of a read that goes on behind `data`, and how it ends. -/
def Reads (length : Nat) (data : List UInt8) (w : World σ)
    (run : Checked (AfcError × Option (List UInt8)) × World σ) : Prop :=
  ∃ events, run.2.events = w.events ++ events ∧
    Outcome length data (payloads env w.packet.packetNum events)
      (replies env w.packet.packetNum events) run.1

/-- A read that dispatches nothing more. -/
theorem reads_nothing {length : Nat} {data : List UInt8} {w : World σ}
    {result : Checked (AfcError × Option (List UInt8))}
    (outcome : Outcome length data [] [] result) : Reads env length data w (result, w) :=
  ⟨[], (List.append_nil _).symm, outcome⟩

section Turn

variable {env} {length : Nat} {data : List UInt8} {w w' : World σ} {d : Dispatch} {before : σ}
  (number : w'.packet.packetNum = w.packet.packetNum + 1)
  (history : w'.events = w.events ++ [.dispatch d, .receive before w'.connection])

include number

/-- The payloads of a history that goes on behind one exchange. -/
theorem payloads_turn (events : List (Event σ)) :
    payloads env w.packet.packetNum (.dispatch d :: .receive before w'.connection :: events) =
      if payload (replyOf env w'.packet.packetNum before) ≠ [] then
        payload (replyOf env w'.packet.packetNum before) ::
          payloads env w'.packet.packetNum events
      else payloads env w'.packet.packetNum events := by
  simp only [payloads, replies, number, List.map_cons, List.filter_cons, decide_eq_true_eq]

include history

/-- A read that ends behind an exchange. -/
theorem reads_ended {result : Checked (AfcError × Option (List UInt8))}
    (outcome : ∀ reply, replyOf env w'.packet.packetNum before = reply →
      Outcome length data (if payload reply ≠ [] then [payload reply] else []) [reply] result) :
    Reads env length data w (result, w') := by
  refine ⟨_, history, ?_⟩
  rw [payloads_turn number, replies, replies, replies, ← number]
  exact outcome _ rfl

/-- A read that goes on behind a reply without a payload. -/
theorem Reads.skip {run : Checked (AfcError × Option (List UInt8)) × World σ}
    {reply : AfcError × Option Buffer × Nat}
    (replied : replyOf env w'.packet.packetNum before = .ok reply) (none : payload (.ok reply) = [])
    (rest : Reads env length data w' run) : Reads env length data w run := by
  obtain ⟨events, behind, outcome⟩ := rest
  refine ⟨.dispatch d :: .receive before w'.connection :: events, ?_, ?_⟩
  · rw [behind, history, List.append_assoc]
    rfl
  · rw [payloads_turn number, replies, replies, ← number, replied, if_neg (not_not.mpr none)]
    exact outcome.met_cons reply

/-- A read that goes on behind a payload that fits. -/
theorem Reads.store {run : Checked (AfcError × Option (List UInt8)) × World σ}
    {reply : AfcError × Option Buffer × Nat} {piece : List UInt8}
    (replied : replyOf env w'.packet.packetNum before = .ok reply)
    (carries : payload (.ok reply) = piece) (nonempty : piece ≠ [])
    (inside : data.length + piece.length ≤ length)
    (rest : Reads env length (data ++ piece) w' run) : Reads env length data w run := by
  subst carries
  obtain ⟨events, behind, outcome⟩ := rest
  refine ⟨.dispatch d :: .receive before w'.connection :: events, ?_, ?_⟩
  · rw [behind, history, List.append_assoc]
    rfl
  · rw [payloads_turn number, replies, replies, ← number, replied, if_pos nonempty]
    exact outcome.cons nonempty inside reply

end Turn

/-- At a full block the loop is at its end. -/
theorem readLoop_full (handle : UInt64) {length : Nat} (rounds : Nat) {data : List UInt8}
    (w : World σ) (full : length ≤ data.length) :
    (readLoop env handle length rounds data).run w = (.ok (AFC_E_SUCCESS, some data), w) ∨
      (readLoop env handle length rounds data).run w = (.error .diverges, w) := by
  cases rounds with
  | zero => exact .inr rfl
  | succ rounds =>
    rw [readLoop, if_neg (by omega)]
    exact .inl rfl

/-- The loop stores a payload, cut at the length of the block. -/
theorem reads_payload {length : Nat} {data : List UInt8} {w w' : World σ} {d : Dispatch}
    {before : σ} {rounds bytes : Nat} {buffer : Buffer} (handle : UInt64)
    (number : w'.packet.packetNum = w.packet.packetNum + 1)
    (history : w'.events = w.events ++ [.dispatch d, .receive before w'.connection])
    (replied : replyOf env w'.packet.packetNum before = .ok (AFC_E_SUCCESS, some buffer, bytes))
    (count : bytes = buffer.filled.length) (nonempty : buffer.filled ≠ [])
    (more : data.length < length)
    (rest : ∀ data', data'.length ≤ length →
      Reads env length data' w' ((readLoop env handle length rounds data').run w')) :
    Reads env length data w ((do
      let piece ← Program.lift (memcpy buffer.filled (min bytes length))
      if length < data.length + piece.length then Program.lift (.error .outOfBounds)
      else readLoop env handle length rounds (data ++ piece)).run w') := by
  have carries : payload (.ok (AFC_E_SUCCESS, some buffer, bytes)) = buffer.filled := rfl
  have copied : memcpy buffer.filled (min bytes length) = .ok (buffer.filled.take length) := by
    rw [memcpy, if_pos (by omega), count, Nat.min_comm, ← List.take_take, List.take_length]
  have width : (buffer.filled.take length).length = min length buffer.filled.length :=
    List.length_take
  rw [run_bind_eq, run_lift, copied]
  dsimp only
  by_cases past : length < data.length + (buffer.filled.take length).length
  · have behind : data ≠ [] := by
      intro none
      rw [none, List.length_nil] at past
      omega
    rw [if_pos past]
    refine reads_ended number history fun reply same => ?_
    cases replied.symm.trans same
    rw [carries, if_pos nonempty]
    refine .overrun (not_fits_cons behind (by omega)) fun reply met => ?_
    rw [List.mem_singleton.mp met]
    exact ⟨_, rfl⟩
  rw [if_neg past]
  by_cases whole : buffer.filled.length ≤ length
  · rw [List.take_of_length_le whole] at past ⊢
    refine Reads.store number history replied carries nonempty (by omega) (rest _ ?_)
    rw [List.length_append]
    omega
  · -- the first payload, longer than the block: the block is full
    have none : data = [] := List.length_eq_zero_iff.mp (by omega)
    subst none
    have fits : Fits length [] [buffer.filled] := .inl ⟨rfl, Nat.le_refl 1⟩
    have full : length ≤ (buffer.filled.take length).length := by omega
    rw [List.nil_append]
    rcases readLoop_full env handle rounds w' full with ran | ran
    · rw [ran]
      refine reads_ended number history fun reply same => ?_
      cases replied.symm.trans same
      rw [carries, if_pos nonempty]
      have read := @Outcome.read length [] [buffer.filled]
        [.ok (AFC_E_SUCCESS, some buffer, bytes)] fits
      rwa [List.flatten_singleton, List.nil_append] at read
    · rw [ran]
      refine reads_ended number history fun reply same => ?_
      cases replied.symm.trans same
      rw [carries, if_pos nonempty]
      exact .endless fits

/-- **How a read ends**, from any point of the loop. -/
theorem readLoop_outcome (handle : UInt64) (length : Nat) : ∀ (rounds : Nat) {data : List UInt8}
    (w : World σ), data.length ≤ length →
      Reads env length data w ((readLoop env handle length rounds data).run w)
  | 0, _, _, inside => reads_nothing env (.endless (fits_nil inside))
  | rounds + 1, data, w, inside => by
      have whole : (data ++ ([] : List (List UInt8)).flatten).take length = data := by
        rw [List.flatten_nil, List.append_nil, List.take_of_length_le inside]
      by_cases more : data.length < length
      swap
      · rw [readLoop, if_neg more]
        refine reads_nothing env ?_
        have read := @Outcome.read length data [] [] (fits_nil inside)
        rwa [whole] at read
      rw [readLoop, if_pos more]
      dsimp only
      obtain ⟨d, packet, connection, number, refused | ⟨after, answered⟩⟩ := run_exchange env
        AFC_OP_READ (word handle ++ word (UInt64.ofNat (min (length - data.length) (2 ^ 16))))
        AFC_E_NOT_ENOUGH_DATA w
      · rw [run_bind refused]
        exact ⟨[.dispatch d], rfl, .refused (by decide) (fits_nil inside)⟩
      have history : (⟨packet, after, w.events ++ [.dispatch d, .receive connection after]⟩ :
          World σ).events = w.events ++ [.dispatch d, .receive connection after] := rfl
      rcases replied : replyOf env packet.packetNum connection with fault | ⟨ret, input, bytes⟩
      · rw [replied] at answered
        rw [run_bind_error answered]
        refine reads_ended number history fun reply same => ?_
        cases replied.symm.trans same
        exact .broken (fits_nil inside) fun ends => by
          obtain ⟨_, ended⟩ := ends (.error fault) (List.mem_singleton.mpr rfl)
          cases ended
      · have sound := replyOf_sound env replied
        rw [replied] at answered
        rw [run_bind answered]
        dsimp only
        by_cases failed : ret ≠ AFC_E_SUCCESS
        · -- a code other than success comes without a payload
          have none : payload (.ok (ret, input, bytes)) = [] := by
            cases input with
            | none => rfl
            | some buffer => exact absurd (sound buffer rfl).1 failed
          rw [if_pos failed]
          refine reads_ended number history fun reply same => ?_
          cases replied.symm.trans same
          rw [none]
          exact .refused failed (fits_nil inside)
        obtain rfl : ret = AFC_E_SUCCESS := not_not.mp failed
        rw [if_neg failed]
        by_cases empty : bytes = 0
        · have none : payload (.ok (AFC_E_SUCCESS, input, bytes)) = [] := by
            cases input with
            | none => rfl
            | some buffer => exact List.length_eq_zero_iff.mp ((sound buffer rfl).2.1.symm.trans empty)
          rw [if_pos empty]
          refine reads_ended number history fun reply same => ?_
          cases replied.symm.trans same
          rw [none, if_neg (not_not.mpr rfl)]
          have read := @Outcome.read length data [] [.ok (AFC_E_SUCCESS, input, bytes)]
            (fits_nil inside)
          rwa [whole] at read
        rw [if_neg empty]
        cases input with
        | none =>
          exact Reads.skip number history replied rfl
            (readLoop_outcome handle length rounds _ inside)
        | some buffer =>
          have count : bytes = buffer.filled.length := (sound buffer rfl).2.1
          have nonempty : buffer.filled ≠ [] := fun none => empty (by rw [count, none]; rfl)
          exact reads_payload env handle number history replied count nonempty more
            fun data' inside' => readLoop_outcome handle length rounds _ inside'

/-! ## The whole read -/

/-- What a read into a block of `length` bytes is to do with these payloads: it stores inside
the block (a fault is that of a reply), and returns success with the payloads in order, cut
at the length. -/
def Kept (length : Nat) (result : Checked (AfcError × Option (List UInt8)))
    (pieces : List (List UInt8)) (met : List (Checked (AfcError × Option Buffer × Nat))) : Prop :=
  ¬ (result = .error .outOfBounds ∧ ∀ reply ∈ met, Ends reply) ∧
    ∀ read, result = .ok (AFC_E_SUCCESS, read) →
      ∃ data, read = some data ∧ data.length ≤ length ∧ data = pieces.flatten.take length

/-- **When a read stays inside the block and returns the payloads**: at most one payload was
received, or all of them fit the block together. -/
theorem read_kept_iff (rounds : Nat) (handle : UInt64) (length : UInt32) (w : World σ) :
    let run := (afcFileRead env rounds handle length).run w
    let events := run.2.events.drop w.events.length
    Kept length.toNat run.1 (payloads env w.packet.packetNum events)
        (replies env w.packet.packetNum events) ↔
      (payloads env w.packet.packetNum events).length ≤ 1 ∨
        (payloads env w.packet.packetNum events).flatten.length ≤ length.toNat := by
  have reads : Reads env length.toNat [] w ((afcFileRead env rounds handle length).run w) := by
    rw [afcFileRead, withHandle]
    split
    · exact reads_nothing env (.refused (by decide) (fits_nil (Nat.zero_le _)))
    · exact readLoop_outcome env handle length.toNat rounds w (Nat.zero_le _)
  dsimp only
  generalize (afcFileRead env rounds handle length).run w = run at reads
  obtain ⟨events, history, outcome⟩ := reads
  rw [history, List.drop_left]
  have fits_iff : Fits length.toNat [] (payloads env w.packet.packetNum events) ↔
      (payloads env w.packet.packetNum events).length ≤ 1 ∨
        (payloads env w.packet.packetNum events).flatten.length ≤ length.toNat := by
    rw [Fits, List.length_nil, Nat.zero_add, and_iff_right rfl]
  rw [← fits_iff]
  generalize payloads env w.packet.packetNum events = pieces at outcome
  generalize replies env w.packet.packetNum events = met at outcome
  obtain ⟨result, after⟩ := run
  cases outcome with
  | read fits =>
    refine iff_of_true ⟨fun past => (by cases past.1), fun read same => ?_⟩ fits
    cases same
    rw [List.nil_append]
    exact ⟨_, rfl, by rw [List.length_take]; omega, rfl⟩
  | refused failed fits =>
    refine iff_of_true ⟨fun past => (by cases past.1), fun read same => ?_⟩ fits
    cases same
    exact absurd rfl failed
  | overrun past answered => exact iff_of_false (fun kept => kept.1 ⟨rfl, answered⟩) past
  | broken fits failed =>
    exact iff_of_true ⟨fun past => failed past.2, fun read same => by cases same⟩ fits
  | endless fits =>
    exact iff_of_true ⟨fun past => (by cases past.1), fun read same => by cases same⟩ fits

/-- A packet of data under this number. -/
def dataReply (number : UInt64) (body : List UInt8) : List UInt8 :=
  let length := 40 + UInt64.ofNat body.length
  AFCPacket.toLE ⟨AFC_MAGIC, length, length, number, AFC_OP_DATA⟩ ++ body

/-- A client of a device that answers with three bytes, and three more. -/
def threeAndThree : World (List UInt8) :=
  afcClientNewFromConnection (dataReply 1 [1, 2, 3] ++ dataReply 2 [4, 5, 6]) 0

/-- Four bytes are asked for: the second payload is below four, and is stored whole behind the
first. -/
theorem second_payload_overruns :
    let run := (afcFileRead streamEnvironment 3 5 4).run threeAndThree
    run.1 = .error .outOfBounds ∧
      ¬ Kept 4 run.1 (payloads streamEnvironment 0 run.2.events)
        (replies streamEnvironment 0 run.2.events) := by
  have met : replies streamEnvironment 0
      ((afcFileRead streamEnvironment 3 5 4).run threeAndThree).2.events =
        [.ok (AFC_E_SUCCESS, some ⟨3, [1, 2, 3]⟩, 3), .ok (AFC_E_SUCCESS, some ⟨3, [4, 5, 6]⟩, 3)] :=
    rfl
  refine ⟨rfl, fun kept => kept.1 ⟨rfl, ?_⟩⟩
  rw [met]
  simp [Ends]

end Irestore.Afc
