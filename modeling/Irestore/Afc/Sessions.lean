/-
# Afc.Sessions — what holds after every run of operations

An operation touches the client in three ways: it sets header fields, dispatches
and receives.  `Invariant code I` says that the three keep `I` for an operation
with this code, and `Invariant.perform` that then the whole operation does, with all
its loops and early returns.

* `Framing` — the invariant of the shared header: the magic stands, the packet
  number counts the dispatches, and every packet since `old` is framed under the
  code of the operation running.
* `session_header` — the header after any run.
* `perform_speaks`, `perform_silent` — which operations dispatch a packet.
* `packet_framed` — the packets of the next operation, after any run.
-/
import Irestore.Afc.Framing

namespace Irestore.Afc

open Irestore.Library Irestore.Library.Program Irestore.Library.Bytes Irestore.Library.CMemory

set_option autoImplicit false

variable {σ : Type} (env : Environment σ)

/-! ## Invariants of an operation -/

/-- The three ways an operation touches the client keep `I`. -/
structure Invariant (code : UInt64) (I : World σ → Prop) : Prop where
  command : ∀ w entireLength thisLength, I w →
    I (w.setPacket (AFCPacket.command code entireLength thisLength))
  dispatch : ∀ data length, Ensures (fun w => I w ∧ Ready code data length w.packet)
    (afcDispatchPacket env data length) (fun _ => I) I
  receive : Keeps I (afcReceiveData env)

namespace Invariant

variable {env} {code : UInt64} {I : World σ → Prop} (inv : Invariant env code I)

include inv

theorem exchange (ordinary : code ≠ AFC_OP_WRITE) (data : List UInt8) (sendError : AfcError) :
    Keeps I (exchange env code data sendError) := by
  have set : Ensures I (modify (World.setPacket (AFCPacket.command code 0 0)))
      (fun _ w => I w ∧ Ready code data (UInt32.ofNat data.length) w.packet) I := by
    refine ensures_modify fun w holds => ⟨inv.command w 0 0 holds, ?_⟩
    refine .plain rfl ordinary rfl rfl ?_
    rw [UInt32.toNat_ofNat']
    exact Nat.mod_le _ _
  refine ensures_bind set fun _ => ensures_bind (inv.dispatch data _) fun sent => ?_
  exact keeps_ite (keeps_pure _) inv.receive

theorem exchangeCode (ordinary : code ≠ AFC_OP_WRITE) (data : List UInt8) (sendError : AfcError) :
    Keeps I (exchangeCode env code data sendError) :=
  keeps_bind (inv.exchange ordinary data sendError) fun _ => keeps_pure _

omit inv in
theorem withHandle {α : Type} {handle : UInt64} {refused : α} {operation : Program (World σ) α}
    (keeps : Keeps I operation) : Keeps I (withHandle handle refused operation) :=
  keeps_ite (keeps_pure _) keeps

theorem readLoop (isRead : code = AFC_OP_READ) (handle : UInt64) (length rounds : Nat)
    (data : List UInt8) : Keeps I (readLoop env handle length rounds data) := by
  subst isRead
  induction rounds generalizing data with
  | zero => exact keeps_lift _
  | succ rounds ih =>
    have ordinary : AFC_OP_READ ≠ AFC_OP_WRITE := by decide
    refine keeps_ite (keeps_bind (inv.exchange ordinary _ _) fun reply => ?_) (keeps_pure _)
    obtain ⟨ret, input, bytes⟩ := reply
    dsimp only
    refine keeps_ite (keeps_pure _) (keeps_ite (keeps_pure _) ?_)
    cases input with
    | none => exact ih data
    | some buffer => exact keeps_bind (keeps_lift _) fun piece => keeps_ite (keeps_lift _) (ih _)

/-- A write packet is never empty. -/
theorem dispatchWrite (isWrite : code = AFC_OP_WRITE) (handle : UInt64) (data : List UInt8)
    (currentCount : UInt32) {chunk : UInt32} (nonempty : chunk ≠ 0) :
    Keeps I (dispatchWrite env handle data currentCount chunk) := by
  subst isWrite
  have set : Ensures I
      (modify (World.setPacket (AFCPacket.command AFC_OP_WRITE (48 + chunk.toUInt64) 48)))
      (fun _ w => I w ∧ w.packet.operation = AFC_OP_WRITE ∧
        w.packet.entireLength = 48 + chunk.toUInt64 ∧ w.packet.thisLength = 48) I :=
    ensures_modify fun w holds => ⟨inv.command w _ _ holds, rfl, rfl, rfl⟩
  have copied : Ensures (fun w : World σ => I w ∧ w.packet.operation = AFC_OP_WRITE ∧
        w.packet.entireLength = 48 + chunk.toUInt64 ∧ w.packet.thisLength = 48)
      (lift (memcpy (data.drop currentCount.toNat) chunk.toNat))
      (fun piece w => I w ∧ Ready AFC_OP_WRITE (word handle ++ piece) (chunk + 8) w.packet) I := by
    refine ensures_lift (fun piece copied w holds => ?_) fun w holds => holds.1
    obtain ⟨holds, own, entire, this⟩ := holds
    obtain ⟨fits, rfl⟩ := memcpy_eq_ok.mp copied
    refine ⟨holds, .write chunk own rfl entire this nonempty ?_ rfl⟩
    rw [List.length_append, List.length_take, Nat.min_eq_left fits, word, length_le]
  exact ensures_bind set fun _ => ensures_bind copied fun piece => inv.dispatch _ _

theorem writeSegments (isWrite : code = AFC_OP_WRITE) (handle : UInt64) (data : List UInt8)
    (segments : Nat) (currentCount : UInt32) :
    Keeps I (writeSegments env handle data segments currentCount) := by
  induction segments generalizing currentCount with
  | zero => exact keeps_pure _
  | succ segments ih =>
    have maximum : maximumWriteSize ≠ 0 := by decide
    refine keeps_bind (inv.dispatchWrite isWrite handle data currentCount maximum) fun sent => ?_
    refine keeps_ite (keeps_pure _) (keeps_bind inv.receive fun reply => ?_)
    exact keeps_ite (keeps_pure _) (ih _)

theorem writeLast (isWrite : code = AFC_OP_WRITE) (handle : UInt64) (data : List UInt8)
    (currentCount : UInt32) : Keeps I (writeLast env handle data currentCount) := by
  refine ensures_ite (fun _ => keeps_pure _) fun rest => ?_
  have nonempty : UInt32.ofNat data.length - currentCount ≠ 0 := fun zero =>
    rest ((UInt32.sub_eq_iff_eq_add.mp zero).trans (UInt32.zero_add _)).symm
  refine keeps_bind (inv.dispatchWrite isWrite handle data currentCount nonempty) fun sent => ?_
  exact keeps_ite (keeps_pure _) (keeps_bind inv.receive fun _ => keeps_pure _)

theorem afcFileWrite (isWrite : code = AFC_OP_WRITE) (handle : UInt64) (data : List UInt8) :
    Keeps I (afcFileWrite env handle data) := by
  refine withHandle (keeps_bind (inv.writeSegments isWrite handle data _ 0) fun looped => ?_)
  cases looped with
  | error ret => exact keeps_pure _
  | ok currentCount => exact inv.writeLast isWrite handle data currentCount

theorem afcFileOpen (own : code = AFC_OP_FILE_OPEN) (filename : Option CText) (fileMode : UInt32) :
    Keeps I (afcFileOpen env filename fileMode) := by
  subst own
  have ordinary : AFC_OP_FILE_OPEN ≠ AFC_OP_WRITE := by decide
  refine keeps_bind (keeps_deref _) fun _ => keeps_bind (inv.exchange ordinary _ _) fun reply => ?_
  obtain ⟨ret, data, bytes⟩ := reply
  cases data with
  | none => exact keeps_pure _
  | some buffer =>
    dsimp only
    refine keeps_ite ?_ (keeps_pure _)
    exact keeps_bind (keeps_lift _) fun _ => keeps_pure _

theorem afcFileTell (own : code = AFC_OP_FILE_TELL) (handle : UInt64) :
    Keeps I (afcFileTell env handle) := by
  subst own
  have ordinary : AFC_OP_FILE_TELL ≠ AFC_OP_WRITE := by decide
  refine withHandle (keeps_bind (inv.exchange ordinary _ _) fun reply => ?_)
  obtain ⟨ret, data, bytes⟩ := reply
  cases data with
  | none => exact keeps_pure _
  | some buffer =>
    dsimp only
    exact keeps_ite (keeps_bind (keeps_lift _) fun _ => keeps_pure _) (keeps_pure _)

omit inv in
/-- **What the three ways of touching the client keep, every operation keeps.** -/
theorem perform {request : Request} (inv : Invariant env request.code I) :
    Keeps I (perform env request) := by
  cases request with
  | readDirectory dir =>
    have ordinary : AFC_OP_READ_DIR ≠ AFC_OP_WRITE := by decide
    refine keeps_bind ?_ fun _ => keeps_pure _
    cases dir with
    | none => exact keeps_pure _
    | some dir =>
      exact keeps_bind (inv.exchange ordinary _ _) fun _ => keeps_ite (keeps_pure _) (keeps_pure _)
  | getDeviceInfo =>
    have ordinary : AFC_OP_GET_DEVINFO ≠ AFC_OP_WRITE := by decide
    refine keeps_bind (keeps_bind (inv.exchange ordinary _ _) fun _ => ?_) fun _ => keeps_pure _
    exact keeps_ite (keeps_pure _) (keeps_pure _)
  | getDeviceInfoKey key =>
    have ordinary : AFC_OP_GET_DEVINFO ≠ AFC_OP_WRITE := by decide
    refine keeps_bind ?_ fun _ => keeps_pure _
    cases key with
    | none => exact keeps_pure _
    | some key =>
      refine keeps_bind (keeps_bind (inv.exchange ordinary _ _) fun _ => ?_) fun _ => ?_
      · exact keeps_ite (keeps_pure _) (keeps_pure _)
      · refine keeps_ite (keeps_pure _) (keeps_bind (keeps_deref _) fun kvps => ?_)
        exact keeps_bind (keeps_lift _) fun _ => keeps_pure _
  | removePath path =>
    have ordinary : AFC_OP_REMOVE_PATH ≠ AFC_OP_WRITE := by decide
    refine keeps_bind ?_ fun _ => keeps_pure _
    cases path with
    | none => exact keeps_pure _
    | some path =>
      exact keeps_bind (inv.exchangeCode ordinary _ _) fun _ =>
        keeps_ite (keeps_pure _) (keeps_pure _)
  | renamePath source target =>
    have ordinary : AFC_OP_RENAME_PATH ≠ AFC_OP_WRITE := by decide
    refine keeps_bind (keeps_bind (keeps_deref _) fun _ => ?_) fun _ => keeps_pure _
    exact keeps_bind (keeps_deref _) fun _ => inv.exchangeCode ordinary _ _
  | makeDirectory dir =>
    have ordinary : AFC_OP_MAKE_DIR ≠ AFC_OP_WRITE := by decide
    refine keeps_bind (keeps_bind (keeps_deref _) fun _ => ?_) fun _ => keeps_pure _
    exact inv.exchangeCode ordinary _ _
  | getFileInfo path =>
    have ordinary : AFC_OP_GET_FILE_INFO ≠ AFC_OP_WRITE := by decide
    refine keeps_bind ?_ fun _ => keeps_pure _
    cases path with
    | none => exact keeps_pure _
    | some path => exact keeps_bind (inv.exchange ordinary _ _) fun _ => keeps_pure _
  | truncate path newsize =>
    have ordinary : AFC_OP_TRUNCATE ≠ AFC_OP_WRITE := by decide
    refine keeps_bind (keeps_bind (keeps_deref _) fun _ => ?_) fun _ => keeps_pure _
    exact inv.exchangeCode ordinary _ _
  | makeLink linktype target linkname =>
    have ordinary : AFC_OP_MAKE_LINK ≠ AFC_OP_WRITE := by decide
    refine keeps_bind (keeps_bind (keeps_deref _) fun _ => ?_) fun _ => keeps_pure _
    exact keeps_bind (keeps_deref _) fun _ => inv.exchangeCode ordinary _ _
  | setFileTime path mtime =>
    have ordinary : AFC_OP_SET_FILE_TIME ≠ AFC_OP_WRITE := by decide
    refine keeps_bind (keeps_bind (keeps_deref _) fun _ => ?_) fun _ => keeps_pure _
    exact inv.exchangeCode ordinary _ _
  | fileOpen filename fileMode =>
    exact keeps_bind (inv.afcFileOpen rfl filename fileMode) fun _ => keeps_pure _
  | fileClose handle =>
    have ordinary : AFC_OP_FILE_CLOSE ≠ AFC_OP_WRITE := by decide
    exact keeps_bind (withHandle (inv.exchangeCode ordinary _ _)) fun _ => keeps_pure _
  | fileLock handle operation =>
    have ordinary : AFC_OP_FILE_LOCK ≠ AFC_OP_WRITE := by decide
    exact keeps_bind (withHandle (inv.exchangeCode ordinary _ _)) fun _ => keeps_pure _
  | fileSeek handle offset whence =>
    have ordinary : AFC_OP_FILE_SEEK ≠ AFC_OP_WRITE := by decide
    exact keeps_bind (withHandle (inv.exchangeCode ordinary _ _)) fun _ => keeps_pure _
  | fileTell handle =>
    exact keeps_bind (inv.afcFileTell rfl handle) fun _ => keeps_pure _
  | fileTruncate handle newsize =>
    have ordinary : AFC_OP_FILE_SET_SIZE ≠ AFC_OP_WRITE := by decide
    exact keeps_bind (withHandle (inv.exchangeCode ordinary _ _)) fun _ => keeps_pure _
  | fileRead rounds handle length =>
    exact keeps_bind (withHandle (inv.readLoop rfl handle _ rounds [])) fun _ => keeps_pure _
  | fileWrite handle data =>
    exact keeps_bind (inv.afcFileWrite rfl handle data) fun _ => keeps_pure _

end Invariant

/-! ## What receiving leaves alone -/

/-- The connection after any number of receives. -/
def Drained (before after : σ) : Prop :=
  Relation.ReflTransGen (fun here there => ∃ length, there = (env.receive here length).2) before
    after

section Receiving

variable {I : World σ → Prop}
variable (moved : ∀ w length, I w → I { w with connection := (env.receive w.connection length).2 })

include moved

theorem connectionReceive_keeps (length : Nat) : Keeps I (connectionReceive env length) :=
  ensures_of_run fun w holds => ⟨_, _, rfl, moved w length holds⟩

theorem receiveRest_keeps (entireLen fuel : Nat) (filled : List UInt8) (bytesRecv : Nat) :
    Keeps I (receiveRest env entireLen fuel filled bytesRecv) := by
  induction fuel generalizing filled bytesRecv with
  | zero => exact keeps_pure _
  | succ fuel ih =>
    refine keeps_ite (keeps_bind (connectionReceive_keeps env moved _) fun piece => ?_)
      (keeps_pure _)
    exact keeps_ite (keeps_pure _) (ih _ _)

theorem receivePayload_keeps (header : AFCPacket) : Keeps I (receivePayload env header) := by
  refine keeps_ite ?_ (keeps_bind (receiveRest_keeps env moved _ _ _ _) fun _ => keeps_pure _)
  refine keeps_bind (connectionReceive_keeps env moved _) fun piece => keeps_ite (keeps_lift _) ?_
  refine keeps_ite (keeps_pure _) (keeps_ite (keeps_pure _) ?_)
  exact keeps_bind (receiveRest_keeps env moved _ _ _ _) fun _ => keeps_pure _

/-- Receiving moves the connection only, by receives. -/
theorem receivePacket_moves : Keeps I (receivePacket env) := by
  refine keeps_bind (connectionReceive_keeps env moved _) fun bytes => ?_
  refine keeps_ite (keeps_pure _) (keeps_ite (keeps_pure _) (keeps_bind keeps_get fun _ => ?_))
  refine keeps_ite (keeps_pure _) (keeps_ite (keeps_pure _) (keeps_ite ?_ ?_))
  · exact keeps_ite (keeps_pure _) (keeps_pure _)
  · exact receivePayload_keeps env moved _

end Receiving

theorem receivePacket_keeps {P : AFCPacket → List (Event σ) → Prop} :
    Keeps (fun w => P w.packet w.events) (receivePacket env) :=
  receivePacket_moves env fun _ _ holds => holds

/-- A predicate that a `receive` event does not break survives `afc_receive_data`. -/
theorem afcReceiveData_moves {P : AFCPacket → List (Event σ) → σ → Prop}
    (record : ∀ packet events before after, Drained env before after → P packet events before →
      P packet (events ++ [.receive before after]) after) :
    Keeps (fun w => P w.packet w.events w.connection) (afcReceiveData env) := by
  refine ensures_noting fun w holds => ?_
  have kept : Keeps (fun w' => w'.packet = w.packet ∧ w'.events = w.events ∧
      Drained env w.connection w'.connection) (receivePacket env) :=
    receivePacket_moves env fun w' length found =>
      ⟨found.1, found.2.1, found.2.2.tail ⟨length, rfl⟩⟩
  have noted : ∀ w' : World σ, w'.packet = w.packet ∧ w'.events = w.events ∧
      Drained env w.connection w'.connection →
      P (w'.record (.receive w.connection w'.connection)).packet
        (w'.record (.receive w.connection w'.connection)).events w'.connection := by
    rintro w' ⟨packet, events, drained⟩
    show P w'.packet (w'.events ++ _) _
    rw [packet, events]
    exact record _ _ _ _ drained holds
  refine ⟨fun same ran => ?_, fun same ran => ?_⟩
  · subst same
    exact noted _ (kept.ok ⟨rfl, rfl, .refl⟩ ran)
  · subst same
    exact noted _ (kept.fault ⟨rfl, rfl, .refl⟩ ran)

theorem afcReceiveData_keeps {P : AFCPacket → List (Event σ) → Prop}
    (record : ∀ packet events before after, P packet events →
      P packet (events ++ [.receive before after])) :
    Keeps (fun w => P w.packet w.events) (afcReceiveData env) :=
  @afcReceiveData_moves σ env (fun packet events _ => P packet events)
    fun packet events before after _ holds => record packet events before after holds

/-! ## Framing -/

/-- Every dispatch of the history, the first of which came after `n` others, was
framed under `code`.  None was sent at all only for a write whose 32-bit length
wrapped around. -/
def Framed (code : UInt64) : Nat → List (Event σ) → Prop
  | _, [] => True
  | n, .dispatch d :: events =>
      Pieces (headerBytes n code d.payload) d.payload d.sends ∧
        (d.sends = [] → code = AFC_OP_WRITE ∧ d.payload.length < 8) ∧ Framed code (n + 1) events
  | n, .receive .. :: events => Framed code n events

theorem dispatches_append (front back : List (Event σ)) :
    dispatches (front ++ back) = dispatches front + dispatches back := by
  induction front with
  | nil => simp [dispatches]
  | cons event front ih =>
    cases event with
    | dispatch d =>
      simp only [List.cons_append, dispatches, ih]
      omega
    | receive before after => simp only [List.cons_append, dispatches, ih]

theorem framed_append {code : UInt64} {n : Nat} {front back : List (Event σ)} :
    Framed code n (front ++ back) ↔
      Framed code n front ∧ Framed code (n + dispatches front) back := by
  induction front generalizing n with
  | nil => simp [Framed, dispatches]
  | cons event front ih =>
    cases event with
    | dispatch d =>
      have shift : n + 1 + dispatches front = n + (dispatches front + 1) := by omega
      simp only [List.cons_append, Framed, dispatches, ih, shift, and_assoc]
    | receive before after => simp only [List.cons_append, Framed, dispatches, ih]

/-- From the connection `before` to the one behind the events: the pieces of a dispatch were
handed to it, and between the two of a `receive` were receives. -/
def Underwent : σ → List (Event σ) → σ → Prop
  | before, [], after => after = before
  | before, .dispatch d :: events, after =>
      ∃ mid, Handed env before d.sends mid ∧ Underwent mid events after
  | before, .receive here there :: events, after =>
      here = before ∧ Drained env here there ∧ Underwent there events after

variable {env} in
theorem Underwent.concat_dispatch : ∀ {events : List (Event σ)} {before mid after : σ}
    {d : Dispatch}, Underwent env before events mid → Handed env mid d.sends after →
      Underwent env before (events ++ [.dispatch d]) after
  | [], _, _, _, _, underwent, handed => by
      cases underwent
      exact ⟨_, handed, rfl⟩
  | .dispatch _ :: _, _, _, _, _, underwent, handed => by
      obtain ⟨next, first, rest⟩ := underwent
      exact ⟨next, first, rest.concat_dispatch handed⟩
  | .receive .. :: _, _, _, _, _, underwent, handed =>
      ⟨underwent.1, underwent.2.1, underwent.2.2.concat_dispatch handed⟩

variable {env} in
theorem Underwent.concat_receive : ∀ {events : List (Event σ)} {before mid after : σ},
    Underwent env before events mid → Drained env mid after →
      Underwent env before (events ++ [.receive mid after]) after
  | [], _, _, _, underwent, drained => by
      cases underwent
      exact ⟨rfl, drained, rfl⟩
  | .dispatch _ :: _, _, _, _, underwent, drained => by
      obtain ⟨next, first, rest⟩ := underwent
      exact ⟨next, first, rest.concat_receive drained⟩
  | .receive .. :: _, _, _, _, underwent, drained =>
      ⟨underwent.1, underwent.2.1, underwent.2.2.concat_receive drained⟩

/-- The shared header between operations, and every packet since `old`, when the connection
was `start`. -/
structure Framing (old : List (Event σ)) (start : σ) (code : UInt64) (packet : AFCPacket)
    (events : List (Event σ)) (connection : σ) : Prop where
  magic : packet.magic = AFC_MAGIC
  counted : packet.packetNum = UInt64.ofNat (dispatches events)
  framed : ∃ new, events = old ++ new ∧ Framed code (dispatches old) new ∧
    Underwent env start new connection

theorem Framing.invariant (old : List (Event σ)) (start : σ) (code : UInt64) :
    Invariant env code fun w => Framing env old start code w.packet w.events w.connection where
  command w _ _ framing := ⟨framing.magic, framing.counted, framing.framed⟩
  dispatch data length := by
    refine ensures_of_run fun w ⟨framing, ready⟩ => ?_
    obtain ⟨new, grown, framed, underwent⟩ := framing.framed
    obtain ⟨err, sent, sends, packet, connection, ran, magic, number, pieces, handed, unsent⟩ :=
      ready.dispatched env framing.magic
    refine ⟨_, _, ran, magic.trans framing.magic, ?_,
      new ++ [.dispatch ⟨data.take length.toNat, sends⟩], ?_, ?_, underwent.concat_dispatch handed⟩
    · rw [number, framing.counted, dispatches_append]
      exact (UInt64.ofNat_add _ 1).symm
    · rw [grown, List.append_assoc]
    · rw [framed_append, ← dispatches_append, ← grown]
      refine ⟨framed, pieces _ framing.counted, fun none => ?_, trivial⟩
      have short := unsent none
      exact ⟨short.1, Nat.lt_of_le_of_lt (List.length_take_le _ _) short.2⟩
  receive := by
    refine afcReceiveData_moves env fun packet events before after drained framing => ?_
    obtain ⟨new, grown, framed, underwent⟩ := framing.framed
    refine ⟨framing.magic, ?_, new ++ [.receive before after], ?_, ?_,
      underwent.concat_receive drained⟩
    · rw [framing.counted, dispatches_append]
      rfl
    · rw [grown, List.append_assoc]
    · rw [framed_append]
      exact ⟨framed, trivial⟩

/-- What every operation relies on in the header its predecessors left. -/
structure HeaderInvariant (packet : AFCPacket) (events : List (Event σ)) : Prop where
  magic : packet.magic = AFC_MAGIC
  counted : packet.packetNum = UInt64.ofNat (dispatches events)

theorem perform_framing (request : Request) {w : World σ}
    (header : HeaderInvariant w.packet w.events) :
    Framing env w.events w.connection request.code ((perform env request).state w).packet
      ((perform env request).state w).events ((perform env request).state w).connection := by
  have keeps := Invariant.perform (Framing.invariant env w.events w.connection request.code)
  exact keeps.state ⟨header.magic, header.counted, [], by simp, trivial, rfl⟩

theorem perform_header (request : Request) :
    Keeps (fun w : World σ => HeaderInvariant w.packet w.events) (perform env request) :=
  keeps_of_state fun _ header =>
    ⟨(perform_framing env request header).magic, (perform_framing env request header).counted⟩

/-- **After any run the header holds the magic and the number of dispatches.** -/
theorem session_header (connection : σ) (operation : UInt64) (requests : List Request) :
    HeaderInvariant (session env connection operation requests).packet
      (session env connection operation requests).events :=
  Keeps.state (keeps_forM (perform_header env) requests) ⟨rfl, rfl⟩

/-! ## Operations that dispatch -/

/-- The arguments with which an operation comes to a dispatch: no NULL, no handle 0, and
something to read or write. -/
def Request.dispatches : Request → Bool
  | .getDeviceInfo => true
  | .readDirectory path | .getDeviceInfoKey path | .removePath path | .makeDirectory path
  | .getFileInfo path | .truncate path _ | .setFileTime path _ | .fileOpen path _ => path.isSome
  | .renamePath source target | .makeLink _ source target => source.isSome && target.isSome
  | .fileClose handle | .fileLock handle _ | .fileSeek handle _ _ | .fileTell handle
  | .fileTruncate handle _ => decide (handle ≠ 0)
  | .fileRead rounds handle length => decide (handle ≠ 0 ∧ length ≠ 0 ∧ rounds ≠ 0)
  | .fileWrite handle data => decide (handle ≠ 0 ∧ UInt32.ofNat data.length ≠ 0)

/-- A packet was dispatched since the first `k`. -/
structure Spoken (k : Nat) (w : World σ) : Prop where
  magic : w.packet.magic = AFC_MAGIC
  more : k < dispatches w.events

/-- The first `k` packets were dispatched. -/
structure Begun (k : Nat) (w : World σ) : Prop where
  magic : w.packet.magic = AFC_MAGIC
  counted : k ≤ dispatches w.events

section Speaking

variable {env} {code : UInt64} {k : Nat}

theorem dispatch_speaks (data : List UInt8) (length : UInt32) :
    Ensures (fun w : World σ => Begun k w ∧ Ready code data length w.packet)
      (afcDispatchPacket env data length) (fun _ => Spoken k) (Spoken k) := by
  refine ensures_of_run fun w ⟨begun, ready⟩ => ?_
  obtain ⟨err, sent, sends, packet, connection, ran, magic, -⟩ := ready.dispatched env begun.magic
  refine ⟨_, _, ran, magic.trans begun.magic, ?_⟩
  rw [dispatches_append]
  exact Nat.lt_succ_of_le begun.counted

theorem Spoken.invariant (k : Nat) (code : UInt64) :
    Invariant env code (fun w : World σ => Spoken k w) where
  command _ _ _ spoken := ⟨spoken.magic, spoken.more⟩
  dispatch data length :=
    ensures_mono (dispatch_speaks data length)
      (fun _ spoken => ⟨⟨spoken.1.magic, spoken.1.more.le⟩, spoken.2⟩) fun _ _ spoken => spoken
  receive := by
    have kept := @afcReceiveData_keeps σ env
      (fun packet events => packet.magic = AFC_MAGIC ∧ k < dispatches events)
      fun packet events before after spoken => by
        rw [dispatches_append]
        exact ⟨spoken.1, Nat.lt_of_lt_of_le spoken.2 (Nat.le_add_right _ _)⟩
    exact ⟨fun spoken ran => ⟨(kept.ok ⟨spoken.1, spoken.2⟩ ran).1,
        (kept.ok ⟨spoken.1, spoken.2⟩ ran).2⟩,
      fun spoken ran => ⟨(kept.fault ⟨spoken.1, spoken.2⟩ ran).1,
        (kept.fault ⟨spoken.1, spoken.2⟩ ran).2⟩⟩

theorem exchange_speaks (ordinary : code ≠ AFC_OP_WRITE) (data : List UInt8)
    (sendError : AfcError) :
    Ensures (Begun k) (exchange env code data sendError) (fun _ => Spoken k) (Spoken k) := by
  have set : Ensures (Begun k) (modify (World.setPacket (AFCPacket.command code 0 0)))
      (fun _ (w : World σ) => Begun k w ∧ Ready code data (UInt32.ofNat data.length) w.packet)
      (Spoken k) := by
    refine ensures_modify fun w begun => ⟨⟨begun.magic, begun.counted⟩, ?_⟩
    refine .plain rfl ordinary rfl rfl ?_
    rw [UInt32.toNat_ofNat']
    exact Nat.mod_le _ _
  refine ensures_bind set fun _ => ensures_bind (dispatch_speaks data _) fun sent => ?_
  exact keeps_ite (keeps_pure _) (Spoken.invariant k code).receive

theorem exchangeCode_speaks (ordinary : code ≠ AFC_OP_WRITE) (data : List UInt8)
    (sendError : AfcError) :
    Ensures (Begun k) (exchangeCode env code data sendError) (fun _ => Spoken k) (Spoken k) :=
  ensures_bind (exchange_speaks ordinary data sendError) fun _ => keeps_pure _

theorem dispatchWrite_speaks (handle : UInt64) (data : List UInt8) (currentCount : UInt32)
    {chunk : UInt32} (nonempty : chunk ≠ 0)
    (inside : chunk.toNat ≤ (data.drop currentCount.toNat).length) :
    Ensures (Begun k) (dispatchWrite env handle data currentCount chunk) (fun _ => Spoken k)
      (Spoken k) := by
  have copied : memcpy (data.drop currentCount.toNat) chunk.toNat =
      .ok ((data.drop currentCount.toNat).take chunk.toNat) := memcpy_eq_ok.mpr ⟨inside, rfl⟩
  have set : Ensures (Begun k)
      (modify (World.setPacket (AFCPacket.command AFC_OP_WRITE (48 + chunk.toUInt64) 48)))
      (fun _ (w : World σ) => Begun k w ∧ Ready AFC_OP_WRITE
        (word handle ++ (data.drop currentCount.toNat).take chunk.toNat) (chunk + 8) w.packet)
      (Spoken k) := by
    refine ensures_modify fun w begun => ⟨⟨begun.magic, begun.counted⟩, ?_⟩
    refine .write chunk rfl rfl rfl rfl nonempty ?_ rfl
    rw [List.length_append, List.length_take, Nat.min_eq_left inside, word, length_le]
  rw [dispatchWrite, copied]
  exact ensures_bind set fun _ => dispatch_speaks _ _

theorem writes_speak {handle : UInt64} {data : List UInt8} (given : handle ≠ 0)
    (some' : UInt32.ofNat data.length ≠ 0) :
    Ensures (Begun k) (afcFileWrite env handle data) (fun _ => Spoken k) (Spoken k) := by
  have inv : Invariant env AFC_OP_WRITE (fun w : World σ => Spoken k w) := Spoken.invariant k _
  have short : (UInt32.ofNat data.length).toNat ≤ data.length := by
    rw [UInt32.toNat_ofNat']
    exact Nat.mod_le _ _
  rw [afcFileWrite, withHandle, if_neg given]
  dsimp only
  cases segments : (UInt32.ofNat data.length / maximumWriteSize).toNat with
  | zero =>
    -- all of the data is in the last segment
    refine ensures_between (fun looped w => Begun k w ∧ looped = .ok 0)
      (ensures_pure fun w begun => ⟨begun, rfl⟩) fun looped => ensures_fact ?_
    rintro rfl
    show Ensures _ (writeLast env handle data 0) _ _
    rw [writeLast]
    dsimp only
    rw [if_neg (Ne.symm some'), UInt32.sub_zero]
    refine ensures_bind (dispatchWrite_speaks handle data 0 some' short) fun sent => ?_
    exact keeps_ite (keeps_pure _) (keeps_bind inv.receive fun _ => keeps_pure _)
  | succ rounds =>
    have whole : maximumWriteSize.toNat ≤ (data.drop (0 : UInt32).toNat).length := by
      have positive : maximumWriteSize.toNat = 2 ^ 15 := rfl
      rw [UInt32.toNat_div, positive] at segments
      have least := (Nat.le_div_iff_mul_le (by decide)).mp (segments ▸ Nat.le_add_left 1 rounds)
      rw [Nat.one_mul] at least
      exact (positive ▸ least).trans short
    have first : Ensures (Begun k) (writeSegments env handle data (rounds + 1) 0)
        (fun _ => Spoken k) (Spoken k) := by
      refine ensures_bind (dispatchWrite_speaks handle data 0 (by decide) whole) fun sent => ?_
      refine keeps_ite (keeps_pure _) (keeps_bind inv.receive fun reply => ?_)
      exact keeps_ite (keeps_pure _) (inv.writeSegments rfl handle data rounds _)
    refine ensures_bind first fun looped => ?_
    cases looped with
    | error ret => exact keeps_pure _
    | ok currentCount => exact inv.writeLast rfl handle data currentCount

theorem readLoop_speaks {handle : UInt64} {length : UInt32} {rounds : Nat}
    (some' : length ≠ 0) (bounded : rounds ≠ 0) :
    Ensures (Begun k) (readLoop env handle length.toNat rounds []) (fun _ => Spoken k)
      (Spoken k) := by
  have inv : Invariant env AFC_OP_READ (fun w : World σ => Spoken k w) := Spoken.invariant k _
  have ordinary : AFC_OP_READ ≠ AFC_OP_WRITE := by decide
  have positive : ([] : List UInt8).length < length.toNat :=
    Nat.pos_of_ne_zero fun zero => some' (UInt32.toNat_inj.mp zero)
  obtain ⟨rounds, rfl⟩ := Nat.exists_eq_succ_of_ne_zero bounded
  rw [readLoop, if_pos positive]
  refine ensures_bind (exchange_speaks ordinary _ _) fun reply => ?_
  obtain ⟨ret, input, bytes⟩ := reply
  dsimp only
  refine keeps_ite (keeps_pure _) (keeps_ite (keeps_pure _) ?_)
  cases input with
  | none => exact inv.readLoop rfl handle _ rounds _
  | some buffer =>
    exact keeps_bind (keeps_lift _) fun piece =>
      keeps_ite (keeps_lift _) (inv.readLoop rfl handle _ rounds _)

theorem withHandle_speaks {α : Type} {handle : UInt64} {refused : α}
    {operation : Program (World σ) α} (given : handle ≠ 0)
    (speaks : Ensures (Begun k) operation (fun _ => Spoken k) (Spoken k)) :
    Ensures (Begun k) (withHandle handle refused operation) (fun _ => Spoken k) (Spoken k) := by
  rwa [withHandle, if_neg given]

theorem deref_speaks {α β : Type} {a : α} {next : α → Program (World σ) β}
    (speaks : Ensures (Begun k) (next a) (fun _ => Spoken k) (Spoken k)) :
    Ensures (Begun k) (deref (some a) >>= next) (fun _ => Spoken k) (Spoken k) := speaks

/-- An operation whose arguments are in order dispatches a packet. -/
theorem perform_speaks {request : Request} (args : request.dispatches = true) :
    Ensures (Begun k) (perform env request) (fun _ => Spoken k) (Spoken k) := by
  cases request with
  | readDirectory dir =>
    obtain ⟨dir, rfl⟩ := Option.isSome_iff_exists.mp args
    exact ensures_bind (ensures_bind (exchange_speaks (by decide) _ _) fun _ =>
      keeps_ite (keeps_pure _) (keeps_pure _)) fun _ => keeps_pure _
  | getDeviceInfo =>
    exact ensures_bind (ensures_bind (exchange_speaks (by decide) _ _) fun _ =>
      keeps_ite (keeps_pure _) (keeps_pure _)) fun _ => keeps_pure _
  | getDeviceInfoKey key =>
    obtain ⟨key, rfl⟩ := Option.isSome_iff_exists.mp args
    refine ensures_bind (ensures_bind (ensures_bind (exchange_speaks (by decide) _ _) fun _ =>
      keeps_ite (keeps_pure _) (keeps_pure _)) fun _ => ?_) fun _ => keeps_pure _
    exact keeps_ite (keeps_pure _) (keeps_bind (keeps_deref _) fun kvps =>
      keeps_bind (keeps_lift _) fun _ => keeps_pure _)
  | removePath path =>
    obtain ⟨path, rfl⟩ := Option.isSome_iff_exists.mp args
    exact ensures_bind (ensures_bind (exchangeCode_speaks (by decide) _ _) fun _ =>
      keeps_ite (keeps_pure _) (keeps_pure _)) fun _ => keeps_pure _
  | renamePath source target =>
    simp only [Request.dispatches, Bool.and_eq_true] at args
    obtain ⟨first, second⟩ := args
    obtain ⟨source, rfl⟩ := Option.isSome_iff_exists.mp first
    obtain ⟨target, rfl⟩ := Option.isSome_iff_exists.mp second
    have ordinary : AFC_OP_RENAME_PATH ≠ AFC_OP_WRITE := by decide
    exact ensures_bind (deref_speaks (deref_speaks (exchangeCode_speaks ordinary _ _)))
      fun _ => keeps_pure _
  | makeLink linktype source target =>
    simp only [Request.dispatches, Bool.and_eq_true] at args
    obtain ⟨first, second⟩ := args
    obtain ⟨source, rfl⟩ := Option.isSome_iff_exists.mp first
    obtain ⟨target, rfl⟩ := Option.isSome_iff_exists.mp second
    have ordinary : AFC_OP_MAKE_LINK ≠ AFC_OP_WRITE := by decide
    exact ensures_bind (deref_speaks (deref_speaks (exchangeCode_speaks ordinary _ _)))
      fun _ => keeps_pure _
  | makeDirectory path =>
    obtain ⟨path, rfl⟩ := Option.isSome_iff_exists.mp args
    have ordinary : AFC_OP_MAKE_DIR ≠ AFC_OP_WRITE := by decide
    exact ensures_bind (deref_speaks (exchangeCode_speaks ordinary _ _)) fun _ => keeps_pure _
  | truncate path newsize =>
    obtain ⟨path, rfl⟩ := Option.isSome_iff_exists.mp args
    have ordinary : AFC_OP_TRUNCATE ≠ AFC_OP_WRITE := by decide
    exact ensures_bind (deref_speaks (exchangeCode_speaks ordinary _ _)) fun _ => keeps_pure _
  | setFileTime path mtime =>
    obtain ⟨path, rfl⟩ := Option.isSome_iff_exists.mp args
    have ordinary : AFC_OP_SET_FILE_TIME ≠ AFC_OP_WRITE := by decide
    exact ensures_bind (deref_speaks (exchangeCode_speaks ordinary _ _)) fun _ => keeps_pure _
  | getFileInfo path =>
    obtain ⟨path, rfl⟩ := Option.isSome_iff_exists.mp args
    exact ensures_bind (ensures_bind (exchange_speaks (by decide) _ _) fun _ => keeps_pure _)
      fun _ => keeps_pure _
  | fileOpen filename fileMode =>
    obtain ⟨filename, rfl⟩ := Option.isSome_iff_exists.mp args
    have ordinary : AFC_OP_FILE_OPEN ≠ AFC_OP_WRITE := by decide
    refine ensures_bind (deref_speaks (ensures_bind (exchange_speaks ordinary _ _) fun reply => ?_))
      fun _ => keeps_pure _
    obtain ⟨ret, data, bytes⟩ := reply
    cases data with
    | none => exact keeps_pure _
    | some buffer =>
      exact keeps_ite (keeps_bind (keeps_lift _) fun _ => keeps_pure _) (keeps_pure _)
  | fileTell handle =>
    refine ensures_bind (withHandle_speaks (of_decide_eq_true args)
      (ensures_bind (exchange_speaks (by decide) _ _) fun reply => ?_)) fun _ => keeps_pure _
    obtain ⟨ret, data, bytes⟩ := reply
    cases data with
    | none => exact keeps_pure _
    | some buffer =>
      exact keeps_ite (keeps_bind (keeps_lift _) fun _ => keeps_pure _) (keeps_pure _)
  | fileClose handle | fileLock handle operation | fileSeek handle offset whence
  | fileTruncate handle newsize =>
    exact ensures_bind (withHandle_speaks (of_decide_eq_true args)
      (exchangeCode_speaks (by decide) _ _)) fun _ => keeps_pure _
  | fileRead rounds handle length =>
    obtain ⟨given, some', bounded⟩ := of_decide_eq_true args
    exact ensures_bind (withHandle_speaks given (readLoop_speaks some' bounded))
      fun _ => keeps_pure _
  | fileWrite handle data =>
    obtain ⟨given, some'⟩ := of_decide_eq_true args
    exact ensures_bind (writes_speak given some') fun _ => keeps_pure _

/-- Without such arguments it does nothing. -/
theorem perform_silent {request : Request} (none : request.dispatches = false) (w : World σ) :
    ((perform env request).state w).events = w.events := by
  cases request with
  | getDeviceInfo => cases none
  | readDirectory path | getDeviceInfoKey path | removePath path | makeDirectory path
  | getFileInfo path | truncate path _ | setFileTime path _ | fileOpen path _ =>
    cases path with
    | none => rfl
    | some path => cases none
  | renamePath source target | makeLink _ source target =>
    cases source with
    | none => rfl
    | some source =>
      cases target with
      | none => rfl
      | some target => cases none
  | fileClose handle | fileLock handle _ | fileSeek handle _ _ | fileTell handle
  | fileTruncate handle _ =>
    have zero : handle = 0 := by simpa using of_decide_eq_false none
    subst zero
    rfl
  | fileRead rounds handle length =>
    by_cases zero : handle = 0
    · subst zero
      rfl
    have handled : perform env (.fileRead rounds handle length) =
        readLoop env handle length.toNat rounds [] >>= fun _ => pure PUnit.unit := by
      rw [perform, afcFileRead, withHandle, if_neg zero]
    rw [handled]
    cases rounds with
    | zero => rfl
    | succ rounds =>
      have empty : length = 0 := by simpa [Request.dispatches, zero] using none
      subst empty
      rfl
  | fileWrite handle data =>
    by_cases zero : handle = 0
    · subst zero
      rfl
    have empty : UInt32.ofNat data.length = 0 := by simpa [Request.dispatches, zero] using none
    have written : (afcFileWrite env handle data).run w = (.ok (AFC_E_SUCCESS, some 0), w) := by
      rw [afcFileWrite, withHandle, if_neg zero]
      have none : ((0 : UInt32) / maximumWriteSize).toNat = 0 := by decide
      simp only [empty, none, writeSegments, writeLast]
      rfl
    show ((afcFileWrite env handle data >>= fun _ => pure PUnit.unit).run w).2.events = _
    rw [run_bind written]
    rfl

end Speaking

/-- **No length or code of an earlier operation survives.**  After any run, every
packet of the next operation is framed by its code, its payload and the number of
dispatches before it; its pieces are what the connection was handed, and there is a packet
exactly when the arguments are in order. -/
theorem packet_framed (connection : σ) (operation : UInt64) (requests : List Request)
    (request : Request) :
    ∃ new, ((perform env request).state (session env connection operation requests)).events =
        (session env connection operation requests).events ++ new ∧
      Framed request.code (dispatches (session env connection operation requests).events) new ∧
      Underwent env (session env connection operation requests).connection new
        ((perform env request).state (session env connection operation requests)).connection ∧
      (0 < dispatches new ↔ request.dispatches = true) := by
  have header := session_header env connection operation requests
  obtain ⟨new, grown, framed, underwent⟩ := (perform_framing env request header).framed
  refine ⟨new, grown, framed, underwent, ?_⟩
  have counted := congrArg dispatches grown
  rw [dispatches_append] at counted
  constructor
  · intro some'
    by_contra none
    have silent := congrArg dispatches (@perform_silent σ env request (Bool.not_eq_true _ ▸ none)
      (session env connection operation requests))
    omega
  · intro args
    have begun : Begun (dispatches (session env connection operation requests).events)
        (session env connection operation requests) := ⟨header.magic, le_refl _⟩
    have spoken := (@perform_speaks σ env _ request args).state begun
    have more := spoken.more
    omega

/-- A connection that takes every byte, and keeps what it was sent; nothing comes back. -/
def recorder : Environment (List UInt8) where
  send log bytes := (bytes.length, log ++ bytes)
  send_le _ _ := le_refl _
  receive log _ := ([], log)
  receive_le _ _ := Nat.zero_le _
  statusError := fun _ => AFC_E_UNKNOWN_ERROR
  heap _ := 0

/-- A seek behind a write that got no answer: its frame is the second on the connection. -/
theorem seek_framed :
    ∃ new, ((perform recorder (.fileSeek 7 1 0)).state
        (session recorder [] 0 [.fileWrite 7 [0x41]])).events =
          (session recorder [] 0 [.fileWrite 7 [0x41]]).events ++ new ∧
      Framed AFC_OP_FILE_SEEK 1 new ∧
      Underwent recorder (headerBytes 0 AFC_OP_WRITE (word 7 ++ [0x41]) ++ (word 7 ++ [0x41])) new
        (headerBytes 0 AFC_OP_WRITE (word 7 ++ [0x41]) ++ (word 7 ++ [0x41]) ++
          (headerBytes 1 AFC_OP_FILE_SEEK (word 7 ++ (word 0 ++ word 1)) ++
            (word 7 ++ (word 0 ++ word 1)))) ∧ 0 < dispatches new := by
  obtain ⟨new, grown, framed, underwent, spoken⟩ :=
    packet_framed recorder [] 0 [.fileWrite 7 [0x41]] (.fileSeek 7 1 0)
  refine ⟨new, grown, framed, underwent, spoken.mpr (by decide)⟩

end Irestore.Afc
