/-
# Afc.RubyService — the Ruby AFC client against the C one

`AFCService` builds each frame in one string: the magic, eight 32-bit words and
the data.  The C client sends a header of 64-bit fields and a payload.

* `perform_starts` — the first packet a C operation dispatches for a request.
* `frame_eq_iff` — the two encodings of a header and a payload agree exactly when
  the packet's length fits 32 bits and the payloads are equal.
* `ruby_frame_iff` — for every request, the Ruby frame is the C packet exactly when
  it fits and is no read of a handle but 1: the Ruby `read` names handle 1 always.
-/
import Irestore.Afc.Sessions

namespace Irestore.Afc

open Irestore.Library Irestore.Library.Program Irestore.Library.Bytes Irestore.Library.CMemory

set_option autoImplicit false

/-! ## The Ruby client -/

/-- `Array#pack("V*")`: each number's low 32 bits. -/
def pack (words : List Nat) : List UInt8 := words.flatMap (le 4)

/-- The frame of `send_frame`; without a header size it counts the data in. -/
def sendFrame (sequenceNumber type : Nat) (data : List UInt8) (headerSize : Option Nat) :
    List UInt8 :=
  AFC_MAGIC ++ pack [data.length + 40, 0, headerSize.getD (data.length + 40), 0,
    sequenceNumber + 1, 0, type, 0] ++ data

inductive RubyRequest where
  | ls (path : CText)
  | mkdir (path : CText)
  | stat (path : CText)
  | sysinfo
  | openFile (path : CText) (mode : UInt32)
  | read (handle fileSize : UInt32)
  | write (handle : UInt32) (data : List UInt8)
  | close (handle : UInt32)

namespace RubyRequest

/-- The data each method hands to `send_frame`. -/
def data : RubyRequest → List UInt8
  | .ls path | .mkdir path | .stat path => path.val ++ [0]
  | .sysinfo => []
  | .openFile path mode => pack [mode.toNat, 0] ++ path.val ++ [0]
  | .read _ fileSize => pack [1, 0, fileSize.toNat, 0]
  | .write handle data => pack [handle.toNat, 0] ++ data
  | .close handle => pack [handle.toNat, 0]

/-- The frame each method sends after `sequenceNumber` others. -/
def frame (sequenceNumber : Nat) : RubyRequest → List UInt8
  | request@(.ls _) => sendFrame sequenceNumber 3 request.data none
  | request@(.mkdir _) => sendFrame sequenceNumber 9 request.data none
  | request@(.stat _) => sendFrame sequenceNumber 0xA request.data none
  | request@(.sysinfo) => sendFrame sequenceNumber 0xB request.data none
  | request@(.openFile ..) => sendFrame sequenceNumber 0xD request.data none
  | request@(.read ..) => sendFrame sequenceNumber 0xF request.data none
  | request@(.write ..) => sendFrame sequenceNumber 0x10 request.data (some 48)
  | request@(.close _) => sendFrame sequenceNumber 0x14 request.data none

/-- The C call for the same request; a read may take up to `rounds + 1` rounds. -/
def request (rounds : Nat) : RubyRequest → Request
  | .ls path => .readDirectory (some path)
  | .mkdir path => .makeDirectory (some path)
  | .stat path => .getFileInfo (some path)
  | .sysinfo => .getDeviceInfo
  | .openFile path mode => .fileOpen (some path) mode
  | .read handle fileSize => .fileRead (rounds + 1) handle.toUInt64 fileSize
  | .write handle data => .fileWrite handle.toUInt64 data
  | .close handle => .fileClose handle.toUInt64

/-- Handles from 1, reads of 1 to 65536 bytes, writes of 1 to 32768 bytes. -/
def InRange : RubyRequest → Prop
  | .read handle fileSize => handle ≠ 0 ∧ 0 < fileSize.toNat ∧ fileSize.toNat ≤ 65536
  | .write handle data => handle ≠ 0 ∧ 0 < data.length ∧ data.length ≤ 32768
  | .close handle => handle ≠ 0
  | _ => True

/-- The payload of the first C packet. -/
def payload : RubyRequest → List UInt8
  | .ls path | .mkdir path | .stat path => path.block
  | .sysinfo => []
  | .openFile path mode => word mode.toUInt64 ++ path.block
  | .read handle fileSize => word handle.toUInt64 ++ word (UInt64.ofNat fileSize.toNat)
  | .write handle data => word handle.toUInt64 ++ data
  | .close handle => word handle.toUInt64

end RubyRequest

/-! ## Two encodings of a packet -/

theorem le_add (v w n : Nat) : le (v + w) n = le v n ++ le w (n / 256 ^ v) := by
  induction v generalizing n with
  | zero => simp [le]
  | succ v ih =>
    rw [Nat.succ_add, le, ih, le, List.cons_append, Nat.div_div_eq_div_mul, Nat.pow_succ,
      Nat.mul_comm 256]

/-- A small number in 64 bits is the number and a zero, in 32 bits each. -/
theorem le_eight {n : Nat} (small : n < 2 ^ 32) : le 8 n = le 4 n ++ le 4 0 := by
  have high : n / 256 ^ 4 = 0 := Nat.div_eq_of_lt (by simpa using small)
  rw [show 8 = 4 + 4 by rfl, le_add, high]

theorem word_eq_pack {n : UInt32} : word n.toUInt64 = pack [n.toNat, 0] := by
  rw [word, UInt32.toNat_toUInt64, le_eight n.toNat_lt]
  simp [pack]

/-- A C packet of the given lengths. -/
def cFrame (n : Nat) (code : UInt64) (payload : List UInt8) : List UInt8 :=
  headerBytes n code payload ++ payload

/-- **The Ruby frame is the C packet exactly when the packet's length fits 32 bits
and the payload is the data.** -/
theorem frame_eq_iff {n : Nat} {code : UInt64} {data payload : List UInt8}
    {headerSize : Option Nat} (number : n + 1 < 2 ^ 32) (codeSmall : code.toNat < 2 ^ 32)
    (clipped : payload.length < 2 ^ 32)
    (same : payload = data → headerSize.getD (data.length + 40) = thisLengthOf code payload) :
    cFrame n code payload = sendFrame n code.toNat data headerSize ↔
      payload = data ∧ data.length + 40 < 2 ^ 32 := by
  constructor
  · intro equal
    have lengths := congrArg List.length equal
    simp only [cFrame, headerBytes, sendFrame, pack, List.length_append, List.length_flatMap,
      List.map_cons, List.map_nil, length_le, List.sum_cons, List.sum_nil] at lengths
    have width : payload.length = data.length := by omega
    refine ⟨List.append_inj_right' equal width, ?_⟩
    simp only [cFrame, headerBytes, sendFrame, List.append_assoc] at equal
    have body := List.append_cancel_left equal
    rw [pack, List.flatMap_cons, List.flatMap_cons, show 8 = 4 + 4 by rfl, le_add,
      List.append_assoc, List.append_assoc] at body
    have entire := (List.append_inj body (by simp)).2
    simp only [List.append_assoc] at entire
    -- the high half of the length is the Ruby frame's zero word
    have high := (List.append_inj entire (by simp)).1
    have zero := le_injective (by omega) (by omega) high
    omega
  · rintro ⟨rfl, small⟩
    rw [cFrame, headerBytes, sendFrame, same rfl]
    have this : thisLengthOf code payload < 2 ^ 32 := by
      rw [thisLengthOf]
      split <;> omega
    rw [le_eight number, le_eight this, le_eight codeSmall, le_eight (by omega),
      Nat.add_comm 40]
    simp [pack]

/-! ## The first C packet -/

section First

theorem toUInt64_ne_zero {handle : UInt32} (positive : handle ≠ 0) : handle.toUInt64 ≠ 0 := by
  intro zero
  apply positive
  apply UInt32.toNat_inj.mp
  rw [← UInt32.toNat_toUInt64, zero]
  rfl

variable {σ : Type} (env : Environment σ)

/-- The first packet sent since `old` is `frame`. -/
def Starts (old : List (Event σ)) (frame : List UInt8) (packet : AFCPacket)
    (events : List (Event σ)) : Prop :=
  packet.magic = AFC_MAGIC ∧ ∃ d more, events = old ++ .dispatch d :: more ∧
    d.sends.flatMap Send.bytes = frame

theorem Starts.invariant (old : List (Event σ)) (frame : List UInt8) (code : UInt64) :
    Invariant env code fun w => Starts old frame w.packet w.events where
  command _ _ _ starts := starts
  dispatch data length := by
    refine ensures_of_run fun w ⟨⟨magic, d, more, grown, sent⟩, ready⟩ => ?_
    obtain ⟨_, _, sends, packet, connection, ran, kept, -⟩ := ready.dispatched env magic
    refine ⟨_, _, ran, kept.trans magic, d, more ++ [.dispatch ⟨data.take length.toNat, sends⟩],
      ?_, sent⟩
    rw [grown, List.append_assoc, List.cons_append]
  receive := by
    refine afcReceiveData_keeps env fun packet events before after starts => ?_
    obtain ⟨magic, d, more, grown, sent⟩ := starts
    refine ⟨magic, d, more ++ [.receive before after], ?_, sent⟩
    rw [grown, List.append_assoc, List.cons_append]

variable {env} (accepts : ∀ s bytes, (env.send s bytes).1 = bytes.length)
variable {w : World σ} {n : Nat} (magic : w.packet.magic = AFC_MAGIC)
variable (counted : w.packet.packetNum = UInt64.ofNat n)

include accepts magic counted

/-- A dispatch from a header that is ready sends its frame whole. -/
theorem dispatch_starts {code : UInt64} {data : List UInt8} {length : UInt32}
    (ready : Ready code data length w.packet) (sendable : code = AFC_OP_WRITE → 8 ≤ length.toNat) :
    Ensures (· = w) (afcDispatchPacket env data length)
      (fun _ w' => Starts w.events (cFrame n code (data.take length.toNat)) w'.packet w'.events)
      (fun w' => Starts w.events (cFrame n code (data.take length.toNat)) w'.packet w'.events) := by
  refine ensures_of_run fun w' same => ?_
  subst same
  obtain ⟨_, _, sends, packet, connection, ran, kept, -, pieces, handed, unsent⟩ :=
    ready.dispatched env magic
  refine ⟨_, _, ran, kept.trans magic, ⟨data.take length.toNat, sends⟩, [], rfl, ?_⟩
  cases whole : sends with
  | nil =>
    obtain ⟨isWrite, short⟩ := unsent whole
    have := sendable isWrite
    omega
  | cons first rest =>
    have sent := (pieces n counted first rest whole).2 fun s member => by
      obtain ⟨c, accepted⟩ := handed.mem s member
      exact accepted.trans (accepts c s.bytes)
    rw [← whole]
    exact sent

theorem exchange_starts {code : UInt64} (ordinary : code ≠ AFC_OP_WRITE) (data : List UInt8)
    (sendError : AfcError) {frame : List UInt8}
    (framed : frame = cFrame n code (data.take (UInt32.ofNat data.length).toNat)) :
    Ensures (· = w) (exchange env code data sendError)
      (fun _ w' => Starts w.events frame w'.packet w'.events)
      (fun w' => Starts w.events frame w'.packet w'.events) := by
  subst framed
  have ready : Ready code data (UInt32.ofNat data.length)
      (w.setPacket (AFCPacket.command code 0 0)).packet := by
    refine .plain rfl ordinary rfl rfl ?_
    rw [UInt32.toNat_ofNat']
    exact Nat.mod_le _ _
  have starts := dispatch_starts (w := w.setPacket (AFCPacket.command code 0 0)) accepts magic
    counted ready fun isWrite => absurd isWrite ordinary
  refine ensures_step rfl (ensures_bind starts fun sent => ?_)
  exact keeps_ite (keeps_pure _) (Starts.invariant env _ _ code).receive

theorem dispatchWrite_starts {data : List UInt8} {chunk : UInt32} (handle : UInt64)
    (nonempty : chunk ≠ 0) (all : chunk.toNat = data.length) (small : data.length ≤ 32768) :
    Ensures (· = w) (dispatchWrite env handle data 0 chunk)
      (fun _ w' => Starts w.events (cFrame n AFC_OP_WRITE (word handle ++ data))
        w'.packet w'.events)
      (fun w' => Starts w.events (cFrame n AFC_OP_WRITE (word handle ++ data))
        w'.packet w'.events) := by
  have copied : memcpy (data.drop (0 : UInt32).toNat) chunk.toNat = .ok data := by
    rw [memcpy_eq_ok, all]
    simp
  have width : (word handle ++ data).length = 8 + chunk.toNat := by
    rw [List.length_append, word, length_le, all]
  have total : (chunk + 8).toNat = 8 + chunk.toNat := by
    have eight : (8 : UInt32).toNat = 8 := rfl
    rw [UInt32.toNat_add, eight]
    omega
  have ready : Ready AFC_OP_WRITE (word handle ++ data) (chunk + 8)
      (w.setPacket (AFCPacket.command AFC_OP_WRITE (48 + chunk.toUInt64) 48)).packet :=
    .write chunk rfl rfl rfl rfl nonempty width rfl
  have starts := dispatch_starts
    (w := w.setPacket (AFCPacket.command AFC_OP_WRITE (48 + chunk.toUInt64) 48)) accepts magic
    counted ready fun _ => by
      rw [total]
      exact Nat.le_add_right 8 _
  rw [total, ← width, List.take_length] at starts
  exact ensures_step rfl (ensures_step (congrArg (·, _) copied) starts)

/-- What the C client sends first, when its 32-bit length cuts nothing off. -/
def firstFrame (n : Nat) (request : RubyRequest) (rounds : Nat) : List UInt8 :=
  cFrame n (request.request rounds).code
    (request.payload.take (UInt32.ofNat request.payload.length).toNat)

omit accepts magic counted in
theorem take_all {payload : List UInt8} (small : payload.length < 2 ^ 32) :
    payload.take (UInt32.ofNat payload.length).toNat = payload := by
  rw [UInt32.toNat_ofNat', Nat.mod_eq_of_lt small, List.take_length]

theorem read_starts (rounds : Nat) {handle fileSize : UInt32}
    (inRange : (RubyRequest.read handle fileSize).InRange) :
    Ensures (· = w) (afcFileRead env (rounds + 1) handle.toUInt64 fileSize)
      (fun _ w' => Starts w.events (firstFrame n (.read handle fileSize) rounds)
        w'.packet w'.events)
      (fun w' => Starts w.events (firstFrame n (.read handle fileSize) rounds)
        w'.packet w'.events) := by
  obtain ⟨positive, some, bounded⟩ := inRange
  have opened := toUInt64_ne_zero positive
  have size : min (fileSize.toNat - ([] : List UInt8).length) (2 ^ 16) = fileSize.toNat := by
    simp only [List.length_nil]
    omega
  have invariant := Starts.invariant env w.events
    (firstFrame n (.read handle fileSize) rounds) AFC_OP_READ
  have ordinary : AFC_OP_READ ≠ AFC_OP_WRITE := by decide
  unfold afcFileRead withHandle readLoop
  rw [if_neg opened, if_pos (by simpa using some), size]
  refine ensures_bind (exchange_starts accepts magic counted ordinary _ _ rfl) fun reply => ?_
  obtain ⟨ret, input, bytes⟩ := reply
  dsimp only
  refine keeps_ite (keeps_pure _) (keeps_ite (keeps_pure _) ?_)
  cases input with
  | none => exact invariant.readLoop rfl _ _ _ _
  | some buffer =>
    exact keeps_bind (keeps_lift _) fun piece => keeps_ite (keeps_lift _)
      (invariant.readLoop rfl _ _ _ _)

theorem write_starts (rounds : Nat) {handle : UInt32} {data : List UInt8}
    (inRange : (RubyRequest.write handle data).InRange) :
    Ensures (· = w) (afcFileWrite env handle.toUInt64 data)
      (fun _ w' => Starts w.events (firstFrame n (.write handle data) rounds) w'.packet w'.events)
      (fun w' => Starts w.events (firstFrame n (.write handle data) rounds)
        w'.packet w'.events) := by
  obtain ⟨positive, some, bounded⟩ := inRange
  have opened := toUInt64_ne_zero positive
  have length : (UInt32.ofNat data.length).toNat = data.length := by
    rw [UInt32.toNat_ofNat']
    exact Nat.mod_eq_of_lt (by omega)
  have whole : firstFrame n (.write handle data) rounds =
      cFrame n AFC_OP_WRITE (word handle.toUInt64 ++ data) := by
    unfold firstFrame
    rw [take_all]
    · rfl
    · simp only [RubyRequest.payload, List.length_append, word, length_le]
      omega
  rw [whole]
  have invariant := Starts.invariant env w.events
    (cFrame n AFC_OP_WRITE (word handle.toUInt64 ++ data)) AFC_OP_WRITE
  have maximum : maximumWriteSize.toNat = 32768 := rfl
  unfold afcFileWrite withHandle
  rw [if_neg opened]
  by_cases full : data.length = 32768
  · have segments : (UInt32.ofNat data.length / maximumWriteSize).toNat = 0 + 1 := by
      rw [UInt32.toNat_div, length, full, maximum]
    have starts := dispatchWrite_starts accepts magic counted handle.toUInt64
      (show maximumWriteSize ≠ 0 by decide) (maximum.trans full.symm) bounded
    have looped : Ensures (· = w) (writeSegments env handle.toUInt64 data (0 + 1) 0)
        (fun _ w' => Starts w.events (cFrame n AFC_OP_WRITE (word handle.toUInt64 ++ data))
          w'.packet w'.events)
        (fun w' => Starts w.events (cFrame n AFC_OP_WRITE (word handle.toUInt64 ++ data))
          w'.packet w'.events) := by
      refine ensures_bind starts fun sent => keeps_ite (keeps_pure _) ?_
      exact keeps_bind invariant.receive fun reply => keeps_ite (keeps_pure _) (keeps_pure _)
    simp only [segments]
    refine ensures_bind looped fun result => ?_
    cases result with
    | error ret => exact keeps_pure _
    | ok currentCount => exact invariant.writeLast rfl _ _ _
  · have segments : (UInt32.ofNat data.length / maximumWriteSize).toNat = 0 := by
      rw [UInt32.toNat_div, length, maximum]
      exact Nat.div_eq_of_lt (by omega)
    have nonempty : UInt32.ofNat data.length ≠ 0 := by
      intro zero
      rw [zero] at length
      simp at length
      omega
    have starts := dispatchWrite_starts accepts magic counted handle.toUInt64 nonempty length
      bounded
    simp only [segments]
    refine ensures_step rfl ?_
    simp only [writeLast, Ne.symm nonempty, if_false, UInt32.sub_zero]
    exact ensures_bind starts fun sent =>
      keeps_ite (keeps_pure _) (keeps_bind invariant.receive fun _ => keeps_pure _)

/-- **The first packet the C client dispatches for a request.** -/
theorem perform_starts (rounds : Nat) {request : RubyRequest} (inRange : request.InRange) :
    Ensures (· = w) (perform env (request.request rounds))
      (fun _ w' => Starts w.events (firstFrame n request rounds) w'.packet w'.events)
      (fun w' => Starts w.events (firstFrame n request rounds) w'.packet w'.events) := by
  cases request with
  | ls path =>
    have ordinary : AFC_OP_READ_DIR ≠ AFC_OP_WRITE := by decide
    refine ensures_bind (ensures_bind (exchange_starts accepts magic counted ordinary _ _ rfl)
      fun _ => ?_) fun _ => keeps_pure _
    exact keeps_ite (keeps_pure _) (keeps_pure _)
  | mkdir path =>
    have ordinary : AFC_OP_MAKE_DIR ≠ AFC_OP_WRITE := by decide
    exact ensures_bind (ensures_step rfl (ensures_bind
      (exchange_starts accepts magic counted ordinary _ _ rfl) fun _ => keeps_pure _))
      fun _ => keeps_pure _
  | stat path =>
    have ordinary : AFC_OP_GET_FILE_INFO ≠ AFC_OP_WRITE := by decide
    exact ensures_bind (ensures_bind (exchange_starts accepts magic counted ordinary _ _ rfl)
      fun _ => keeps_pure _) fun _ => keeps_pure _
  | sysinfo =>
    have ordinary : AFC_OP_GET_DEVINFO ≠ AFC_OP_WRITE := by decide
    refine ensures_bind (ensures_bind (exchange_starts accepts magic counted ordinary _ _ rfl)
      fun _ => ?_) fun _ => keeps_pure _
    exact keeps_ite (keeps_pure _) (keeps_pure _)
  | openFile path mode =>
    have ordinary : AFC_OP_FILE_OPEN ≠ AFC_OP_WRITE := by decide
    refine ensures_bind (ensures_step rfl (ensures_bind
      (exchange_starts accepts magic counted ordinary _ _ rfl) fun reply => ?_))
      fun _ => keeps_pure _
    obtain ⟨ret, data, bytes⟩ := reply
    cases data with
    | none => exact keeps_pure _
    | some buffer =>
      exact keeps_ite (keeps_bind (keeps_lift _) fun _ => keeps_pure _) (keeps_pure _)
  | read handle fileSize =>
    exact ensures_bind (read_starts accepts magic counted rounds inRange) fun _ => keeps_pure _
  | write handle data =>
    exact ensures_bind (write_starts accepts magic counted rounds inRange) fun _ => keeps_pure _
  | close handle =>
    have ordinary : AFC_OP_FILE_CLOSE ≠ AFC_OP_WRITE := by decide
    have opened := toUInt64_ne_zero inRange
    refine ensures_bind ?_ fun _ => keeps_pure _
    unfold afcFileClose withHandle
    rw [if_neg opened]
    exact ensures_bind (exchange_starts accepts magic counted ordinary _ _ rfl)
      fun _ => keeps_pure _

end First

/-! ## The two clients -/

/-- The bytes of the first packet a history dispatches. -/
def firstPacket {σ : Type} : List (Event σ) → Option (List UInt8)
  | [] => none
  | .dispatch d :: _ => some (d.sends.flatMap Send.bytes)
  | .receive .. :: events => firstPacket events

/-- A read of handle 1, or no read at all. -/
def RubyRequest.FirstHandle : RubyRequest → Prop
  | .read handle _ => handle = 1
  | _ => True

theorem payload_eq_data {request : RubyRequest} (first : request.FirstHandle) :
    request.payload = request.data := by
  cases request with
  | ls path | mkdir path | stat path | sysinfo => rfl
  | openFile path mode =>
    simp only [RubyRequest.payload, RubyRequest.data, word_eq_pack, CText.block, List.append_assoc]
  | read handle fileSize =>
    have size : UInt64.ofNat fileSize.toNat = fileSize.toUInt64 := by
      apply UInt64.toNat_inj.mp
      have bound := fileSize.toNat_lt
      rw [UInt64.toNat_ofNat', UInt32.toNat_toUInt64]
      exact Nat.mod_eq_of_lt (by omega)
    subst first
    simp only [RubyRequest.payload, RubyRequest.data, size, word_eq_pack]
    rfl
  | write handle data => simp only [RubyRequest.payload, RubyRequest.data, word_eq_pack]
  | close handle => simp only [RubyRequest.payload, RubyRequest.data, word_eq_pack]

/-- A read of another handle says so in its first eight bytes. -/
theorem firstHandle_of_payload {request : RubyRequest} (same : request.payload = request.data) :
    request.FirstHandle := by
  cases request with
  | read handle fileSize =>
    have head := congrArg (List.take 4) same
    have four : ∀ (n : Nat) (rest : List UInt8), (le 4 n ++ rest).take 4 = le 4 n := fun n rest =>
      List.take_left' (length_le 4 n)
    simp only [RubyRequest.payload, RubyRequest.data, word_eq_pack, pack, List.flatMap_cons,
      List.append_assoc, four] at head
    have bound := handle.toNat_lt
    have number := le_injective (by omega) (by omega) head
    exact UInt32.toNat_inj.mp number
  | ls path | mkdir path | stat path | sysinfo | openFile path mode | write handle data
  | close handle => trivial

theorem ruby_frame_eq (n rounds : Nat) (request : RubyRequest) :
    ∃ headerSize, request.frame n =
        sendFrame n (request.request rounds).code.toNat request.data headerSize ∧
      (request.request rounds).code.toNat < 2 ^ 32 ∧
      ∀ payload, request.InRange → payload = request.data →
        headerSize.getD (request.data.length + 40) =
          thisLengthOf (request.request rounds).code payload := by
  have whole : ∀ {code : UInt64} {data payload : List UInt8}, code ≠ AFC_OP_WRITE →
      payload = data → data.length + 40 = thisLengthOf code payload := by
    rintro code data payload ordinary rfl
    simp only [thisLengthOf, ordinary, false_and, if_false]
    exact Nat.add_comm _ 40
  cases request with
  | ls path | mkdir path | stat path | sysinfo | openFile path mode | read handle fileSize
  | close handle =>
    refine ⟨none, rfl, ?_, fun payload _ same => whole ?_ same⟩
    all_goals
      simp only [RubyRequest.request, Request.code]
      decide
  | write handle data =>
    refine ⟨some 48, rfl, by simp only [RubyRequest.request, Request.code]; decide,
      fun payload inRange same => ?_⟩
    have long : 8 < payload.length := by
      have := inRange.2.1
      rw [same]
      simp only [RubyRequest.data, pack, List.length_append, List.length_flatMap, List.map_cons,
        List.map_nil, length_le, List.sum_cons, List.sum_nil]
      omega
    have isWrite : (RubyRequest.request rounds (.write handle data)).code = AFC_OP_WRITE := rfl
    simp only [thisLengthOf, isWrite, long, and_self, if_true, Option.getD_some]

/-- **The Ruby frame is the packet the C client dispatches exactly when the packet's
length fits 32 bits and the request is no read of a handle but 1.** -/
theorem ruby_frame_iff {σ : Type} {env : Environment σ}
    (accepts : ∀ s bytes, (env.send s bytes).1 = bytes.length) {w : World σ} {n : Nat}
    (magic : w.packet.magic = AFC_MAGIC) (counted : w.packet.packetNum = UInt64.ofNat n)
    (number : n + 1 < 2 ^ 32) (rounds : Nat) {request : RubyRequest} (inRange : request.InRange) :
    firstPacket (((perform env (request.request rounds)).state w).events.drop w.events.length) =
        some (request.frame n) ↔
      request.FirstHandle ∧ request.data.length + 40 < 2 ^ 32 := by
  obtain ⟨-, d, more, grown, sent⟩ :=
    (perform_starts accepts magic counted rounds inRange).state rfl
  obtain ⟨headerSize, framed, codeSmall, this⟩ := ruby_frame_eq n rounds request
  rw [grown, List.drop_left, firstPacket, sent, framed, Option.some_inj, firstFrame]
  rw [frame_eq_iff number codeSmall ?_ (this _ inRange)]
  · refine and_congr_left fun small => ?_
    constructor
    · intro same
      cases request with
      | read handle fileSize =>
        rw [take_all (by simp [RubyRequest.payload, word])] at same
        exact firstHandle_of_payload same
      | ls path | mkdir path | stat path | sysinfo | openFile path mode | write handle data
      | close handle => trivial
    · intro first
      rw [← payload_eq_data first] at small ⊢
      exact take_all (by omega)
  · refine Nat.lt_of_le_of_lt (List.length_take_le _ _) ?_
    exact UInt32.toNat_lt _

/-- A connection that accepts every byte and delivers none. -/
def acceptingEnvironment : Environment Unit where
  send s bytes := (bytes.length, s)
  send_le _ _ := Nat.le_refl _
  receive s _ := ([], s)
  receive_le _ _ := Nat.zero_le _
  statusError code := code.toNat
  heap _ := 0

/-- Closing a file is sent alike by both. -/
theorem close_frame_same :
    firstPacket (((perform acceptingEnvironment (RubyRequest.request 0 (.close 5))).state
        (afcClientNewFromConnection () 0)).events.drop 0) =
      some (RubyRequest.frame 0 (.close 5)) := by
  have inRange : RubyRequest.InRange (.close 5) := show (5 : UInt32) ≠ 0 by decide
  exact (ruby_frame_iff (w := afcClientNewFromConnection () 0) (n := 0) (fun _ _ => rfl) rfl rfl
    (by decide) 0 inRange).mpr ⟨trivial, by decide⟩

/-- A read of handle 2: the Ruby client asks for handle 1. -/
theorem read_frame_differs :
    firstPacket (((perform acceptingEnvironment (RubyRequest.request 0 (.read 2 16))).state
        (afcClientNewFromConnection () 0)).events.drop 0) ≠
      some (RubyRequest.frame 0 (.read 2 16)) := by
  decide

end Irestore.Afc
