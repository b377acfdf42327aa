/-
# Service.SslRead — reading for the TLS session

`internal_ssl_read` is what GnuTLS calls for the next bytes of a connection.  It receives until
it has all of them, and adds up a total, a fill position and what is missing.

A program adds its receives to a history; what `usbmuxd_recv` gives is left open, by the history
and by what is asked.  The codes are those of the public header.

* `readLoop_outcome` — the loop behind some bytes, in whatever pieces the others arrive.
* `Given.part_of_stream` — what receives from a stream deliver is the next part of it.
* `sslRead_outcome` — the whole call.
-/
import Irestore.Library.Program

namespace Irestore.Service.SslRead

open Irestore.Library Irestore.Library.Program Irestore.Library.CMemory

set_option autoImplicit false

/-! ## The call -/

/-- The `idevice_error_t` codes: success is 0, the errors are negative. -/
structure IdeviceErrors where
  success : Int
  invalidArg : Int
  unknownError : Int
  zero : success = 0
  negative : invalidArg < 0 ∧ unknownError < 0

/-- A call of `internal_connection_receive`: how many bytes it asked for, what it returned, and
the bytes it stored. -/
structure Receive where
  asked : Nat
  res : Int
  bytes : List UInt8
  deriving DecidableEq

/-- `idevice_connection_t`, of a connection over usbmuxd or of another type. -/
structure IdeviceConnection where
  usbmuxd : Bool

/-- What `usbmuxd_recv` stores, by the calls before it; `none` when it returns an error. -/
abbrev UsbmuxdRecv := List Receive → Nat → Option (List UInt8)

section Calls

variable (codes : IdeviceErrors) (usbmuxdRecv : UsbmuxdRecv)

/-- What `internal_connection_receive` returns and stores. -/
def connectionReceive (connection : Option IdeviceConnection) (history : List Receive)
    (len : Nat) : Int × List UInt8 :=
  match connection with
  | none => (codes.invalidArg, [])
  | some connection =>
      if connection.usbmuxd then
        match usbmuxdRecv history len with
        | none => (codes.unknownError, [])
        | some bytes => (codes.success, bytes)
      else (codes.unknownError, [])

/-- `internal_connection_receive`. -/
def internalConnectionReceive (connection : Option IdeviceConnection) (len : Nat) :
    Program (List Receive) (Int × List UInt8) := do
  let history ← Program.get
  let (res, bytes) := connectionReceive codes usbmuxdRecv connection history len
  Program.modify fun history => history ++ [⟨len, res, bytes⟩]
  return (res, bytes)

/-- What a receive leaves in `recv_buffer`, a block of so many bytes. -/
def received (size : Nat) (bytes : List UInt8) : Checked (List UInt8) :=
  if bytes.length ≤ size then .ok bytes else .error .outOfBounds

/-- The loop of `internal_ssl_read`, for as many rounds as there is fuel; it gives the returned
value and the buffer. -/
def readLoop (connection : Option IdeviceConnection) (length size : Nat) :
    Nat → List UInt8 → Nat → Nat → Nat → Program (List Receive) (Int × List UInt8)
  | 0, _, _, _, _ => lift (.error .diverges)
  | fuel + 1, buffer, tbytes, posStartFill, thisLen => do
      let (res, bytes) ← internalConnectionReceive codes usbmuxdRecv connection thisLen
      if res ≠ codes.success then return (res, buffer)
      else do
        let recvBuffer ← lift (received size bytes)
        let buffer ← lift (store buffer posStartFill recvBuffer)
        let posStartFill ← lift (int (posStartFill + bytes.length))
        if length ≤ tbytes + bytes.length then return ((tbytes + bytes.length : Nat), buffer)
        else
          readLoop connection length size fuel buffer (tbytes + bytes.length) posStartFill
            (length - (tbytes + bytes.length))

/-- `internal_ssl_read`, into a buffer. -/
def internalSslRead (connection : Option IdeviceConnection) (fuel : Nat) (buffer : List UInt8)
    (length : Nat) : Program (List Receive) (Int × List UInt8) := do
  let thisLen ← lift (int length)
  readLoop codes usbmuxdRecv connection length thisLen fuel buffer 0 0 thisLen

end Calls

/-! ## Receives -/

/-- The bytes of some receives, one behind the other. -/
def delivered (receives : List Receive) : List UInt8 := receives.flatMap Receive.bytes

/-- A receive stores at least one byte and no more than it is asked for, or fails. -/
def Delivers (usbmuxdRecv : UsbmuxdRecv) : Prop :=
  ∀ history asked bytes, 0 < asked → usbmuxdRecv history asked = some bytes →
    0 < bytes.length ∧ bytes.length ≤ asked

/-- Behind the bytes it had, no receive asks for more than is missing. -/
def AsksWithin (length had : Nat) (receives : List Receive) : Prop :=
  ∀ before receive behind, receives = before ++ receive :: behind →
    had + (delivered before).length + receive.asked ≤ length

/-- The receive is what `usbmuxd_recv` gave behind the history. -/
structure Gives (codes : IdeviceErrors) (usbmuxdRecv : UsbmuxdRecv)
    (connection : Option IdeviceConnection) (history : List Receive) (receive : Receive) :
    Prop where
  bytes : receive.res = codes.success →
    usbmuxdRecv history receive.asked = some receive.bytes
  failed : receive.res ≠ codes.success → connection = some ⟨true⟩ →
    usbmuxdRecv history receive.asked = none

/-- So is each of some receives, behind the history and those before it. -/
def Given (codes : IdeviceErrors) (usbmuxdRecv : UsbmuxdRecv)
    (connection : Option IdeviceConnection) : List Receive → List Receive → Prop
  | _, [] => True
  | history, receive :: receives =>
      Gives codes usbmuxdRecv connection history receive ∧
        Given codes usbmuxdRecv connection (history ++ [receive]) receives

/-- `usbmuxd_recv` hands out a stream from where the calls before it left off. -/
def Serves (usbmuxdRecv : UsbmuxdRecv) (stream : List UInt8) : Prop :=
  ∀ history asked bytes, usbmuxdRecv history asked = some bytes →
    bytes <+: stream.drop (delivered history).length

/-- How a read ends: it returns the length with the buffer filled, or the code of the first
receive that failed. -/
inductive Outcome (codes : IdeviceErrors) (length : Nat) (had : List UInt8)
    (receives : List Receive) : Int → List UInt8 → Prop
  | whole (succeeded : ∀ receive ∈ receives, receive.res = codes.success)
      (filled : (had ++ delivered receives).length = length) :
      Outcome codes length had receives length (had ++ delivered receives)
  | failed {before : List Receive} {last : Receive} {buffer : List UInt8}
      (first : receives = before ++ [last])
      (succeeded : ∀ receive ∈ before, receive.res = codes.success) (negative : last.res < 0)
      (kept : buffer.length = length) : Outcome codes length had receives last.res buffer

section Reading

variable {codes : IdeviceErrors} {usbmuxdRecv : UsbmuxdRecv}

/-- A receive succeeds with at least one byte, and no more than asked for, or gives a negative
code. -/
theorem connectionReceive_cases (delivers : Delivers usbmuxdRecv)
    (connection : Option IdeviceConnection) (history : List Receive) {len : Nat}
    (asked : 0 < len) :
    ∃ res bytes, connectionReceive codes usbmuxdRecv connection history len = (res, bytes) ∧
      Gives codes usbmuxdRecv connection history ⟨len, res, bytes⟩ ∧
      (res < 0 ∨ res = codes.success ∧ 0 < bytes.length ∧ bytes.length ≤ len) := by
  have invalid : codes.invalidArg ≠ codes.success := by
    have := codes.negative.1
    rw [codes.zero]
    omega
  have unknown : codes.unknownError ≠ codes.success := by
    have := codes.negative.2
    rw [codes.zero]
    omega
  cases connection with
  | none =>
    exact ⟨_, _, rfl, ⟨fun same => absurd same invalid, fun _ same => by cases same⟩,
      .inl codes.negative.1⟩
  | some connection =>
    rw [connectionReceive]
    split
    · cases given : usbmuxdRecv history len with
      | none =>
        exact ⟨_, _, rfl, ⟨fun same => absurd same unknown, fun _ _ => given⟩,
          .inl codes.negative.2⟩
      | some bytes =>
        exact ⟨_, _, rfl, ⟨fun _ => given, fun differ => absurd rfl differ⟩,
          .inr ⟨rfl, delivers history len bytes asked given⟩⟩
    · rename_i other
      refine ⟨_, _, rfl, ⟨fun same => absurd same unknown, fun _ same => ?_⟩,
        .inl codes.negative.2⟩
      cases same
      exact absurd rfl other

theorem run_receive (connection : Option IdeviceConnection) {history : List Receive} {len : Nat}
    {res : Int} {bytes : List UInt8}
    (given : connectionReceive codes usbmuxdRecv connection history len = (res, bytes)) :
    (internalConnectionReceive codes usbmuxdRecv connection len).run history =
      (.ok (res, bytes), history ++ [⟨len, res, bytes⟩]) := by
  rw [internalConnectionReceive, run_get_bind, given]
  rfl

omit codes usbmuxdRecv in
/-- One receive in front of others, of the bytes between. -/
theorem AsksWithin.cons {length had : Nat} {receive : Receive} {receives : List Receive}
    (asked : had + receive.asked ≤ length)
    (rest : AsksWithin length (had + receive.bytes.length) receives) :
    AsksWithin length had (receive :: receives) := by
  intro before other behind split
  cases before with
  | nil =>
    obtain ⟨rfl, -⟩ := List.cons.inj split
    exact asked
  | cons first before =>
    obtain ⟨rfl, later⟩ := List.cons.inj split
    have within := rest before other behind later
    rw [delivered, List.flatMap_cons, List.length_append, ← Nat.add_assoc]
    exact within

omit usbmuxdRecv in
theorem Outcome.cons {length : Nat} {had buffer : List UInt8} {receive : Receive}
    {receives : List Receive} {ret : Int} (succeeded : receive.res = codes.success)
    (rest : Outcome codes length (had ++ receive.bytes) receives ret buffer) :
    Outcome codes length had (receive :: receives) ret buffer := by
  have bytes : had ++ receive.bytes ++ delivered receives =
      had ++ delivered (receive :: receives) := by
    rw [delivered, delivered, List.flatMap_cons, List.append_assoc]
  cases rest with
  | whole succeeded' filled =>
    rw [bytes] at filled ⊢
    exact .whole (List.forall_mem_cons.mpr ⟨succeeded, succeeded'⟩) filled
  | @failed before last buffer first succeeded' negative kept =>
    exact @Outcome.failed codes length had _ (receive :: before) last buffer (by rw [first]; rfl)
      (List.forall_mem_cons.mpr ⟨succeeded, succeeded'⟩) negative kept

/-- **What successful receives from a stream deliver is the next part of it.** -/
theorem Given.part_of_stream {connection : Option IdeviceConnection} {stream : List UInt8}
    (serves : Serves usbmuxdRecv stream) : ∀ {receives history : List Receive},
      Given codes usbmuxdRecv connection history receives →
      (∀ receive ∈ receives, receive.res = codes.success) →
      delivered receives <+: stream.drop (delivered history).length
  | [], _, _, _ => List.nil_prefix
  | receive :: receives, history, given, succeeded => by
      obtain ⟨first, later⟩ := List.forall_mem_cons.mp succeeded
      have rest := Given.part_of_stream serves given.2 later
      obtain ⟨behind, split⟩ := serves _ _ _ (given.1.bytes first)
      have grown : (delivered (history ++ [receive])).length =
          (delivered history).length + receive.bytes.length := by
        simp [delivered]
      rw [grown, ← List.drop_drop, ← split, List.drop_left] at rest
      rw [← split, delivered, List.flatMap_cons]
      exact (List.prefix_append_right_inj _).mpr rest

/-- What is stored behind the bytes the buffer holds. -/
theorem store_behind {had rest bytes : List UInt8} (room : bytes.length ≤ rest.length) :
    store (had ++ rest) had.length bytes =
      .ok (had ++ bytes ++ rest.drop bytes.length) := by
  have fits : had.length + bytes.length ≤ (had ++ rest).length := by
    rw [List.length_append]
    omega
  rw [store, if_pos fits, List.take_left, ← List.drop_drop, List.drop_left]

/-- **The loop behind some bytes**: with as much fuel as bytes are missing it ends, in whatever
pieces they arrive. -/
theorem readLoop_outcome (delivers : Delivers usbmuxdRecv)
    (connection : Option IdeviceConnection) {length : Nat} (small : length < 2 ^ 31) :
    ∀ (fuel : Nat) (had rest : List UInt8) (history : List Receive),
      (had ++ rest).length = length → 0 < rest.length → rest.length ≤ fuel →
      ∃ ret buffer receives, (readLoop codes usbmuxdRecv connection length length fuel
          (had ++ rest) had.length had.length rest.length).run history =
            (.ok (ret, buffer), history ++ receives) ∧
        AsksWithin length had.length receives ∧
        Given codes usbmuxdRecv connection history receives ∧
        Outcome codes length had receives ret buffer
  | 0, had, rest, history, _, missing, fuel => absurd missing (by omega)
  | fuel + 1, had, rest, history, whole, missing, enough => by
      have sum := whole
      rw [List.length_append] at sum
      have nothing : ∀ more, AsksWithin length more [] := fun _ before _ _ split => by
        simp at split
      obtain ⟨res, bytes, given, gives, cases⟩ :=
        @connectionReceive_cases codes usbmuxdRecv delivers connection history _ missing
      have asked : had.length + rest.length ≤ length := Nat.le_of_eq sum
      rw [readLoop, run_bind (run_receive connection given)]
      dsimp only
      rcases cases with negative | ⟨rfl, some, few⟩
      · have failed : res ≠ codes.success := by
          rw [codes.zero]
          omega
        rw [if_pos failed]
        exact ⟨res, had ++ rest, _, rfl, .cons asked (nothing _), ⟨gives, trivial⟩,
          @Outcome.failed codes length had _ [] _ _ rfl nofun negative whole⟩
      have fits : received length bytes = .ok bytes := if_pos (by omega)
      have position : int (had.length + bytes.length) = .ok (had.length + bytes.length) :=
        if_pos (by omega)
      rw [if_neg (not_not_intro rfl), fits, run_lift_ok_bind, store_behind few, run_lift_ok_bind,
        position, run_lift_ok_bind]
      by_cases done : length ≤ had.length + bytes.length
      · have all : rest.drop bytes.length = [] := List.drop_eq_nil_of_le (by omega)
        rw [if_pos done, all, List.append_nil]
        have total : had.length + bytes.length = length := by omega
        have last : Outcome codes length (had ++ bytes) [] (length : Int) (had ++ bytes ++ []) :=
          .whole nofun (by simp [delivered, total])
        rw [List.append_nil] at last
        rw [total]
        exact ⟨length, had ++ bytes, [⟨rest.length, codes.success, bytes⟩], rfl,
          .cons asked (nothing _), ⟨gives, trivial⟩, .cons rfl last⟩
      · have more := readLoop_outcome delivers connection small fuel (had ++ bytes)
          (rest.drop bytes.length) (history ++ [⟨rest.length, codes.success, bytes⟩])
        simp only [List.length_append, List.length_drop] at more
        obtain ⟨ret, buffer, receives, ran, within, others, outcome⟩ :=
          more (by omega) (by omega) (by omega)
        have left : length - (had.length + bytes.length) = rest.length - bytes.length := by omega
        rw [if_neg done, left, ran, List.append_assoc, List.singleton_append]
        exact ⟨ret, buffer, _, rfl, .cons asked within, ⟨gives, others⟩, .cons rfl outcome⟩

/-- **A whole read**: it ends, whatever the receives deliver, without a store outside the
buffer; it asks for no more than is missing, and returns the length with the bytes in their
order, or the code of the first receive that failed.  The receives are what `usbmuxd_recv` gave,
so from a stream the buffer gets the next bytes of it. -/
theorem sslRead_outcome (codes : IdeviceErrors) (usbmuxdRecv : UsbmuxdRecv)
    (delivers : Delivers usbmuxdRecv) (connection : Option IdeviceConnection)
    (buffer : List UInt8) (positive : 0 < buffer.length) (small : buffer.length < 2 ^ 31)
    (fuel : Nat) (enough : buffer.length ≤ fuel) (history : List Receive) :
    ∃ ret buffer' receives,
      (internalSslRead codes usbmuxdRecv connection fuel buffer buffer.length).run history =
        (.ok (ret, buffer'), history ++ receives) ∧
      AsksWithin buffer.length 0 receives ∧
      Given codes usbmuxdRecv connection history receives ∧
      Outcome codes buffer.length [] receives ret buffer' ∧
      ∀ stream, Serves usbmuxdRecv stream → ret = buffer.length →
        buffer' = (stream.drop (delivered history).length).take buffer.length := by
  have thisLen : int buffer.length = .ok buffer.length := if_pos small
  rw [internalSslRead, thisLen, run_lift_ok_bind]
  obtain ⟨ret, buffer', receives, ran, within, given, outcome⟩ :=
    readLoop_outcome delivers connection small fuel [] buffer history rfl positive enough
  refine ⟨ret, buffer', receives, ran, within, given, outcome, fun stream serves returned => ?_⟩
  cases outcome with
  | whole succeeded filled =>
    have start := given.part_of_stream serves succeeded
    rw [List.nil_append] at filled
    rw [List.nil_append, ← filled]
    exact List.prefix_iff_eq_take.mp start
  | failed _ _ negative _ => omega

end Reading

/-- The codes as the header has them. -/
def headerCodes : IdeviceErrors := ⟨0, -1, -2, rfl, by decide⟩

/-- A device that hands out a stream one byte at a time. -/
def oneByOne (stream : List UInt8) : UsbmuxdRecv := fun history _ =>
  (stream.drop (delivered history).length).head?.map fun b => [b]

theorem oneByOne_delivers (stream : List UInt8) : Delivers (oneByOne stream) := by
  intro history asked bytes some' same
  obtain ⟨b, -, rfl⟩ := Option.map_eq_some_iff.mp same
  exact ⟨Nat.one_pos, some'⟩

theorem oneByOne_serves (stream : List UInt8) : Serves (oneByOne stream) stream := by
  intro history asked bytes same
  obtain ⟨b, head, rfl⟩ := Option.map_eq_some_iff.mp same
  obtain ⟨rest, split⟩ := List.head?_eq_some_iff.mp head
  exact ⟨rest, split.symm⟩

/-- Three bytes of four arrive in three receives. -/
theorem three_bytes_one_by_one :
    (internalSslRead headerCodes (oneByOne [7, 8, 9, 10]) (some ⟨true⟩) 3 [0, 0, 0] 3).run [] =
        (.ok (3, [7, 8, 9]), [⟨3, 0, [7]⟩, ⟨2, 0, [8]⟩, ⟨1, 0, [9]⟩]) ∧
      Given headerCodes (oneByOne [7, 8, 9, 10]) (some ⟨true⟩) []
        [⟨3, 0, [7]⟩, ⟨2, 0, [8]⟩, ⟨1, 0, [9]⟩] ∧
      [7, 8, 9] = ([7, 8, 9, 10] : List UInt8).take 3 := by
  obtain ⟨ret, buffer, receives, ran, -, given, -, inOrder⟩ :=
    sslRead_outcome headerCodes (oneByOne [7, 8, 9, 10]) (oneByOne_delivers _) (some ⟨true⟩)
      [0, 0, 0] (by decide) (by decide) 3 (by decide) []
  have all : (internalSslRead headerCodes (oneByOne [7, 8, 9, 10]) (some ⟨true⟩) 3 [0, 0, 0]
      3).run [] = (.ok (3, [7, 8, 9]), [⟨3, 0, [7]⟩, ⟨2, 0, [8]⟩, ⟨1, 0, [9]⟩]) := by rfl
  cases ran.symm.trans all
  exact ⟨all, given, inOrder _ (oneByOne_serves _) rfl⟩

end Irestore.Service.SslRead
