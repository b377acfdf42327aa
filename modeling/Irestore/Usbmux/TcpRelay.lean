/-
# Usbmux.TcpRelay — the loop of `tcprelay.py`

`SocketRelay.handle` passes bytes between two sockets through a buffer for each direction.
One iteration is one `select` with the sends and receives it permits; what the calls of an
iteration give is left open.  Each direction also records all that was received and sent.

* `iterate_balanced` — an iteration loses no byte, and keeps both buffers within `maxbuf`.
* `iterate_closed` — when a socket closes, what is left in its buffer; `delivered_iff_drained`.
* `handle_relays` — every byte of a socket that closes has been sent, in the runs where its
  buffer is empty or taken whole in its last iteration.
* `close_drops_pending` — a socket that closes with three bytes in its buffer.
-/
import Mathlib.Data.List.Basic
import Irestore.Library.Trace

namespace Irestore.Usbmux.TcpRelay

open Irestore.Library

set_option autoImplicit false

/-! ## The relay -/

/-- The two sockets of the relay. -/
inductive Peer where
  | a | b
  deriving DecidableEq, Repr

def Peer.other : Peer → Peer
  | .a => .b
  | .b => .a

/-- One direction: the buffer, with all that was received into it and sent from it. -/
structure Stream where
  buffer : List UInt8
  received : List UInt8
  sent : List UInt8
  deriving DecidableEq, Repr

/-- The loop is at the start of an iteration, or it has returned, or a call has raised. -/
inductive Outcome where
  | looping | exceptional | closed (peer : Peer) | raised
  deriving DecidableEq, Repr

structure SocketRelay where
  maxbuf : Nat
  atob : Stream
  btoa : Stream
  outcome : Outcome
  deriving DecidableEq, Repr

/-- What the calls of one iteration give: the three lists of `select`, and the result of
`send` and `recv` on either socket, which is `none` when the call raises. -/
structure Calls where
  rlo : List Peer
  wlo : List Peer
  xlo : List Peer
  sends : Peer → Option Nat
  recvs : Peer → Option (List UInt8)

namespace Stream

def empty : Stream := ⟨[], [], []⟩

/-- `n = send(buffer)` and `buffer = buffer[n:]`. -/
def send (stream : Stream) (n : Nat) : Stream :=
  { stream with buffer := stream.buffer.drop n, sent := stream.sent ++ stream.buffer.take n }

/-- `buffer += s`. -/
def recv (stream : Stream) (s : List UInt8) : Stream :=
  { stream with buffer := stream.buffer ++ s, received := stream.received ++ s }

/-- What was sent, and then what is in the buffer, is what was received. -/
def Whole (stream : Stream) : Prop :=
  stream.sent ++ stream.buffer = stream.received

theorem Whole.send {stream : Stream} (whole : stream.Whole) (n : Nat) : (stream.send n).Whole := by
  change stream.sent ++ stream.buffer.take n ++ stream.buffer.drop n = stream.received
  rw [List.append_assoc, List.take_append_drop]
  exact whole

theorem Whole.recv {stream : Stream} (whole : stream.Whole) (s : List UInt8) :
    (stream.recv s).Whole := by
  change stream.sent ++ (stream.buffer ++ s) = stream.received ++ s
  rw [← List.append_assoc, whole]

theorem Whole.sent_eq_iff {stream : Stream} (whole : stream.Whole) :
    stream.sent = stream.received ↔ stream.buffer = [] := by
  rw [← whole, List.self_eq_append_right]

end Stream

namespace SocketRelay

/-- `SocketRelay(a, b, maxbuf)`. -/
def start (maxbuf : Nat) : SocketRelay := ⟨maxbuf, .empty, .empty, .looping⟩

/-- The direction that is received from a socket. -/
def stream (relay : SocketRelay) : Peer → Stream
  | .a => relay.atob
  | .b => relay.btoa

def setStream (relay : SocketRelay) (peer : Peer) (stream : Stream) : SocketRelay :=
  match peer with
  | .a => { relay with atob := stream }
  | .b => { relay with btoa := stream }

def rlist (relay : SocketRelay) : List Peer :=
  (if relay.atob.buffer.length < relay.maxbuf then [.a] else []) ++
    (if relay.btoa.buffer.length < relay.maxbuf then [.b] else [])

def wlist (relay : SocketRelay) : List Peer :=
  (if relay.atob.buffer ≠ [] then [.b] else []) ++ (if relay.btoa.buffer ≠ [] then [.a] else [])

/-- `if peer in wlo`: what waits for a socket is sent to it. -/
def sendTo (relay : SocketRelay) (peer : Peer) (calls : Calls)
    (next : SocketRelay → Option SocketRelay) : Option SocketRelay :=
  if peer ∈ calls.wlo then
    match calls.sends peer with
    | some n =>
        if n ≤ (relay.stream peer.other).buffer.length then
          next (relay.setStream peer.other ((relay.stream peer.other).send n))
        else none
    | none => some { relay with outcome := .raised }
  else next relay

/-- `if peer in rlo`: as much as its buffer has room for is received from a socket. -/
def recvFrom (relay : SocketRelay) (peer : Peer) (calls : Calls)
    (next : SocketRelay → Option SocketRelay) : Option SocketRelay :=
  if peer ∈ calls.rlo then
    match calls.recvs peer with
    | some s =>
        if s.length ≤ relay.maxbuf - (relay.stream peer).buffer.length then
          -- `if not s: return`, whatever the two buffers still hold
          if s = [] then some { relay with outcome := .closed peer }
          else next (relay.setStream peer ((relay.stream peer).recv s))
        else none
    | none => some { relay with outcome := .raised }
  else next relay

/-- One iteration of `handle`; `none` for what the calls cannot give. -/
def iterate (relay : SocketRelay) (calls : Calls) : Option SocketRelay :=
  if relay.outcome = .looping ∧ calls.rlo ⊆ relay.rlist ∧ calls.wlo ⊆ relay.wlist then
    if calls.xlo ≠ [] then some { relay with outcome := .exceptional }
    else
      relay.sendTo .a calls fun relay =>
        relay.sendTo .b calls fun relay =>
          relay.recvFrom .a calls fun relay => relay.recvFrom .b calls some
  else none

/-! ## The streams of a relay -/

@[simp] theorem setStream_maxbuf (relay : SocketRelay) (peer : Peer) (stream : Stream) :
    (relay.setStream peer stream).maxbuf = relay.maxbuf := by
  cases peer <;> rfl

@[simp] theorem setStream_outcome (relay : SocketRelay) (peer : Peer) (stream : Stream) :
    (relay.setStream peer stream).outcome = relay.outcome := by
  cases peer <;> rfl

@[simp] theorem stream_setStream (relay : SocketRelay) (peer other : Peer) (stream : Stream) :
    (relay.setStream peer stream).stream other =
      if other = peer then stream else relay.stream other := by
  cases peer <;> cases other <;> rfl

@[simp] theorem stream_outcome (relay : SocketRelay) (outcome : Outcome) (peer : Peer) :
    ({ relay with outcome } : SocketRelay).stream peer = relay.stream peer := by
  cases peer <;> rfl

/-! ## What an iteration keeps -/

/-- No byte is lost in either direction, and no buffer is longer than `maxbuf`. -/
def Balanced (relay : SocketRelay) : Prop :=
  ∀ peer, (relay.stream peer).Whole ∧ (relay.stream peer).buffer.length ≤ relay.maxbuf

theorem start_balanced (maxbuf : Nat) : (start maxbuf).Balanced := by
  rintro (_ | _) <;> exact ⟨rfl, Nat.zero_le maxbuf⟩

theorem Balanced.outcome {relay : SocketRelay} (balanced : relay.Balanced) (outcome : Outcome) :
    ({ relay with outcome } : SocketRelay).Balanced := by
  intro peer
  rw [stream_outcome]
  exact balanced peer

theorem Balanced.setStream {relay : SocketRelay} {stream : Stream} (balanced : relay.Balanced)
    (peer : Peer) (whole : stream.Whole) (fits : stream.buffer.length ≤ relay.maxbuf) :
    (relay.setStream peer stream).Balanced := by
  intro other
  rw [stream_setStream, setStream_maxbuf]
  split
  · exact ⟨whole, fits⟩
  · exact balanced other

variable {relay relay' : SocketRelay} {peer : Peer} {calls : Calls}
  {next : SocketRelay → Option SocketRelay}

theorem sendTo_balanced (balanced : relay.Balanced)
    (rest : ∀ relay₁ : SocketRelay, relay₁.Balanced → next relay₁ = some relay' → relay'.Balanced)
    (ran : relay.sendTo peer calls next = some relay') : relay'.Balanced := by
  rw [sendTo] at ran
  split at ran
  · cases sends : calls.sends peer with
    | none =>
      rw [sends] at ran
      cases ran
      exact balanced.outcome .raised
    | some n =>
      rw [sends] at ran
      obtain ⟨-, went⟩ := Option.ite_none_right_eq_some.mp ran
      have fits : ((relay.stream peer.other).buffer.drop n).length ≤ relay.maxbuf := by
        rw [List.length_drop]
        exact (Nat.sub_le _ n).trans (balanced peer.other).2
      exact rest _ (balanced.setStream peer.other ((balanced peer.other).1.send n) fits) went
  · exact rest relay balanced ran

theorem recvFrom_balanced (balanced : relay.Balanced)
    (rest : ∀ relay₁ : SocketRelay, relay₁.Balanced → next relay₁ = some relay' → relay'.Balanced)
    (ran : relay.recvFrom peer calls next = some relay') : relay'.Balanced := by
  rw [recvFrom] at ran
  split at ran
  · cases recvs : calls.recvs peer with
    | none =>
      rw [recvs] at ran
      cases ran
      exact balanced.outcome .raised
    | some s =>
      rw [recvs] at ran
      obtain ⟨room, went⟩ := Option.ite_none_right_eq_some.mp ran
      split at went
      · cases went
        exact balanced.outcome (.closed peer)
      · have fits : ((relay.stream peer).buffer ++ s).length ≤ relay.maxbuf := by
          have before := (balanced peer).2
          rw [List.length_append]
          omega
        exact rest _ (balanced.setStream peer ((balanced peer).1.recv s) fits) went
  · exact rest relay balanced ran

/-- **An iteration keeps the balance**, whatever its calls give. -/
theorem iterate_balanced (balanced : relay.Balanced) (ran : relay.iterate calls = some relay') :
    relay'.Balanced := by
  obtain ⟨-, ran⟩ := Option.ite_none_right_eq_some.mp ran
  split at ran
  · cases ran
    exact balanced.outcome .exceptional
  · refine sendTo_balanced balanced (fun relay₁ balanced₁ ran₁ => ?_) ran
    refine sendTo_balanced balanced₁ (fun relay₂ balanced₂ ran₂ => ?_) ran₁
    refine recvFrom_balanced balanced₂ (fun relay₃ balanced₃ ran₃ => ?_) ran₂
    refine recvFrom_balanced balanced₃ (fun relay₄ balanced₄ ran₄ => ?_) ran₃
    cases ran₄
    exact balanced₄

/-! ## When a socket closes -/

/-- What the sends of an iteration leave over of what was received from a socket. -/
def left (relay : SocketRelay) (calls : Calls) (peer : Peer) : List UInt8 :=
  if peer.other ∈ calls.wlo then
    (relay.stream peer).buffer.drop ((calls.sends peer.other).getD 0)
  else (relay.stream peer).buffer

/-- A send takes no more than the buffer holds. -/
def Takes (relay : SocketRelay) (calls : Calls) (peer : Peer) : Prop :=
  ∀ n, peer.other ∈ calls.wlo → calls.sends peer.other = some n →
    n ≤ (relay.stream peer).buffer.length

theorem sendTo_goes (ran : relay.sendTo peer calls next = some relay') :
    relay'.outcome = .raised ∧ peer ∈ calls.wlo ∧ calls.sends peer = none ∨
      ¬ (peer ∈ calls.wlo ∧ calls.sends peer = none) ∧
        ∃ relay₁ : SocketRelay, next relay₁ = some relay' ∧ relay₁.outcome = relay.outcome ∧
        relay₁.stream peer = relay.stream peer ∧ relay.Takes calls peer.other ∧
          (relay₁.stream peer.other).buffer = relay.left calls peer.other := by
  have back : peer.other.other = peer := by cases peer <;> rfl
  have apart : peer ≠ peer.other := by cases peer <;> decide
  rw [sendTo] at ran
  split at ran
  · rename_i writable
    cases sends : calls.sends peer with
    | none =>
      rw [sends] at ran
      cases ran
      exact .inl ⟨rfl, writable, rfl⟩
    | some n =>
      rw [sends] at ran
      obtain ⟨inside, went⟩ := Option.ite_none_right_eq_some.mp ran
      refine .inr ⟨nofun, _, went, setStream_outcome .., ?_, ?_, ?_⟩
      · rw [stream_setStream, if_neg apart]
      · intro m _ sends'
        rw [back, sends] at sends'
        cases sends'
        exact inside
      · rw [stream_setStream, if_pos rfl, left, back, if_pos writable, sends]
        rfl
  · rename_i kept
    refine .inr ⟨fun raises => kept raises.1, relay, ran, rfl, rfl, ?_, ?_⟩
    · intro m writable
      rw [back] at writable
      exact absurd writable kept
    · rw [left, back, if_neg kept]

theorem recvFrom_goes (ran : relay.recvFrom peer calls next = some relay') :
    relay'.outcome = .raised ∧ peer ∈ calls.rlo ∧ calls.recvs peer = none ∨
      peer ∈ calls.rlo ∧ calls.recvs peer = some [] ∧
        relay' = { relay with outcome := .closed peer } ∨
      ¬ (peer ∈ calls.rlo ∧ (calls.recvs peer = some [] ∨ calls.recvs peer = none)) ∧
        ∃ relay₁ : SocketRelay, next relay₁ = some relay' ∧ relay₁.outcome = relay.outcome ∧
          relay₁.stream peer.other = relay.stream peer.other := by
  have apart : peer.other ≠ peer := by cases peer <;> decide
  rw [recvFrom] at ran
  split at ran
  · rename_i readable
    cases recvs : calls.recvs peer with
    | none =>
      rw [recvs] at ran
      cases ran
      exact .inl ⟨rfl, readable, rfl⟩
    | some s =>
      rw [recvs] at ran
      obtain ⟨-, went⟩ := Option.ite_none_right_eq_some.mp ran
      split at went
      · rename_i nothing
        cases went
        exact .inr (.inl ⟨readable, by rw [nothing], rfl⟩)
      · rename_i something
        refine .inr (.inr ⟨by simp [something], _, went, setStream_outcome .., ?_⟩)
        rw [stream_setStream, if_neg apart]
  · rename_i kept
    exact .inr (.inr ⟨fun readable => kept readable.1, relay, ran, rfl, rfl⟩)

/-- The socket whose `recv` gives nothing in an iteration, where the iteration gets to it. -/
def closing (calls : Calls) : Option Peer :=
  if calls.xlo ≠ [] ∨ ∃ peer, peer ∈ calls.wlo ∧ calls.sends peer = none then none
  else if .a ∈ calls.rlo ∧ calls.recvs .a = some [] then some .a
  else if .a ∈ calls.rlo ∧ calls.recvs .a = none then none
  else if .b ∈ calls.rlo ∧ calls.recvs .b = some [] then some .b
  else none

/-- **When a socket closes**, its buffer holds what the sends of that iteration left over. -/
theorem iterate_closed (ran : relay.iterate calls = some relay') :
    closing calls = none ∧ (∀ peer, relay'.outcome ≠ .closed peer) ∨
      ∃ peer, closing calls = some peer ∧ relay'.outcome = .closed peer ∧
        relay.Takes calls peer ∧ (relay'.stream peer).buffer = relay.left calls peer := by
  obtain ⟨⟨looping, -⟩, ran⟩ := Option.ite_none_right_eq_some.mp ran
  split at ran
  · rename_i exceptional
    cases ran
    exact .inl ⟨if_pos (.inl exceptional), nofun⟩
  rename_i ordinary
  obtain ⟨raised, raises⟩ | ⟨accepts, relay₁, ran, same₁, kept₁, takes₁, left₁⟩ := sendTo_goes ran
  · exact .inl ⟨if_pos (.inr ⟨_, raises⟩), by rw [raised]; nofun⟩
  obtain ⟨raised, raises⟩ | ⟨accepts', relay₂, ran, same₂, kept₂, takes₂, left₂⟩ := sendTo_goes ran
  · exact .inl ⟨if_pos (.inr ⟨_, raises⟩), by rw [raised]; nofun⟩
  have through : ¬ (calls.xlo ≠ [] ∨ ∃ peer, peer ∈ calls.wlo ∧ calls.sends peer = none) := by
    rintro (exceptional | ⟨_ | _, raises⟩)
    · exact ordinary exceptional
    · exact accepts raises
    · exact accepts' raises
  rw [closing, if_neg through]
  -- `a` is received from first, and closes the loop before `b` has its turn
  obtain ⟨raised, raises⟩ | ⟨readable, nothing, rfl⟩ | ⟨goesOn, relay₃, ran, same₃, kept₃⟩ :=
    recvFrom_goes ran
  · refine .inl ⟨?_, by rw [raised]; nofun⟩
    rw [if_neg (by rw [raises.2]; nofun), if_pos raises]
  · have same : relay₁.stream .a = relay.stream .a := kept₁
    refine .inr ⟨.a, if_pos ⟨readable, nothing⟩, rfl, ?_, ?_⟩
    · rw [Takes, ← same]
      exact takes₂
    · rw [stream_outcome, left, ← same]
      exact left₂
  rw [if_neg fun ⟨readable, h⟩ => goesOn ⟨readable, .inl h⟩,
    if_neg fun ⟨readable, h⟩ => goesOn ⟨readable, .inr h⟩]
  obtain ⟨raised, raises⟩ | ⟨readable, nothing, rfl⟩ | ⟨goesOn', relay₄, ran, same₄, -⟩ :=
    recvFrom_goes ran
  · exact .inl ⟨if_neg (by rw [raises.2]; nofun), by rw [raised]; nofun⟩
  · refine .inr ⟨.b, if_pos ⟨readable, nothing⟩, rfl, takes₁, ?_⟩
    rw [stream_outcome]
    calc (relay₃.stream .b).buffer = (relay₂.stream .b).buffer := congrArg Stream.buffer kept₃
      _ = (relay₁.stream .b).buffer := congrArg Stream.buffer kept₂
      _ = relay.left calls .b := left₁
  · obtain rfl : relay₄ = relay' := Option.some.inj ran
    have still : relay₄.outcome = .looping :=
      same₄.trans (same₃.trans (same₂.trans (same₁.trans looping)))
    exact .inl ⟨if_neg fun ⟨readable, h⟩ => goesOn' ⟨readable, .inl h⟩, by rw [still]; nofun⟩

/-- A socket closes only when the sends of that iteration leave nothing of it: its buffer is
empty, or the other socket takes all of it. -/
def Drained (relay : SocketRelay) (calls : Calls) : Prop :=
  ∀ peer, closing calls = some peer → (relay.stream peer).buffer = [] ∨
    peer.other ∈ calls.wlo ∧ calls.sends peer.other = some (relay.stream peer).buffer.length

theorem drained_iff (closes : closing calls = some peer) (takes : relay.Takes calls peer) :
    relay.Drained calls ↔ relay.left calls peer = [] := by
  rw [left]
  constructor
  · intro drained
    rcases drained peer closes with empty | ⟨writable, whole⟩
    · rw [empty, List.drop_nil, ite_self]
    · rw [if_pos writable, whole, Option.getD_some, List.drop_length]
  · intro nothing peer' closes'
    obtain rfl : peer = peer' := Option.some.inj (closes.symm.trans closes')
    split at nothing
    · rename_i writable
      cases sends : calls.sends peer.other with
      | none =>
        rw [sends] at nothing
        exact .inl nothing
      | some n =>
        rw [sends] at nothing
        have all : (relay.stream peer).buffer.length ≤ n := List.drop_eq_nil_iff.mp nothing
        exact .inr ⟨writable, congrArg some ((takes n writable sends).antisymm all)⟩
    · exact .inl nothing

/-- When a socket has closed, all that was received from it has been sent. -/
def Delivered (relay : SocketRelay) : Prop :=
  ∀ peer, relay.outcome = .closed peer → (relay.stream peer).sent = (relay.stream peer).received

/-- What an iteration has delivered when it returns depends on nothing else. -/
theorem delivered_iff_drained (balanced : relay.Balanced)
    (ran : relay.iterate calls = some relay') : relay'.Delivered ↔ relay.Drained calls := by
  have balanced' := iterate_balanced balanced ran
  obtain ⟨open', stays⟩ | ⟨peer, closes, closed, takes, left⟩ := iterate_closed ran
  · refine ⟨fun _ peer closes => ?_, fun _ peer closed => absurd closed (stays peer)⟩
    rw [open'] at closes
    cases closes
  · rw [drained_iff closes takes, ← left, ← (balanced' peer).1.sent_eq_iff]
    constructor
    · intro delivered
      exact delivered peer closed
    · intro all peer' closed'
      obtain rfl : peer = peer' := Outcome.closed.inj (closed.symm.trans closed')
      exact all

/-- **The relay**: in every run it loses no byte and keeps its buffers within `maxbuf`; and when
no socket closes while a part of its buffer is left over, the loop ends with all of it sent. -/
theorem handle_relays (maxbuf : Nat) {relay : SocketRelay}
    (reached : Reached Drained iterate (start maxbuf) relay) :
    relay.Balanced ∧ relay.Delivered := by
  refine @Reached.keeps _ _ _ _ _ (fun relay : SocketRelay => relay.Balanced ∧ relay.Delivered)
    (fun ⟨balanced, _⟩ drained ran => ?_) ⟨start_balanced maxbuf, nofun⟩ _ reached
  exact ⟨iterate_balanced balanced ran, (delivered_iff_drained balanced ran).mpr drained⟩

/-! ## Recorded runs -/

/-- An iteration in which `a` can be read. -/
def reading (s : List UInt8) : Calls := ⟨[.a], [], [], fun _ => none, fun _ => some s⟩

/-- An iteration in which `b` takes two bytes, and `a` can be read. -/
def passing (s : List UInt8) : Calls := ⟨[.a], [.b], [], fun _ => some 2, fun _ => some s⟩

instance (relay : SocketRelay) (calls : Calls) : Decidable (relay.Drained calls) :=
  match h : closing calls with
  | none => .isTrue fun _ closes => nomatch h.symm.trans closes
  | some peer =>
      decidable_of_iff ((relay.stream peer).buffer = [] ∨ peer.other ∈ calls.wlo ∧
          calls.sends peer.other = some (relay.stream peer).buffer.length)
        ⟨fun met _ closes => Option.some.inj (h.symm.trans closes) ▸ met,
          fun drained => drained peer h⟩

/-- The last two bytes leave in the iteration in which their socket closes. -/
theorem close_after_last_send : ∃ relay, Reached Drained iterate (start 65535) relay ∧
    relay.outcome = .closed .a ∧ relay.atob.sent = [1, 2] ∧ relay.Balanced ∧ relay.Delivered := by
  have reached := @Reached.run _ _ Drained iterate (start 65535) _
    [reading [1, 2], passing []] _ _ .start rfl
  exact ⟨_, reached, rfl, rfl, handle_relays 65535 reached⟩

/-- A socket sends three bytes and closes; the loop returns with one of them in its buffer. -/
theorem close_drops_pending : ∃ relay, Reached (fun _ _ => True) iterate (start 65535) relay ∧
    relay.outcome = .closed .a ∧ relay.atob.sent = [1, 2] ∧ relay.atob.buffer = [3] ∧
      ¬ relay.Delivered := by
  have reached := @Reached.run _ _ (fun _ _ => True) iterate (start 65535) _
    [reading [1, 2, 3], passing []] _ _ .start rfl
  exact ⟨_, reached, rfl, rfl, rfl, fun delivered => absurd (delivered .a rfl) (by decide)⟩

end SocketRelay

end Irestore.Usbmux.TcpRelay
