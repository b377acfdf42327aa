/-
# Usbmux.Relay — the two threads of an iproxy connection

`run_stoc_loop` hands on what the device sends, `run_ctos_loop` what the client sends.  They
share the `client_data`: each ends the other through its stop flag and the descriptor of the
client.  A step is one access to what is shared, or the end of one call; which thread moves,
and what a call gives, is left open.

* `Loop.step_keeps` — what one step of a thread does to the bytes it has received and delivered.
* `delivered_sublist` — in every run, nothing is delivered twice or out of order.
* `delivered_prefix` — when nothing is left out either.
* `sent_to_peer` — a send that accepts something is one on the socket of the peer.
* `caught_iff` — the runs of `delivered_prefix`, by what their sends took.
* `short_send_leaves_gap` — a send that takes half of its buffer, and another one.
-/
import Mathlib.Data.List.Basic
import Irestore.Library.Trace

namespace Irestore.Usbmux

open Irestore.Library

set_option autoImplicit false

/-! ## The threads -/

/-- `client_data`. -/
structure ClientData where
  fd : Int
  sfd : Int
  stopCtos : Bool
  stopStoc : Bool
  deriving DecidableEq, Repr

/-- Where a thread is: before it is started, at one of the tests of its loop, before a call
or in it (with the descriptor it was called with), at the end, or waiting for the other. -/
inductive Place where
  | entry | create
  | testStop | testFd | testSfd
  | recv | receiving (fd : Int)
  | send (buffer : List UInt8) | sending (fd : Int) (buffer : List UInt8)
  | close | stopOther | join | done
  deriving DecidableEq, Repr

/-- A thread, with all the bytes it has received, and all that its sends have accepted. -/
structure Thread where
  place : Place
  received : List UInt8
  delivered : List UInt8
  deriving DecidableEq, Repr

/-- What a call gives; a step that ends no call has no answer. -/
inductive Answer where
  | none
  | data (bytes : List UInt8)
  | timeout
  | sent (n : Nat)
  | error
  deriving DecidableEq, Repr

/-- The size of `buffer`. -/
def bufferSize : Nat := 131072

/-- What differs between the two loops: the flag they test and the flag they set, the socket
they receive from and the one they send to, and what is behind the loop. -/
structure Loop where
  stop : ClientData → Bool
  stopOther : ClientData → ClientData
  source : ClientData → Int
  sink : ClientData → Int
  last : Place

/-- One step of the loop.  A call on the descriptor -1 is an error; one that has begun holds
its socket, also when the other thread closes the descriptor. -/
def Loop.step (loop : Loop) (cdata : ClientData) (thread : Thread) (answer : Answer) :
    Option (ClientData × Thread) :=
  match thread.place, answer with
  | .testStop, .none =>
      some (cdata, { thread with place := if loop.stop cdata then .close else .testFd })
  | .testFd, .none => some (cdata, { thread with place := if 0 < cdata.fd then .testSfd else .close })
  | .testSfd, .none => some (cdata, { thread with place := if 0 < cdata.sfd then .recv else .close })
  | .recv, .none => some (cdata, { thread with place := .receiving (loop.source cdata) })
  | .receiving fd, .data bytes =>
      if 0 ≤ fd ∧ 0 < bytes.length ∧ bytes.length ≤ bufferSize then
        some (cdata, { thread with place := .send bytes, received := thread.received ++ bytes })
      else none
  | .receiving fd, .timeout =>
      if 0 ≤ fd then some (cdata, { thread with place := .testStop }) else none
  | .receiving _, .error => some (cdata, { thread with place := .close })
  | .send buffer, .none => some (cdata, { thread with place := .sending (loop.sink cdata) buffer })
  | .sending fd buffer, .sent n =>
      if 0 ≤ fd ∧ n ≤ buffer.length then
        -- a short send is reported, and the loop goes on with the next receive
        let place := if n < buffer.length ∧ n = 0 then .close else .testStop
        some (cdata, { thread with place, delivered := thread.delivered ++ buffer.take n })
      else none
  | .sending _ _, .error => some (cdata, { thread with place := .close })
  | .close, .none => some ({ cdata with fd := -1 }, { thread with place := .stopOther })
  | .stopOther, .none => some (loop.stopOther cdata, { thread with place := loop.last })
  | _, _ => none

/-- `run_stoc_loop`. -/
def runStocLoop : Loop where
  stop := ClientData.stopStoc
  stopOther cdata := { cdata with stopCtos := true }
  source := ClientData.sfd
  sink := ClientData.fd
  last := .done

/-- `run_ctos_loop`, between the start of the other thread and the wait for it. -/
def runCtosLoop : Loop where
  stop := ClientData.stopCtos
  stopOther cdata := { cdata with stopStoc := true }
  source := ClientData.fd
  sink := ClientData.sfd
  last := .join

/-! ## The connection -/

inductive Side where
  | stoc | ctos
  deriving DecidableEq, Repr

structure Relay where
  cdata : ClientData
  stoc : Thread
  ctos : Thread
  deriving DecidableEq, Repr

namespace Relay

def thread (relay : Relay) : Side → Thread
  | .stoc => relay.stoc
  | .ctos => relay.ctos

/-- `run_ctos_loop` on a new connection. -/
def start (fd sfd : Int) (stopStoc : Bool) : Relay :=
  ⟨⟨fd, sfd, false, stopStoc⟩, ⟨.entry, [], []⟩, ⟨.entry, [], []⟩⟩

/-- One step of `run_stoc_loop`. -/
def stepStoc (relay : Relay) (answer : Answer) : Option Relay :=
  (runStocLoop.step relay.cdata relay.stoc answer).map fun (cdata, stoc) =>
    { relay with cdata, stoc }

/-- One step of `run_ctos_loop`, which starts the other thread and waits for it. -/
def stepCtos (relay : Relay) (answer : Answer) : Option Relay :=
  match relay.ctos.place, answer with
  | .entry, .none => some { relay with cdata.stopStoc := false, ctos.place := .create }
  | .create, .none => some { relay with stoc.place := .testStop, ctos.place := .testStop }
  | .join, .none =>
      if relay.stoc.place = .done then some { relay with ctos.place := .done } else none
  | _, _ =>
      (runCtosLoop.step relay.cdata relay.ctos answer).map fun (cdata, ctos) =>
        { relay with cdata, ctos }

def step (relay : Relay) : Side × Answer → Option Relay
  | (.stoc, answer) => relay.stepStoc answer
  | (.ctos, answer) => relay.stepCtos answer

end Relay

/-! ## What a step does to the bytes -/

namespace Thread

/-- What was received last and is to be sent. -/
def pending (thread : Thread) : List UInt8 :=
  match thread.place with
  | .send buffer | .sending _ buffer => buffer
  | _ => []

/-- No byte more is received or delivered; what is to be sent may be given up. -/
structure Stays (thread thread' : Thread) : Prop where
  received : thread'.received = thread.received
  delivered : thread'.delivered = thread.delivered
  pending : thread'.pending = thread.pending ∨ thread'.pending = []

/-- A receive or a send that does something. -/
inductive Moves (thread thread' : Thread) : Answer → Prop where
  | receives {bytes : List UInt8} (idle : thread.pending = [])
      (received : thread'.received = thread.received ++ bytes)
      (delivered : thread'.delivered = thread.delivered) (pending : thread'.pending = bytes) :
      Moves thread thread' (.data bytes)
  | sends {n : Nat} (inside : n ≤ thread.pending.length)
      (received : thread'.received = thread.received)
      (delivered : thread'.delivered = thread.delivered ++ thread.pending.take n)
      (sent : thread'.pending = []) : Moves thread thread' (.sent n)

theorem Stays.refl (thread : Thread) : thread.Stays thread := ⟨rfl, rfl, .inl rfl⟩

/-- The thread goes on to a place where nothing is to be sent. -/
theorem stays_idle {thread : Thread} {place : Place}
    (idle : ({ thread with place } : Thread).pending = []) : thread.Stays { thread with place } :=
  ⟨rfl, rfl, .inr idle⟩

theorem pending_ite {condition : Prop} [Decidable condition] {yes no : Place}
    {received delivered : List UInt8} (idle : (Thread.mk yes received delivered).pending = [])
    (idle' : (Thread.mk no received delivered).pending = []) :
    (Thread.mk (if condition then yes else no) received delivered).pending = [] := by
  split
  · exact idle
  · exact idle'

end Thread

open Thread

/-- What a step of a loop does to the bytes: nothing, or a receive, or a send. -/
theorem Loop.step_moves {loop : Loop} (last : ∀ received delivered,
      (Thread.mk loop.last received delivered).pending = [])
    {cdata cdata' : ClientData} {thread thread' : Thread} {answer : Answer}
    (stepped : loop.step cdata thread answer = some (cdata', thread')) :
    thread.Stays thread' ∨ thread.Moves thread' answer := by
  obtain ⟨place, received, delivered⟩ := thread
  cases place with
  | entry | create | join | done => cases stepped
  | testStop | testFd | testSfd =>
    cases answer <;> cases stepped
    exact .inl (stays_idle (pending_ite rfl rfl))
  | recv | close =>
    cases answer <;> cases stepped
    exact .inl (stays_idle rfl)
  | receiving fd =>
    cases answer with
    | none | sent => cases stepped
    | error =>
      cases stepped
      exact .inl (stays_idle rfl)
    | timeout =>
      obtain ⟨-, same⟩ := Option.ite_none_right_eq_some.mp stepped
      cases same
      exact .inl (stays_idle rfl)
    | data bytes =>
      obtain ⟨-, same⟩ := Option.ite_none_right_eq_some.mp stepped
      cases same
      exact .inr (.receives rfl rfl rfl rfl)
  | send buffer =>
    cases answer <;> cases stepped
    exact .inl ⟨rfl, rfl, .inl rfl⟩
  | sending fd buffer =>
    cases answer with
    | none | data | timeout => cases stepped
    | error =>
      cases stepped
      exact .inl (stays_idle rfl)
    | sent n =>
      obtain ⟨possible, same⟩ := Option.ite_none_right_eq_some.mp stepped
      cases same
      exact .inr (.sends possible.2 rfl rfl (pending_ite rfl rfl))
  | stopOther =>
    cases answer <;> cases stepped
    exact .inl (stays_idle (last _ _))

/-- The loop a thread runs. -/
def Side.loop : Side → Loop
  | .stoc => runStocLoop
  | .ctos => runCtosLoop

/-- The steps of `run_ctos_loop` around its loop: the flag is cleared, the other thread started,
and waited for. -/
inductive Relay.Arranged (relay : Relay) : Relay → Prop
  | flag (place : relay.ctos.place = .entry) :
      Arranged relay { relay with cdata.stopStoc := false, ctos.place := .create }
  | threads (place : relay.ctos.place = .create) :
      Arranged relay { relay with stoc.place := .testStop, ctos.place := .testStop }
  | joined (place : relay.ctos.place = .join) :
      Arranged relay { relay with ctos.place := .done }

/-- A step of the connection is one of a loop, which leaves the other thread alone, or one around
the loops. -/
theorem Relay.step_cases {relay relay' : Relay} {mover : Side} {answer : Answer}
    (stepped : relay.step (mover, answer) = some relay') :
    mover.loop.step relay.cdata (relay.thread mover) answer =
        some (relay'.cdata, relay'.thread mover) ∧
        (∀ side, side ≠ mover → relay'.thread side = relay.thread side) ∨
      answer = .none ∧ relay.Arranged relay' := by
  cases mover with
  | stoc =>
    obtain ⟨⟨cdata, stoc⟩, moved, same⟩ := Option.map_eq_some_iff.mp stepped
    cases same
    refine .inl ⟨moved, fun side other => ?_⟩
    cases side with
    | stoc => exact absurd rfl other
    | ctos => rfl
  | ctos =>
    change relay.stepCtos answer = some relay' at stepped
    unfold Relay.stepCtos at stepped
    split at stepped
    · cases stepped
      exact .inr ⟨rfl, .flag ‹_›⟩
    · cases stepped
      exact .inr ⟨rfl, .threads ‹_›⟩
    · obtain ⟨-, same⟩ := Option.ite_none_right_eq_some.mp stepped
      cases same
      exact .inr ⟨rfl, .joined ‹_›⟩
    · obtain ⟨⟨cdata, ctos⟩, moved, same⟩ := Option.map_eq_some_iff.mp stepped
      cases same
      refine .inl ⟨moved, fun side other => ?_⟩
      cases side with
      | stoc => rfl
      | ctos => exact absurd rfl other

/-- A step around the loops moves no bytes. -/
theorem Relay.Arranged.stays {relay relay' : Relay} (arranged : relay.Arranged relay')
    (side : Side) : (relay.thread side).Stays (relay'.thread side) := by
  cases arranged <;> cases side <;> first | exact stays_idle rfl | exact .refl _

/-- What a step of the connection does to the bytes of either thread. -/
theorem Relay.step_moves {relay relay' : Relay} {event : Side × Answer}
    (stepped : relay.step event = some relay') (side : Side) :
    (relay.thread side).Stays (relay'.thread side) ∨
      event.1 = side ∧ (relay.thread side).Moves (relay'.thread side) event.2 := by
  obtain ⟨mover, answer⟩ := event
  have last : ∀ received delivered, (Thread.mk mover.loop.last received delivered).pending = [] := by
    cases mover <;> exact fun _ _ => rfl
  rcases Relay.step_cases stepped with ⟨moved, others⟩ | ⟨-, arranged⟩
  · by_cases same : side = mover
    · subst same
      exact (Loop.step_moves last moved).imp_right fun moves => ⟨rfl, moves⟩
    · rw [others side same]
      exact .inl (.refl _)
  · exact .inl (arranged.stays side)

/-! ## Runs -/

/-- All that was received before what is to be sent is in this relation with what was
delivered. -/
def Thread.Carries (rel : List UInt8 → List UInt8 → Prop) (thread : Thread) : Prop :=
  ∃ front, thread.received = front ++ thread.pending ∧ rel thread.delivered front

/-- A step keeps a relation that bytes left out do not break, and that a send does not. -/
theorem Relay.step_carries {rel : List UInt8 → List UInt8 → Prop}
    (skips : ∀ {delivered front} more, rel delivered front → rel delivered (front ++ more))
    {relay relay' : Relay} {event : Side × Answer} {side : Side}
    (sends : ∀ {n front}, event = (side, .sent n) → n ≤ (relay.thread side).pending.length →
      (relay.thread side).received = front ++ (relay.thread side).pending →
        rel (relay.thread side).delivered front →
          rel ((relay.thread side).delivered ++ (relay.thread side).pending.take n)
            (front ++ (relay.thread side).pending))
    (carries : (relay.thread side).Carries rel) (stepped : relay.step event = some relay') :
    (relay'.thread side).Carries rel := by
  obtain ⟨front, split, holds⟩ := carries
  rcases Relay.step_moves stepped side with ⟨received, delivered, pending⟩ | ⟨mover, moves⟩
  · rcases pending with kept | dropped
    · exact ⟨front, by rw [received, kept, split], by rwa [delivered]⟩
    · refine ⟨front ++ (relay.thread side).pending, ?_, ?_⟩
      · rw [received, dropped, List.append_nil, split]
      · rw [delivered]
        exact skips _ holds
  · obtain ⟨mover', answer⟩ := event
    obtain rfl : mover' = side := mover
    cases moves with
    | receives idle received delivered pending =>
      rw [idle, List.append_nil] at split
      exact ⟨front, by rw [received, pending, split], by rwa [delivered]⟩
    | sends inside received delivered sent =>
      refine ⟨front ++ (relay.thread mover').pending, ?_, ?_⟩
      · rw [received, sent, List.append_nil, split]
      · rw [delivered]
        exact sends rfl inside split holds

theorem start_carries {rel : List UInt8 → List UInt8 → Prop} (empty : rel [] []) (fd sfd : Int)
    (stopStoc : Bool) (side : Side) : ((Relay.start fd sfd stopStoc).thread side).Carries rel := by
  cases side <;> exact ⟨[], rfl, empty⟩

/-- **In every run, what is delivered is what was received with parts left out**: nothing is
made up, delivered twice or out of order. -/
theorem delivered_sublist (fd sfd : Int) (stopStoc : Bool) {relay : Relay}
    (reached : Reached (fun _ _ => True) Relay.step (.start fd sfd stopStoc) relay) (side : Side) :
    ((relay.thread side).delivered).Sublist (relay.thread side).received := by
  have carries : (relay.thread side).Carries List.Sublist := by
    refine @Reached.keeps _ _ _ _ _ (fun relay => (relay.thread side).Carries List.Sublist)
      (fun carries _ stepped => ?_) (start_carries .slnil fd sfd stopStoc side) _
      reached
    refine Relay.step_carries (fun more sub => sub.trans (List.sublist_append_left _ more)) ?_
      carries stepped
    intro n front _ _ _ sub
    exact sub.append (List.take_sublist n _)
  obtain ⟨front, split, sub⟩ := carries
  rw [split]
  exact sub.trans (List.sublist_append_left _ _)

/-- What a send finds that accepts something: all that was received before its buffer has been
accepted. -/
def Caught (relay : Relay) : Side × Answer → Prop
  | (side, .sent n) => 0 < n →
      (relay.thread side).delivered.length + (relay.thread side).pending.length =
        (relay.thread side).received.length
  | _ => True

/-- **What is delivered is a prefix of what was received**, in every state of a run in which no
send accepts anything after one that took a part of its buffer only. -/
theorem delivered_prefix (fd sfd : Int) (stopStoc : Bool) {relay : Relay}
    (reached : Reached Caught Relay.step (.start fd sfd stopStoc) relay) (side : Side) :
    (relay.thread side).delivered <+: (relay.thread side).received := by
  have carries : (relay.thread side).Carries List.IsPrefix := by
    refine @Reached.keeps _ _ _ _ _ (fun relay => (relay.thread side).Carries List.IsPrefix)
      (fun carries caught stepped => ?_)
      (start_carries (List.prefix_refl _) fd sfd stopStoc side) _ reached
    refine Relay.step_carries (fun more isPrefix => isPrefix.trans (List.prefix_append _ more)) ?_
      carries stepped
    rintro n front rfl inside split isPrefix
    rcases Nat.eq_zero_or_pos n with rfl | accepts
    · rw [List.take_zero, List.append_nil]
      exact isPrefix.trans (List.prefix_append _ _)
    · have whole := caught accepts
      rw [split, List.length_append] at whole
      rw [isPrefix.eq_of_length (by omega)]
      exact (List.prefix_append_right_inj _).mpr (List.take_prefix _ _)
  obtain ⟨front, split, isPrefix⟩ := carries
  rw [split]
  exact isPrefix.trans (List.prefix_append _ _)

/-! ## Where a send goes -/

/-- The socket that what a thread has received is for. -/
def Side.peer (fd sfd : Int) : Side → Int
  | .stoc => fd
  | .ctos => sfd

/-- The descriptors are the sockets of the connection, but for the client's, which may be
closed. -/
structure Relay.Open (fd sfd : Int) (relay : Relay) : Prop where
  client : relay.cdata.fd = fd ∨ relay.cdata.fd = -1
  device : relay.cdata.sfd = sfd
  sending : ∀ {side sink buffer}, (relay.thread side).place = .sending sink buffer →
    sink = side.peer fd sfd ∨ sink = -1

/-- What a step of a loop does to the descriptors. -/
theorem Loop.step_descriptors {loop : Loop} (last : ∀ sink buffer, loop.last ≠ .sending sink buffer)
    (flags : ∀ cdata, (loop.stopOther cdata).fd = cdata.fd ∧ (loop.stopOther cdata).sfd = cdata.sfd)
    {cdata cdata' : ClientData} {thread thread' : Thread} {answer : Answer}
    (stepped : loop.step cdata thread answer = some (cdata', thread')) :
    (cdata'.fd = cdata.fd ∨ cdata'.fd = -1) ∧ cdata'.sfd = cdata.sfd ∧
      ∀ {sink buffer}, thread'.place = .sending sink buffer → sink = loop.sink cdata := by
  obtain ⟨place, received, delivered⟩ := thread
  cases place with
  | entry | create | join | done => cases stepped
  | testStop | testFd | testSfd =>
    cases answer <;> cases stepped
    refine ⟨.inl rfl, rfl, fun sends => ?_⟩
    dsimp only at sends
    split at sends <;> cases sends
  | recv =>
    cases answer <;> cases stepped
    exact ⟨.inl rfl, rfl, nofun⟩
  | send buffer =>
    cases answer <;> cases stepped
    refine ⟨.inl rfl, rfl, fun sends => ?_⟩
    cases sends
    rfl
  | close =>
    cases answer <;> cases stepped
    exact ⟨.inr rfl, rfl, nofun⟩
  | stopOther =>
    cases answer <;> cases stepped
    exact ⟨.inl (flags cdata).1, (flags cdata).2, fun sends => absurd sends (last _ _)⟩
  | receiving fd =>
    cases answer with
    | none | sent => cases stepped
    | error =>
      cases stepped
      exact ⟨.inl rfl, rfl, nofun⟩
    | timeout | data =>
      obtain ⟨-, same⟩ := Option.ite_none_right_eq_some.mp stepped
      cases same
      exact ⟨.inl rfl, rfl, nofun⟩
  | sending fd buffer =>
    cases answer with
    | none | data | timeout => cases stepped
    | error =>
      cases stepped
      exact ⟨.inl rfl, rfl, nofun⟩
    | sent n =>
      obtain ⟨-, same⟩ := Option.ite_none_right_eq_some.mp stepped
      cases same
      refine ⟨.inl rfl, rfl, fun sends => ?_⟩
      dsimp only at sends
      split at sends <;> cases sends

/-- A send that ends was one on a socket that is open. -/
theorem Loop.step_sent {loop : Loop} {cdata cdata' : ClientData} {thread thread' : Thread} {n : Nat}
    (stepped : loop.step cdata thread (.sent n) = some (cdata', thread')) :
    ∃ sink buffer, thread.place = .sending sink buffer ∧ (0 ≤ sink ∧ n ≤ buffer.length) ∧
      thread'.delivered = thread.delivered ++ buffer.take n ∧
      thread'.received = thread.received ∧ thread'.pending = [] := by
  obtain ⟨place, received, delivered⟩ := thread
  cases place with
  | sending sink buffer =>
    obtain ⟨possible, same⟩ := Option.ite_none_right_eq_some.mp stepped
    cases same
    exact ⟨sink, buffer, rfl, possible, rfl, rfl, pending_ite rfl rfl⟩
  | _ => cases stepped

theorem Relay.step_open {fd sfd : Int} {relay relay' : Relay} {event : Side × Answer}
    (isOpen : relay.Open fd sfd) (stepped : relay.step event = some relay') :
    relay'.Open fd sfd := by
  obtain ⟨mover, answer⟩ := event
  rcases Relay.step_cases stepped with ⟨moved, others⟩ | ⟨-, arranged⟩
  · obtain ⟨client, device, sending⟩ := Loop.step_descriptors (by cases mover <;> exact nofun)
      (by cases mover <;> exact fun _ => ⟨rfl, rfl⟩) moved
    refine ⟨?_, device.trans isOpen.device, fun {side sink buffer} sends => ?_⟩
    · rcases client with same | closed
      · rw [same]
        exact isOpen.client
      · exact .inr closed
    · by_cases same : side = mover
      · subst same
        rw [sending sends]
        cases side with
        | stoc => exact isOpen.client
        | ctos => exact .inl isOpen.device
      · rw [others side same] at sends
        exact isOpen.sending sends
  · cases arranged with
    | flag | joined =>
      refine ⟨isOpen.client, isOpen.device, fun {side sink buffer} sends => ?_⟩
      cases side with
      | stoc => exact @isOpen.sending .stoc _ _ sends
      | ctos => cases sends
    | threads =>
      refine ⟨isOpen.client, isOpen.device, fun {side sink buffer} sends => ?_⟩
      cases side <;> cases sends

theorem reached_open {condition : Relay → Side × Answer → Prop} {fd sfd : Int} {stopStoc : Bool}
    {relay : Relay} (reached : Reached condition Relay.step (.start fd sfd stopStoc) relay) :
    relay.Open fd sfd := by
  refine reached.keeps (fun isOpen _ stepped => Relay.step_open isOpen stepped) ⟨.inl rfl, rfl, ?_⟩
  intro side sink buffer sends
  cases side <;> cases sends

/-- **What is delivered is what the sends on the socket of the peer accept.** -/
theorem sent_to_peer {condition : Relay → Side × Answer → Prop} {fd sfd : Int} {stopStoc : Bool}
    {relay relay' : Relay} (reached : Reached condition Relay.step (.start fd sfd stopStoc) relay)
    {side : Side} {n : Nat} (stepped : relay.step (side, .sent n) = some relay') :
    ∃ buffer, (relay.thread side).place = .sending (side.peer fd sfd) buffer ∧
      n ≤ buffer.length ∧
      (relay'.thread side).delivered = (relay.thread side).delivered ++ buffer.take n := by
  rcases Relay.step_cases stepped with ⟨moved, -⟩ | ⟨answer, -⟩
  swap
  · cases answer
  obtain ⟨sink, buffer, place, possible, delivered, -⟩ := Loop.step_sent moved
  rcases (reached_open reached).sending place with isPeer | closed
  · exact ⟨buffer, by rw [← isPeer, place], possible.2, delivered⟩
  · rw [closed] at possible
    exact absurd possible.1 (by decide)

/-! ## Sends that take a part -/

namespace Thread

/-- The thread is behind its loop. -/
def Ended (thread : Thread) : Prop :=
  thread.place = .close ∨ thread.place = .stopOther ∨ thread.place = .join ∨ thread.place = .done

/-- All that was received is delivered or to be sent, until the loop ends. -/
def Tidy (thread : Thread) : Prop :=
  thread.delivered.length + thread.pending.length = thread.received.length ∨ thread.Ended

/-- Something received is neither delivered nor to be sent. -/
def Lags (thread : Thread) : Prop :=
  thread.delivered.length + thread.pending.length < thread.received.length

/-- A thread goes on between places where nothing is to be sent. -/
theorem tidy_idle {thread : Thread} {place : Place} (tidy : thread.Tidy) (going : ¬ thread.Ended)
    (idle : thread.pending = []) (idle' : ({ thread with place } : Thread).pending = []) :
    ({ thread with place } : Thread).Tidy := by
  have even := tidy.resolve_right going
  rw [idle] at even
  exact .inl (by rw [idle']; exact even)

end Thread

/-- A step that is no short send keeps a thread tidy. -/
theorem Loop.step_tidy {loop : Loop} (last : loop.last = .join ∨ loop.last = .done)
    {cdata cdata' : ClientData} {thread thread' : Thread} {answer : Answer}
    (stepped : loop.step cdata thread answer = some (cdata', thread'))
    (whole : ∀ n, answer = .sent n → n = thread.pending.length) (tidy : thread.Tidy) :
    thread'.Tidy := by
  obtain ⟨place, received, delivered⟩ := thread
  cases place with
  | entry | create | join | done => cases stepped
  | testStop | testFd | testSfd =>
    cases answer <;> cases stepped
    exact tidy_idle tidy (by simp [Ended]) rfl (pending_ite rfl rfl)
  | recv =>
    cases answer <;> cases stepped
    exact tidy_idle tidy (by simp [Ended]) rfl rfl
  | send buffer =>
    cases answer <;> cases stepped
    exact .inl (tidy.resolve_right (by simp [Ended]))
  | close =>
    cases answer <;> cases stepped
    exact .inr (.inr (.inl rfl))
  | stopOther =>
    cases answer <;> cases stepped
    exact .inr (.inr (.inr last))
  | receiving fd =>
    cases answer with
    | none | sent => cases stepped
    | error =>
      cases stepped
      exact .inr (.inl rfl)
    | timeout =>
      obtain ⟨-, same⟩ := Option.ite_none_right_eq_some.mp stepped
      cases same
      exact tidy_idle tidy (by simp [Ended]) rfl rfl
    | data bytes =>
      obtain ⟨-, same⟩ := Option.ite_none_right_eq_some.mp stepped
      cases same
      have even : delivered.length + 0 = received.length := tidy.resolve_right (by simp [Ended])
      refine .inl ?_
      show delivered.length + bytes.length = (received ++ bytes).length
      rw [List.length_append]
      omega
  | sending fd buffer =>
    cases answer with
    | none | data | timeout => cases stepped
    | error =>
      cases stepped
      exact .inr (.inl rfl)
    | sent n =>
      obtain ⟨-, same⟩ := Option.ite_none_right_eq_some.mp stepped
      cases same
      have even : delivered.length + buffer.length = received.length :=
        tidy.resolve_right (by simp [Ended])
      obtain rfl : n = buffer.length := whole n rfl
      refine .inl ?_
      rw [pending_ite rfl rfl, List.take_length, List.length_append]
      exact even

/-- A loop that makes a step has begun, and does not begin again. -/
theorem Loop.step_started {loop : Loop} (last : loop.last = .join ∨ loop.last = .done)
    {cdata cdata' : ClientData} {thread thread' : Thread} {answer : Answer}
    (stepped : loop.step cdata thread answer = some (cdata', thread')) :
    thread.place ≠ .entry ∧ thread'.place ≠ .entry ∧ thread'.place ≠ .create := by
  obtain ⟨place, received, delivered⟩ := thread
  have different : loop.last ≠ .entry ∧ loop.last ≠ .create := by
    rcases last with isLast | isLast <;> rw [isLast] <;> decide
  cases place with
  | entry | create | join | done => cases stepped
  | stopOther =>
    cases answer <;> cases stepped
    exact ⟨nofun, different⟩
  | testStop | testFd | testSfd =>
    cases answer <;> cases stepped
    dsimp only
    split <;> exact ⟨nofun, nofun, nofun⟩
  | recv | send | close =>
    cases answer <;> cases stepped
    exact ⟨nofun, nofun, nofun⟩
  | receiving fd =>
    cases answer with
    | none | sent => cases stepped
    | error =>
      cases stepped
      exact ⟨nofun, nofun, nofun⟩
    | timeout | data =>
      obtain ⟨-, same⟩ := Option.ite_none_right_eq_some.mp stepped
      cases same
      exact ⟨nofun, nofun, nofun⟩
  | sending fd buffer =>
    cases answer with
    | none | data | timeout => cases stepped
    | error =>
      cases stepped
      exact ⟨nofun, nofun, nofun⟩
    | sent n =>
      obtain ⟨-, same⟩ := Option.ite_none_right_eq_some.mp stepped
      cases same
      dsimp only
      split <;> exact ⟨nofun, nofun, nofun⟩

namespace Relay

/-- The device's thread has not begun before it is started. -/
def Early (relay : Relay) : Prop :=
  relay.ctos.place = .entry ∨ relay.ctos.place = .create → relay.stoc.place = .entry

variable {relay relay' : Relay} {side : Side}

theorem last_of_side (side : Side) : side.loop.last = .join ∨ side.loop.last = .done := by
  cases side
  · exact .inr rfl
  · exact .inl rfl

theorem step_early {event : Side × Answer} (early : relay.Early)
    (stepped : relay.step event = some relay') : relay'.Early := by
  obtain ⟨mover, answer⟩ := event
  rcases step_cases stepped with ⟨moved, others⟩ | ⟨-, arranged⟩
  · obtain ⟨begun, started⟩ := Loop.step_started (last_of_side mover) moved
    cases mover with
    | stoc =>
      have still : relay'.ctos = relay.ctos := others .ctos nofun
      intro first
      rw [still] at first
      exact absurd (early first) begun
    | ctos => exact fun first => (first.elim started.1 started.2).elim
  · cases arranged with
    | flag place => exact fun _ => early (.inl place)
    | threads | joined => exact fun first => by rcases first with first | first <;> cases first

theorem step_tidy {event : Side × Answer} (early : relay.Early)
    (tidy : (relay.thread side).Tidy) (stepped : relay.step event = some relay')
    (whole : ∀ n, event = (side, .sent n) → n = (relay.thread side).pending.length) :
    (relay'.thread side).Tidy := by
  obtain ⟨mover, answer⟩ := event
  rcases step_cases stepped with ⟨moved, others⟩ | ⟨-, arranged⟩
  · by_cases same : side = mover
    · subst same
      exact Loop.step_tidy (last_of_side side) moved (fun n sent => whole n (by rw [sent])) tidy
    · rw [others side same]
      exact tidy
  · have idle : ∀ {thread : Thread}, thread.place = .entry ∨ thread.place = .create →
        ¬ thread.Ended ∧ thread.pending = [] := by
      rintro thread (place | place) <;> simp [Ended, pending, place]
    cases arranged with
    | flag place =>
      cases side with
      | stoc => exact tidy
      | ctos => exact tidy_idle tidy (idle (.inl place)).1 (idle (.inl place)).2 rfl
    | threads place =>
      cases side with
      | stoc =>
        have first := early (.inr place)
        exact tidy_idle tidy (idle (.inl first)).1 (idle (.inl first)).2 rfl
      | ctos => exact tidy_idle tidy (idle (.inr place)).1 (idle (.inr place)).2 rfl
    | joined place =>
      cases side with
      | stoc => exact tidy
      | ctos => exact .inr (.inr (.inr (.inr rfl)))

theorem step_lags {event : Side × Answer} (lags : (relay.thread side).Lags)
    (stepped : relay.step event = some relay') : (relay'.thread side).Lags := by
  obtain ⟨mover, answer⟩ := event
  unfold Lags at lags ⊢
  rcases step_moves stepped side with ⟨received, delivered, pending⟩ | ⟨-, moves⟩
  · rcases pending with kept | dropped
    · rwa [received, delivered, kept]
    · rw [received, delivered, dropped, List.length_nil]
      omega
  · cases moves with
    | receives idle received delivered pending =>
      rw [idle, List.length_nil] at lags
      rw [received, delivered, pending, List.length_append]
      omega
    | sends inside received delivered sent =>
      rw [received, delivered, sent, List.length_append, List.length_take, List.length_nil]
      omega

/-- A tidy thread that is sending has all it received delivered or to be sent, and lags behind a
short send. -/
theorem even_of_tidy {n : Nat} (tidy : (relay.thread side).Tidy)
    (stepped : relay.step (side, .sent n) = some relay') :
    (relay.thread side).delivered.length + (relay.thread side).pending.length =
        (relay.thread side).received.length ∧
      (n ≠ (relay.thread side).pending.length → (relay'.thread side).Lags) := by
  rcases step_cases stepped with ⟨moved, -⟩ | ⟨answer, -⟩
  swap
  · cases answer
  obtain ⟨sink, buffer, place, possible, delivered, received, sent⟩ := Loop.step_sent moved
  have going : ¬ (relay.thread side).Ended := by simp [Ended, place]
  have pending : (relay.thread side).pending = buffer := by rw [Thread.pending, place]
  have even := tidy.resolve_right going
  refine ⟨even, fun short => ?_⟩
  rw [pending] at even short
  rw [Lags, delivered, received, sent, List.length_append, List.length_take, List.length_nil]
  omega

end Relay

/-- If the event is a send of the side, it took the whole of its buffer. -/
def TookWhole (start : Relay) (side : Side) (before : List (Side × Answer))
    (event : Side × Answer) : Prop :=
  ∀ n relay, event = (side, .sent n) → before.foldlM Relay.step start = some relay →
    n = (relay.thread side).pending.length

section Sends

variable {fd sfd : Int} {stopStoc : Bool} {side : Side}

theorem tidy_of_whole {events : List (Side × Answer)} :
    ∀ {relay : Relay}, events.foldlM Relay.step (.start fd sfd stopStoc) = some relay →
      (∀ before event, before ++ [event] <+: events →
        TookWhole (.start fd sfd stopStoc) side before event) →
      relay.Early ∧ (relay.thread side).Tidy := by
  induction events using List.reverseRecOn with
  | nil =>
    intro relay ran _
    cases ran
    exact ⟨fun _ => rfl, by cases side <;> exact .inl rfl⟩
  | append_singleton events event ih =>
    intro relay' ran whole
    obtain ⟨relay, first, stepped⟩ := foldlM_concat_inv ran
    obtain ⟨before, last⟩ := forall_prefix_concat_iff.mp whole
    obtain ⟨early, tidy⟩ := ih first before
    exact ⟨relay.step_early early stepped,
      relay.step_tidy early tidy stepped fun n sent => last n relay sent first⟩

theorem lags_of_short {events : List (Side × Answer)} :
    ∀ {relay : Relay}, events.foldlM Relay.step (.start fd sfd stopStoc) = some relay →
      (¬ ∀ before event, before ++ [event] <+: events →
        TookWhole (.start fd sfd stopStoc) side before event) →
      (relay.thread side).Lags := by
  induction events using List.reverseRecOn with
  | nil => exact fun _ short => absurd (fun before event isPrefix => by simp at isPrefix) short
  | append_singleton events event ih =>
    intro relay' ran short
    obtain ⟨relay, first, stepped⟩ := foldlM_concat_inv ran
    rw [forall_prefix_concat_iff, not_and_or] at short
    by_cases whole : ∀ before event, before ++ [event] <+: events →
        TookWhole (.start fd sfd stopStoc) side before event
    · have last := short.resolve_left (not_not.mpr whole)
      simp only [TookWhole, not_forall] at last
      obtain ⟨n, relay₁, rfl, again, part⟩ := last
      cases first.symm.trans again
      exact (relay.even_of_tidy (tidy_of_whole first whole).2 stepped).2 part
    · exact relay.step_lags (ih first whole) stepped

/-- **A send that accepts something finds all before its buffer accepted exactly when each earlier
send of its thread took the whole of its own.** -/
theorem caught_iff {events : List (Side × Answer)} {relay relay' : Relay}
    (ran : events.foldlM Relay.step (.start fd sfd stopStoc) = some relay) {n : Nat}
    (stepped : relay.step (side, .sent n) = some relay') (accepts : 0 < n) :
    Caught relay (side, .sent n) ↔ ∀ before event, before ++ [event] <+: events →
      TookWhole (.start fd sfd stopStoc) side before event := by
  constructor
  · intro caught
    by_contra short
    exact absurd (caught accepts) (Nat.ne_of_lt (lags_of_short ran short))
  · intro whole _
    exact (relay.even_of_tidy (tidy_of_whole ran whole).2 stepped).1

end Sends

instance (relay : Relay) : ∀ event : Side × Answer, Decidable (Caught relay event)
  | (side, .sent n) => inferInstanceAs (Decidable (0 < n →
      (relay.thread side).delivered.length + (relay.thread side).pending.length =
        (relay.thread side).received.length))
  | (_, .none) | (_, .data _) | (_, .timeout) | (_, .error) => .isTrue trivial

/-! ## Recorded runs -/

/-- `run_ctos_loop` as far as its loop. -/
def starting : List (Side × Answer) := [(.ctos, .none), (.ctos, .none)]

/-- Once around the loop: the device sends the bytes, of which the client takes some. -/
def passing (bytes : List UInt8) (n : Nat) : List (Side × Answer) :=
  [(.stoc, .none), (.stoc, .none), (.stoc, .none), (.stoc, .none), (.stoc, .data bytes),
    (.stoc, .none), (.stoc, .sent n)]

/-- Two buffers, of which the second is taken in part. -/
theorem last_send_short :
    ∃ relay, Reached Caught Relay.step (.start 5 6 true) relay ∧ relay.stoc.delivered = [1, 2, 3] ∧
      relay.stoc.received = [1, 2, 3, 4] ∧
        (relay.thread .stoc).delivered <+: (relay.thread .stoc).received := by
  have reached := @Reached.run _ _ Caught Relay.step (.start 5 6 true) _
    (starting ++ passing [1, 2] 2 ++ passing [3, 4] 1) _ _ .start rfl
  exact ⟨_, reached, rfl, rfl, delivered_prefix 5 6 true reached .stoc⟩

/-- The first buffer is taken in part, and the loop goes on with the second. -/
theorem short_send_leaves_gap :
    ∃ relay, Reached (fun _ _ => True) Relay.step (.start 5 6 true) relay ∧
      relay.stoc.delivered = [1, 3] ∧ relay.stoc.received = [1, 2, 3] ∧
        ¬ (relay.thread .stoc).delivered <+: (relay.thread .stoc).received := by
  have reached := @Reached.run _ _ (fun _ _ => True) Relay.step (.start 5 6 true) _
    (starting ++ passing [1, 2] 1 ++ passing [3] 1) _ _ .start rfl
  exact ⟨_, reached, rfl, rfl, by decide⟩

end Irestore.Usbmux
