/-
# Recovery.SendBuffer — the packets of an upload

`irecv_send_buffer` sends a buffer in packets of 0x800 bytes, over the bulk endpoint in
recovery mode, by control requests in DFU mode, where it asks for the status behind each.

* `dataTransfers` — the transfers of packets in what a run adds to the history, each with the
  history it found.
* `Accepted` — the device took the whole packet, and had the status 5 behind it in DFU mode.
* `sendPackets_transfers` — the loop from a packet on: what it sends are the chunks of the
  buffer, and it goes on behind the accepted ones only.
* `sendBuffer_transfers` — the whole upload.
-/
import Irestore.Library.Chunks
import Irestore.Recovery.Callbacks

namespace Irestore.Recovery

open Irestore.Library Irestore.Library.Program Irestore.Library.CMemory

set_option autoImplicit false

variable {C : Type}

/-! ## Transfers of data -/

/-- The packet that an action transfers; the request that ends an upload carries nothing. -/
def Action.packet : Action C → Option (List UInt8)
  | .bulk data => some data
  | .control bmRequestType bRequest data =>
      if bmRequestType = 0x21 ∧ bRequest = 1 ∧ data ≠ [] then some data else none
  | .clearHalt | .reset | .call .. => none

/-- A packet, and the history its transfer found. -/
abbrev Transfer (C : Type) := List (Action C) × List UInt8

/-- The transfers of packets among the actions added to a history. -/
def dataTransfers (history : List (Action C)) : List (Action C) → List (Transfer C)
  | [] => []
  | action :: added =>
      (action.packet.map fun data => (history, data)).toList ++
        dataTransfers (history ++ [action]) added

theorem dataTransfers_append (history first second : List (Action C)) :
    dataTransfers history (first ++ second) =
      dataTransfers history first ++ dataTransfers (history ++ first) second := by
  induction first generalizing history with
  | nil => rw [List.append_nil]; rfl
  | cons action first ih =>
    rw [List.cons_append, dataTransfers, dataTransfers, ih, List.append_assoc, List.append_assoc]
    rfl

theorem dataTransfers_eq_nil {added : List (Action C)}
    (none' : ∀ action ∈ added, action.packet = none) (history : List (Action C)) :
    dataTransfers history added = [] := by
  induction added generalizing history with
  | nil => rfl
  | cons action added ih =>
    rw [dataTransfers, none' action List.mem_cons_self,
      ih (fun other member => none' other (List.mem_cons_of_mem _ member))]
    rfl

/-! ## Programs that send no packet -/

/-- The program ends, with `post` of its value, and no action it adds carries a packet. -/
def Silent {α : Type} (program : Program (List (Action C)) α) (post : α → Prop) : Prop :=
  ∀ history, ∃ a added, program.run history = (.ok a, history ++ added) ∧
    (∀ action ∈ added, action.packet = none) ∧ post a

section Silence

variable {α β : Type} {post : α → Prop} {outside : Outside C} {client : IrecvClient C}

theorem silent_pure {a : α} (holds : post a) :
    Silent (pure a : Program (List (Action C)) α) post :=
  fun history => ⟨a, [], by rw [List.append_nil]; rfl, nofun, holds⟩

theorem silent_bind {first : Program (List (Action C)) α}
    {next : α → Program (List (Action C)) β} {mid : α → Prop} {post : β → Prop}
    (run : Silent first mid) (rest : ∀ a, mid a → Silent (next a) post) :
    Silent (first >>= next) post := by
  intro history
  obtain ⟨a, added, ran, none', holds⟩ := run history
  obtain ⟨b, added', ran', none'', holds'⟩ := rest a holds (history ++ added)
  refine ⟨b, added ++ added', ?_, List.forall_mem_append.mpr ⟨none', none''⟩, holds'⟩
  rw [run_bind ran, ran', List.append_assoc]

theorem silent_ite {condition : Prop} [Decidable condition] {yes no : Program (List (Action C)) α}
    (left : condition → Silent yes post) (right : ¬ condition → Silent no post) :
    Silent (if condition then yes else no) post := by
  split
  · exact left ‹_›
  · exact right ‹_›

theorem silent_act {action : Action C} (none' : action.packet = none) :
    Silent (act action) fun _ => True :=
  fun _ => ⟨(), [action], rfl, by simpa using none', trivial⟩

theorem run_control (bmRequestType bRequest : UInt8) (data : List UInt8)
    (history : List (Action C)) :
    (irecvControlTransfer outside bmRequestType bRequest data).run history =
      (.ok (outside.control history bmRequestType bRequest data),
        history ++ [.control bmRequestType bRequest data]) := rfl

theorem silent_control {bmRequestType bRequest : UInt8} {data : List UInt8}
    (none' : (Action.control bmRequestType bRequest data : Action C).packet = none) :
    Silent (irecvControlTransfer outside bmRequestType bRequest data) fun _ => True :=
  fun history =>
    ⟨_, _, run_control bmRequestType bRequest data history, by simpa using none', trivial⟩

theorem silent_callback (callee : Option C) (event : IrecvEvent) :
    Silent (callback outside callee event) fun _ => True := by
  cases callee with
  | none => exact silent_pure trivial
  | some c => exact fun history => ⟨_, [.call c event], rfl, by simp [Action.packet], trivial⟩

theorem silent_getStatus : Silent (irecvGetStatus outside client) fun _ => True := by
  refine silent_ite (fun _ => silent_pure trivial) fun _ => ?_
  refine silent_bind (silent_control rfl) fun _ _ => ?_
  exact silent_ite (fun _ => silent_pure trivial) fun _ => silent_pure trivial

theorem silent_getStatuses : ∀ rounds, Silent (getStatuses outside client rounds) fun _ => True
  | 0 => silent_pure trivial
  | rounds + 1 => silent_bind silent_getStatus fun _ _ =>
      silent_ite (fun _ => silent_pure trivial) fun _ => silent_getStatuses rounds

theorem silent_notifyFinished (dfuNotifyFinished : Bool) :
    Silent (notifyFinished outside client dfuNotifyFinished) fun _ => True := by
  refine silent_ite (fun _ => ?_) fun _ => silent_pure trivial
  refine silent_bind (silent_control rfl) fun _ _ => ?_
  refine silent_bind (silent_getStatuses 3) fun failed _ => ?_
  cases failed with
  | some error => exact silent_pure trivial
  | none => exact silent_bind (silent_act rfl) fun _ _ => silent_pure trivial

theorem silent_initiateTransfer : Silent (initiateTransfer outside client) fun _ => True :=
  silent_ite (fun _ => silent_control rfl) fun _ => silent_control rfl

end Silence

/-! ## One packet -/

section Packets

variable (outside : Outside C) (client : IrecvClient C)

/-- The transfer of a packet was complete; in DFU mode the status was asked for behind it, and
was 5.  `after` is the history in the end. -/
def Accepted (after : List (Action C)) : Transfer C → Prop
  | (history, data) =>
      if client.mode ≠ kDfuMode then
        outside.bulk history data = (IRECV_E_SUCCESS, (data.length : Int))
      else
        (outside.control history 0x21 1 data).1 = data.length ∧
          history ++ [.control 0x21 1 data, .control 0xA1 3 []] <+: after ∧
            ∃ buffer, outside.control (history ++ [.control 0x21 1 data]) 0xA1 3 [] = (6, buffer) ∧
              buffer.getD 4 0 = 5

variable {outside client}

theorem Accepted.mono {after after' : List (Action C)} {transfer : Transfer C}
    (accepted : Accepted outside client after transfer) (longer : after <+: after') :
    Accepted outside client after' transfer := by
  rw [Accepted] at accepted ⊢
  split
  · rwa [if_pos ‹_›] at accepted
  · rw [if_neg ‹_›] at accepted
    obtain ⟨complete, asked, status⟩ := accepted
    exact ⟨complete, asked.trans longer, status⟩

/-- A transfer by the bulk endpoint; the endpoint is cleared when it fails. -/
theorem run_bulk (data : List UInt8) (history : List (Action C)) :
    ∃ added, (irecvBulkTransfer outside data).run history =
        (.ok (outside.bulk history data), history ++ added) ∧
      dataTransfers history added = [(history, data)] := by
  rw [irecvBulkTransfer, run_get_bind, act, run_modify_bind]
  by_cases failed : (outside.bulk history data).1 < 0
  · refine ⟨[.bulk data, .clearHalt], ?_, rfl⟩
    rw [if_pos failed, act, run_modify_bind, List.append_assoc]
    rfl
  · exact ⟨[.bulk data], by rw [if_neg failed]; rfl, rfl⟩

/-- The status is asked for, and given as 5 exactly by an answer of six bytes that says so. -/
theorem run_getStatus (present : client.handle = true) (history : List (Action C)) :
    ∃ error status, (irecvGetStatus outside client).run history =
        (.ok (error, status), history ++ [.control 0xA1 3 []]) ∧
      (error = IRECV_E_SUCCESS → status = 5 →
        ∃ buffer, outside.control history 0xA1 3 [] = (6, buffer) ∧ buffer.getD 4 0 = 5) := by
  have there : ¬ client.handle = false := by simp [present]
  rw [irecvGetStatus, if_neg there, run_bind (run_control 0xA1 3 [] history)]
  dsimp only
  by_cases six : (outside.control history 0xA1 3 []).1 ≠ 6
  · refine ⟨IRECV_E_USB_STATUS, 0, by rw [if_pos six]; rfl, fun success => ?_⟩
    exact absurd success (by decide)
  · exact ⟨IRECV_E_SUCCESS, _, by rw [if_neg six]; rfl,
      fun _ five => ⟨_, Prod.ext (not_not.mp six) rfl, five⟩⟩

/-- One packet: it is the only one its round sends, and it was accepted unless the round
fails. -/
theorem run_sendPacket (present : client.handle = true) {data : List UInt8} (nonempty : data ≠ [])
    (history : List (Action C)) :
    ∃ failed added, (sendPacket outside client data data.length).run history =
        (.ok failed, history ++ added) ∧ dataTransfers history added = [(history, data)] ∧
      failed ≠ some IRECV_E_SUCCESS ∧
      (failed = none → Accepted outside client (history ++ added) (history, data)) := by
  have upload : some IRECV_E_USB_UPLOAD ≠ some IRECV_E_SUCCESS := by decide
  rw [sendPacket]
  by_cases recovery : client.mode ≠ kDfuMode
  · obtain ⟨added, ran, transfers⟩ := @run_bulk _ outside data history
    rw [if_pos recovery, run_bind ran]
    simp only [Accepted, if_pos recovery]
    by_cases short : (outside.bulk history data).2 ≠ data.length
    · exact ⟨_, added, by rw [if_pos short]; rfl, transfers, upload, nofun⟩
    by_cases refused : (outside.bulk history data).1 ≠ IRECV_E_SUCCESS
    · refine ⟨some _, added, by rw [if_neg short, if_pos refused]; rfl, transfers, ?_, nofun⟩
      exact fun same => refused (Option.some.inj same)
    · refine ⟨none, added, by rw [if_neg short, if_neg refused]; rfl, transfers, nofun, fun _ => ?_⟩
      exact Prod.ext (not_not.mp refused) (not_not.mp short)
  · have packet : (Action.control 0x21 1 data : Action C).packet = some data :=
      if_pos ⟨rfl, rfl, nonempty⟩
    have single : dataTransfers history [.control 0x21 1 data] = [(history, data)] := by
      rw [dataTransfers, packet]
      rfl
    rw [if_neg recovery, run_bind (run_control 0x21 1 data history)]
    simp only [Accepted, if_neg recovery]
    by_cases short : (outside.control history 0x21 1 data).1 ≠ data.length
    · exact ⟨_, [.control 0x21 1 data], by rw [if_pos short]; rfl, single, upload, nofun⟩
    obtain ⟨error, status, asked, five⟩ :=
      @run_getStatus _ outside client present (history ++ [.control 0x21 1 data])
    have both : dataTransfers history [.control 0x21 1 data, .control 0xA1 3 []] =
        [(history, data)] := by
      rw [dataTransfers, packet]
      rfl
    rw [List.append_assoc] at asked
    rw [if_neg short, run_bind asked]
    by_cases refused : error ≠ IRECV_E_SUCCESS
    · refine ⟨some error, _, by rw [if_pos refused]; rfl, both, ?_, nofun⟩
      exact fun same => refused (Option.some.inj same)
    by_cases other : status ≠ 5
    · exact ⟨_, _, by rw [if_neg refused, if_pos other]; rfl, both, upload, nofun⟩
    · refine ⟨none, _, by rw [if_neg refused, if_neg other]; rfl, both, nofun, fun _ => ?_⟩
      exact ⟨not_not.mp short, List.prefix_refl _, five (not_not.mp refused) (not_not.mp other)⟩

/-! ## The loop -/

/-- Packet `i` is a chunk of the buffer, and not empty. -/
theorem packet_eq_chunk {buffer : List UInt8} {i : Nat} (more : i < packetsOf buffer.length) :
    (buffer.drop (i * packetSize)).take (sizeOfPacket buffer.length i) =
        chunk packetSize buffer i ∧
      (chunk packetSize buffer i).length = sizeOfPacket buffer.length i ∧
      chunk packetSize buffer i ≠ [] := by
  have through := add_sizeOfPacket more
  have inside : i * packetSize < buffer.length := by
    have division := Nat.div_add_mod buffer.length packetSize
    rw [packetsOf, packetSize] at *
    split at more <;> omega
  have width : (chunk packetSize buffer i).length = sizeOfPacket buffer.length i := by
    rw [length_chunk]
    rw [Nat.succ_mul] at through
    omega
  have positive : 0 < sizeOfPacket buffer.length i := by
    rw [Nat.succ_mul, packetSize] at *
    omega
  refine ⟨?_, width, fun empty => ?_⟩
  · rw [chunk, List.take_eq_take_iff, List.length_drop]
    rw [length_chunk] at width
    omega
  · rw [empty, List.length_nil] at width
    omega

/-- Every transfer but the last was accepted, and the last one too when the run goes on. -/
def GoesOn (outside : Outside C) (client : IrecvClient C) (history added : List (Action C))
    (on : Prop) : Prop :=
  (∀ transfer ∈ (dataTransfers history added).dropLast,
    Accepted outside client (history ++ added) transfer) ∧
  (on → ∀ transfer ∈ dataTransfers history added,
    Accepted outside client (history ++ added) transfer)

/-- One accepted transfer in front of others. -/
theorem GoesOn.cons {history sent added : List (Action C)} {transfer : Transfer C} {on : Prop}
    (single : dataTransfers history sent = [transfer])
    (accepted : Accepted outside client (history ++ sent) transfer)
    (rest : GoesOn outside client (history ++ sent) added on) :
    GoesOn outside client history (sent ++ added) on := by
  have first : Accepted outside client (history ++ sent ++ added) transfer :=
    accepted.mono (List.prefix_append _ _)
  rw [GoesOn, dataTransfers_append, single, ← List.append_assoc]
  refine ⟨fun other member => ?_, fun goesOn other member => ?_⟩
  · cases behind : dataTransfers (history ++ sent) added with
    | nil =>
      rw [behind] at member
      cases member
    | cons next more =>
      rw [behind] at member
      rcases List.mem_cons.mp member with rfl | member
      · exact first
      · exact rest.1 other (by rwa [behind])
  · rcases List.mem_cons.mp member with rfl | member
    · exact first
    · exact rest.2 goesOn other member

/-- Actions without a packet, in front and behind. -/
theorem GoesOn.between {history begun sent ended : List (Action C)} {on : Prop}
    (first : ∀ action ∈ begun, action.packet = none) (last : ∀ action ∈ ended, action.packet = none)
    (goesOn : GoesOn outside client (history ++ begun) sent on) :
    dataTransfers history (begun ++ sent ++ ended) = dataTransfers (history ++ begun) sent ∧
      GoesOn outside client history (begun ++ sent ++ ended) on := by
  have same : dataTransfers history (begun ++ sent ++ ended) =
      dataTransfers (history ++ begun) sent := by
    rw [dataTransfers_append, dataTransfers_append, dataTransfers_eq_nil first,
      dataTransfers_eq_nil last, List.append_nil, List.nil_append]
  have longer : history ++ begun ++ sent <+: history ++ (begun ++ sent ++ ended) :=
    ⟨ended, by simp only [List.append_assoc]⟩
  rw [GoesOn, same]
  exact ⟨rfl, fun transfer member => (goesOn.1 transfer member).mono longer,
    fun goes transfer member => (goesOn.2 goes transfer member).mono longer⟩

/-- Behind a transfer that was not accepted there is no other, and the run fails. -/
theorem GoesOn.stops {history added : List (Action C)} {on : Prop} {front back : List (Transfer C)}
    {transfer : Transfer C} (goesOn : GoesOn outside client history added on)
    (split : dataTransfers history added = front ++ transfer :: back)
    (refused : ¬ Accepted outside client (history ++ added) transfer) : back = [] ∧ ¬ on := by
  refine ⟨?_, fun goes => refused (goesOn.2 goes transfer (by simp [split]))⟩
  cases back with
  | nil => rfl
  | cons next back =>
    refine absurd (goesOn.1 transfer ?_) refused
    rw [split, List.dropLast_append_cons, List.dropLast_cons_of_ne_nil (List.cons_ne_nil _ _)]
    exact List.mem_append_right _ List.mem_cons_self

/-- **The loop from packet `i` on**: it sends the chunks of the buffer, one behind the other,
and goes on behind an accepted one only. -/
theorem sendPackets_transfers (present : client.handle = true) (buffer : List UInt8) :
    ∀ (rounds i count : Nat) (history : List (Action C)), i + rounds = packetsOf buffer.length →
      ∃ failed added through, (sendPackets outside client buffer rounds i count).run history =
          (.ok failed, history ++ added) ∧
        failed ≠ some IRECV_E_SUCCESS ∧ (failed = none → through = rounds) ∧
        (dataTransfers history added).map Prod.snd =
          (List.range' i through).map (chunk packetSize buffer) ∧
        GoesOn outside client history added (failed = none)
  | 0, i, count, history, _ => by
      refine ⟨none, [], 0, ?_, fun same => ?_, fun _ => rfl, rfl, ?_⟩
      · rw [List.append_nil]
        rfl
      · cases same
      · exact ⟨by simp [dataTransfers], by simp [dataTransfers]⟩
  | rounds + 1, i, count, history, total => by
      have more : i < packetsOf buffer.length := by omega
      obtain ⟨isChunk, width, nonempty⟩ := packet_eq_chunk more
      obtain ⟨failed, sent, ran, single, differ, accepted⟩ :=
        @run_sendPacket _ outside client present _ nonempty history
      rw [width] at ran
      rw [sendPackets, isChunk, run_bind ran]
      cases failed with
      | some error =>
        refine ⟨some error, sent, 1, rfl, differ, fun none => ?_, by rw [single]; rfl, ?_,
          fun none => ?_⟩
        · cases none
        · simp [single]
        · cases none
      | none =>
        obtain ⟨_, reported, ran', none', -⟩ := @silent_callback _ outside client.progressCallback
          (progressEvent buffer.length (count + sizeOfPacket buffer.length i)) (history ++ sent)
        obtain ⟨failed, added, through, ran'', differ', all, pieces, goesOn⟩ :=
          sendPackets_transfers present buffer rounds (i + 1)
            (count + sizeOfPacket buffer.length i) (history ++ (sent ++ reported)) (by omega)
        have both : dataTransfers history (sent ++ reported) =
            [(history, chunk packetSize buffer i)] := by
          rw [dataTransfers_append, single, dataTransfers_eq_nil none']
          rfl
        refine ⟨failed, sent ++ reported ++ added, through + 1, ?_, differ', fun on => ?_, ?_, ?_⟩
        · dsimp only
          rw [run_bind ran', List.append_assoc, ran'', List.append_assoc]
        · rw [all on]
        · rw [dataTransfers_append, both, List.map_append, pieces, List.range'_succ]
          rfl
        · refine GoesOn.cons both ?_ goesOn
          exact (accepted rfl).mono (by rw [← List.append_assoc]; exact List.prefix_append _ _)

end Packets

/-! ## The whole upload -/

/-- The pieces make up the buffer; all are full but the last, which is not empty. -/
structure Packets (buffer : List UInt8) (pieces : List (List UInt8)) : Prop where
  whole : pieces.flatten = buffer
  full : ∀ piece ∈ pieces.dropLast, piece.length = packetSize
  last : ∀ piece ∈ pieces.getLast?, 0 < piece.length ∧ piece.length ≤ packetSize
  none : buffer = [] → pieces = []

theorem packets_chunks (buffer : List UInt8) :
    Packets buffer (chunks packetSize (packetsOf buffer.length) buffer) := by
  have covers : buffer.length ≤ packetsOf buffer.length * packetSize ∧
      (packetsOf buffer.length - 1) * packetSize ≤ buffer.length := by
    have division := Nat.div_add_mod buffer.length packetSize
    have bound := Nat.mod_lt buffer.length (show 0 < packetSize by decide)
    rw [packetsOf, packetSize] at *
    split <;> omega
  have whole : (chunks packetSize (packetsOf buffer.length) buffer).flatten = buffer := by
    rw [flatten_chunks, List.take_of_length_le covers.1]
  cases rounds : packetsOf buffer.length with
  | zero =>
    rw [rounds] at whole
    exact ⟨whole, by simp [chunks], by simp [chunks], fun _ => rfl⟩
  | succ last =>
    rw [rounds] at whole covers
    have nonempty := (@packet_eq_chunk buffer last (by omega)).2.2
    refine ⟨whole, fun piece member => ?_, fun piece member => ?_, fun empty => ?_⟩
    · rw [chunks_succ, List.dropLast_concat] at member
      obtain ⟨i, inside, rfl⟩ := List.mem_map.mp member
      have before := List.mem_range.mp inside
      refine length_chunk_of_le (le_trans (Nat.mul_le_mul_right _ ?_) covers.2)
      omega
    · rw [chunks_succ, List.getLast?_concat] at member
      cases member
      refine ⟨List.length_pos_iff.mpr nonempty, ?_⟩
      rw [length_chunk]
      exact Nat.min_le_left _ _
    · rw [empty] at nonempty
      exact absurd (by simp [chunk]) nonempty

/-- **An upload**, to any device and by any client: when it succeeds, its packets make up the
buffer and every one was accepted; and behind one that was not, no other is sent, and the
upload returns an error. -/
theorem sendBuffer_transfers (outside : Outside C) (client : IrecvClient C)
    (history : List (Action C)) (buffer : List UInt8) (dfuNotifyFinished : Bool) :
    ∃ ret added, (irecvSendBuffer outside client buffer dfuNotifyFinished).run history =
        (.ok ret, history ++ added) ∧
      (ret = IRECV_E_SUCCESS →
        Packets buffer ((dataTransfers history added).map Prod.snd) ∧
          ∀ transfer ∈ dataTransfers history added,
            Accepted outside client (history ++ added) transfer) ∧
      ∀ front transfer back, dataTransfers history added = front ++ transfer :: back →
        ¬ Accepted outside client (history ++ added) transfer →
          back = [] ∧ ret ≠ IRECV_E_SUCCESS := by
  by_cases present : client.handle = true
  · have there : ¬ client.handle = false := by simp [present]
    obtain ⟨⟨error, bytes⟩, begun, ran, quiet, -⟩ :=
      @silent_initiateTransfer _ outside client history
    rw [irecvSendBuffer, if_neg there, run_bind ran]
    dsimp only
    by_cases refused : error ≠ IRECV_E_SUCCESS
    · rw [if_pos refused]
      refine ⟨error, begun, rfl, fun success => absurd success refused, ?_⟩
      rw [dataTransfers_eq_nil quiet]
      intro front transfer back split
      simp at split
    obtain ⟨failed, sent, through, ran', differ, all, pieces, goesOn⟩ :=
      @sendPackets_transfers _ outside client present buffer (packetsOf buffer.length) 0 0
        (history ++ begun) (Nat.zero_add _)
    rw [if_neg refused, run_bind ran']
    cases failed with
    | some error' =>
      obtain ⟨same, stops⟩ := @GoesOn.between _ _ _ _ _ _ [] _ quiet (by simp) goesOn
      have failed : error' ≠ IRECV_E_SUCCESS := fun same => differ (congrArg some same)
      refine ⟨error', begun ++ sent ++ [], ?_, fun success => absurd success failed, ?_⟩
      · rw [List.append_nil, List.append_assoc]
        rfl
      · intro front transfer back split refused'
        exact ⟨(stops.stops split refused').1, failed⟩
    | none =>
      obtain ⟨ret, ended, ran'', quiet', -⟩ := @silent_notifyFinished _ outside client
        dfuNotifyFinished (history ++ begun ++ sent)
      obtain ⟨same, stops⟩ := GoesOn.between quiet quiet' goesOn
      refine ⟨ret, begun ++ sent ++ ended, ?_, fun _ => ⟨?_, stops.2 rfl⟩, ?_⟩
      · dsimp only
        rw [ran'']
        simp only [List.append_assoc]
      · rw [same, pieces, all rfl, ← List.range_eq_range']
        exact packets_chunks buffer
      · intro front transfer back split refused'
        exact absurd rfl (stops.stops split refused').2
  · have missing : client.handle = false := by simpa using present
    refine ⟨IRECV_E_NO_DEVICE, [], ?_, fun success => absurd success (by decide), ?_⟩
    · rw [irecvSendBuffer, if_pos missing, List.append_nil]
      rfl
    · intro front transfer back split
      simp [dataTransfers] at split

end Irestore.Recovery
