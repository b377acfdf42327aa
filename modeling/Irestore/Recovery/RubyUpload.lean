/-
# Recovery.RubyUpload — the upload of the Ruby program

`RecoveryV2Mode#send_file` reads a file in pieces of 0x800 bytes and writes each to the bulk
endpoint.  What a transfer returns below 0 is raised; how much of a piece was taken is not
looked at.

* `sendFile` — the upload; its value is what was raised, if anything.
* `sendPackets_iff` — the loop of the library against the loop of the Ruby program.
* `sendBuffer_iff_sendFile` — the two uploads do the same, unless a transfer is short.
-/
import Irestore.Recovery.SendBuffer

namespace Irestore.Recovery

open Irestore.Library Irestore.Library.Program Irestore.Library.CMemory

set_option autoImplicit false

variable {C : Type}

/-! ## The upload -/

section Upload

variable (outside : Outside C)

/-- `usb_control_write`, with what it raises. -/
def usbControlWrite (bmRequestType bRequest : UInt8) (data : List UInt8) :
    Program (List (Action C)) (Option Int) := do
  let (res, _) ← irecvControlTransfer outside bmRequestType bRequest data
  return if res < 0 then some res else none

/-- `usb_bulk_write`, with what it raises. -/
def usbBulkWrite (data : List UInt8) : Program (List (Action C)) (Option Int) := do
  let history ← Program.get
  act (.bulk data)
  let (res, _) := outside.bulk history data
  return if res < 0 then some res else none

/-- The loop over the file: `read` gives nil at its end. -/
def writePieces (file : List UInt8) : Program (List (Action C)) (Option Int) :=
  if file = [] then return none
  else do
    let raised ← usbBulkWrite outside (file.take packetSize)
    match raised with
    | some res => return some res
    | none => writePieces (file.drop packetSize)
termination_by file.length
decreasing_by
  have : 0 < file.length := List.length_pos_iff.mpr (by assumption)
  rw [List.length_drop, packetSize]
  omega

/-- `RecoveryV2Mode#send_file`. -/
def sendFile (file : List UInt8) : Program (List (Action C)) (Option Int) := do
  let raised ← usbControlWrite outside 0x41 0 []
  match raised with
  | some res => return some res
  | none => writePieces outside file

/-- The client of a device with the product id of `RecoveryV2Mode`. -/
def recoveryV2 : IrecvClient C := { mode := 0x1281, handle := true }

theorem recoveryV2_mode : (recoveryV2 : IrecvClient C).mode ≠ kDfuMode :=
  (by decide : 0x1281 ≠ kDfuMode)

end Upload

/-! ## The loops -/

section Loops

variable {outside : Outside C}

/-- The device took the whole of every packet. -/
def Complete (outside : Outside C) (history added : List (Action C)) : Prop :=
  ∀ transfer ∈ dataTransfers history added,
    outside.bulk transfer.1 transfer.2 = (IRECV_E_SUCCESS, (transfer.2.length : Int))

theorem complete_nil (history : List (Action C)) : Complete outside history [] := by
  intro transfer member
  cases member

/-- One packet in front of others. -/
theorem complete_cons {history added : List (Action C)} {data : List UInt8} :
    Complete outside history (.bulk data :: added) ↔
      outside.bulk history data = (IRECV_E_SUCCESS, (data.length : Int)) ∧
        Complete outside (history ++ [.bulk data]) added := by
  unfold Complete
  rw [dataTransfers]
  exact List.forall_mem_cons

theorem run_usbBulkWrite (data : List UInt8) (history : List (Action C)) :
    (usbBulkWrite outside data).run history =
      (.ok (if (outside.bulk history data).1 < 0 then some (outside.bulk history data).1 else none),
        history ++ [.bulk data]) := rfl

/-- One round of the Ruby loop. -/
theorem run_writePieces {file : List UInt8} (more : file ≠ []) (history : List (Action C)) :
    (writePieces outside file).run history =
      if (outside.bulk history (file.take packetSize)).1 < 0 then
        (.ok (some (outside.bulk history (file.take packetSize)).1),
          history ++ [.bulk (file.take packetSize)])
      else (writePieces outside (file.drop packetSize)).run
        (history ++ [.bulk (file.take packetSize)]) := by
  rw [writePieces, if_neg more, run_bind (run_usbBulkWrite _ history)]
  by_cases failed : (outside.bulk history (file.take packetSize)).1 < 0
  · rw [if_pos failed, if_pos failed]
    rfl
  · rw [if_neg failed, if_neg failed]

/-- The loop adds to the history. -/
theorem writePieces_adds (n : Nat) : ∀ (file : List UInt8) (history : List (Action C)),
    file.length ≤ n → ∃ raised added,
      (writePieces outside file).run history = (.ok raised, history ++ added) := by
  have atEnd : ∀ history : List (Action C),
      (writePieces outside []).run history = (.ok none, history ++ []) := by
    intro history
    rw [writePieces, if_pos rfl, List.append_nil]
    rfl
  induction n with
  | zero =>
    intro file history bound
    obtain rfl : file = [] := List.length_eq_zero_iff.mp (Nat.le_zero.mp bound)
    exact ⟨none, [], atEnd history⟩
  | succ n ih =>
    intro file history bound
    by_cases ended : file = []
    · subst ended
      exact ⟨none, [], atEnd history⟩
    rw [run_writePieces ended]
    by_cases failed : (outside.bulk history (file.take packetSize)).1 < 0
    · rw [if_pos failed]
      exact ⟨_, _, rfl⟩
    · have shorter : (file.drop packetSize).length ≤ n := by
        have := List.length_pos_iff.mpr ended
        rw [List.length_drop, packetSize]
        omega
      obtain ⟨raised, added, ran⟩ := ih _ (history ++ [.bulk (file.take packetSize)]) shorter
      rw [if_neg failed, ran, List.append_assoc]
      exact ⟨raised, _, rfl⟩

/-- A loop that raises nothing begins with the first piece. -/
theorem writePieces_split {file : List UInt8} (more : file ≠ []) {history after : List (Action C)}
    (ran : (writePieces outside file).run history = (.ok none, after)) :
    (writePieces outside (file.drop packetSize)).run (history ++ [.bulk (file.take packetSize)]) =
        (.ok none, after) ∧
      ∃ added, after = history ++ .bulk (file.take packetSize) :: added := by
  rw [run_writePieces more] at ran
  by_cases failed : (outside.bulk history (file.take packetSize)).1 < 0
  · rw [if_pos failed] at ran
    cases ran
  · rw [if_neg failed] at ran
    obtain ⟨raised, added, ran'⟩ := @writePieces_adds _ outside _ (file.drop packetSize)
      (history ++ [.bulk (file.take packetSize)]) (Nat.le_refl _)
    rw [ran'] at ran ⊢
    obtain ⟨-, rfl⟩ := Prod.mk.inj ran
    exact ⟨ran, added, by rw [List.append_assoc]; rfl⟩

/-- A packet that was taken whole goes through, and is followed by nothing. -/
theorem run_sendPacket_complete {data : List UInt8} {history : List (Action C)}
    (complete : outside.bulk history data = (IRECV_E_SUCCESS, (data.length : Int))) :
    (sendPacket outside recoveryV2 data data.length).run history =
      (.ok none, history ++ [.bulk data]) := by
  have bulk : (irecvBulkTransfer outside data).run history =
      (.ok (IRECV_E_SUCCESS, (data.length : Int)), history ++ [.bulk data]) := by
    rw [irecvBulkTransfer, run_get_bind, act, run_modify_bind, complete]
    rfl
  rw [sendPacket, if_pos recoveryV2_mode, run_bind bulk]
  dsimp only
  rw [if_neg (not_not.mpr rfl), if_neg (not_not.mpr rfl)]
  rfl

/-- **The loop of the library** ends well exactly when the Ruby loop raises nothing and every
packet of it was taken whole. -/
theorem sendPackets_iff (buffer : List UInt8) (rounds : Nat) :
    ∀ (i count : Nat) (history after : List (Action C)), i + rounds = packetsOf buffer.length →
      ((sendPackets outside recoveryV2 buffer rounds i count).run history = (.ok none, after) ↔
        (writePieces outside (buffer.drop (i * packetSize))).run history = (.ok none, after) ∧
          ∃ added, after = history ++ added ∧ Complete outside history added) := by
  induction rounds with
  | zero =>
    intro i count history after total
    have ended : buffer.drop (i * packetSize) = [] := by
      have division := Nat.div_add_mod buffer.length packetSize
      refine List.drop_eq_nil_of_le ?_
      rw [packetsOf, packetSize] at *
      split at total <;> omega
    rw [ended, writePieces, if_pos rfl]
    refine ⟨fun ran => ⟨ran, [], ?_, complete_nil history⟩, fun both => both.1⟩
    cases ran
    rw [List.append_nil]
  | succ rounds ih =>
    intro i count history after total
    obtain ⟨isChunk, width, nonempty⟩ := @packet_eq_chunk buffer i (by omega)
    have piece : (buffer.drop (i * packetSize)).take packetSize = chunk packetSize buffer i := rfl
    have more : buffer.drop (i * packetSize) ≠ [] := by
      intro none'
      rw [chunk, none', List.take_nil] at nonempty
      exact nonempty rfl
    have rest : (buffer.drop (i * packetSize)).drop packetSize =
        buffer.drop ((i + 1) * packetSize) := by
      rw [List.drop_drop, Nat.succ_mul]
    rw [sendPackets, isChunk, ← width]
    by_cases complete : outside.bulk history (chunk packetSize buffer i) =
        (IRECV_E_SUCCESS, ((chunk packetSize buffer i).length : Int))
    · rw [run_bind (run_sendPacket_complete complete)]
      change (sendPackets outside recoveryV2 buffer rounds (i + 1) _).run
        (history ++ [.bulk (chunk packetSize buffer i)]) = _ ↔ _
      rw [ih (i + 1) _ _ after (by omega)]
      constructor
      · rintro ⟨ran, added, rfl, completes⟩
        refine ⟨?_, .bulk (chunk packetSize buffer i) :: added, by rw [List.append_assoc]; rfl,
          complete_cons.mpr ⟨complete, completes⟩⟩
        have taken : ¬ (outside.bulk history (chunk packetSize buffer i)).1 < 0 := by
          rw [complete]
          exact (by decide : ¬ IRECV_E_SUCCESS < 0)
        rw [run_writePieces more, piece, if_neg taken, rest]
        exact ran
      · rintro ⟨ran, added, same, completes⟩
        obtain ⟨behind, added', same'⟩ := writePieces_split more ran
        rw [rest, piece] at behind
        rw [piece] at same'
        obtain rfl : added = .bulk (chunk packetSize buffer i) :: added' :=
          List.append_cancel_left (same.symm.trans same')
        exact ⟨behind, added', same'.trans (by rw [List.append_assoc]; rfl),
          (complete_cons.mp completes).2⟩
    · refine iff_of_false (fun ran => ?_) ?_
      · obtain ⟨failed, added, sent, -, -, accepted⟩ :=
          @run_sendPacket _ outside recoveryV2 rfl _ nonempty history
        rw [run_bind sent] at ran
        cases failed with
        | some error => cases ran
        | none => exact complete (by simpa [Accepted, recoveryV2, kDfuMode] using accepted rfl)
      · rintro ⟨ran, added, same, completes⟩
        obtain ⟨-, added', same'⟩ := writePieces_split more ran
        rw [piece] at same'
        obtain rfl : added = .bulk (chunk packetSize buffer i) :: added' :=
          List.append_cancel_left (same.symm.trans same')
        exact complete (complete_cons.mp completes).1

end Loops

/-! ## The uploads -/

/-- **The two uploads** of a buffer below 2 GiB, to any device in recovery mode:
`irecv_send_buffer` succeeds exactly when the Ruby upload raises nothing, its announcement was
answered with 0 and every packet was taken whole.  Then both have made the same transfers.  The
bound is that of the positions of the library, which are `int`s. -/
theorem sendBuffer_iff_sendFile (outside : Outside C) (history after : List (Action C))
    (buffer : List UInt8) (dfuNotifyFinished : Bool) (_short : buffer.length < 2 ^ 31) :
    (irecvSendBuffer outside recoveryV2 buffer dfuNotifyFinished).run history =
        (.ok IRECV_E_SUCCESS, after) ↔
      (sendFile outside buffer).run history = (.ok none, after) ∧
        (outside.control history 0x41 0 []).1 = IRECV_E_SUCCESS ∧
        ∃ added, after = history ++ .control 0x41 0 [] :: added ∧
          Complete outside (history ++ [.control 0x41 0 []]) added := by
  have there : ¬ (recoveryV2 : IrecvClient C).handle = false := by simp [recoveryV2]
  have begun : (initiateTransfer outside recoveryV2).run history =
      (.ok (outside.control history 0x41 0 []), history ++ [.control 0x41 0 []]) := rfl
  have finished : notifyFinished outside (recoveryV2 : IrecvClient C) dfuNotifyFinished =
      return IRECV_E_SUCCESS :=
    if_neg fun dfu => recoveryV2_mode dfu.2
  rw [irecvSendBuffer, if_neg there, run_bind begun]
  dsimp only
  by_cases zero : (outside.control history 0x41 0 []).1 = IRECV_E_SUCCESS
  · have fine : ¬ (outside.control history 0x41 0 []).1 < 0 := by rw [zero]; decide
    have written : (usbControlWrite outside 0x41 0 []).run history =
        (.ok none, history ++ [.control 0x41 0 []]) := by
      rw [usbControlWrite, run_bind (run_control 0x41 0 [] history)]
      dsimp only
      rw [if_neg fine]
      rfl
    have sent := @sendPackets_iff _ outside buffer (packetsOf buffer.length) 0 0
      (history ++ [.control 0x41 0 []]) after (Nat.zero_add _)
    rw [Nat.zero_mul, List.drop_zero] at sent
    rw [if_neg (not_not.mpr zero), sendFile, run_bind written, and_iff_right zero]
    have appended : (∃ added, after = history ++ [.control 0x41 0 []] ++ added ∧
        Complete outside (history ++ [.control 0x41 0 []]) added) ↔
          ∃ added, after = history ++ .control 0x41 0 [] :: added ∧
            Complete outside (history ++ [.control 0x41 0 []]) added := by
      simp only [List.append_assoc, List.singleton_append]
    rw [appended] at sent
    refine Iff.trans ?_ sent
    constructor
    · intro ran
      obtain ⟨failed, between, packets, rest⟩ := run_bind_eq_ok.mp ran
      cases failed with
      | none =>
        rw [finished] at rest
        cases rest
        exact packets
      | some error =>
        obtain ⟨failed', _, _, packets', differ, -⟩ := @sendPackets_transfers _ outside recoveryV2
          rfl buffer (packetsOf buffer.length) 0 0 (history ++ [.control 0x41 0 []])
          (Nat.zero_add _)
        rw [packets] at packets'
        cases packets'
        cases rest
        exact absurd rfl differ
    · intro packets
      rw [run_bind packets]
      dsimp only
      rw [finished]
      rfl
  · rw [if_pos zero]
    exact iff_of_false (fun ran => zero (Except.ok.inj (Prod.mk.inj ran).1))
      fun all => zero all.2.1

/-- A device that takes whatever it is sent. -/
def taking : Outside Nat :=
  { control := fun _ _ _ _ => (0, []), bulk := fun _ data => (0, data.length),
    call := fun _ _ _ => 0 }

/-- Three bytes go out in one packet, behind the announcement. -/
theorem three_bytes_uploaded :
    (irecvSendBuffer taking recoveryV2 [1, 2, 3] true).run [] =
      (.ok IRECV_E_SUCCESS, [.control 0x41 0 [], .bulk [1, 2, 3]]) := by
  refine (sendBuffer_iff_sendFile taking [] _ [1, 2, 3] true (by decide)).mpr
    ⟨?_, rfl, [.bulk [1, 2, 3]], rfl, complete_cons.mpr ⟨rfl, complete_nil _⟩⟩
  have written : (usbControlWrite taking 0x41 0 []).run [] = (.ok none, [.control 0x41 0 []]) := rfl
  have ended : ∀ history : List (Action Nat),
      (writePieces taking []).run history = (.ok none, history) := by
    intro history
    rw [writePieces, if_pos rfl]
    rfl
  rw [sendFile, run_bind written]
  dsimp only
  rw [run_writePieces (by decide)]
  exact ended _

end Irestore.Recovery
