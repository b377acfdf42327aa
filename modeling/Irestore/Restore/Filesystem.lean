/-
# Restore.Filesystem — extracting the filesystem and sending it

`ipsw_extract_to_file` copies an entry of the archive to a file, a buffer at a time;
`asr_send_payload` sends the file in packets of 1450 bytes.  Both count down an
`int`, set to the low 32 bits of a size, and stop when it is not positive.

`Reads` is what `zip_fread` answers, call by call, and `sends` what the connection
answers.  `left` and `requested` follow the countdown: what is still to come before a
call, and the sum of what was asked for.

* `extract_spec` — the loop completes, breaks at an error, or overflows the `int` it
  sums the requests in.
* `payloadLoop_spec` — a file below 2 GiB is sent whole, in order, or a send fails.
* `transfers_iff` — when what both report as done has been done.
* `oversized_entry` — an entry of 2 GiB gives an empty file, and both return 0.
-/
import Irestore.Library.CMemory

namespace Irestore.Restore

open Irestore.Library.CMemory

set_option autoImplicit false

/-! ## Extraction -/

/-- Which of the steps before the loop succeed. -/
structure Setup where
  archive : Bool
  located : Bool
  statted : Bool
  buffer : Bool
  entry : Bool
  output : Bool

def Setup.ready (setup : Setup) : Bool :=
  setup.archive && setup.located && setup.statted && setup.buffer && setup.entry && setup.output

/-- The answers of `zip_fread`, call by call: an error, or a number of bytes, of which it
hands out no more than it is asked for. -/
abbrev Reads := Nat → Option Nat

/-- The file written, and the value returned. -/
structure Extraction where
  file : List UInt8
  ret : Int
  deriving DecidableEq

def bufsize : Nat := 0x100000

/-- The loop of `ipsw_extract_to_file`, from call `k` on; `rest` is what the entry still
holds. -/
def extractLoop (reads : Reads) (k : Nat) (i : Int) (bytes : Nat) (rest : List UInt8) :
    Checked Extraction :=
  if 0 < i then
    let size := if i < bufsize then i.toNat else bufsize
    match reads k with
    | none => return ⟨[], -1⟩
    | some answer =>
        let count := min answer size
        -- `bytes`, an `int`, feeds the progress bar only, but its overflow has no meaning
        if bytes + size < 2 ^ 31 then do
          let later ← extractLoop reads (k + 1) (i - count) (bytes + size) (rest.drop count)
          return ⟨rest.take count ++ later.file, later.ret⟩
        else .error .intOverflow
  else return ⟨[], 0⟩
termination_by 2 ^ 31 - bytes
decreasing_by
  have : 0 < bufsize := by decide
  have : 0 < size := by simp only [size]; split <;> omega
  omega

/-- `ipsw_extract_to_file`, for an entry with this content. -/
def ipswExtractToFile (setup : Setup) (reads : Reads) (content : List UInt8) :
    Checked Extraction :=
  if setup.ready then extractLoop reads 0 (toInt32 content.length) 0 content
  else return ⟨[], -1⟩

/-! ## Sending -/

/-- The answer of `idevice_connection_send`: success, and the bytes it took. -/
structure Sent where
  success : Bool
  bytes : Nat
  deriving DecidableEq

/-- `asr_send_buffer`. -/
def asrSendBuffer (sent : Sent) (size : Nat) : Int :=
  if sent.success = false ∨ sent.bytes ≠ size then -1 else 0

/-- The packets handed to the connection, and the value returned. -/
structure Payload where
  packets : List (List UInt8)
  ret : Int

/-- The loop of `asr_send_payload`; `file` is what is still to read. -/
def payloadLoop (sends : Nat → Sent) (i : Int) (file : List UInt8) : Payload :=
  if 0 < i then
    let size := if i < 1450 then i.toNat else 1450
    if file.length < size then ⟨[], -1⟩
    else if asrSendBuffer (sends 0) size < 0 then ⟨[file.take size], -1⟩
    else
      let later := payloadLoop (fun k => sends (k + 1)) (i - 1450) (file.drop size)
      ⟨file.take size :: later.packets, later.ret⟩
  else ⟨[], 0⟩
termination_by i.toNat

/-- `asr_send_payload`: the length is read into a `uint32_t`. -/
def asrSendPayload (opened : Bool) (sends : Nat → Sent) (file : List UInt8) : Payload :=
  if opened then payloadLoop sends (toInt32 (file.length % 2 ^ 32)) file else ⟨[], -1⟩

/-! ## The countdown -/

section Countdown

variable (reads : Reads) (n : Nat)

/-- What is left of `n` bytes before a call. -/
def left : Nat → Nat
  | 0 => n
  | k + 1 => left k - min ((reads k).getD 0) (min (left k) bufsize)

/-- The sum of what was asked for before a call. -/
def requested : Nat → Nat
  | 0 => 0
  | k + 1 => requested k + min (left reads n k) bufsize

/-- The calls hand out all of the `n` bytes. -/
def Completes : Prop :=
  ∃ k, (∀ j < k, reads j ≠ none) ∧ left reads n k = 0 ∧ requested reads n k < 2 ^ 31

/-- A call fails before all of the `n` bytes are handed out. -/
def Breaks : Prop :=
  ∃ k, (∀ j < k, reads j ≠ none) ∧ 0 < left reads n k ∧ reads k = none ∧
    requested reads n k < 2 ^ 31

theorem left_antitone : Antitone (left reads n) :=
  antitone_nat_of_succ_le fun _ => Nat.sub_le _ _

theorem requested_monotone : Monotone (requested reads n) :=
  monotone_nat_of_le_succ fun _ => Nat.le_add_right _ _

end Countdown

/-! ## The extraction loop -/

theorem extractLoop_done {reads : Reads} {i : Int} (done : i ≤ 0) (k bytes : Nat)
    (rest : List UInt8) : extractLoop reads k i bytes rest = .ok ⟨[], 0⟩ := by
  rw [extractLoop, if_neg (by omega)]
  rfl

theorem extractLoop_step {reads : Reads} {m : Nat} (positive : 0 < m) (k bytes : Nat)
    (rest : List UInt8) :
    extractLoop reads k m bytes rest =
      match reads k with
      | none => .ok ⟨[], -1⟩
      | some answer =>
          if bytes + min m bufsize < 2 ^ 31 then do
            let later ← extractLoop reads (k + 1)
              ((m - min answer (min m bufsize) : Nat) : Int) (bytes + min m bufsize)
              (rest.drop (min answer (min m bufsize)))
            return ⟨rest.take (min answer (min m bufsize)) ++ later.file, later.ret⟩
          else .error .intOverflow := by
  have size : (if (m : Int) < bufsize then (m : Int).toNat else bufsize) = min m bufsize := by
    split <;> omega
  rw [extractLoop, if_pos (by omega)]
  simp only [size]
  cases reads k with
  | none => rfl
  | some answer =>
    have count : ((m : Int) - (min answer (min m bufsize) : Nat)) =
        ((m - min answer (min m bufsize) : Nat) : Int) := by omega
    simp only [count]

section Loop

variable {reads : Reads} {n : Nat}

/-- The loop at the point the countdown gives for a call. -/
def loopAt (reads : Reads) (n k : Nat) (rest : List UInt8) : Checked Extraction :=
  extractLoop reads k (left reads n k : Nat) (requested reads n k) rest

theorem loopAt_done {k : Nat} (done : left reads n k = 0) (rest : List UInt8) :
    loopAt reads n k rest = .ok ⟨[], 0⟩ := by
  apply extractLoop_done
  omega

theorem loopAt_broken {k : Nat} (positive : 0 < left reads n k) (broken : reads k = none)
    (rest : List UInt8) : loopAt reads n k rest = .ok ⟨[], -1⟩ := by
  rw [loopAt, extractLoop_step positive, broken]

/-- One call that hands out bytes, and the rest of the loop. -/
theorem loopAt_step {k : Nat} (positive : 0 < left reads n k) (served : reads k ≠ none)
    (rest : List UInt8) :
    loopAt reads n k rest =
      if requested reads n (k + 1) < 2 ^ 31 then do
        let later ← loopAt reads n (k + 1) (rest.drop (left reads n k - left reads n (k + 1)))
        return ⟨rest.take (left reads n k - left reads n (k + 1)) ++ later.file, later.ret⟩
      else .error .intOverflow := by
  obtain ⟨answer, answered⟩ := Option.ne_none_iff_exists'.mp served
  have next : left reads n (k + 1) =
      left reads n k - min answer (min (left reads n k) bufsize) := by
    rw [left, answered, Option.getD_some]
  have count : left reads n k - left reads n (k + 1) =
      min answer (min (left reads n k) bufsize) := by omega
  rw [loopAt, extractLoop_step positive, answered, count]
  simp only [loopAt, next]
  rfl

theorem loopAt_completes : ∀ (d k : Nat) (rest : List UInt8),
    (∀ j < k + d, reads j ≠ none) → left reads n (k + d) = 0 →
      requested reads n (k + d) < 2 ^ 31 →
      loopAt reads n k rest = .ok ⟨rest.take (left reads n k), 0⟩ := by
  intro d
  induction d with
  | zero =>
    intro k rest _ done _
    rw [Nat.add_zero] at done
    rw [loopAt_done done, done, List.take_zero]
  | succ d ih =>
    intro k rest served done small
    rcases Nat.eq_zero_or_pos (left reads n k) with zero | positive
    · rw [loopAt_done zero, zero, List.take_zero]
    have next : k + (d + 1) = k + 1 + d := by omega
    rw [next] at served done small
    have fits : requested reads n (k + 1) < 2 ^ 31 :=
      lt_of_le_of_lt (requested_monotone reads n (by omega)) small
    have shrinks : left reads n (k + 1) ≤ left reads n k := left_antitone reads n (by omega)
    rw [loopAt_step positive (served k (by omega)), if_pos fits, ih (k + 1) _ served done small,
      ok_bind]
    show Except.ok (Extraction.mk (_ ++ _) 0) = _
    rw [← List.take_add, Nat.sub_add_cancel shrinks]

theorem loopAt_breaks : ∀ (d k : Nat) (rest : List UInt8),
    (∀ j < k + d, reads j ≠ none) → 0 < left reads n (k + d) → reads (k + d) = none →
      requested reads n (k + d) < 2 ^ 31 → ∃ file, loopAt reads n k rest = .ok ⟨file, -1⟩ := by
  intro d
  induction d with
  | zero => exact fun k rest _ positive broken _ => ⟨[], loopAt_broken positive broken rest⟩
  | succ d ih =>
    intro k rest served positive broken small
    have before : 0 < left reads n k :=
      lt_of_lt_of_le positive (left_antitone reads n (by omega))
    have next : k + (d + 1) = k + 1 + d := by omega
    rw [next] at served positive broken small
    have fits : requested reads n (k + 1) < 2 ^ 31 :=
      lt_of_le_of_lt (requested_monotone reads n (by omega)) small
    obtain ⟨file, run⟩ := ih (k + 1) (rest.drop (left reads n k - left reads n (k + 1)))
      served positive broken small
    rw [loopAt_step before (served k (by omega)), if_pos fits, run]
    exact ⟨_, rfl⟩

/-- A loop that ends has completed or broken off: every call asks for a byte at least, so
the sum of the requests bounds the calls. -/
theorem loopAt_ends : ∀ (gap k : Nat) (rest : List UInt8), 2 ^ 31 - requested reads n k ≤ gap →
    (∀ j < k, reads j ≠ none) → requested reads n k < 2 ^ 31 → Ends (loopAt reads n k rest) →
      Completes reads n ∨ Breaks reads n := by
  intro gap
  induction gap with
  | zero => exact fun k rest bound _ small _ => by omega
  | succ gap ih =>
    intro k rest bound served small ends
    rcases Nat.eq_zero_or_pos (left reads n k) with zero | positive
    · exact .inl ⟨k, served, zero, small⟩
    rcases eq_or_ne (reads k) none with broken | answered
    · exact .inr ⟨k, served, positive, broken, small⟩
    rw [loopAt_step positive answered] at ends
    by_cases fits : requested reads n (k + 1) < 2 ^ 31
    · rw [if_pos fits] at ends
      obtain ⟨extraction, run⟩ := ends
      obtain ⟨later, run, -⟩ := bind_eq_ok.mp run
      have grows : requested reads n k < requested reads n (k + 1) := by
        have : 0 < bufsize := by decide
        rw [requested]
        omega
      refine ih (k + 1) _ (by omega) (fun j before => ?_) fits ⟨later, run⟩
      rcases Nat.lt_succ_iff_lt_or_eq.mp before with earlier | rfl
      · exact served j earlier
      · exact answered
    · rw [if_neg fits] at ends
      obtain ⟨_, run⟩ := ends
      cases run

end Loop

/-- The `int` the countdown starts at, as a number of bytes. -/
def counter (size : Nat) : Nat := (toInt32 size).toNat

theorem counter_eq_iff {size : Nat} : counter size = size ↔ size < 2 ^ 31 := by
  have bounds := toInt32_le size
  constructor
  · intro same
    rw [counter] at same
    omega
  · intro small
    rw [counter, toInt32_of_lt small, Int.toNat_natCast]

/-- What a loop started at the low 32 bits of the size does. -/
theorem extract_spec (reads : Reads) (content : List UInt8) :
    (Completes reads (counter content.length) →
      extractLoop reads 0 (toInt32 content.length) 0 content =
        .ok ⟨content.take (counter content.length), 0⟩) ∧
    (Breaks reads (counter content.length) →
      ∃ file, extractLoop reads 0 (toInt32 content.length) 0 content = .ok ⟨file, -1⟩) ∧
    (Ends (extractLoop reads 0 (toInt32 content.length) 0 content) →
      Completes reads (counter content.length) ∨ Breaks reads (counter content.length)) := by
  have start : extractLoop reads 0 (toInt32 content.length) 0 content =
      loopAt reads (counter content.length) 0 content := by
    rcases le_or_gt (toInt32 content.length) 0 with done | positive
    · rw [extractLoop_done done]
      have zero : left reads (counter content.length) 0 = 0 := Int.toNat_of_nonpos done
      exact (loopAt_done zero content).symm
    · rw [loopAt, left, counter, Int.toNat_of_nonneg (le_of_lt positive), requested]
  rw [start]
  refine ⟨?_, ?_, ?_⟩
  · rintro ⟨k, served, done, small⟩
    rw [← Nat.zero_add k] at served done small
    exact loopAt_completes k 0 content served done small
  · rintro ⟨k, served, positive, broken, small⟩
    rw [← Nat.zero_add k] at served positive broken small
    exact loopAt_breaks k 0 content served positive broken small
  · exact loopAt_ends (2 ^ 31) 0 content (Nat.sub_le _ _) (by simp) (Nat.two_pow_pos 31)

/-! ## The sending loop -/

/-- The connection takes every packet of a file of `length` bytes whole. -/
def Accepts (sends : Nat → Sent) (length : Nat) : Prop :=
  ∀ k, 1450 * k < length → sends k = ⟨true, min (length - 1450 * k) 1450⟩

theorem asrSendBuffer_negative {sent : Sent} {size : Nat} :
    asrSendBuffer sent size < 0 ↔ sent ≠ ⟨true, size⟩ := by
  obtain ⟨success, bytes⟩ := sent
  rw [asrSendBuffer]
  cases success with
  | false => simp
  | true =>
    simp only [Bool.true_eq_false, false_or, ne_eq, Sent.mk.injEq, true_and]
    split
    · simp_all
    · simp_all

theorem accepts_step {sends : Nat → Sent} {length : Nat} (positive : 0 < length) :
    Accepts sends length ↔ sends 0 = ⟨true, min length 1450⟩ ∧
      Accepts (fun k => sends (k + 1)) (length - 1450) := by
  constructor
  · intro accepts
    refine ⟨accepts 0 positive, fun k below => ?_⟩
    have later := accepts (k + 1) (by omega)
    rw [show length - 1450 * (k + 1) = length - 1450 - 1450 * k by omega] at later
    exact later
  · rintro ⟨first, later⟩ k below
    cases k with
    | zero => exact first
    | succ k =>
      rw [show length - 1450 * (k + 1) = length - 1450 - 1450 * k by omega]
      exact later k (by omega)

theorem payloadLoop_done {i : Int} (done : i ≤ 0) (sends : Nat → Sent) (file : List UInt8) :
    payloadLoop sends i file = ⟨[], 0⟩ := by
  rw [payloadLoop, if_neg (by omega)]

/-- Below zero the countdown is as good as at zero. -/
theorem payloadLoop_toNat (sends : Nat → Sent) (i : Int) (file : List UInt8) :
    payloadLoop sends i file = payloadLoop sends (i.toNat : Nat) file := by
  rcases le_or_gt i 0 with done | positive
  · rw [payloadLoop_done done, payloadLoop_done (by omega)]
  · rw [Int.toNat_of_nonneg (le_of_lt positive)]

theorem payloadLoop_step {length : Nat} (positive : 0 < length) (sends : Nat → Sent)
    {file : List UInt8} (whole : file.length = length) :
    payloadLoop sends length file =
      if asrSendBuffer (sends 0) (min length 1450) < 0 then
        ⟨[file.take (min length 1450)], -1⟩
      else
        let later := payloadLoop (fun k => sends (k + 1)) (length - 1450 : Nat)
          (file.drop (min length 1450))
        ⟨file.take (min length 1450) :: later.packets, later.ret⟩ := by
  have size : (if (length : Int) < 1450 then (length : Int).toNat else 1450) =
      min length 1450 := by split <;> omega
  have enough : ¬ file.length < min length 1450 := by omega
  have next : ((length : Int) - 1450).toNat = length - 1450 := by omega
  rw [payloadLoop, if_pos (by omega)]
  simp only [size, if_neg enough]
  rw [payloadLoop_toNat _ ((length : Int) - 1450), next]

/-- **A file is sent whole, in order, in packets of at most 1450 bytes**, or a send fails. -/
theorem payloadLoop_spec : ∀ (length : Nat) (sends : Nat → Sent) (file : List UInt8),
    file.length = length →
      (Accepts sends length → (payloadLoop sends length file).ret = 0 ∧
        (payloadLoop sends length file).packets.flatten = file ∧
        ∀ packet ∈ (payloadLoop sends length file).packets, packet.length ≤ 1450) ∧
      (¬ Accepts sends length → (payloadLoop sends length file).ret = -1) := by
  intro length
  induction length using Nat.strong_induction_on with
  | h length ih =>
    intro sends file whole
    rcases Nat.eq_zero_or_pos length with rfl | positive
    · rw [payloadLoop_done (by omega), List.length_eq_zero_iff.mp whole]
      refine ⟨fun _ => ⟨rfl, rfl, by simp⟩, fun refused => absurd ?_ refused⟩
      exact fun k below => absurd below (Nat.not_lt_zero _)
    rw [payloadLoop_step positive sends whole, accepts_step positive]
    obtain ⟨sent, failed⟩ := ih (length - 1450) (by omega) (fun k => sends (k + 1))
      (file.drop (min length 1450)) (by rw [List.length_drop]; omega)
    by_cases first : sends 0 = ⟨true, min length 1450⟩
    · rw [if_neg fun negative => asrSendBuffer_negative.mp negative first]
      refine ⟨fun accepts => ?_, fun refused => ?_⟩
      · obtain ⟨ret, flat, short⟩ := sent accepts.2
        refine ⟨ret, ?_, ?_⟩
        · rw [List.flatten_cons, flat, List.take_append_drop]
        · intro packet member
          rcases List.mem_cons.mp member with rfl | inLater
          · rw [List.length_take]
            omega
          · exact short packet inLater
      · exact failed fun accepts => refused ⟨first, accepts⟩
    · rw [if_pos (asrSendBuffer_negative.mpr first)]
      exact ⟨fun accepts => absurd accepts.1 first, fun _ => rfl⟩

/-! ## Both -/

/-- What is reported as done has been done: the extraction ends, and when both return 0
the file is the entry and the packets are the file. -/
structure Transfers (content : List UInt8) (run : Checked Extraction)
    (send : List UInt8 → Payload) : Prop where
  ends : Ends run
  exact : ∀ extraction, run = .ok extraction → extraction.ret = 0 →
    (send extraction.file).ret = 0 →
      extraction.file = content ∧ (send extraction.file).packets.flatten = extraction.file ∧
        ∀ packet ∈ (send extraction.file).packets, packet.length ≤ 1450

theorem asrSendPayload_eq {file : List UInt8} (small : file.length < 2 ^ 31)
    (sends : Nat → Sent) : asrSendPayload true sends file = payloadLoop sends file.length file := by
  rw [asrSendPayload, if_pos rfl, Nat.mod_eq_of_lt (by omega), toInt32_of_lt small]

/-- **When the two functions transfer the filesystem.**  A step before the loop fails, or a
read does, or the reads hand out what the countdown started at, and this is the whole
entry, unless the payload is refused. -/
theorem transfers_iff (setup : Setup) (reads : Reads) (opened : Bool) (sends : Nat → Sent)
    (content : List UInt8) :
    Transfers content (ipswExtractToFile setup reads content) (asrSendPayload opened sends) ↔
      setup.ready = false ∨ Breaks reads (counter content.length) ∨
        Completes reads (counter content.length) ∧
          (content.length < 2 ^ 31 ∨ opened = false ∨ ¬ Accepts sends (counter content.length)) := by
  obtain ⟨completes, breaks, ended⟩ := extract_spec reads content
  cases ready : setup.ready with
  | false =>
    rw [ipswExtractToFile, ready]
    refine iff_of_true ⟨⟨_, rfl⟩, fun extraction run success => ?_⟩ (.inl rfl)
    cases run
    cases success
  | true =>
    rw [ipswExtractToFile, ready, if_pos rfl]
    have length : (content.take (counter content.length)).length = counter content.length := by
      have bounds := toInt32_le content.length
      rw [List.length_take, counter]
      omega
    have small : (content.take (counter content.length)).length < 2 ^ 31 := by
      have bounds := toInt32_le content.length
      rw [length, counter]
      omega
    constructor
    · intro transfers
      refine .inr ?_
      rcases ended transfers.ends with complete | broken
      · refine .inr ⟨complete, ?_⟩
        by_contra neither
        push Not at neither
        obtain ⟨large, isOpen, accepts⟩ := neither
        have isOpen : opened = true := Bool.eq_true_of_not_eq_false isOpen
        obtain ⟨sent, -⟩ := payloadLoop_spec _ sends _ length
        have ret : (asrSendPayload opened sends (content.take (counter content.length))).ret = 0 := by
          rw [isOpen, asrSendPayload_eq small, length]
          exact (sent accepts).1
        have same : content.take (counter content.length) = content :=
          (transfers.exact _ (completes complete) rfl ret).1
        rw [same] at small
        omega
      · exact .inl broken
    · rintro (isFalse | broken | ⟨complete, reason⟩)
      · cases isFalse
      · obtain ⟨file, run⟩ := breaks broken
        refine ⟨⟨_, run⟩, fun extraction run' success => ?_⟩
        cases run.symm.trans run'
        cases success
      · refine ⟨⟨_, completes complete⟩, fun extraction run success paid => ?_⟩
        cases (completes complete).symm.trans run
        cases opened with
        | false => cases paid
        | true =>
          rw [asrSendPayload_eq small, length] at paid ⊢
          obtain ⟨sent, failed⟩ := payloadLoop_spec _ sends _ length
          by_cases accepts : Accepts sends (counter content.length)
          · have fits : content.length < 2 ^ 31 := by
              rcases reason with fits | isFalse | refused
              · exact fits
              · cases isFalse
              · exact absurd accepts refused
            refine ⟨?_, (sent accepts).2⟩
            show content.take (counter content.length) = content
            rw [counter_eq_iff.mpr fits, List.take_length]
          · rw [failed accepts] at paid
            cases paid

/-- An entry of 2 GiB: the counter starts below zero, the file stays empty, and both calls
return 0. -/
theorem oversized_entry :
    ¬ Transfers (List.replicate (2 ^ 31) 0)
      (ipswExtractToFile ⟨true, true, true, true, true, true⟩ (fun _ => some bufsize)
        (List.replicate (2 ^ 31) 0))
      (asrSendPayload true fun _ => ⟨true, 1450⟩) := by
  have negative : toInt32 (List.replicate (2 ^ 31) (0 : UInt8)).length ≤ 0 := by
    rw [List.length_replicate]
    decide
  have extracted : ipswExtractToFile ⟨true, true, true, true, true, true⟩
      (fun _ => some bufsize) (List.replicate (2 ^ 31) 0) = .ok ⟨[], 0⟩ := by
    rw [ipswExtractToFile, if_pos (by decide), extractLoop_done negative]
  have paid : asrSendPayload true (fun _ => ⟨true, 1450⟩) [] = ⟨[], 0⟩ := by
    rw [asrSendPayload, if_pos rfl, payloadLoop_done (by decide)]
  intro transfers
  have same := (transfers.exact ⟨[], 0⟩ extracted rfl (by rw [paid])).1
  have length := congrArg List.length same
  rw [List.length_replicate] at length
  cases length

end Irestore.Restore
