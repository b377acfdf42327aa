/-
# Usbmux.Requests — the three requests to usbmuxd

`usbmuxd_listen`, `usbmuxd_get_device_list` and `usbmuxd_connect` open a socket, send a
request under a new tag, read one result, and begin again in the plist protocol when it
says `RESULT_BADVERSION`.  They differ in how they read the two values
`usbmuxd_get_result` gives.

An `Attempt` is what the outside does in one pass: the socket, what the sends return,
the arrival read for the result, `errno` behind it, and the arrivals of the device
list.  `Statics` are the two static variables.

* `perform_retries` — at most one retry, and version 1 from then on.
* `honest_iff` — when a path returns a non-negative value for a result of code 0 only.
* `replies_taken_for_success` — where two of them do not.
-/
import Irestore.Usbmux.Packet

namespace Irestore.Usbmux

open Irestore.Library Irestore.Library.CMemory Irestore.Plist

set_option autoImplicit false

def RESULT_BADVERSION : UInt32 := 6

/-- `use_tag` and `proto_version`, which is only ever set to 1. -/
structure Statics where
  useTag : Nat
  protoVersion : Nat
  version : protoVersion = 0 ∨ protoVersion = 1

def Statics.start : Statics := ⟨0, 0, .inl rfl⟩

def Statics.upgraded (statics : Statics) : Statics := ⟨statics.useTag, 1, .inr rfl⟩

/-- One pass; `xmlSize` is the size of the request as a plist, and a device arrives with
whether the list can be made longer for it. -/
structure Attempt where
  socket : Int
  sentHeader : Int
  sentPayload : Int
  xmlSize : Nat
  arrival : Arrival
  errno : Nat
  devices : List (Arrival × Bool)

inductive Path where
  | listen
  | getDeviceList
  | connect
  deriving DecidableEq

/-! ## The request -/

/-- `send_packet`, for a payload of this size. -/
def sendPacket (attempt : Attempt) (payloadSize : Nat) : Int :=
  if attempt.sentHeader ≠ 16 then -1
  else
    let sent := attempt.sentHeader + if 0 < payloadSize then attempt.sentPayload else 0
    if sent ≠ 16 + payloadSize then -1 else sent

/-- `send_listen_packet` and `send_connect_packet`: the plist of the request in version 1,
else no payload, or the eight bytes of the connection. -/
def Path.send (path : Path) (statics : Statics) (attempt : Attempt) : Int :=
  if statics.protoVersion = 1 then sendPacket attempt attempt.xmlSize
  else
    match path with
    | .listen | .getDeviceList => sendPacket attempt 0
    | .connect => sendPacket attempt 8

/-! ## The device list -/

/-- The pointer `payload` of the loop; `free` leaves it as it is. -/
inductive Payload where
  | null
  | live (block : List UInt8)
  | released

/-- What a receipt makes of the pointer. -/
def Receipt.store (receipt : Receipt) (payload : Payload) : Payload :=
  match receipt.payload with
  | none => payload
  | some none => .null
  | some (some block) => .live block

def Payload.record : Payload → Checked UsbmuxdDeviceInfo
  | .null => .error .nullPointer
  | .live block => deviceInfo block
  | .released => .error .useAfterFree

def Payload.free : Payload → Checked Payload
  | .null => .ok .null
  | .live _ => .ok .released
  | .released => .error .useAfterFree

section Paths

variable (fromXml : List UInt8 → Checked (Option PlistNode))

/-- The loop that receives the device list. -/
def receiveDevices : List (Arrival × Bool) → Payload → List UsbmuxdDeviceInfo →
    Checked (List UsbmuxdDeviceInfo)
  | [], _, newlist => return newlist
  | (arrival, grown) :: rest, payload, newlist => do
      let receipt ← receivePacket fromXml arrival
      if receipt.ret ≤ 0 then return newlist
      else
        let payload := receipt.store payload
        if receipt.header.message = MESSAGE_DEVICE_ADD then
          if grown then do
            let info ← payload.record
            let payload ← payload.free
            receiveDevices rest payload (newlist ++ [info])
          else do
            let _ ← payload.free
            return newlist
        else do
          let payload ← payload.free
          receiveDevices rest payload newlist

/-- The number of devices, an `int`. -/
def countDevices (attempt : Attempt) : Checked Int := do
  let newlist ← receiveDevices fromXml attempt.devices .null []
  let count ← int newlist.length
  return count

/-! ## The attempts -/

inductive Outcome where
  | returned (value : Int)
  | retry
  deriving DecidableEq

/-- What `usbmuxd_listen` makes of the two values. -/
def listenAnswer (statics : Statics) (attempt : Attempt) (ret : Int) (res : UInt32) :
    Checked Outcome :=
  if ret ≠ 0 ∧ res ≠ 0 then
    if res = RESULT_BADVERSION ∧ statics.protoVersion ≠ 1 then return .retry
    else return .returned (-1)
  else return .returned attempt.socket

/-- What `usbmuxd_get_device_list` makes of them: it returns `res`, as an `int`. -/
def getDeviceListAnswer (statics : Statics) (attempt : Attempt) (ret : Int) (res : UInt32) :
    Checked Outcome :=
  if ret ≠ 0 ∧ res = 0 then do
    let count ← countDevices fromXml attempt
    return .returned count
  else if res = RESULT_BADVERSION ∧ statics.protoVersion ≠ 1 then return .retry
  else return .returned (toInt32 res.toNat)

/-- What `usbmuxd_connect` makes of them. -/
def connectAnswer (statics : Statics) (attempt : Attempt) (ret : Int) (res : UInt32) :
    Checked Outcome :=
  if ret ≠ 0 then
    if res = 0 then return .returned attempt.socket
    else if res = RESULT_BADVERSION ∧ statics.protoVersion = 0 then return .retry
    else return .returned (-1)
  else return .returned (-1)

def Path.answer : Path → Statics → Attempt → Int → UInt32 → Checked Outcome
  | .listen => listenAnswer
  | .getDeviceList => getDeviceListAnswer fromXml
  | .connect => connectAnswer

/-- How an attempt ended, what it left, and the arrival it read, if it came that far. -/
structure Ended where
  outcome : Outcome
  statics : Statics
  received : Option Arrival

/-- One attempt of a path. -/
def Path.once (path : Path) (statics : Statics) (attempt : Attempt) : Checked Ended :=
  if attempt.socket < 0 then return ⟨.returned attempt.socket, statics, none⟩
  else do
    let tag ← int (statics.useTag + 1)
    let statics := { statics with useTag := tag }
    if path.send statics attempt ≤ 0 then return ⟨.returned (-1), statics, none⟩
    else do
      let (ret, res) ← usbmuxdGetResult fromXml (UInt32.ofNat tag) attempt.arrival attempt.errno
      let outcome ← path.answer fromXml statics attempt ret res
      return ⟨outcome, if outcome = .retry then statics.upgraded else statics,
        some attempt.arrival⟩

/-- What a call returned: the value, the arrival read in the attempt it returned from, the
number of retries before, and the static variables. -/
structure Returned where
  value : Int
  received : Option Arrival
  retries : Nat
  statics : Statics

/-- A path with the attempts it may come to make; `none` when they are not enough. -/
def Path.perform (path : Path) (statics : Statics) : List Attempt → Checked (Option Returned)
  | [] => return none
  | attempt :: rest => do
      let ended ← path.once fromXml statics attempt
      match ended.outcome with
      | .returned value => return some ⟨value, ended.received, 0, ended.statics⟩
      | .retry => do
          let later ← Path.perform path ended.statics rest
          return later.map fun later => { later with retries := later.retries + 1 }

def usbmuxdListen := Path.perform fromXml .listen
def usbmuxdGetDeviceList := Path.perform fromXml .getDeviceList
def usbmuxdConnect := Path.perform fromXml .connect

/-! ## What a returned value stands for -/

/-- A non-negative value is returned only after a result of code 0 under the tag of the
request. -/
def Honest (returned : Returned) : Prop :=
  0 ≤ returned.value → ∃ arrival, returned.received = some arrival ∧
    arrival.header.tag = UInt32.ofNat returned.statics.useTag ∧ ResultMessage fromXml arrival 0

/-- The request goes out. -/
structure Asked (path : Path) (statics : Statics) (attempt : Attempt) : Prop where
  socket : 0 ≤ attempt.socket
  tag : statics.useTag + 1 < 2 ^ 31
  sent : 0 < path.send statics attempt

/-- The reply is a result of this code under the tag of the request. -/
def Answers (statics : Statics) (attempt : Attempt) (code : Nat) : Prop :=
  attempt.arrival.header.tag = UInt32.ofNat (statics.useTag + 1) ∧
    ResultMessage fromXml attempt.arrival code

/-- The path begins again: in version 0 the reply is `RESULT_BADVERSION`. -/
def Retries (path : Path) (statics : Statics) (attempt : Attempt) : Prop :=
  Asked path statics attempt ∧ statics.protoVersion = 0 ∧
    ∃ code, Answers fromXml statics attempt code ∧ code % 2 ^ 32 = 6

/-- The reply has a code, of a plist, that is 0 in its low 32 bits only. -/
def Wraps (statics : Statics) (attempt : Attempt) : Prop :=
  ∃ code, Answers fromXml statics attempt code ∧ code ≠ 0 ∧ code % 2 ^ 32 = 0

/-- The replies a path takes for a success, or passes on as a positive value. -/
def Misled (path : Path) (statics : Statics) (attempt : Attempt) : Prop :=
  Asked path statics attempt ∧
    match path with
    | .listen =>
        Silent fromXml (UInt32.ofNat (statics.useTag + 1)) attempt.arrival attempt.errno ∨
          Wraps fromXml statics attempt
    | .getDeviceList =>
        (∃ code, Answers fromXml statics attempt code ∧ 0 < code % 2 ^ 32 ∧
            code % 2 ^ 32 < 2 ^ 31) ∨
          Wraps fromXml statics attempt ∧ Ends (countDevices fromXml attempt)
    | .connect => Wraps fromXml statics attempt

end Paths

/-! ## One attempt -/

section Attempts

variable {fromXml : List UInt8 → Checked (Option PlistNode)} {path : Path} {statics : Statics}
  {attempt : Attempt}

/-- The static variables after a request went out, and after a retry. -/
def Statics.next (statics : Statics) : Statics := { statics with useTag := statics.useTag + 1 }

theorem once_of_asked (asked : Asked path statics attempt) {ret : Int} {res : UInt32}
    (result : usbmuxdGetResult fromXml (UInt32.ofNat (statics.useTag + 1)) attempt.arrival
      attempt.errno = .ok (ret, res)) {outcome : Outcome}
    (answer : path.answer fromXml statics.next attempt ret res = .ok outcome) :
    path.once fromXml statics attempt =
      .ok ⟨outcome, if outcome = .retry then statics.next.upgraded else statics.next,
        some attempt.arrival⟩ := by
  have sent : ¬ path.send statics.next attempt ≤ 0 := not_le.mpr asked.sent
  rw [Path.once, if_neg (not_lt.mpr asked.socket), int, if_pos asked.tag, ok_bind]
  show (if path.send statics.next attempt ≤ 0 then _ else _) = _
  rw [if_neg sent, result, ok_bind]
  show path.answer fromXml statics.next attempt ret res >>= _ = _
  rw [answer]
  rfl

/-- An attempt fails before a result is read, or it goes by the result. -/
theorem once_cases {ended : Ended} (run : path.once fromXml statics attempt = .ok ended) :
    (∃ value, ended.outcome = .returned value ∧ value < 0 ∧
        ended.statics.protoVersion = statics.protoVersion) ∨
      Asked path statics attempt ∧ ∃ ret res,
        usbmuxdGetResult fromXml (UInt32.ofNat (statics.useTag + 1)) attempt.arrival
          attempt.errno = .ok (ret, res) ∧
        path.answer fromXml statics.next attempt ret res = .ok ended.outcome ∧
        ended.statics =
          (if ended.outcome = .retry then statics.next.upgraded else statics.next) ∧
        ended.received = some attempt.arrival := by
  rw [Path.once] at run
  split at run
  · rename_i negative
    cases run
    exact .inl ⟨_, rfl, negative, rfl⟩
  rename_i socket
  obtain ⟨tag, counted, run⟩ := bind_eq_ok.mp run
  rw [int] at counted
  split at counted
  · rename_i small
    cases counted
    change (if path.send statics.next attempt ≤ 0 then _ else _) = _ at run
    split at run
    · cases run
      exact .inl ⟨_, rfl, Int.negSucc_lt_zero 0, rfl⟩
    rename_i sent
    obtain ⟨⟨ret, res⟩, result, run⟩ := bind_eq_ok.mp run
    obtain ⟨outcome, answer, run⟩ := bind_eq_ok.mp run
    cases run
    exact .inr ⟨⟨not_lt.mp socket, small, not_le.mp sent⟩, ret, res, result, answer, rfl, rfl⟩
  · cases counted

/-- Only `RESULT_BADVERSION` in version 0 makes a path begin again. -/
theorem answer_retry {ret : Int} {res : UInt32}
    (answer : path.answer fromXml statics attempt ret res = .ok .retry) :
    res = RESULT_BADVERSION ∧ statics.protoVersion = 0 := by
  have version := statics.version
  cases path with
  | listen =>
    rw [Path.answer, listenAnswer] at answer
    split_ifs at answer with failed retry
    · exact ⟨retry.1, by omega⟩
    · cases answer
    · cases answer
  | getDeviceList =>
    rw [Path.answer, getDeviceListAnswer] at answer
    split_ifs at answer with success retry
    · obtain ⟨count, -, answer⟩ := bind_eq_ok.mp answer
      cases answer
    · exact ⟨retry.1, by omega⟩
    · cases answer
  | connect =>
    rw [Path.answer, connectAnswer] at answer
    split_ifs at answer with received success retry
    · cases answer
    · exact retry
    · cases answer
    · cases answer

theorem answer_badVersion (version : statics.protoVersion = 0) :
    path.answer fromXml statics attempt 1 RESULT_BADVERSION = .ok .retry := by
  have notZero : RESULT_BADVERSION ≠ 0 := by decide
  cases path with
  | listen => simp [Path.answer, listenAnswer, notZero, version, pure, Except.pure]
  | getDeviceList => simp [Path.answer, getDeviceListAnswer, notZero, version, pure, Except.pure]
  | connect => simp [Path.answer, connectAnswer, notZero, version, pure, Except.pure]

theorem ofNat_eq_iff {code n : Nat} :
    UInt32.ofNat code = UInt32.ofNat n ↔ code % 2 ^ 32 = n % 2 ^ 32 := by
  rw [← UInt32.toNat_inj, UInt32.toNat_ofNat', UInt32.toNat_ofNat']

theorem getResult_of_answers {code : Nat} (answers : Answers fromXml statics attempt code) :
    usbmuxdGetResult fromXml (UInt32.ofNat (statics.useTag + 1)) attempt.arrival attempt.errno =
      .ok (1, UInt32.ofNat code) :=
  getResult_of_message attempt.errno answers.1 answers.2

/-- A reply of `RESULT_BADVERSION` in version 0 is a retry in version 1. -/
theorem once_of_retries (retries : Retries fromXml path statics attempt) :
    path.once fromXml statics attempt =
      .ok ⟨.retry, statics.next.upgraded, some attempt.arrival⟩ := by
  obtain ⟨asked, version, code, answers, isSix⟩ := retries
  have result := getResult_of_answers answers
  rw [show UInt32.ofNat code = RESULT_BADVERSION from
    (ofNat_eq_iff (n := 6)).mpr isSix] at result
  exact once_of_asked asked result (@answer_badVersion fromXml path statics.next attempt version)

theorem retries_of_once {ended : Ended} (run : path.once fromXml statics attempt = .ok ended)
    (retry : ended.outcome = .retry) : Retries fromXml path statics attempt := by
  rcases once_cases run with ⟨value, returned, -⟩ | ⟨asked, ret, res, result, answer, -⟩
  · cases returned.symm.trans retry
  rw [retry] at answer
  obtain ⟨rfl, version⟩ := answer_retry answer
  refine ⟨asked, version, ?_⟩
  rcases getResult_cases result with ⟨rfl, -⟩ | ⟨-, unset, -⟩ | ⟨-, unset, -⟩
  · obtain ⟨tag, code, message, same⟩ := getResult_one result
    exact ⟨code, ⟨tag, message⟩, (ofNat_eq_iff (n := 6)).mp same.symm⟩
  · exact absurd unset (by decide)
  · exact absurd unset (by decide)

/-! ## The retries of a call -/

/-- A call ends with its first attempt, or goes on behind it in version 1. -/
theorem perform_cases {rest : List Attempt} {result : Option Returned}
    (run : path.perform fromXml statics (attempt :: rest) = .ok result) :
    (∃ ended value, path.once fromXml statics attempt = .ok ended ∧
        ended.outcome = .returned value ∧
        result = some ⟨value, ended.received, 0, ended.statics⟩) ∨
      Retries fromXml path statics attempt ∧ ∃ later,
        path.perform fromXml statics.next.upgraded rest = .ok later ∧
        result = later.map fun later => { later with retries := later.retries + 1 } := by
  rw [Path.perform] at run
  obtain ⟨ended, once, run⟩ := bind_eq_ok.mp run
  cases outcome : ended.outcome with
  | returned value =>
    rw [outcome] at run
    cases run
    exact .inl ⟨ended, value, once, outcome, rfl⟩
  | retry =>
    have retries := retries_of_once once outcome
    cases once.symm.trans (once_of_retries retries)
    obtain ⟨later, again, run⟩ := bind_eq_ok.mp run
    cases run
    exact .inr ⟨retries, later, again, rfl⟩

/-- **At most one retry, and version 1 from then on.** -/
theorem perform_retries : ∀ {attempts : List Attempt} {statics : Statics} {returned : Returned},
    path.perform fromXml statics attempts = .ok (some returned) →
      returned.retries = 0 ∧ returned.statics.protoVersion = statics.protoVersion ∨
        returned.retries = 1 ∧ statics.protoVersion = 0 ∧ returned.statics.protoVersion = 1
  | [], _, _, run => by cases run
  | attempt :: rest, statics, returned, run => by
      rcases perform_cases run with ⟨ended, value, once, outcome, same⟩ |
        ⟨retries, later, again, same⟩
      · cases same
        refine .inl ⟨rfl, ?_⟩
        rcases once_cases once with ⟨_, _, _, same⟩ | ⟨_, _, _, _, _, same, _⟩
        · exact same
        · rw [same, if_neg (by rw [outcome]; simp)]
          rfl
      · cases later with
        | none => cases same
        | some later =>
          cases same
          rcases perform_retries again with ⟨zero, same⟩ | ⟨-, isZero, -⟩
          · exact .inr ⟨congrArg (· + 1) zero, retries.2.1, same⟩
          · cases isZero

/-- Two attempts are enough. -/
theorem perform_enough (first second : Attempt) (rest : List Attempt) :
    path.perform fromXml statics (first :: second :: rest) ≠ .ok none := by
  intro run
  rcases perform_cases run with ⟨ended, value, once, outcome, same⟩ | ⟨-, later, again, same⟩
  · cases same
  · cases later with
    | some later => cases same
    | none =>
      rcases perform_cases again with ⟨ended, value, once, outcome, same⟩ | ⟨retries, -⟩
      · cases same
      · cases retries.2.1

/-! ## Honest values -/

/-- Without a retry, what the call returns is what the attempt returns. -/
theorem perform_of_once {value : Int} {after : Statics} {received : Option Arrival}
    (once : path.once fromXml statics attempt = .ok ⟨.returned value, after, received⟩)
    (rest : List Attempt) :
    path.perform fromXml statics (attempt :: rest) = .ok (some ⟨value, received, 0, after⟩) := by
  rw [Path.perform, once, ok_bind]
  rfl

/-- What an honest value says of an attempt that read its reply. -/
theorem answers_of_honest {value : Int} {retries : Nat}
    (honest : Honest fromXml ⟨value, some attempt.arrival, retries, statics.next⟩)
    (success : 0 ≤ value) : Answers fromXml statics attempt 0 := by
  obtain ⟨arrival, same, tag, message⟩ := honest success
  cases same
  exact ⟨tag, message⟩

/-- An attempt that takes something else for a success returns it. -/
theorem once_of_misled (misled : Misled fromXml path statics attempt)
    (last : ¬ Retries fromXml path statics attempt) :
    ∃ value, 0 ≤ value ∧ ¬ Answers fromXml statics attempt 0 ∧
      path.once fromXml statics attempt =
        .ok ⟨.returned value, statics.next, some attempt.arrival⟩ := by
  obtain ⟨asked, misled⟩ := misled
  have wraps_not_zero : Wraps fromXml statics attempt → ¬ Answers fromXml statics attempt 0 := by
    rintro ⟨code, answers, nonzero, -⟩ zero
    exact nonzero (answers.2.unique zero.2)
  have wraps_result : Wraps fromXml statics attempt →
      usbmuxdGetResult fromXml (UInt32.ofNat (statics.useTag + 1)) attempt.arrival
        attempt.errno = .ok (1, 0) := by
    rintro ⟨code, answers, -, isZero⟩
    rw [getResult_of_answers answers, (ofNat_eq_iff (n := 0)).mpr isZero]
    rfl
  cases path with
  | listen =>
    rcases misled with silent | wraps
    · have result := getResult_of_silent silent
      refine ⟨attempt.socket, asked.socket, fun zero => ?_, ?_⟩
      · cases result.symm.trans (getResult_of_answers zero)
      · exact once_of_asked asked result rfl
    · exact ⟨attempt.socket, asked.socket, wraps_not_zero wraps,
        once_of_asked asked (wraps_result wraps) rfl⟩
  | getDeviceList =>
    rcases misled with ⟨code, answers, positive, small⟩ | ⟨wraps, count, counted⟩
    · have result := getResult_of_answers answers
      have width : (UInt32.ofNat code).toNat = code % 2 ^ 32 := UInt32.toNat_ofNat'
      have nonzero : UInt32.ofNat code ≠ 0 := by
        intro zero
        rw [zero] at width
        exact absurd width (ne_of_lt positive)
      have noRetry : ¬ (UInt32.ofNat code = RESULT_BADVERSION ∧
          statics.next.protoVersion ≠ 1) := by
        rintro ⟨same, other⟩
        have version := statics.next.version
        refine last ⟨asked, ?_, code, answers, (ofNat_eq_iff (n := 6)).mp same⟩
        exact version.resolve_right other
      refine ⟨toInt32 (UInt32.ofNat code).toNat, ?_, fun zero => ?_, ?_⟩
      · rw [width, toInt32_of_lt small]
        omega
      · have zero' := getResult_of_answers zero
        rw [result] at zero'
        simp only [Except.ok.injEq, Prod.mk.injEq, true_and] at zero'
        exact nonzero zero'
      · refine once_of_asked asked result ?_
        rw [Path.answer, getDeviceListAnswer, if_neg (by simp [nonzero]), if_neg noRetry]
        rfl
    · refine ⟨count, ?_, wraps_not_zero wraps, once_of_asked asked (wraps_result wraps) ?_⟩
      · rw [countDevices] at counted
        obtain ⟨newlist, -, counted⟩ := bind_eq_ok.mp counted
        obtain ⟨count', -, counted⟩ := bind_eq_ok.mp counted
        cases counted
        exact Int.natCast_nonneg count'
      · rw [Path.answer, getDeviceListAnswer, if_pos (by simp), counted]
        rfl
  | connect =>
    exact ⟨attempt.socket, asked.socket, wraps_not_zero misled,
      once_of_asked asked (wraps_result misled) rfl⟩

/-- A path that is not misled returns a non-negative value for a result of 0 only. -/
theorem accepted_of_not_misled {ret : Int} {res : UInt32} {value : Int}
    (asked : Asked path statics attempt)
    (result : usbmuxdGetResult fromXml (UInt32.ofNat (statics.useTag + 1)) attempt.arrival
      attempt.errno = .ok (ret, res))
    (answer : path.answer fromXml statics.next attempt ret res = .ok (.returned value))
    (success : 0 ≤ value) (fine : ¬ Misled fromXml path statics attempt) :
    ret = 1 ∧ res = 0 ∧ (path = .getDeviceList → Ends (countDevices fromXml attempt)) := by
  have unset_nonzero : (0xFFFFFFFF : UInt32) ≠ 0 := by decide
  cases path with
  | listen =>
    rw [Path.answer, listenAnswer] at answer
    split_ifs at answer with failed retry
    · cases answer
    · cases answer
      omega
    · rcases getResult_cases result with ⟨one, -⟩ | ⟨-, -, silent⟩ | ⟨negative, unset, -⟩
      · refine ⟨one, ?_, by simp⟩
        by_contra nonzero
        exact failed ⟨by omega, nonzero⟩
      · exact absurd ⟨asked, .inl silent⟩ fine
      · exact absurd ⟨ne_of_lt negative, unset ▸ unset_nonzero⟩ failed
  | getDeviceList =>
    rw [Path.answer, getDeviceListAnswer] at answer
    split_ifs at answer with succeeded retry
    · obtain ⟨count, counted, -⟩ := bind_eq_ok.mp answer
      rcases getResult_cases result with ⟨one, -⟩ | ⟨zero, -⟩ | ⟨-, unset, -⟩
      · exact ⟨one, succeeded.2, fun _ => ⟨count, counted⟩⟩
      · exact absurd zero succeeded.1
      · exact absurd succeeded.2 (unset ▸ unset_nonzero)
    · cases answer
    · cases answer
      rcases getResult_cases result with ⟨rfl, -⟩ | ⟨-, rfl, -⟩ | ⟨-, rfl, -⟩
      · obtain ⟨tag, code, message, rfl⟩ := getResult_one result
        have width : (UInt32.ofNat code).toNat = code % 2 ^ 32 := UInt32.toNat_ofNat'
        have nonzero : code % 2 ^ 32 ≠ 0 := fun isZero =>
          succeeded ⟨by decide, (ofNat_eq_iff (n := 0)).mpr isZero⟩
        rw [width, toInt32, Nat.mod_mod] at success
        refine absurd ⟨asked, .inl ⟨code, ⟨tag, message⟩, Nat.pos_of_ne_zero nonzero, ?_⟩⟩ fine
        by_contra large
        rw [if_neg large] at success
        omega
      · exact absurd success (by decide)
      · exact absurd success (by decide)
  | connect =>
    rw [Path.answer, connectAnswer] at answer
    split_ifs at answer with received succeeded retry
    · rcases getResult_cases result with ⟨one, -⟩ | ⟨zero, -⟩ | ⟨-, unset, -⟩
      · exact ⟨one, succeeded, by simp⟩
      · exact absurd zero received
      · exact absurd succeeded (unset ▸ unset_nonzero)
    · cases answer
    · cases answer
      omega
    · cases answer
      omega

/-- The reply behind a non-negative value of a path that is not misled. -/
theorem answers_of_not_misled {ended : Ended} {value : Int}
    (run : path.once fromXml statics attempt = .ok ended)
    (returned : ended.outcome = .returned value) (success : 0 ≤ value)
    (fine : ¬ Misled fromXml path statics attempt) :
    Answers fromXml statics attempt 0 ∧ ended.received = some attempt.arrival ∧
      ended.statics = statics.next := by
  rcases once_cases run with ⟨other, same, negative, -⟩ |
    ⟨asked, ret, res, result, answer, statics', received⟩
  · cases returned.symm.trans same
    omega
  rw [returned] at answer
  rw [returned, if_neg (by simp)] at statics'
  obtain ⟨rfl, rfl, counted⟩ := accepted_of_not_misled asked result answer success fine
  obtain ⟨tag, code, message, isZero⟩ := getResult_one result
  refine ⟨?_, received, statics'⟩
  rcases Nat.eq_zero_or_pos code with rfl | positive
  · exact ⟨tag, message⟩
  · have wraps : Wraps fromXml statics attempt :=
      ⟨code, ⟨tag, message⟩, by omega, (ofNat_eq_iff (n := 0)).mp isZero.symm⟩
    refine absurd ⟨asked, ?_⟩ fine
    cases path with
    | listen => exact .inr wraps
    | getDeviceList => exact .inr ⟨wraps, counted rfl⟩
    | connect => exact wraps

/-- The attempt a call returns from decides whether what it returns is honest. -/
theorem last_honest_iff (last : ¬ Retries fromXml path statics attempt) (rest : List Attempt) :
    (∀ returned, path.perform fromXml statics (attempt :: rest) = .ok (some returned) →
      Honest fromXml returned) ↔ ¬ Misled fromXml path statics attempt := by
  constructor
  · intro honest misled
    obtain ⟨value, success, notZero, once⟩ := once_of_misled misled last
    exact notZero (answers_of_honest (honest _ (perform_of_once once rest)) success)
  · intro fine returned run success
    rcases perform_cases run with ⟨ended, value, once, outcome, same⟩ | ⟨retries, -⟩
    · cases same
      obtain ⟨answers, received, same⟩ := answers_of_not_misled once outcome success fine
      refine ⟨attempt.arrival, received, ?_, answers.2⟩
      rw [answers.1]
      show _ = UInt32.ofNat ended.statics.useTag
      rw [same]
      rfl
    · exact absurd retries last

end Attempts

/-- **When a path returns a non-negative value for a result of code 0 only**: the attempt
it returns from, the second after a retry, is not misled.  And whatever the replies,
there is at most one retry, none in version 1, and version 1 from then on. -/
theorem honest_iff (fromXml : List UInt8 → Checked (Option PlistNode)) (path : Path)
    (statics : Statics) (first second : Attempt) (rest : List Attempt) :
    ((∀ returned, path.perform fromXml statics (first :: second :: rest) = .ok (some returned) →
        Honest fromXml returned) ↔
      (¬ Retries fromXml path statics first → ¬ Misled fromXml path statics first) ∧
        (Retries fromXml path statics first →
          ¬ Misled fromXml path statics.next.upgraded second)) ∧
      path.perform fromXml statics (first :: second :: rest) ≠ .ok none ∧
      ∀ attempts returned, path.perform fromXml statics attempts = .ok (some returned) →
        returned.retries = 0 ∧ returned.statics.protoVersion = statics.protoVersion ∨
          returned.retries = 1 ∧ statics.protoVersion = 0 ∧
            returned.statics.protoVersion = 1 := by
  refine ⟨?_, perform_enough first second rest, fun _ _ run => perform_retries run⟩
  by_cases retries : Retries fromXml path statics first
  · have last : ¬ Retries fromXml path statics.next.upgraded second := fun again =>
      absurd again.2.1 (by simp [Statics.upgraded])
    rw [← last_honest_iff last rest]
    simp only [retries, not_true_eq_false, false_implies, true_and, true_implies]
    have again : path.perform fromXml statics (first :: second :: rest) =
        (path.perform fromXml statics.next.upgraded (second :: rest) >>= fun later =>
          return later.map fun later => { later with retries := later.retries + 1 }) := by
      rw [Path.perform, once_of_retries retries]
      rfl
    rw [again]
    constructor
    · intro honest returned run
      exact honest { returned with retries := returned.retries + 1 } (by rw [run]; rfl)
    · intro honest returned run
      obtain ⟨later, ran, result⟩ := bind_eq_ok.mp run
      cases later with
      | none => cases result
      | some later =>
        cases result
        exact honest later ran
  · rw [last_honest_iff retries]
    simp [retries]

/-- An attempt whose request goes out and which reads a result with this tag and code. -/
def replied (tag : UInt32) (code : UInt8) : Attempt :=
  { socket := 5
    sentHeader := 16
    sentPayload := 0
    xmlSize := 0
    arrival := ⟨16, ⟨20, 0, MESSAGE_RESULT, tag⟩, some [code, 0, 0, 0]⟩
    errno := 0
    devices := [] }

/-- `usbmuxd_listen` takes a result under a foreign tag for its own, and
`usbmuxd_get_device_list` returns the code of a refusal as if it were a count. -/
theorem replies_taken_for_success :
    (∃ returned, usbmuxdListen (fun _ => .ok none) .start [replied 9 0] = .ok (some returned) ∧
      returned.value = 5 ∧ ¬ Honest (fun _ => .ok none) returned) ∧
    ∃ returned, usbmuxdGetDeviceList (fun _ => .ok none) .start [replied 1 3] =
        .ok (some returned) ∧
      returned.value = 3 ∧ ¬ Honest (fun _ => .ok none) returned := by
  refine ⟨⟨⟨5, some (replied 9 0).arrival, 0, Statics.start.next⟩, rfl, rfl, fun honest => ?_⟩,
    ⟨⟨3, some (replied 1 3).arrival, 0, Statics.start.next⟩, rfl, rfl, fun honest => ?_⟩⟩
  · obtain ⟨arrival, same, tag, -⟩ := honest (by decide)
    cases same
    exact absurd tag (by decide)
  · obtain ⟨arrival, same, tag, message⟩ := honest (by decide)
    cases same
    have result := getResult_of_message 0 tag message
    exact absurd result (by decide +kernel)

end Irestore.Usbmux
