/-
# Lockdown.Sessions — the session id, the SSL flag and the running session

What a history says about sessions does not depend on the client: `track` reads
from the requests and replies alone whether a session is running (its start was
answered with `Success`, and no stop since).  `Upheld` compares the client with it.

* `kept_startSession`, `kept_stopSession`, `kept_startService` — what each call
  needs to keep the two together.
* `sessions_upheld` — a run whose calls all meet these conditions upholds the
  session in every state it reaches.
* `restart_refused_dangles` — a session that is refused while another one is running
  leaves the client with an id that was released.

A session is stopped by the device, but `lockdownd_stop_session` keeps the id and
`ssl_enabled`: it is only when the device does not answer `Success` (over SSL: does
not answer at all) that nothing changes on either side.
-/
import Irestore.Library.Trace
import Irestore.Lockdown.Client

namespace Irestore.Lockdown

open Irestore.Library Irestore.Library.CMemory Irestore.Library.Program Irestore.Plist

set_option autoImplicit false

/-! ## What a history says -/

/-- The reply holds the string `value` under `key`. -/
def hasString (reply : PlistNode) (key value : CText) : Bool :=
  stringItem reply key = .ok (some value.val)

/-- The reply had the result `Success`. -/
def successful (reply : PlistNode) : Bool := hasString reply (cText "Result") (cText "Success")

/-- The last request sent, whether the last `StartSession` was answered with
`Success`, and whether a session is running. -/
structure Track where
  pending : Option Request
  accepted : Bool
  running : Bool

def Track.step (t : Track) : Event → Track
  | .sent request _ =>
      { t with
        pending := some request
        accepted := match request with | .startSession _ => false | _ => t.accepted }
  | .received none => t
  | .received (some reply) =>
      if successful reply then
        match t.pending with
        | some (.startSession _) => { t with accepted := true, running := true }
        | some (.stopSession _) => { t with running := false }
        | _ => t
      else t
  | .returned _ => t

/-- The monitor of sessions. -/
def track : Monitor Event Track := ⟨⟨none, false, false⟩, Track.step⟩

@[simp] theorem track_step : track.step = Track.step := rfl

/-- A service is requested only while a session is running; a start succeeds only when
its request was answered with `Success`. -/
def Permitted (t : Track) : Event → Prop
  | .sent (.startService _) _ => t.running = true
  | .returned ret => ret = .success → t.accepted = true
  | _ => True

/-- The client agrees with the history. -/
structure Upheld (w : World) : Prop where
  sound : track.Sound Permitted w.history
  session : (∃ text, w.client.sessionId = .live text) ↔ (track.read w.history).running = true
  notReleased : w.client.sessionId ≠ .released
  ssl : w.client.sslEnabled = w.sslData

/-- No session, no SSL. -/
structure Kept (w : World) : Prop extends Upheld w where
  idle : w.client.sessionId = .null → w.sslData = false

theorem kept_new (label : Option CText) : Kept (lockdowndClientNew label) where
  sound := Monitor.sound_nil
  session := by simp [lockdowndClientNew, track]
  notReleased := by simp [lockdowndClientNew]
  ssl := rfl
  idle _ := rfl

/-! ## What the calls need -/

/-- A reply `lockdownd_start_session` understands: a refusal for an unknown host id, or
a success with a session id. -/
structure Understood (reply : PlistNode) : Prop where
  refused : lockdownCheckResult reply (cText "StartSession") = .ok RESULT_FAILURE →
    ∀ error, stringItem reply (cText "Error") = .ok error →
      error = some (cText "InvalidHostID").val
  accepted : ∀ result, lockdownCheckResult reply (cText "StartSession") = .ok result →
    result ≠ RESULT_FAILURE →
      successful reply = true ∧ stringItem reply (cText "SessionID") ≠ .ok none

/-- A start that finds a session running: the new session is not refused, and over SSL
the stop of the old one is answered. -/
structure Restarts (w : World) (stop start : Answer) : Prop where
  sent : start.sent = true
  accepted : ∃ reply, start.reply = some reply ∧
    lockdownCheckResult reply (cText "StartSession") ≠ .ok RESULT_FAILURE
  stopped : w.client.sslEnabled = true → stop.reply ≠ none

/-- What a call needs of the state before it and of the answers to it. -/
def Fine (w : World) : Call → Prop
  | .startSession _ _ stop start _ =>
      (start.sent = true → ∀ reply, start.reply = some reply → Understood reply) ∧
        (w.client.sessionId ≠ .null → Restarts w stop start)
  | .stopSession answer =>
      w.client.sessionId ≠ .null → ∀ reply, answer.reply = some reply →
        successful reply = false ∧ w.client.sslEnabled = false
  | .startService .. => True

/-! ## One call -/

/-- The world after the exchange of a stop. -/
def World.stopped (text : CText) (answer : Answer) (w : World) : World :=
  { w with
    sslData := w.sslData && !(answer.reply.isSome && w.client.sslEnabled)
    history := w.history ++ [.sent (.stopSession text)
      ((Request.stopSession text).message w.client.label), .received answer.reply] }

theorem run_disableSsl (w : World) :
    disableSsl.run w = (.ok (), if w.client.sslEnabled then w.setSslData false else w) := by
  unfold disableSsl
  rw [run_get_bind, run_ite]
  split <;> rfl

theorem run_stopSession {w w' : World} {text : CText} {answer : Answer} {ret : LockdowndError}
    (ran : (lockdowndStopSession (.live text) answer).run w = (.ok ret, w')) :
    w' = w.stopped text answer := by
  rw [lockdowndStopSession] at ran
  obtain ⟨sendRet, w₁, sent, ran⟩ := run_bind_eq_ok.mp ran
  obtain ⟨⟨receiveRet, dict⟩, w₂, received, ran⟩ := run_bind_eq_ok.mp ran
  cases sent
  cases received
  cases reply : answer.reply with
  | none =>
    rw [reply] at ran
    cases ran
    simp [World.stopped, World.record, reply]
  | some dict =>
    rw [reply] at ran
    obtain ⟨result, -, ran⟩ := run_lift_bind_eq_ok.mp ran
    obtain ⟨_, w₃, disabled, ran⟩ := run_bind_eq_ok.mp ran
    rw [run_disableSsl] at disabled
    cases disabled
    cases ran
    cases enabled : w.client.sslEnabled <;>
      simp [World.stopped, World.record, World.setSslData, reply, enabled]

/-- The world a start finds when it makes its request. -/
def World.vacated (stop : Answer) (w : World) : World :=
  match w.client.sessionId with
  | .null => w
  | .live text => (w.stopped text stop).setSessionId .released
  | .released => w

theorem run_stopRunning {w w' : World} {stop : Answer}
    (ran : (stopRunning stop).run w = (.ok (), w')) : w' = w.vacated stop := by
  rw [stopRunning, run_get_bind, run_ite] at ran
  unfold World.vacated
  cases id : w.client.sessionId with
  | null =>
    rw [if_pos id] at ran
    cases ran
    rfl
  | released =>
    rw [if_neg (by simp [id]), id, run_bind_error rfl] at ran
    cases ran
  | live text =>
    rw [if_neg (by simp [id]), id] at ran
    obtain ⟨ret, stopped, stop, ran⟩ := run_bind_eq_ok.mp ran
    cases ran
    rw [run_stopSession stop]

/-- An accepted reply with a session id: the client gets the id, and SSL is on in both
places or in none. -/
theorem run_openSession {w w' : World} {dict : PlistNode} {wanted handshake : Bool}
    {results : LockdowndError × Option CText × Bool} (off : w.sslData = false)
    (named : stringItem dict (cText "SessionID") ≠ .ok none)
    (ran : (openSession dict wanted handshake).run w = (.ok results, w')) :
    ∃ text active, w' = ((w.setSessionId (.live text)).setSslData active).setSslEnabled active := by
  rw [openSession] at ran
  obtain ⟨ssl, -, ran⟩ := run_lift_bind_eq_ok.mp ran
  obtain ⟨_, w₁, stored, ran⟩ := run_bind_eq_ok.mp ran
  obtain ⟨text, rfl⟩ : ∃ text, w₁ = w.setSessionId (.live text) := by
    rw [storeSessionId] at stored
    obtain ⟨sessionId, found, stored⟩ := run_lift_bind_eq_ok.mp stored
    cases sessionId with
    | none => exact absurd found named
    | some text =>
      simp only at stored
      split at stored
      · rename_i nulFree
        cases stored
        exact ⟨⟨text, nulFree⟩, rfl⟩
      · cases stored
  obtain ⟨copy, w₂, copied, ran⟩ := run_bind_eq_ok.mp ran
  cases copied
  refine ⟨text, ssl && handshake, ?_⟩
  have inactive : (w.setSessionId (.live text)).sslData = false := off
  cases ssl with
  | false =>
    cases ran
    simp only [Bool.false_and, World.setSslEnabled, World.setSslData, World.setSessionId, off]
  | true =>
    obtain ⟨enabled, w₃, enable, ran⟩ := run_bind_eq_ok.mp ran
    cases ran
    rw [ideviceConnectionEnableSsl, run_get_bind, run_ite, if_neg (by simp [inactive]),
      run_ite] at enable
    cases handshake with
    | false =>
      cases enable
      simp only [Bool.and_false, World.setSslEnabled, World.setSslData, World.setSessionId, off]
    | true =>
      cases enable
      rfl

/-- A refusal is no success. -/
theorem not_successful_of_failure {reply : PlistNode} {name : CText}
    (failed : lockdownCheckResult reply name = .ok RESULT_FAILURE) : successful reply = false := by
  rw [lockdownCheckResult] at failed
  obtain ⟨query, -, failed⟩ := bind_eq_ok.mp failed
  split at failed
  · obtain ⟨result, found, failed⟩ := bind_eq_ok.mp failed
    split at failed
    · cases failed
    · rename_i other
      simp only [successful, hasString, found, Except.ok.injEq, decide_eq_false_iff_not]
      exact other
  · cases failed

/-! ## What one call keeps -/

theorem sound_sent {history : List Event} {request : Request} {message : PlistNode}
    (sound : track.Sound Permitted history)
    (running : ∀ service, request = .startService service →
      (track.read history).running = true) :
    track.Sound Permitted (history ++ [.sent request message]) := by
  apply sound.concat
  cases request with
  | startService service => exact running service rfl
  | startSession hostId => trivial
  | stopSession sessionId => trivial

/-- Noting an event that starts and stops nothing. -/
theorem Kept.record {w : World} (kept : Kept w) (event : Event)
    (permitted : Permitted (track.read w.history) event)
    (same : ((track.read w.history).step event).running = (track.read w.history).running) :
    Kept (w.record event) where
  sound := kept.sound.concat permitted
  session := by
    show _ ↔ (track.read (w.history ++ [event])).running = true
    rw [Monitor.read_concat]
    show _ ↔ ((track.read w.history).step event).running = true
    rw [same]
    exact kept.session
  notReleased := kept.notReleased
  ssl := kept.ssl
  idle := kept.idle

/-- A session id is held only while a session runs. -/
theorem Kept.running {w : World} (kept : Kept w) (held : w.client.sessionId ≠ .null) :
    (track.read w.history).running = true := by
  rw [← kept.session]
  cases id : w.client.sessionId with
  | null => exact absurd id held
  | released => exact absurd id kept.notReleased
  | live text => exact ⟨text, rfl⟩

theorem kept_stopSession {w w' : World} {answer : Answer} (kept : Kept w)
    (fine : Fine w (.stopSession answer))
    (ran : (Call.stopSession answer).perform.run w = (.ok (), w')) : Kept w' := by
  rw [Call.perform, run_get_bind] at ran
  obtain ⟨ret, w₁, stop, ran⟩ := run_bind_eq_ok.mp ran
  cases ran
  cases id : w.client.sessionId with
  | null =>
    rw [id] at stop
    cases stop
    exact kept
  | released => exact absurd id kept.notReleased
  | live text =>
    rw [id] at stop
    have quiet := fine (by simp [id])
    obtain rfl := run_stopSession stop
    have running : (track.read (w.stopped text answer).history).running = (track.read w.history).running := by
      cases reply : answer.reply with
      | none => simp [World.stopped, Monitor.read_append, Track.step, reply]
      | some dict => simp [World.stopped, Monitor.read_append, Track.step, reply, (quiet dict reply).1]
    have sslData : (w.stopped text answer).sslData = w.sslData := by
      cases reply : answer.reply with
      | none => simp [World.stopped, reply]
      | some dict => simp [World.stopped, reply, (quiet dict reply).2]
    refine { sound := ?_, session := ?_, notReleased := kept.notReleased, ssl := ?_, idle := ?_ }
    · show track.Sound Permitted (w.history ++ [_, _])
      rw [List.append_cons]
      apply (sound_sent kept.sound (by simp)).concat
      trivial
    · rw [running]
      exact kept.session
    · rw [sslData]
      exact kept.ssl
    · intro null
      cases id.symm.trans null

/-- `lockdownd_start_service` only adds its exchange, and only when a session id is held. -/
theorem kept_startService {w w' : World} {hostId service : Option CText} {port : Bool}
    {answer : Answer} (kept : Kept w)
    (ran : (Call.startService hostId service port answer).perform.run w = (.ok (), w')) :
    Kept w' := by
  rw [Call.perform] at ran
  obtain ⟨ret, w₁, start, ran⟩ := run_bind_eq_ok.mp ran
  cases ran
  cases service with
  | none =>
    cases start
    exact kept
  | some service =>
    rw [lockdowndStartService, run_ite] at start
    split at start
    · cases start
      exact kept
    rw [run_ite] at start
    split at start
    · cases start
      exact kept
    rw [run_get_bind, run_ite] at start
    split at start
    · cases start
      exact kept
    rename_i held
    obtain ⟨sendRet, w₂, sent, start⟩ := run_bind_eq_ok.mp start
    cases sent
    have requested := kept.record (.sent (.startService service)
      ((Request.startService service).message w.client.label)) (kept.running held) rfl
    rw [run_ite] at start
    cases went : answer.sent with
    | false =>
      rw [went, if_pos (by decide)] at start
      cases start
      exact requested
    | true =>
    rw [went, if_neg (by decide)] at start
    obtain ⟨⟨receiveRet, dict⟩, w₃, received, start⟩ := run_bind_eq_ok.mp start
    cases received
    have answered := requested.record (.received answer.reply) trivial (by
      cases answer.reply <;> simp [World.record, Monitor.read_append, Track.step])
    cases reply : answer.reply with
    | none =>
      rw [reply] at start answered
      cases start
      exact answered
    | some dict =>
      rw [reply] at start answered
      cases read : servicePort dict with
      | error fault =>
        rw [run_lift, read] at start
        cases start
      | ok results =>
        rw [run_lift, read] at start
        cases start
        exact answered

theorem Kept.vacated {w : World} {stop start : Answer} (kept : Kept w)
    (restarts : w.client.sessionId ≠ .null → Restarts w stop start) :
    (w.vacated stop).sslData = false ∧ track.Sound Permitted (w.vacated stop).history := by
  unfold World.vacated
  cases id : w.client.sessionId with
  | null => exact ⟨kept.idle id, kept.sound⟩
  | released => exact absurd id kept.notReleased
  | live text =>
    refine ⟨?_, ?_⟩
    · show (w.sslData && !(stop.reply.isSome && w.client.sslEnabled)) = false
      cases enabled : w.client.sslEnabled with
      | false => simp [← kept.ssl, enabled]
      | true =>
        have answered := (restarts (by simp [id])).stopped enabled
        simp [Option.isSome_iff_ne_none.mpr answered]
    · show track.Sound Permitted (w.history ++ [_, _])
      rw [List.append_cons]
      apply (sound_sent kept.sound (by simp)).concat
      trivial

/-- The world after a session was opened on a successful reply. -/
theorem kept_opened {w : World} {hostId text : CText} {message reply : PlistNode} {active : Bool}
    {ret : LockdowndError} (sound : track.Sound Permitted w.history) (success : successful reply = true) :
    Kept ((((((w.record (.sent (.startSession hostId) message)).record (.received (some reply))
      ).setSessionId (.live text)).setSslData active).setSslEnabled active).record
        (.returned ret)) where
  sound := by
    apply Monitor.Sound.concat
    · show track.Sound Permitted ((w.history ++ [_]) ++ [_])
      exact (sound_sent sound (by simp)).concat trivial
    · intro _
      show (track.read ((w.history ++ [_]) ++ [_])).accepted = true
      simp [Monitor.read_append, Track.step, success]
  session := by
    have running : (track.read (((w.history ++ [.sent (.startSession hostId) message]) ++
        [.received (some reply)]) ++ [.returned ret])).running = true := by
      simp [Monitor.read_append, Track.step, success]
    exact iff_of_true ⟨text, rfl⟩ running
  notReleased := by simp [World.record, World.setSessionId, World.setSslData, World.setSslEnabled]
  ssl := rfl
  idle null := by cases null

theorem kept_startSession {w w' : World} {hostId : Option CText} {wanted : Bool}
    {stop start : Answer} {handshake : Bool} (kept : Kept w)
    (fine : Fine w (.startSession hostId wanted stop start handshake))
    (ran : (Call.startSession hostId wanted stop start handshake).perform.run w = (.ok (), w')) :
    Kept w' := by
  obtain ⟨understood, restarts⟩ := fine
  rw [Call.perform] at ran
  obtain ⟨⟨ret, copy, ssl⟩, w₁, started, ran⟩ := run_bind_eq_ok.mp ran
  cases ran
  rw [lockdowndStartSession] at started
  obtain ⟨_, w₂, vacated, started⟩ := run_bind_eq_ok.mp started
  obtain rfl := run_stopRunning vacated
  obtain ⟨off, sound⟩ := kept.vacated restarts
  -- Every exit but the last keeps the client: it is reached without a session only.
  have alone (null : w.client.sessionId = .null) : w.vacated stop = w := by
    rw [World.vacated, null]
  cases hostId with
  | none => cases started
  | some hostId =>
  obtain ⟨_, _, present, started⟩ := run_bind_eq_ok.mp started
  cases present
  obtain ⟨sendRet, w₃, sent, started⟩ := run_bind_eq_ok.mp started
  cases sent
  rw [run_ite] at started
  have requested (null : w.client.sessionId = .null) := kept.record (.sent (.startSession hostId)
    ((Request.startSession hostId).message w.client.label)) trivial rfl
  cases went : start.sent with
  | false =>
    have null : w.client.sessionId = .null := by
      by_contra held
      simp [(restarts held).sent] at went
    rw [went, if_pos (by decide), alone null] at started
    cases started
    exact (requested null).record _ (by simp [Permitted]) rfl
  | true =>
  rw [went, if_neg (by decide)] at started
  obtain ⟨⟨receiveRet, dict⟩, w₄, received, started⟩ := run_bind_eq_ok.mp started
  cases received
  cases reply : start.reply with
  | none =>
    have null : w.client.sessionId = .null := by
      by_contra held
      obtain ⟨dict, found, -⟩ := (restarts held).accepted
      cases reply.symm.trans found
    rw [reply, alone null] at started
    cases started
    exact ((requested null).record (.received none) trivial rfl).record _ (by simp [Permitted]) rfl
  | some dict =>
  rw [reply] at started
  obtain ⟨result, checked, started⟩ := run_lift_bind_eq_ok.mp started
  rw [run_ite] at started
  split at started
  · rename_i failed
    subst failed
    have null : w.client.sessionId = .null := by
      by_contra held
      obtain ⟨other, found, accepted⟩ := (restarts held).accepted
      cases reply.symm.trans found
      exact accepted checked
    obtain ⟨refusedRet, refused, started⟩ := run_lift_bind_eq_ok.mp started
    rw [alone null] at started
    cases started
    obtain ⟨error, found, refused⟩ := bind_eq_ok.mp refused
    have unknown := (understood went dict reply).refused checked error found
    subst unknown
    rw [if_pos rfl] at refused
    cases refused
    have failure := not_successful_of_failure checked
    have answered := (requested null).record (.received (some dict)) trivial (by
      simp [Track.step, failure])
    exact answered.record _ (by simp [Permitted]) rfl
  · rename_i other
    obtain ⟨success, named⟩ := (understood went dict reply).accepted result checked other
    obtain ⟨text, active, rfl⟩ := run_openSession
      (w := ((w.vacated stop).record _).record (.received (some dict))) off named started
    exact kept_opened sound success

/-! ## Runs -/

theorem kept_call {w w' : World} {call : Call} (kept : Kept w) (fine : Fine w call)
    (ran : call.perform.run w = (.ok (), w')) : Kept w' := by
  cases call with
  | startSession hostId wanted stop start handshake => exact kept_startSession kept fine ran
  | stopSession answer => exact kept_stopSession kept fine ran
  | startService hostId service port answer => exact kept_startService kept ran

/-- In a run whose calls all find what they need, every state reached upholds the
session. -/
theorem sessions_upheld (label : Option CText) (run : List Call)
    (fine : Meets Fine Call.perform (lockdowndClientNew label) run) :
    ∀ first, first <+: run → ∀ w, (calls first).run (lockdowndClientNew label) = (.ok (), w) →
      Upheld w := by
  intro first isPrefix w ran
  refine (Meets.keeps ?_ (fine.of_prefix isPrefix) (kept_new label) ran).toUpheld
  exact fun _ _ _ => kept_call

/-- A reply of strings. -/
def replyOf (items : List (String × String)) : PlistNode :=
  items.foldl (fun dict item =>
    plistDictInsertItem dict (cText item.1) (leaf (plistNewString (cText item.2).val)))
    (leaf plistNewDict)

def startAccepted : PlistNode :=
  replyOf [("Request", "StartSession"), ("Result", "Success"), ("SessionID", "A")]

def startRefused : PlistNode :=
  replyOf [("Request", "StartSession"), ("Result", "Failure"), ("Error", "InvalidHostID")]

def stopAccepted : PlistNode := replyOf [("Request", "StopSession"), ("Result", "Success")]

def serviceRefused : PlistNode :=
  replyOf [("Request", "StartService"), ("Result", "Failure"), ("Error", "InvalidService")]

def startCall (stop start : PlistNode) : Call :=
  .startSession (some (cText "H")) true ⟨true, some stop⟩ ⟨true, some start⟩ true

/-- A session, and a service asked for in it. -/
def servedRun : List Call :=
  [startCall stopAccepted startAccepted,
    .startService (some (cText "H")) (some (cText "S")) true ⟨true, some serviceRefused⟩]

theorem startAccepted_understood : Understood startAccepted where
  refused failed := absurd failed (by decide +kernel)
  accepted _ _ _ := ⟨by decide +kernel, by decide +kernel⟩

theorem served_upheld : Upheld ((calls servedRun).state (lockdowndClientNew none)) := by
  apply sessions_upheld none servedRun ?_ servedRun (List.prefix_refl _)
  · exact Prod.ext (by decide +kernel) rfl
  · refine ⟨⟨?_, ?_⟩, fun w' _ => ⟨trivial, fun _ _ => trivial⟩⟩
    · rintro - reply found
      cases found
      exact startAccepted_understood
    · intro held
      exact absurd rfl held

/-- A session that is refused while another one is running: the id of the old one was
released, and the client keeps it. -/
def restartRefusedRun : List Call :=
  [startCall stopAccepted startAccepted, startCall stopAccepted startRefused]

theorem restart_refused_dangles :
    ∃ w, (calls restartRefusedRun).run (lockdowndClientNew none) = (.ok (), w) ∧ ¬ Upheld w := by
  refine ⟨(calls restartRefusedRun).state (lockdowndClientNew none),
    Prod.ext (by decide +kernel) rfl, fun upheld => upheld.notReleased ?_⟩
  decide +kernel

end Irestore.Lockdown
