/-
# Lockdown.Client — sessions and services of the lockdown client

`lockdownd_start_session`, `lockdownd_stop_session` and
`lockdownd_start_service`, on one client.

What the outside does during a call is an argument of the call: for every
exchange an `Answer` (does the send go through, and which plist is received, if
any), and whether the SSL handshake succeeds.  `World` is the client, whether its
connection has SSL data, and the history of requests, replies and returns.

The client owns its session id through a `SessionId`: `free` leaves the pointer
as it is, so it may name a block that was released.
-/
import Irestore.Library.Program
import Irestore.Plist.Access

namespace Irestore.Lockdown

open Irestore.Library Irestore.Library.CMemory Irestore.Plist

set_option autoImplicit false

/-- The codes of `lockdownd_error_t` that these functions return. -/
inductive LockdowndError where
  | success | invalidArg | invalidConf | plistError | sslError | invalidHostId
  | noRunningSession | startServiceFailed | invalidService | unknownError
  deriving DecidableEq, Repr

/-- The pointer `client->session_id`. -/
inductive SessionId where
  | null
  | live (text : CText)
  | released
  deriving DecidableEq

/-- `struct lockdownd_client_private`; `ssl_enabled` holds 0 or 1. -/
structure LockdowndClient where
  sslEnabled : Bool
  sessionId : SessionId
  label : Option CText

/-! ## Requests and replies -/

/-- A request with what its caller gives it. -/
inductive Request where
  | startSession (hostId : CText)
  | stopSession (sessionId : CText)
  | startService (service : CText)
  deriving DecidableEq

/-- The string under `Request`. -/
def Request.name : Request → CText
  | .startSession _ => cText "StartSession"
  | .stopSession _ => cText "StopSession"
  | .startService _ => cText "StartService"

def plistDictAddLabel (plist : PlistNode) (label : Option CText) : PlistNode :=
  match label with
  | none => plist
  | some label => plistDictInsertItem plist (cText "Label") (leaf (plistNewString label.val))

/-- The dictionary that is sent. -/
def Request.message (label : Option CText) (request : Request) : PlistNode :=
  let dict := plistDictAddLabel (leaf plistNewDict) label
  let name := leaf (plistNewString request.name.val)
  match request with
  | .startSession hostId =>
      let dict := plistDictInsertItem dict (cText "HostID") (leaf (plistNewString hostId.val))
      plistDictInsertItem dict (cText "Request") name
  | .stopSession sessionId =>
      let dict := plistDictInsertItem dict (cText "Request") name
      plistDictInsertItem dict (cText "SessionID") (leaf (plistNewString sessionId.val))
  | .startService service =>
      let dict := plistDictInsertItem dict (cText "Request") name
      plistDictInsertItem dict (cText "Service") (leaf (plistNewString service.val))

/-- What the outside does during one exchange. -/
structure Answer where
  sent : Bool
  reply : Option PlistNode

inductive Event where
  | sent (request : Request) (message : PlistNode)
  | received (reply : Option PlistNode)
  /-- `lockdownd_start_session` returned. -/
  | returned (ret : LockdowndError)

structure World where
  client : LockdowndClient
  /-- `connection->ssl_data` is not NULL. -/
  sslData : Bool
  history : List Event

/-- `lockdownd_client_new`. -/
def lockdowndClientNew (label : Option CText) : World :=
  { client := { sslEnabled := false, sessionId := .null, label := label }
    sslData := false
    history := [] }

def World.record (event : Event) (w : World) : World := { w with history := w.history ++ [event] }

def World.setSessionId (sessionId : SessionId) (w : World) : World :=
  { w with client := { w.client with sessionId := sessionId } }

def World.setSslEnabled (enabled : Bool) (w : World) : World :=
  { w with client := { w.client with sslEnabled := enabled } }

def World.setSslData (active : Bool) (w : World) : World := { w with sslData := active }

def lockdowndSend (request : Request) (answer : Answer) : Program World LockdowndError := do
  let w ← Program.get
  Program.modify (World.record (.sent request (request.message w.client.label)))
  return if answer.sent then .success else .unknownError

/-- `lockdownd_receive`; a plist is received exactly when receiving succeeds. -/
def lockdowndReceive (answer : Answer) : Program World (LockdowndError × Option PlistNode) := do
  Program.modify (World.record (.received answer.reply))
  return (if answer.reply.isSome then .success else .plistError, answer.reply)

def RESULT_SUCCESS : Int := 0
def RESULT_FAILURE : Int := 1

/-- `lockdown_check_result`. -/
def lockdownCheckResult (dict : PlistNode) (queryMatch : CText) : Checked Int := do
  let query ← stringItem dict (cText "Request")
  if query = some queryMatch.val then do
    let result ← stringItem dict (cText "Result")
    if result = some (cText "Success").val then return RESULT_SUCCESS
    else if result = some (cText "Failure").val then return RESULT_FAILURE
    else return -1
  else return -1

/-! ## SSL on the connection -/

/-- `idevice_connection_enable_ssl`: does it return `IDEVICE_E_SUCCESS`? -/
def ideviceConnectionEnableSsl (handshake : Bool) : Program World Bool := do
  let w ← Program.get
  if w.sslData then return false
  else if handshake then do
    Program.modify (World.setSslData true)
    return true
  else return false

/-- `idevice_connection_disable_ssl`. -/
def ideviceConnectionDisableSsl : Program World Unit := Program.modify (World.setSslData false)

/-- The end of a stop: SSL goes off, `ssl_enabled` stays. -/
def disableSsl : Program World Unit := do
  let w ← Program.get
  if w.client.sslEnabled then ideviceConnectionDisableSsl else return

/-! ## The three calls -/

/-- `lockdownd_stop_session`. -/
def lockdowndStopSession (sessionId : SessionId) (answer : Answer) :
    Program World LockdowndError :=
  match sessionId with
  | .null => return .invalidArg
  | .released => Program.lift (.error .useAfterFree)
  | .live text => do
      let _ ← lockdowndSend (.stopSession text) answer
      let (_, dict) ← lockdowndReceive answer
      match dict with
      | none => return .plistError
      | some dict => do
          let result ← Program.lift (lockdownCheckResult dict (cText "StopSession"))
          disableSsl
          return if result = RESULT_SUCCESS then .success else .unknownError

/-- "If we have a running session, stop current one first." -/
def stopRunning (stop : Answer) : Program World Unit := do
  let w ← Program.get
  if w.client.sessionId = .null then return
  else do
    let _ ← lockdowndStopSession w.client.sessionId stop
    Program.modify (World.setSessionId .released)

/-- What `lockdownd_start_session` returns for a refusal.  Any other error keeps the
code of `lockdownd_receive`. -/
def refusal (ret : LockdowndError) (dict : PlistNode) : Checked LockdowndError := do
  let error ← stringItem dict (cText "Error")
  return if error = some (cText "InvalidHostID").val then .invalidHostId else ret

/-- Does the reply ask for SSL? -/
def useSsl (dict : PlistNode) : Checked Bool := do
  let node ← plistDictGetItem dict (cText "EnableSessionSSL")
  if plistGetNodeType node = .boolean then do
    let value ← plistGetBoolVal node
    return value ≠ 0
  else return false

/-- Store the session id of the reply; a reply without one leaves the pointer. -/
def storeSessionId (dict : PlistNode) : Program World Unit := do
  let sessionId ← Program.lift (stringItem dict (cText "SessionID"))
  match sessionId with
  | none => return
  | some text =>
      if nulFree : 0 ∉ text then Program.modify (World.setSessionId (.live ⟨text, nulFree⟩))
      else Program.lift (.error .wildPointer)

/-- The copy for `*session_id`, when the caller wants one. -/
def copySessionId (wanted : Bool) : Program World (Option CText) := do
  let w ← Program.get
  match w.client.sessionId with
  | .null => return none
  | .live text => return if wanted then some text else none
  | .released => if wanted then Program.lift (.error .useAfterFree) else return none

/-- `lockdownd_start_session` on a reply that is no refusal: its code, `*session_id`
and `*ssl_enabled`. -/
def openSession (dict : PlistNode) (wanted handshake : Bool) :
    Program World (LockdowndError × Option CText × Bool) := do
  let useSsl ← Program.lift (useSsl dict)
  storeSessionId dict
  let sessionId ← copySessionId wanted
  if useSsl then do
    let enabled ← ideviceConnectionEnableSsl handshake
    Program.modify (World.setSslEnabled enabled)
    return (if enabled then .success else .sslError, sessionId, useSsl)
  else do
    Program.modify (World.setSslEnabled false)
    return (.success, sessionId, useSsl)

/-- `lockdownd_start_session`; `wanted` when `session_id` is not NULL.  A host id that
is NULL is noticed, but the request is made with it all the same. -/
def lockdowndStartSession (hostId : Option CText) (wanted : Bool) (stop start : Answer)
    (handshake : Bool) : Program World (LockdowndError × Option CText × Bool) := do
  stopRunning stop
  let hostId ← Program.deref hostId
  let ret ← lockdowndSend (.startSession hostId) start
  if ret ≠ .success then return (ret, none, false)
  else do
    let (ret, dict) ← lockdowndReceive start
    match dict with
    | none => return (.plistError, none, false)
    | some dict => do
        let result ← Program.lift (lockdownCheckResult dict (cText "StartSession"))
        if result = RESULT_FAILURE then do
          let ret ← Program.lift (refusal ret dict)
          return (ret, none, false)
        else openSession dict wanted handshake

/-- What `lockdownd_start_service` makes of its reply: its code and `*port`. -/
def servicePort (dict : PlistNode) : Checked (LockdowndError × Option UInt16) := do
  let result ← lockdownCheckResult dict (cText "StartService")
  if result = RESULT_SUCCESS then do
    let node ← plistDictGetItem dict (cText "Port")
    if plistGetNodeType node = .uint then do
      let value ← plistGetUintVal node
      return if value = 0 then (.unknownError, none) else (.success, some value.toUInt16)
    else return (.unknownError, none)
  else do
    let error ← stringItem dict (cText "Error")
    return (if error = some (cText "InvalidService").val then .invalidService
      else .startServiceFailed, none)

/-- `lockdownd_start_service`; the host id is the one of the user preferences. -/
def lockdowndStartService (hostId service : Option CText) (port : Bool) (answer : Answer) :
    Program World (LockdowndError × Option UInt16) :=
  match service with
  | none => return (.invalidArg, none)
  | some service =>
      if port = false then return (.invalidArg, none)
      else if hostId = none then return (.invalidConf, none)
      else do
        let w ← Program.get
        if w.client.sessionId = .null then return (.noRunningSession, none)
        else do
          let ret ← lockdowndSend (.startService service) answer
          if ret ≠ .success then return (ret, none)
          else do
            let (_, dict) ← lockdowndReceive answer
            match dict with
            | none => return (.plistError, none)
            | some dict => Program.lift (servicePort dict)

/-! ## Runs -/

/-- One call and what the outside does during it.  A session is stopped with the id
the client holds. -/
inductive Call where
  | startSession (hostId : Option CText) (wanted : Bool) (stop start : Answer) (handshake : Bool)
  | stopSession (answer : Answer)
  | startService (hostId service : Option CText) (port : Bool) (answer : Answer)

/-- The call; a start notes what it returned. -/
def Call.perform : Call → Program World PUnit
  | .startSession hostId wanted stop start handshake => do
      let (ret, _, _) ← lockdowndStartSession hostId wanted stop start handshake
      Program.modify (World.record (.returned ret))
  | .stopSession answer => do
      let w ← Program.get
      let _ ← lockdowndStopSession w.client.sessionId answer
  | .startService hostId service port answer => do
      let _ ← lockdowndStartService hostId service port answer

/-- A run of calls. -/
def calls (run : List Call) : Program World PUnit := run.forM Call.perform

end Irestore.Lockdown
