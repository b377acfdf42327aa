/-
# NotificationProxy.Client — a client that two threads use

`np_set_notify_callback` starts a thread, `np_notifier`, that receives notifications and
hands them to the callback, while the thread that owns the client goes on calling it.  The
mutex of the client guards its connection; `client->parent` is read outside of it.

A `Proxy` is the client with where its two threads are, and `step` is the next step of one
of them: every interleaving is a run of steps.  What the outside does is in the step (does a
send go through, what is received, is a thread created).  Old and new threads never overlap,
since a thread is joined before the next one is created.

A run ends at a `fault`, an access to the connection after `np_client_free` released it.
-/
import Irestore.Library.Trace
import Irestore.Plist.Access
import Irestore.Service.PropertyList

namespace Irestore.NotificationProxy

open Irestore.Library Irestore.Library.CMemory Irestore.Plist
open Irestore.Service (PropertyListServiceError)

set_option autoImplicit false

/-- `np_error_t`. -/
inductive NpError where
  | success | invalidArg | plistError | connFailed | unknownError
  deriving DecidableEq, Repr

/-- `np_error`. -/
def npError : PropertyListServiceError → NpError
  | .success => .success
  | .invalidArg => .invalidArg
  | .plistError => .plistError
  | .muxError => .connFailed
  | .unknownError => .unknownError

/-! ## Messages -/

def command (name : CText) : PlistNode :=
  plistDictInsertItem (leaf plistNewDict) (cText "Command") (leaf (plistNewString name.val))

def namedCommand (name notification : CText) : PlistNode :=
  plistDictInsertItem (command name) (cText "Name") (leaf (plistNewString notification.val))

/-- What `np_get_notification` makes of what it received: its code and the notification. -/
def readNotification (dict : Option PlistNode) : Checked (Int × Option (List UInt8)) :=
  match dict with
  | none => return (0, none)
  | some dict => do
      let cmd ← stringItem dict (cText "Command")
      if cmd = some (cText "RelayNotification").val then do
        let name ← stringItem dict (cText "Name")
        return if name.isSome then (0, name) else (-2, none)
      else if cmd = some (cText "ProxyDeath").val then return (-1, none)
      else if cmd.isSome then return (-1, none)
      else return (-2, none)

/-! ## The two threads -/

inductive Holder where
  | caller | notifier
  deriving DecidableEq

/-- The pointer `client->parent`. -/
inductive Parent where
  | live | dangling | null
  deriving DecidableEq

/-- Where `np_notifier` is: from `locking` to `unlocking` it is in `np_get_notification`. -/
inductive NotifierPc where
  /-- At the condition of its loop. -/
  | checking
  /-- At the first check of `np_get_notification`. -/
  | guarding
  | locking
  /-- The mutex is taken; `client->parent` is about to be read. -/
  | entering
  | receiving
  | unlocking (notification : Option (List UInt8))
  /-- Back in the loop; a notification goes to the callback. -/
  | calling (notification : Option (List UInt8))
  | sleeping
  | finished

variable {Callback : Type}

/-- A call of the owner that takes the mutex. -/
inductive Call (Callback : Type) where
  | setNotifyCallback (notifyCb : Option Callback)
  | postNotification (notification : CText)
  | observeNotification (notification : CText)

/-- Where the owner is; from `replacing` to `unlocking` it has the mutex. -/
inductive CallerPc (Callback : Type) where
  | idle
  | locking (call : Call Callback)
  /-- In `np_set_notify_callback`, before the old thread is looked at. -/
  | replacing (notifyCb : Option Callback)
  /-- At `g_thread_join`; `parent` is to be put back. -/
  | joining (notifyCb : Option Callback) (parent : Parent)
  | starting (notifyCb : Option Callback)
  | posting (notification : CText)
  | observing (notification : CText)
  | unlocking
  /-- In `np_client_free`, the connection released and the pointer not yet cleared. -/
  | clearing
  /-- At the `g_thread_join` of `np_client_free`. -/
  | awaiting
  | gone

/-- `struct np_client_private` and its two threads.  `log` is what was received, with the
callback of the thread that received it, or `none` for the owner. -/
structure Proxy (Callback : Type) where
  caller : CallerPc Callback
  notifier : Option (Callback × NotifierPc)
  parent : Parent
  mutex : Option Holder
  connected : Bool
  sent : List PlistNode
  returns : List NpError
  log : List (Option Callback × Option PlistNode)
  delivered : List (Callback × List UInt8)
  fault : Option Fault

/-- `np_client_new`. -/
def npClientNew : Proxy Callback where
  caller := .idle
  notifier := none
  parent := .live
  mutex := none
  connected := true
  sent := []
  returns := []
  log := []
  delivered := []
  fault := none

/-- What the outside does during a step of the owner. -/
structure Outside where
  first : PropertyListServiceError
  second : PropertyListServiceError
  reply : Option PlistNode
  created : Bool

/-- A step: a call begins, `np_client_free` begins, or one of the threads goes on. -/
inductive Event (Callback : Type) where
  | call (call : Call Callback)
  | free
  | caller (outside : Outside)
  | notifier (reply : Option PlistNode)

/-- Where a call goes once it has the mutex. -/
def Call.entered : Call Callback → CallerPc Callback
  | .setNotifyCallback notifyCb => .replacing notifyCb
  | .postNotification notification => .posting notification
  | .observeNotification notification => .observing notification

def callStep (call : Call Callback) (s : Proxy Callback) : Option (Proxy Callback) :=
  match s.caller with
  | .idle => some { s with caller := .locking call }
  | _ => none

/-- `np_client_free` begins: it does not take the mutex, and releases the connection. -/
def freeStep (s : Proxy Callback) : Option (Proxy Callback) :=
  match s.caller with
  | .idle => some { s with caller := .clearing, parent := .dangling, connected := false }
  | _ => none

/-- The end of `np_set_notify_callback`: create a thread for the callback, if there is one. -/
def startNotifier (created : Bool) (notifyCb : Option Callback) (s : Proxy Callback) :
    Proxy Callback :=
  match notifyCb with
  | some callback =>
      if created then
        { s with
          caller := .unlocking
          notifier := some (callback, .checking)
          returns := s.returns ++ [.success] }
      else { s with caller := .unlocking, returns := s.returns ++ [.unknownError] }
  | none => { s with caller := .unlocking, returns := s.returns ++ [.unknownError] }

/-- The next step of the owner. -/
def callerStep (outside : Outside) (s : Proxy Callback) : Option (Proxy Callback) :=
  match s.caller with
  | .idle => none
  | .locking call =>
      if s.mutex = none then some { s with mutex := some .caller, caller := call.entered } else none
  | .replacing notifyCb =>
      match s.notifier with
      | none => some { s with caller := .starting notifyCb }
      | some _ => some { s with parent := .null, caller := .joining notifyCb s.parent }
  | .joining notifyCb parent =>
      match s.notifier with
      | some (_, .finished) =>
          some { s with notifier := none, parent := parent, caller := .starting notifyCb }
      | _ => none
  | .starting notifyCb => some (startNotifier outside.created notifyCb s)
  | .posting notification =>
      -- the code of the first send is overwritten, and whatever is received is dropped
      some { s with
        caller := .unlocking
        sent := s.sent ++ [namedCommand (cText "PostNotification") notification,
          command (cText "Shutdown")]
        log := s.log ++ [(none, outside.reply)]
        returns := s.returns ++ [npError outside.second] }
  | .observing notification =>
      some { s with
        caller := .unlocking
        sent := s.sent ++ [namedCommand (cText "ObserveNotification") notification]
        returns := s.returns ++ [npError outside.first] }
  | .unlocking => some { s with mutex := none, caller := .idle }
  | .clearing => some { s with parent := .null, caller := .awaiting }
  | .awaiting =>
      match s.notifier with
      | none | some (_, .finished) =>
          some { s with notifier := none, caller := .gone, returns := s.returns ++ [.success] }
      | _ => none
  | .gone => none

def Proxy.faulted (fault : Fault) (s : Proxy Callback) : Proxy Callback :=
  { s with fault := some fault }

def Proxy.at (s : Proxy Callback) (callback : Callback) (pc : NotifierPc) : Proxy Callback :=
  { s with notifier := some (callback, pc) }

/-- A receive on the connection that `np_notifier` took hold of. -/
def receiveStep (callback : Callback) (reply : Option PlistNode) (s : Proxy Callback) :
    Proxy Callback :=
  if s.connected then
    match readNotification reply with
    | .ok (_, notification) =>
        { s.at callback (.unlocking notification) with log := s.log ++ [(some callback, reply)] }
    | .error fault => s.faulted fault
  else s.faulted .useAfterFree

/-- The next step of `np_notifier`. -/
def notifierStep (reply : Option PlistNode) (s : Proxy Callback) : Option (Proxy Callback) :=
  match s.notifier with
  | none => none
  | some (callback, pc) =>
      match pc with
      | .checking =>
          some (s.at callback (if s.parent = .null then .finished else .guarding))
      | .guarding =>
          some (s.at callback (if s.parent = .null then .calling none else .locking))
      | .locking =>
          if s.mutex = none then some { s.at callback .entering with mutex := some .notifier }
          else none
      | .entering =>
          match s.parent with
          | .null => some (s.at callback (.unlocking none))
          | .live => some (s.at callback .receiving)
          | .dangling => some (s.faulted .useAfterFree)
      | .receiving => some (receiveStep callback reply s)
      | .unlocking notification =>
          some { s.at callback (.calling notification) with mutex := none }
      | .calling notification =>
          some { s.at callback .sleeping with
            delivered := s.delivered ++ (notification.map (callback, ·)).toList }
      | .sleeping => some (s.at callback .checking)
      | .finished => none

/-- The next step of a thread; none is taken after a fault. -/
def step (s : Proxy Callback) (event : Event Callback) : Option (Proxy Callback) :=
  if s.fault = none then
    match event with
    | .call call => callStep call s
    | .free => freeStep s
    | .caller outside => callerStep outside s
    | .notifier reply => notifierStep reply s
  else none

/-- No thread can go on. -/
def Stuck (s : Proxy Callback) : Prop := ∀ event, step s event = none

/-- What is received can be read. -/
def Event.Readable : Event Callback → Prop
  | .notifier reply => Ends (readNotification reply)
  | _ => True

end Irestore.NotificationProxy
