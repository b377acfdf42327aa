/-
# NotificationProxy.Deliveries — where a notification goes

`delivered_reached` — in every interleaving, what the threads received is delivered or on its
way: each notification once, in order, to the callback of the thread that received it.  What
`np_post_notification` receives goes to no callback.
-/
import Irestore.NotificationProxy.Interleavings

namespace Irestore.NotificationProxy

open Irestore.Library Irestore.Library.CMemory Irestore.Plist

set_option autoImplicit false

variable {Callback : Type} {s : Proxy Callback} {callback : Callback}

/-- The notification a thread gets from what it received, with the callback it is for. -/
def relayed : Option Callback × Option PlistNode → Option (Callback × List UInt8)
  | (some callback, reply) =>
      match readNotification reply with
      | .ok (_, notification) => notification.map (callback, ·)
      | .error _ => none
  | (none, _) => none

/-- The notification that is on its way to a callback. -/
def Proxy.pending (s : Proxy Callback) : Option (Callback × List UInt8) :=
  match s.notifier with
  | some (callback, .unlocking notification) => notification.map (callback, ·)
  | some (callback, .calling notification) => notification.map (callback, ·)
  | _ => none

/-- Every notification received is delivered or on its way. -/
def Proxy.Delivers (s : Proxy Callback) : Prop :=
  s.delivered ++ s.pending.toList = s.log.filterMap relayed

theorem delivers_new : (npClientNew : Proxy Callback).Delivers := rfl

/-- A step that receives and delivers nothing. -/
theorem Proxy.Delivers.same {s s' : Proxy Callback} (delivers : s.Delivers)
    (log : s'.log.filterMap relayed = s.log.filterMap relayed)
    (delivered : s'.delivered = s.delivered) (pending : s'.pending = s.pending) : s'.Delivers := by
  rw [Proxy.Delivers, log, delivered, pending]
  exact delivers

theorem Proxy.Delivers.callerStep {s' : Proxy Callback} {outside : Outside} (coherent : Coherent s)
    (delivers : s.Delivers) (stepped : callerStep outside s = some s') : s'.Delivers := by
  have waits := coherent.waits
  unfold NotificationProxy.callerStep at stepped
  cases at' : s.caller with
  | idle | gone =>
    rw [at'] at stepped
    cases stepped
  | locking call =>
    rw [at'] at stepped
    dsimp only at stepped
    split at stepped
    · cases stepped
      exact delivers
    · cases stepped
  | replacing notifyCb =>
    rw [at'] at stepped
    dsimp only at stepped
    split at stepped <;> cases stepped <;> exact delivers
  | joining notifyCb saved =>
    rw [at'] at stepped
    dsimp only at stepped
    split at stepped
    · rename_i thread
      cases stepped
      refine delivers.same rfl rfl ?_
      rw [Proxy.pending, Proxy.pending, thread]
    · cases stepped
  | starting notifyCb =>
    rw [at'] at stepped waits
    have empty : s.pending = none := by
      rw [Proxy.pending, Option.not_isSome_iff_eq_none.mp (ne_true_of_eq_false waits)]
    cases stepped
    unfold startNotifier
    split
    · split
      · exact delivers.same rfl rfl empty.symm
      · exact delivers
    · exact delivers
  | posting notification =>
    rw [at'] at stepped
    cases stepped
    refine delivers.same ?_ rfl rfl
    rw [List.filterMap_append]
    exact List.append_nil _
  | observing notification =>
    rw [at'] at stepped
    cases stepped
    exact delivers
  | unlocking | clearing =>
    rw [at'] at stepped
    cases stepped
    exact delivers
  | awaiting =>
    rw [at'] at stepped
    dsimp only at stepped
    split at stepped
    · rename_i thread
      cases stepped
      exact delivers.same rfl rfl (by rw [Proxy.pending, Proxy.pending, thread])
    · rename_i thread
      cases stepped
      exact delivers.same rfl rfl (by rw [Proxy.pending, Proxy.pending, thread])
    · cases stepped

/-- The notifier moves on with nothing to deliver before or after. -/
theorem Proxy.Delivers.moves {pc : NotifierPc} (delivers : s.Delivers)
    (empty : s.pending = none) (still : (s.at callback pc).pending = none) :
    (s.at callback pc).Delivers := delivers.same rfl rfl (still.trans empty.symm)

theorem Proxy.Delivers.receiveStep (delivers : s.Delivers) (empty : s.pending = none)
    (reply : Option PlistNode) : (receiveStep callback reply s).Delivers := by
  unfold NotificationProxy.receiveStep
  split
  · split
    · rename_i code notification read
      have entry : [(some callback, reply)].filterMap relayed =
          (notification.map (callback, ·)).toList := by
        rw [List.filterMap_cons, relayed, read]
        cases notification <;> rfl
      show s.delivered ++ _ = (s.log ++ [(some callback, reply)]).filterMap relayed
      rw [List.filterMap_append, entry, ← delivers, empty, Option.toList_none, List.append_nil]
      rfl
    · exact delivers
  · exact delivers

theorem Proxy.Delivers.notifierStep {s' : Proxy Callback} {reply : Option PlistNode}
    (delivers : s.Delivers) (stepped : notifierStep reply s = some s') : s'.Delivers := by
  unfold NotificationProxy.notifierStep at stepped
  cases thread : s.notifier with
  | none =>
    rw [thread] at stepped
    cases stepped
  | some at' =>
    obtain ⟨callback, pc⟩ := at'
    rw [thread] at stepped
    dsimp only at stepped
    cases pc with
    | finished => cases stepped
    | checking | guarding =>
      have empty : s.pending = none := by rw [Proxy.pending, thread]
      cases stepped
      split <;> exact delivers.moves empty rfl
    | sleeping =>
      have empty : s.pending = none := by rw [Proxy.pending, thread]
      cases stepped
      exact delivers.moves empty rfl
    | locking =>
      have empty : s.pending = none := by rw [Proxy.pending, thread]
      dsimp only at stepped
      split at stepped
      · cases stepped
        exact delivers.same rfl rfl empty.symm
      · cases stepped
    | entering =>
      have empty : s.pending = none := by rw [Proxy.pending, thread]
      dsimp only at stepped
      split at stepped
      · cases stepped
        exact delivers.moves empty rfl
      · cases stepped
        exact delivers.moves empty rfl
      · cases stepped
        exact delivers
    | receiving =>
      have empty : s.pending = none := by rw [Proxy.pending, thread]
      cases stepped
      exact delivers.receiveStep empty reply
    | unlocking notification =>
      cases stepped
      refine delivers.same rfl rfl ?_
      rw [Proxy.pending, Proxy.pending, thread]
      rfl
    | calling notification =>
      cases stepped
      have pending : s.pending = notification.map (callback, ·) := by rw [Proxy.pending, thread]
      show (s.delivered ++ (notification.map (callback, ·)).toList) ++ [] = _
      rw [List.append_nil, ← pending]
      exact delivers

theorem Proxy.Delivers.step {s' : Proxy Callback} {event : Event Callback} (coherent : Coherent s)
    (delivers : s.Delivers) (stepped : step s event = some s') : s'.Delivers := by
  unfold NotificationProxy.step at stepped
  split at stepped
  · cases event with
    | call call =>
      dsimp only at stepped
      unfold callStep at stepped
      split at stepped
      · cases stepped
        exact delivers
      · cases stepped
    | free =>
      dsimp only at stepped
      unfold freeStep at stepped
      split at stepped
      · cases stepped
        exact delivers
      · cases stepped
    | caller outside => exact delivers.callerStep coherent stepped
    | notifier reply => exact delivers.notifierStep stepped
  · cases stepped

/-- **In every interleaving, the notifications the threads received go to the callbacks they
were received for, each once and in the order received.** -/
theorem delivered_reached (reachable : Reachable s) : s.Delivers := by
  induction reachable with
  | start => exact delivers_new
  | next earlier _ stepped ih => exact ih.step (Reachable.coherent earlier) stepped

/-- What the device relays about a notification. -/
def relay : PlistNode := namedCommand (cText "RelayNotification") (cText "sync")

/-- A thread that received it. -/
def heard : Proxy Unit :=
  { npClientNew with
    notifier := some ((), .unlocking (some (cText "sync").val))
    mutex := some .notifier
    returns := [.success]
    log := [(some (), some relay)] }

theorem heard_reachable : Reachable heard :=
  .of_run [.call (.setNotifyCallback (some ())), .caller noOutside, .caller noOutside,
    .caller noOutside, .caller noOutside, .notifier none, .notifier none, .notifier none,
    .notifier none, .notifier (some relay)] rfl

theorem delivers_heard : heard.Delivers := delivered_reached heard_reachable

end Irestore.NotificationProxy
