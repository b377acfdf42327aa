/-
# Lockdown.Handshake — which keys a host keeps, and when a handshake succeeds

What a device accepted is in the history of exchanges: `settles` reads it from one of them.

* `keys_of_visits` — after any run of handshakes and pairing calls, with any replies, the
  host keeps for each device the key accepted first since it was last unpaired.
* `handshake_success_iff` — what a device has to answer for a handshake to succeed; the first
  pairing and the type it is queried for have no part in it.
-/
import Irestore.Lockdown.Pairing

namespace Irestore.Lockdown

open Irestore.Library Irestore.Library.CMemory Irestore.Library.Program Irestore.Plist

set_option autoImplicit false

/-! ## What a history says of keys -/

/-- The verb and the key, when the device accepts a request with the host's own record. -/
def Exchange.settles (uuid : CText) (exchange : Exchange) : Option (Verb × List UInt8) :=
  match exchange.asked, exchange.reply with
  | .pair verb (some publicKey), some reply =>
      if exchange.uuid = some uuid ∧ verb.checkResult reply = .ok RESULT_SUCCESS then
        some (verb, publicKey)
      else none
  | _, _ => none

/-- The device was unpaired. -/
def Exchange.forgets (uuid : CText) (exchange : Exchange) : Bool :=
  match exchange.settles uuid with
  | some (.unpair, _) => true
  | _ => false

/-- The key of a device that was paired, or whose pairing was validated. -/
def Exchange.learns (uuid : CText) (exchange : Exchange) : Option (List UInt8) :=
  match exchange.settles uuid with
  | some (.pair, publicKey) | some (.validatePair, publicKey) => some publicKey
  | _ => none

/-- The key of a device, by what the host had first and the exchanges. -/
def keyOf (first : CText → Option (List UInt8)) (exchanges : List Exchange) (uuid : CText) :
    Option (List UInt8) :=
  exchanges.foldl (register (Exchange.forgets uuid) (Exchange.learns uuid)) (first uuid)

/-- The files are what the exchanges say. -/
def Recorded (first : CText → Option (List UInt8)) (s : Pairing) : Prop :=
  s.userpref.keys = keyOf first s.exchanges

variable {first : CText → Option (List UInt8)} {s : Pairing}

theorem keyOf_concat (exchanges : List Exchange) (exchange : Exchange) (uuid : CText) :
    keyOf first (exchanges ++ [exchange]) uuid =
      register (Exchange.forgets uuid) (Exchange.learns uuid) (keyOf first exchanges uuid)
        exchange := by
  rw [keyOf, List.foldl_append]
  rfl

theorem register_quiet {uuid : CText} {exchange : Exchange} (quiet : exchange.settles uuid = none)
    (key : Option (List UInt8)) :
    register (Exchange.forgets uuid) (Exchange.learns uuid) key exchange = key := by
  simp [register, Exchange.forgets, Exchange.learns, quiet]

/-- An exchange that settles nothing. -/
theorem Recorded.record (recorded : Recorded first s) {exchange : Exchange}
    (quiet : ∀ uuid, exchange.settles uuid = none) : Recorded first (s.record exchange) := by
  funext uuid
  show s.userpref.keys uuid = keyOf first (s.exchanges ++ [exchange]) uuid
  rw [keyOf_concat, register_quiet (quiet uuid), recorded]

/-- A request that is accepted, with what it does to the files. -/
theorem Recorded.settle (recorded : Recorded first s) {verb : Verb}
    {publicKey : Option (List UInt8)} {message reply : PlistNode}
    (accepted : verb.checkResult reply = .ok RESULT_SUCCESS) :
    Recorded first
      ((s.record ⟨s.uuid, .pair verb publicKey, message, some reply⟩).settle verb publicKey) := by
  cases publicKey with
  | none => exact recorded.record fun _ => rfl
  | some publicKey =>
    funext uuid
    show (verb.settle s.uuid publicKey s.userpref).keys uuid =
      keyOf first (s.exchanges ++ [⟨s.uuid, .pair verb (some publicKey), message, some reply⟩]) uuid
    rw [keyOf_concat, ← recorded]
    by_cases own : s.uuid = some uuid
    · have settles : Exchange.settles uuid ⟨s.uuid, .pair verb (some publicKey), message,
          some reply⟩ = some (verb, publicKey) := if_pos ⟨own, accepted⟩
      rw [own] at settles ⊢
      cases verb with
      | unpair =>
        rw [register, Exchange.forgets, settles]
        simp [Verb.settle, userprefRemoveDevicePublicKey]
      | pair | validatePair =>
        rw [register, Exchange.forgets, Exchange.learns, settles]
        cases known : s.userpref.keys uuid <;>
          simp [Verb.settle, userprefSetDevicePublicKey, userprefHasDevicePublicKey, known]
    · have quiet : Exchange.settles uuid ⟨s.uuid, .pair verb (some publicKey), message,
          some reply⟩ = none := if_neg fun both => own both.1
      rw [register_quiet quiet]
      cases other : s.uuid with
      | none => cases verb <;> rfl
      | some uuid' =>
        have differ : uuid ≠ uuid' := fun same => own (same ▸ other)
        cases verb with
        | unpair => simp [Verb.settle, userprefRemoveDevicePublicKey, differ]
        | pair | validatePair =>
          simp only [Verb.settle, userprefSetDevicePublicKey]
          split <;> simp [differ]

/-! ## What each call keeps -/

theorem run_exchange (asked : Asked) (message : PlistNode) (answer : Answer) (s : Pairing) :
    (exchange asked message answer).run s =
      if answer.sent then
        (.ok (if answer.reply.isSome then .success else .plistError, answer.reply),
          s.record ⟨s.uuid, asked, message, answer.reply⟩)
      else (.ok (.unknownError, none), s) := by
  rw [exchange, run_ite]
  rfl

theorem keeps_getValue (key : CText) (answer : Answer) :
    Keeps (Recorded first) (lockdowndGetValue key answer) := by
  refine keeps_bind keeps_get fun s => ?_
  refine keeps_bind (ensures_of_run fun s recorded => ?_) fun received => ?_
  · rw [run_exchange]
    split
    · exact ⟨_, _, rfl, recorded.record fun _ => rfl⟩
    · exact ⟨_, _, rfl, recorded⟩
  · obtain ⟨ret, reply⟩ := received
    cases reply with
    | none => exact keeps_pure _
    | some reply =>
      exact keeps_bind (keeps_lift _) fun _ => keeps_bind (keeps_lift _) fun _ =>
        keeps_bind (keeps_lift _) fun _ => keeps_pure _

theorem keeps_getDevicePublicKey (answer : Answer) :
    Keeps (Recorded first) (lockdowndGetDevicePublicKey answer) := by
  refine keeps_bind (keeps_getValue _ answer) fun received => keeps_ite (keeps_pure _) ?_
  exact keeps_bind (keeps_lift _) fun _ => keeps_pure _

variable (genPairCert : CertificateGenerator)

theorem keeps_preparePairRecord (pairRecord : Option PairRecord) (answer : Answer) :
    Keeps (Recorded first) (preparePairRecord genPairCert pairRecord answer) := by
  have own : Keeps (Recorded first) (preparePairRecord genPairCert none answer) := by
    refine keeps_bind (keeps_getDevicePublicKey answer) fun received => keeps_ite (keeps_pure _) ?_
    refine keeps_bind keeps_get fun s => ?_
    split <;> exact keeps_pure _
  match pairRecord with
  | none => exact own
  | some ⟨_, _, none, _⟩ => exact own
  | some ⟨device, host, some hostId, root⟩ =>
    unfold preparePairRecord
    dsimp only
    split <;> exact keeps_pure _

/-- The request: what is accepted is settled before anything else happens. -/
theorem keeps_requestPair (verb : Verb) (record : PlistNode) (publicKey : Option (List UInt8))
    (answer : Answer) : Keeps (Recorded first) (requestPair verb record publicKey answer) := by
  refine keeps_of_state fun s recorded => ?_
  rw [Program.state, requestPair, run_get_bind, run_bind_eq, run_exchange]
  split
  · rename_i ran
    split at ran
    · cases ran
      cases answer.reply with
      | none => exact recorded.record fun _ => by cases publicKey <;> rfl
      | some reply =>
        dsimp only
        rw [run_bind_eq, run_lift]
        -- a reply that is not accepted settles nothing
        have refused (differ : verb.checkResult reply ≠ .ok RESULT_SUCCESS) (message : PlistNode) :
            Recorded first (s.record ⟨s.uuid, .pair verb publicKey, message, some reply⟩) := by
          refine recorded.record fun uuid => ?_
          cases publicKey with
          | none => rfl
          | some publicKey => exact if_neg fun both => differ both.2
        cases result : verb.checkResult reply with
        | error fault => exact refused (by simp [result]) _
        | ok result' =>
          dsimp only
          rw [run_ite]
          split
          · rename_i success
            exact recorded.settle (by rw [result, success])
          · rename_i differ
            refine refused (fun same => differ ?_) _
            rw [result] at same
            exact Except.ok.inj same
    · cases ran
      exact recorded
  · rename_i ran
    split at ran <;> cases ran

theorem keeps_doPair (pairRecord : Option PairRecord) (verb : Verb) (answers : PairAnswers) :
    Keeps (Recorded first) (lockdowndDoPair genPairCert pairRecord verb answers) := by
  refine keeps_bind (keeps_preparePairRecord genPairCert pairRecord answers.key) fun prepared => ?_
  split
  · exact keeps_pure _
  · exact keeps_requestPair verb _ _ answers.pair

theorem keeps_onClient {α : Type} (program : Program World α) :
    Keeps (Recorded first) (onClient program) := keeps_of_state fun _ recorded => recorded

theorem keeps_handshake (uuid : CText) (label : Option CText) (answers : HandshakeAnswers) :
    Keeps (Recorded first) (lockdowndClientNewWithHandshake genPairCert uuid label answers) := by
  have query : Keeps (Recorded first) (lockdowndQueryType answers.queryType) := by
    unfold lockdowndQueryType
    split
    · exact keeps_pure _
    · exact keeps_bind (keeps_lift _) fun _ => keeps_ite (keeps_bind (keeps_lift _) fun _ =>
        keeps_bind (keeps_lift _) fun _ => keeps_pure _) (keeps_pure _)
  have again : Keeps (Recorded first) (pairAgain genPairCert answers) :=
    keeps_bind (keeps_doPair genPairCert _ _ _) fun _ =>
      keeps_ite (keeps_doPair genPairCert _ _ _) (keeps_pure _)
  refine keeps_ite (keeps_pure _) ?_
  refine keeps_bind (ensures_modify fun _ recorded => recorded) fun _ => ?_
  refine keeps_bind query fun _ => ?_
  refine keeps_bind (ensures_modify fun _ recorded => recorded) fun _ => ?_
  refine keeps_bind keeps_get fun s => ?_
  -- the rest is the same behind the first pairing and without it
  refine keeps_ite (keeps_bind (keeps_doPair genPairCert _ _ _) fun _ => ?_) ?_
  all_goals
    refine keeps_bind (keeps_doPair genPairCert _ _ _) fun ret => ?_
    refine keeps_bind (keeps_ite again (keeps_pure _)) fun ret => ?_
    exact keeps_ite (keeps_bind (keeps_onClient _) fun _ => keeps_pure _) (keeps_pure _)

theorem keeps_visit (visit : Visit) : Keeps (Recorded first) (visit.perform genPairCert) := by
  have calls (calls : List PairCall) :
      Keeps (Recorded first) (calls.forM (PairCall.perform genPairCert)) :=
    keeps_forM (fun call => keeps_bind (keeps_doPair genPairCert _ _ _) fun _ => keeps_pure _) calls
  cases visit with
  | handshake uuid label answers list =>
    exact keeps_bind (keeps_handshake genPairCert uuid label answers) fun _ =>
      keeps_ite (calls list) (keeps_pure _)
  | connect label list =>
    exact keeps_bind (ensures_modify fun _ recorded => recorded) fun _ => calls list

/-! ## A willing device -/

def successReply (request : CText) : PlistNode :=
  let dict := plistDictInsertItem (leaf plistNewDict) (cText "Request")
    (leaf (plistNewString request.val))
  plistDictInsertItem dict (cText "Result") (leaf (plistNewString (cText "Success").val))

/-- It tells its key, and accepts the request. -/
def accepting (verb : Verb) (publicKey : List UInt8) : PairAnswers where
  key := ⟨true, some (plistDictInsertItem (successReply (cText "GetValue")) (cText "Value")
    (leaf (plistNewData publicKey)))⟩
  pair := ⟨true, some (successReply verb.name)⟩

def willing : HandshakeAnswers where
  connected := true
  queryType := ⟨true, none⟩
  first := accepting .pair [1]
  validate := accepting .validatePair [2]
  again := accepting .pair [3]
  validateAgain := accepting .validatePair [4]
  stop := ⟨true, none⟩
  start := ⟨true, some (plistDictInsertItem (successReply (cText "StartSession"))
    (cText "SessionID") (leaf (plistNewString (cText "1").val)))⟩
  ssl := true

def anyCertificates : CertificateGenerator := fun publicKey => .ok ⟨publicKey, [], []⟩

/-- A host that knows no device. -/
def newHost : Pairing where
  client := lockdowndClientNew none
  uuid := none
  userpref := ⟨cText "host", fun _ => none⟩
  exchanges := []

/-- **After any run the host keeps for a device the key accepted first since it was unpaired,
or else the one it had.** -/
theorem keys_of_visits (run : List Visit) (fresh : s.exchanges = []) (uuid : CText) :
    ((visits genPairCert run).state s).userpref.keys uuid =
      (if ((visits genPairCert run).state s).exchanges.any (Exchange.forgets uuid) then none
        else s.userpref.keys uuid).or
        ((sinceLast (Exchange.forgets uuid)
          ((visits genPairCert run).state s).exchanges).findSome? (Exchange.learns uuid)) := by
  have start : Recorded s.userpref.keys s := by
    rw [Recorded, fresh]
    rfl
  have kept := (keeps_forM (keeps_visit genPairCert) run).state start
  have same := congrFun (show ((visits genPairCert run).state s).userpref.keys = _ from kept) uuid
  rw [same, keyOf, foldl_register]
  rfl

/-- The first of the keys it tells is kept. -/
theorem willing_key :
    ((visits anyCertificates [.handshake (cText "a") none willing []]).state
      newHost).userpref.keys (cText "a") = some [1] :=
  (keys_of_visits anyCertificates _ rfl (cText "a")).trans rfl

/-! ## What a handshake needs -/

/-- What `lockdownd_get_device_public_key` makes of an answer. -/
def publicKeyOf (answer : Answer) : Checked (LockdowndError × Option (List UInt8)) :=
  if answer.sent then
    match answer.reply with
    | none => return (.plistError, none)
    | some reply => do
        let _ ← lockdownCheckResult reply (cText "GetValue")
        let node ← plistDictGetItem reply (cText "Value")
        let value ← node.mapM plistCopyNode
        let publicKey ← plistGetDataVal value
        return (.success, publicKey)
  else return (.unknownError, none)

/-- What the answer to a request to pair comes to. -/
def requestCode (verb : Verb) (answer : Answer) : Checked PairError :=
  if answer.sent then
    match answer.reply with
    | none => return .of .plistError
    | some reply => do
        let result ← verb.checkResult reply
        if result = RESULT_SUCCESS then return .of .success else pairRefusal reply
  else return .of .unknownError

/-- What the device's answers to a pairing call with the host's own record come to. -/
def pairCode (verb : Verb) (answers : PairAnswers) : Checked PairError := do
  let (ret, publicKey) ← publicKeyOf answers.key
  if ret ≠ .success then return .of ret
  else
    match publicKey with
    | none => return .of .invalidArg
    | some publicKey =>
        match genPairCert publicKey with
        | .error ret => return .of ret.val
        | .ok _ => requestCode verb answers.pair

/-- What a call leaves as it was: the client, its `uuid` and the files. -/
def Same (s s' : Pairing) : Prop :=
  s'.client = s.client ∧ s'.uuid = s.uuid ∧ s'.userpref = s.userpref

theorem run_exchange_ok {asked : Asked} {message : PlistNode} {answer : Answer} {s s' : Pairing}
    {result : LockdowndError × Option PlistNode}
    (ran : (exchange asked message answer).run s = (.ok result, s')) :
    Same s s' ∧ result = if answer.sent then
      (if answer.reply.isSome then .success else .plistError, answer.reply)
        else (.unknownError, none) := by
  rw [run_exchange] at ran
  split at ran
  · rename_i sent
    cases ran
    rw [if_pos sent]
    exact ⟨⟨rfl, rfl, rfl⟩, rfl⟩
  · rename_i unsent
    cases ran
    rw [if_neg unsent]
    exact ⟨⟨rfl, rfl, rfl⟩, rfl⟩

theorem run_getDevicePublicKey {answer : Answer} {s s' : Pairing}
    {result : LockdowndError × Option (List UInt8)}
    (ran : (lockdowndGetDevicePublicKey answer).run s = (.ok result, s')) :
    Same s s' ∧ publicKeyOf answer = .ok result := by
  obtain ⟨⟨ret, value⟩, s₁, got, ran⟩ := run_bind_eq_ok.mp ran
  rw [lockdowndGetValue, run_get_bind] at got
  obtain ⟨⟨ret', reply⟩, s₂, exchanged, got⟩ := run_bind_eq_ok.mp got
  obtain ⟨same, received⟩ := run_exchange_ok exchanged
  rw [publicKeyOf]
  split at received
  · rename_i sent
    rw [if_pos sent]
    cases received
    cases replied : answer.reply with
    | none =>
      rw [replied] at got
      cases got
      cases ran
      exact ⟨same, rfl⟩
    | some reply =>
      rw [replied] at got
      obtain ⟨check, checked, got⟩ := run_lift_bind_eq_ok.mp got
      obtain ⟨node, found, got⟩ := run_lift_bind_eq_ok.mp got
      obtain ⟨copy, copied, got⟩ := run_lift_bind_eq_ok.mp got
      cases got
      obtain ⟨publicKey, read, ran⟩ := run_lift_bind_eq_ok.mp ran
      cases ran
      refine ⟨same, ?_⟩
      dsimp only
      rw [checked, ok_bind, found, ok_bind, copied, ok_bind, read]
      rfl
  · rename_i unsent
    rw [if_neg unsent]
    cases received
    cases got
    cases ran
    exact ⟨same, rfl⟩

/-- The keys after an accepted request. -/
theorem settle_known {verb : Verb} (paired : verb ≠ .unpair) {publicKey : List UInt8}
    (s : Pairing) (uuid : CText) (known : s.uuid = some uuid) :
    ((s.settle verb (some publicKey)).userpref.keys uuid).isSome = true := by
  cases key : s.userpref.keys uuid <;> cases verb <;>
    first
    | exact absurd rfl paired
    | simp [Pairing.settle, Verb.settle, userprefSetDevicePublicKey, userprefHasDevicePublicKey,
        known, key]

theorem pairRefusal_ne_success {dict : PlistNode} {code : PairError}
    (refused : pairRefusal dict = .ok code) : code ≠ .of .success := by
  rw [pairRefusal] at refused
  obtain ⟨node, -, refused⟩ := bind_eq_ok.mp refused
  cases node with
  | none =>
    cases refused
    simp
  | some node =>
    obtain ⟨value, -, refused⟩ := bind_eq_ok.mp refused
    split_ifs at refused <;> cases refused <;> simp

/-- What a pairing call leaves, with the code it ends with. -/
structure Paired (s s' : Pairing) (code : PairError) : Prop where
  client : s'.client = s.client
  uuid : s'.uuid = s.uuid
  hostId : s'.userpref.hostId = s.userpref.hostId
  known : code = .of .success → ∀ uuid, s.uuid = some uuid →
    (s'.userpref.keys uuid).isSome = true

theorem Same.paired {s s' : Pairing} {code : PairError} (same : Same s s')
    (failed : code ≠ .of .success) : Paired s s' code :=
  ⟨same.1, same.2.1, by rw [same.2.2], fun success => absurd success failed⟩

theorem run_requestPair {verb : Verb} (paired : verb ≠ .unpair) {record : PlistNode}
    {publicKey : List UInt8} {answer : Answer} {s s' : Pairing} {code : PairError}
    (ran : (requestPair verb record (some publicKey) answer).run s = (.ok code, s')) :
    requestCode verb answer = .ok code ∧ Paired s s' code := by
  rw [requestPair, run_get_bind] at ran
  obtain ⟨⟨ret, reply⟩, s₁, exchanged, ran⟩ := run_bind_eq_ok.mp ran
  obtain ⟨same, received⟩ := run_exchange_ok exchanged
  rw [requestCode]
  split at received
  · rename_i sent
    rw [if_pos sent]
    cases received
    cases replied : answer.reply with
    | none =>
      rw [replied] at ran
      cases ran
      exact ⟨rfl, same.paired (by simp)⟩
    | some reply =>
      rw [replied] at ran
      obtain ⟨result, checked, ran⟩ := run_lift_bind_eq_ok.mp ran
      dsimp only
      rw [checked, ok_bind]
      rw [run_ite] at ran
      split at ran
      · rename_i success
        cases ran
        rw [if_pos success]
        refine ⟨rfl, same.1, same.2.1, ?_, fun _ uuid known => ?_⟩
        · rw [← same.2.2]
          cases verb with
          | unpair => exact absurd rfl paired
          | pair | validatePair =>
            simp only [Pairing.settle, Verb.settle, userprefSetDevicePublicKey]
            split
            · rfl
            · split <;> rfl
        · exact settle_known paired s₁ uuid (same.2.1.trans known)
      · rename_i differ
        rw [if_neg differ]
        obtain ⟨refused, rfl⟩ := Prod.mk.inj ran
        exact ⟨refused, same.paired (pairRefusal_ne_success refused)⟩
  · rename_i unsent
    rw [if_neg unsent]
    cases received
    cases ran
    exact ⟨rfl, same.paired (by simp)⟩

/-- **One call with the host's own record**: its code is that of the answers, and a device
that accepts it is known afterwards. -/
theorem run_doPair {verb : Verb} (paired : verb ≠ .unpair) {answers : PairAnswers}
    {s s' : Pairing} {code : PairError}
    (ran : (lockdowndDoPair genPairCert none verb answers).run s = (.ok code, s')) :
    pairCode genPairCert verb answers = .ok code ∧ Paired s s' code := by
  obtain ⟨prepared, s₁, prepare, ran⟩ := run_bind_eq_ok.mp ran
  obtain ⟨⟨ret, publicKey⟩, s₂, got, prepare⟩ := run_bind_eq_ok.mp prepare
  obtain ⟨same, keyed⟩ := run_getDevicePublicKey got
  rw [pairCode, keyed, ok_bind]
  rw [run_ite] at prepare
  dsimp only
  split at prepare
  · rename_i failed
    cases prepare
    cases ran
    rw [if_pos failed]
    exact ⟨rfl, same.paired fun success => failed (PairError.of.inj success)⟩
  · rename_i succeeded
    rw [if_neg succeeded]
    rw [run_get_bind] at prepare
    cases publicKey with
    | none =>
      cases prepare
      cases ran
      exact ⟨rfl, same.paired (by simp)⟩
    | some publicKey =>
      dsimp only [generatePairRecordPlist] at prepare ⊢
      cases certificates : genPairCert publicKey with
      | error ret' =>
        rw [certificates] at prepare
        cases prepare
        cases ran
        exact ⟨rfl, same.paired fun success => ret'.property (PairError.of.inj success)⟩
      | ok certificates' =>
        rw [certificates] at prepare
        cases prepare
        obtain ⟨code, left⟩ := run_requestPair paired ran
        refine ⟨code, left.client.trans same.1, left.uuid.trans same.2.1,
          left.hostId.trans (by rw [same.2.2]), fun success uuid known => ?_⟩
        exact left.known success uuid (same.2.1.trans known)

/-- The device opens a session, or refuses it for another reason than an unknown host; SSL goes
on when the reply asks for it. -/
def Opens (start : Answer) (ssl : Bool) : Prop :=
  start.sent = true ∧ ∃ reply, start.reply = some reply ∧
    if lockdownCheckResult reply (cText "StartSession") = .ok RESULT_FAILURE then
      stringItem reply (cText "Error") ≠ .ok (some (cText "InvalidHostID").val)
    else useSsl reply = .ok true → ssl = true

theorem run_openSession_code {dict : PlistNode} {ssl : Bool} {w w' : World}
    {results : LockdowndError × Option CText × Bool} (off : w.sslData = false)
    (ran : (openSession dict false ssl).run w = (.ok results, w')) :
    results.1 = .success ↔ (useSsl dict = .ok true → ssl = true) := by
  obtain ⟨asked, read, ran⟩ := run_lift_bind_eq_ok.mp ran
  obtain ⟨_, w₁, stored, ran⟩ := run_bind_eq_ok.mp ran
  obtain ⟨copy, w₂, copied, ran⟩ := run_bind_eq_ok.mp ran
  have still : w₂.sslData = false := by
    rw [copySessionId, run_get_bind] at copied
    obtain ⟨sessionId, -, stored⟩ := run_lift_bind_eq_ok.mp stored
    have kept : w₁.sslData = false := by
      cases sessionId with
      | none =>
        cases stored
        exact off
      | some text =>
        dsimp only at stored
        split at stored
        · cases stored
          exact off
        · cases stored
    split at copied <;> cases copied <;> exact kept
  rw [read]
  cases asked with
  | false =>
    cases ran
    simp
  | true =>
    obtain ⟨enabled, w₃, enable, ran⟩ := run_bind_eq_ok.mp ran
    cases ran
    rw [ideviceConnectionEnableSsl, run_get_bind, still] at enable
    cases ssl <;> cases enable <;> simp

/-- The start of a session on a new client. -/
theorem run_startSession_new {label : Option CText} {hostId : CText} {stop start : Answer}
    {ssl : Bool} {w' : World} {results : LockdowndError × Option CText × Bool}
    (ran : (lockdowndStartSession (some hostId) false stop start ssl).run
      (lockdowndClientNew label) = (.ok results, w')) :
    results.1 = .success ↔ Opens start ssl := by
  rw [Opens]
  obtain ⟨_, w₀, vacated, ran⟩ := run_bind_eq_ok.mp ran
  have idle : (lockdowndClientNew label).client.sessionId = .null := rfl
  rw [stopRunning, run_get_bind, run_ite, if_pos idle] at vacated
  cases vacated
  obtain ⟨_, w₀, host, ran⟩ := run_bind_eq_ok.mp ran
  cases host
  obtain ⟨ret, w₁, sent, ran⟩ := run_bind_eq_ok.mp ran
  cases sent
  cases isSent : start.sent with
  | false =>
    rw [isSent] at ran
    cases ran
    simp
  | true =>
    rw [isSent] at ran
    obtain ⟨⟨ret, dict⟩, w₂, received, ran⟩ := run_bind_eq_ok.mp ran
    cases received
    cases replied : start.reply with
    | none =>
      rw [replied] at ran
      cases ran
      simp
    | some reply =>
      rw [replied] at ran
      obtain ⟨result, checked, ran⟩ := run_lift_bind_eq_ok.mp ran
      rw [run_ite] at ran
      simp only [true_and, Option.some.injEq, exists_eq_left']
      split at ran
      · rename_i refused
        rw [if_pos (by rw [checked, refused])]
        obtain ⟨code, refusedWith, ran⟩ := run_lift_bind_eq_ok.mp ran
        cases ran
        obtain ⟨error, read, refusedWith⟩ := bind_eq_ok.mp refusedWith
        rw [read]
        cases refusedWith
        split <;> simp_all
      · rename_i accepted
        rw [if_neg fun same => accepted (Except.ok.inj (checked.symm.trans same))]
        exact run_openSession_code rfl ran

/-- The last validation is accepted, after a pairing if the device did not know the host. -/
def Trusted (answers : HandshakeAnswers) : Prop :=
  pairCode genPairCert .validatePair answers.validate = .ok (.of .success) ∨
    pairCode genPairCert .validatePair answers.validate = .ok (.of .invalidHostId) ∧
      pairCode genPairCert .pair answers.again = .ok (.of .success) ∧
      pairCode genPairCert .validatePair answers.validateAgain = .ok (.of .success)

/-- The new client of a device. -/
structure Fresh (label : Option CText) (uuid : CText) (s : Pairing) : Prop where
  client : s.client = lockdowndClientNew label
  uuid : s.uuid = some uuid

variable {genPairCert} {label : Option CText} {uuid : CText} {answers : HandshakeAnswers}

theorem Fresh.paired {s s' : Pairing} {code : PairError} (fresh : Fresh label uuid s)
    (paired : Paired s s' code) : Fresh label uuid s' :=
  ⟨paired.client.trans fresh.client, paired.uuid.trans fresh.uuid⟩

/-- The validation and what follows a device that does not know the host. -/
theorem run_validated {s s₁ s₂ : Pairing} {ret code : PairError} (fresh : Fresh label uuid s)
    (validate : (lockdowndDoPair genPairCert none .validatePair answers.validate).run s =
      (.ok ret, s₁))
    (ran : (if ret = .of .invalidHostId then pairAgain genPairCert answers else return ret).run s₁ =
      (.ok code, s₂)) :
    Fresh label uuid s₂ ∧ (code = .of .success ↔ Trusted genPairCert answers) ∧
      (code = .of .success → (s₂.userpref.keys uuid).isSome = true) := by
  obtain ⟨validated, paired⟩ := run_doPair genPairCert (by decide) validate
  have fresh₁ := fresh.paired paired
  rw [Trusted, validated]
  rw [run_ite] at ran
  split at ran
  · rename_i unknown
    subst unknown
    obtain ⟨ret, s₃, again, ran⟩ := run_bind_eq_ok.mp ran
    obtain ⟨pairedAgain, paired'⟩ := run_doPair genPairCert (by decide) again
    have fresh₃ := fresh₁.paired paired'
    rw [pairedAgain]
    rw [run_ite] at ran
    split at ran
    · rename_i success
      subst success
      obtain ⟨revalidated, paired''⟩ := run_doPair genPairCert (by decide) ran
      rw [revalidated]
      refine ⟨fresh₃.paired paired'', by simp, ?_⟩
      exact fun success => paired''.known success uuid fresh₃.uuid
    · rename_i failed
      cases ran
      exact ⟨fresh₃, by simp [failed], fun success => absurd success failed⟩
  · rename_i known
    cases ran
    exact ⟨fresh₁, by simp [known], fun success => paired.known success uuid fresh.uuid⟩

theorem run_queryType {answer : Answer} {s s' : Pairing} {ret : LockdowndError}
    (ran : (lockdowndQueryType answer).run s = (.ok ret, s')) : s' = s := by
  unfold lockdowndQueryType at ran
  split at ran
  · cases ran
    rfl
  · obtain ⟨result, -, ran⟩ := run_lift_bind_eq_ok.mp ran
    rw [run_ite] at ran
    split at ran
    · obtain ⟨node, -, ran⟩ := run_lift_bind_eq_ok.mp ran
      obtain ⟨type, -, ran⟩ := run_lift_bind_eq_ok.mp ran
      cases ran
      rfl
    · cases ran
      rfl

/-- The end of the handshake, from the validation on. -/
theorem run_handshake_end {s s' : Pairing} {hostId : CText} {code : PairError}
    (fresh : Fresh label uuid s)
    (ran : (do
      let ret ← lockdowndDoPair genPairCert none .validatePair answers.validate
      let ret ← (if ret = .of .invalidHostId then pairAgain genPairCert answers else return ret)
      if ret = .of .success then do
        let (ret, _, _) ← onClient (lockdowndStartSession (some hostId) false answers.stop
          answers.start answers.ssl)
        return PairError.of ret
      else return ret : Program Pairing PairError).run s = (.ok code, s')) :
    (code = .of .success ↔ Trusted genPairCert answers ∧ Opens answers.start answers.ssl) ∧
      (code = .of .success → (s'.userpref.keys uuid).isSome = true) := by
  obtain ⟨ret, s₁, validate, ran⟩ := run_bind_eq_ok.mp ran
  obtain ⟨ret', s₂, again, ran⟩ := run_bind_eq_ok.mp ran
  obtain ⟨fresh₂, trusted, known⟩ := run_validated fresh validate again
  rw [← trusted]
  rw [run_ite] at ran
  split at ran
  · rename_i success
    obtain ⟨results, s₃, started, ran⟩ := run_bind_eq_ok.mp ran
    cases ran
    obtain ⟨result, rfl⟩ := Prod.mk.inj started
    rw [fresh₂.client] at result
    have opens := run_startSession_new (Prod.ext result rfl)
    rw [← opens]
    simp only [success, true_and, PairError.of.injEq, iff_self]
    exact fun _ => known success
  · rename_i failed
    cases ran
    exact ⟨by simp [failed], fun success => absurd success failed⟩

/-- **A handshake that ends succeeds exactly when the connection is there, the last
validation is accepted and the session opens; the host then has a key of the device.** -/
theorem handshake_success_iff {s s' : Pairing} {code : PairError}
    (ran : (lockdowndClientNewWithHandshake genPairCert uuid label answers).run s =
      (.ok code, s')) :
    (code = .of .success ↔
      answers.connected = true ∧ Trusted genPairCert answers ∧ Opens answers.start answers.ssl) ∧
      (code = .of .success → (s'.userpref.keys uuid).isSome = true) := by
  rw [lockdowndClientNewWithHandshake, run_ite] at ran
  split at ran
  · rename_i absent
    cases ran
    simp [absent]
  rename_i connected
  rw [Bool.not_eq_false] at connected
  rw [connected, eq_self, true_and]
  obtain ⟨_, s₁, connect, ran⟩ := run_bind_eq_ok.mp ran
  cases connect
  obtain ⟨_, s₂, query, ran⟩ := run_bind_eq_ok.mp ran
  cases run_queryType query
  obtain ⟨_, s₃, named, ran⟩ := run_bind_eq_ok.mp ran
  cases named
  rw [run_get_bind, run_ite] at ran
  have fresh : Fresh label uuid { s.connect label with uuid := some uuid } := ⟨rfl, rfl⟩
  split at ran
  · obtain ⟨_, s₄, first, ran⟩ := run_bind_eq_ok.mp ran
    obtain ⟨-, paired⟩ := run_doPair genPairCert (by decide) first
    exact run_handshake_end (fresh.paired paired) ran
  · exact run_handshake_end fresh ran

theorem willing_trusted : Trusted anyCertificates willing ∧ Opens willing.start willing.ssl := by
  have ran : (lockdowndClientNewWithHandshake anyCertificates (cText "a") none willing).run
      newHost = (.ok (.of .success), (lockdowndClientNewWithHandshake anyCertificates (cText "a")
        none willing).state newHost) := rfl
  exact ((handshake_success_iff ran).1.mp rfl).2

end Irestore.Lockdown
