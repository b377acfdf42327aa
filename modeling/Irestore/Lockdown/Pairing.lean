/-
# Lockdown.Pairing — pairing with a device, and the keys a host keeps

`lockdownd_pair`, `lockdownd_validate_pair` and `lockdownd_unpair` are one function with
three verbs.  With the record of the host itself it asks the device for its public key, and
an accepted request stores or removes the file of that key.  The handshake of
`lockdownd_client_new_with_handshake` pairs where it has to and starts a session.

`lockdownd_gen_pair_cert` stands in the same file, one call of GnuTLS after the other; here it is
a parameter, with whatever answers.  Local files open, and the host has a `HostID`.  What is asked
of the device is noted with its answer.
-/
import Irestore.Library.Trace
import Irestore.Lockdown.Client
import Mathlib.Logic.Function.Basic

namespace Irestore.Lockdown

open Irestore.Library Irestore.Library.CMemory Irestore.Plist

set_option autoImplicit false

/-- `lockdownd_error_t`, with the codes of pairing. -/
inductive PairError where
  | of (err : LockdowndError)
  | pairingFailed | passwordProtected | muxError
  deriving DecidableEq

/-- The files of the host: its `HostID`, and `<uuid>.pem` of the devices it knows. -/
structure Userpref where
  hostId : CText
  keys : CText → Option (List UInt8)

inductive Verb where
  | pair | validatePair | unpair
  deriving DecidableEq

def Verb.name : Verb → CText
  | .pair => cText "Pair"
  | .validatePair => cText "ValidatePair"
  | .unpair => cText "Unpair"

/-- What a device is asked: a value, or to pair, with its public key when the record is the
host's own. -/
inductive Asked where
  | getValue (key : CText)
  | pair (verb : Verb) (publicKey : Option (List UInt8))
  deriving DecidableEq

/-- A request to a device, and the reply. -/
structure Exchange where
  uuid : Option CText
  asked : Asked
  message : PlistNode
  reply : Option PlistNode

/-- A client with its `uuid`, the files of the host, and what was asked. -/
structure Pairing where
  client : World
  uuid : Option CText
  userpref : Userpref
  exchanges : List Exchange

/-- `lockdownd_pair_record_t`. -/
structure PairRecord where
  deviceCertificate : Option CText
  hostCertificate : Option CText
  hostId : Option CText
  rootCertificate : Option CText

/-- The certificates of the device, the host and the root. -/
structure Certificates where
  device : List UInt8
  host : List UInt8
  root : List UInt8

/-! ## The keys of devices -/

/-- `userpref_has_device_public_key`; without a `uuid` it looks at the directory. -/
def userprefHasDevicePublicKey (uuid : Option CText) (userpref : Userpref) : Bool :=
  match uuid with
  | none => true
  | some uuid => (userpref.keys uuid).isSome

/-- `userpref_set_device_public_key`: a key that is there stays. -/
def userprefSetDevicePublicKey (uuid : Option CText) (publicKey : List UInt8)
    (userpref : Userpref) : Userpref :=
  if userprefHasDevicePublicKey uuid userpref then userpref
  else
    match uuid with
    | none => userpref
    | some uuid =>
        { userpref with keys := Function.update userpref.keys uuid (some publicKey) }

/-- `userpref_remove_device_public_key`; the directory has a file in it, and stays. -/
def userprefRemoveDevicePublicKey (uuid : Option CText) (userpref : Userpref) : Userpref :=
  match uuid with
  | none => userpref
  | some uuid => { userpref with keys := Function.update userpref.keys uuid none }

/-! ## Requests -/

def Pairing.record (exchange : Exchange) (s : Pairing) : Pairing :=
  { s with exchanges := s.exchanges ++ [exchange] }

/-- A request is sent, and its reply received. -/
def exchange (asked : Asked) (message : PlistNode) (answer : Answer) :
    Program Pairing (LockdowndError × Option PlistNode) :=
  if answer.sent then do
    let s ← Program.get
    Program.modify (Pairing.record ⟨s.uuid, asked, message, answer.reply⟩)
    return (if answer.reply.isSome then .success else .plistError, answer.reply)
  else return (.unknownError, none)

/-- `lockdownd_query_type`: the code of the send is overwritten, and a reply that is a success
has a string `Type`. -/
def lockdowndQueryType (answer : Answer) : Program Pairing LockdowndError :=
  match answer.reply with
  | none => return .plistError
  | some dict => do
      let result ← Program.lift (lockdownCheckResult dict (cText "QueryType"))
      if result = RESULT_SUCCESS then do
        let node ← Program.lift (plistDictGetItem dict (cText "Type"))
        let _ ← Program.lift (plistGetStringVal node)
        return .success
      else return .unknownError

/-- `lockdownd_get_value` for a key of the global domain: the `Result` of the reply has no
part in the code. -/
def lockdowndGetValue (key : CText) (answer : Answer) :
    Program Pairing (LockdowndError × Option PlistNode) := do
  let s ← Program.get
  let dict := plistDictAddLabel (leaf plistNewDict) s.client.client.label
  let dict := plistDictInsertItem dict (cText "Key") (leaf (plistNewString key.val))
  let dict := plistDictInsertItem dict (cText "Request")
    (leaf (plistNewString (cText "GetValue").val))
  let (ret, reply) ← exchange (.getValue key) dict answer
  match reply with
  | none => return (ret, none)
  | some reply => do
      let _ ← Program.lift (lockdownCheckResult reply (cText "GetValue"))
      let node ← Program.lift (plistDictGetItem reply (cText "Value"))
      let value ← Program.lift (node.mapM plistCopyNode)
      return (.success, value)

/-- `lockdownd_get_device_public_key`. -/
def lockdowndGetDevicePublicKey (answer : Answer) :
    Program Pairing (LockdowndError × Option (List UInt8)) := do
  let (ret, value) ← lockdowndGetValue (cText "DevicePublicKey") answer
  if ret ≠ .success then return (ret, none)
  else do
    let publicKey ← Program.lift (plistGetDataVal value)
    return (.success, publicKey)

/-! ## Pair records -/

def pairRecordPlist (certificates : Certificates) (hostId : CText) : PlistNode :=
  let dict := leaf plistNewDict
  let dict := plistDictInsertItem dict (cText "DeviceCertificate")
    (leaf (plistNewData certificates.device))
  let dict := plistDictInsertItem dict (cText "HostCertificate")
    (leaf (plistNewData certificates.host))
  let dict := plistDictInsertItem dict (cText "HostID") (leaf (plistNewString hostId.val))
  plistDictInsertItem dict (cText "RootCertificate") (leaf (plistNewData certificates.root))

/-- A code that is no success. -/
abbrev Failure : Type := { ret : LockdowndError // ret ≠ .success }

/-- `lockdownd_gen_pair_cert`, for a key that is given. -/
abbrev CertificateGenerator : Type := List UInt8 → Except Failure Certificates

variable (genPairCert : CertificateGenerator)

/-- `generate_pair_record_plist`; there is no certificate for a key that was not given. -/
def generatePairRecordPlist (publicKey : Option (List UInt8)) (hostId : CText) :
    Except LockdowndError (PlistNode × List UInt8) :=
  match publicKey with
  | none => .error .invalidArg
  | some publicKey =>
      match genPairCert publicKey with
      | .error ret => .error ret.val
      | .ok certificates => .ok (pairRecordPlist certificates hostId, publicKey)

/-- The pair record of the request, and the public key of the device when the record is the
host's own. -/
def preparePairRecord (pairRecord : Option PairRecord) (answer : Answer) :
    Program Pairing (Except LockdowndError (PlistNode × Option (List UInt8))) :=
  match pairRecord with
  | some ⟨device, host, some hostId, root⟩ =>
      match device, host, root with
      | some device, some host, some root =>
          return .ok (pairRecordPlist ⟨device.val, host.val, root.val⟩ hostId, none)
      | _, _, _ => return .error .plistError
  | _ => do
      let (ret, publicKey) ← lockdowndGetDevicePublicKey answer
      if ret ≠ .success then return .error ret
      else do
        let s ← Program.get
        match generatePairRecordPlist genPairCert publicKey s.userpref.hostId with
        | .error ret => return .error ret
        | .ok (record, publicKey) => return .ok (record, some publicKey)

/-! ## Pairing -/

/-- `lockdown_check_result` for a reply to `Unpair`, whatever its `Request` says. -/
def lockdownCheckAnyResult (dict : PlistNode) : Checked Int := do
  let query ← stringItem dict (cText "Request")
  match query with
  | none => return -1
  | some _ => do
      let result ← stringItem dict (cText "Result")
      if result = some (cText "Success").val then return RESULT_SUCCESS
      else if result = some (cText "Failure").val then return RESULT_FAILURE
      else return -1

def Verb.checkResult : Verb → PlistNode → Checked Int
  | .unpair, dict => lockdownCheckAnyResult dict
  | verb, dict => lockdownCheckResult dict verb.name

/-- The code for a refusal; an `Error` that is no string ends the program. -/
def pairRefusal (dict : PlistNode) : Checked PairError := do
  let node ← plistDictGetItem dict (cText "Error")
  match node with
  | none => return .pairingFailed
  | some node => do
      let value ← plistGetStringVal (some node)
      if value = (cText "PasswordProtected").val then return .passwordProtected
      else if value = (cText "InvalidHostID").val then return .of .invalidHostId
      else return .pairingFailed

/-- What an accepted request does to the keys. -/
def Verb.settle (verb : Verb) (uuid : Option CText) (publicKey : List UInt8) :
    Userpref → Userpref :=
  match verb with
  | .unpair => userprefRemoveDevicePublicKey uuid
  | .pair | .validatePair => userprefSetDevicePublicKey uuid publicKey

def Pairing.settle (verb : Verb) (publicKey : Option (List UInt8)) (s : Pairing) : Pairing :=
  match publicKey with
  | none => s
  | some publicKey => { s with userpref := verb.settle s.uuid publicKey s.userpref }

/-- What the device answers to one call: about its key, and to the request. -/
structure PairAnswers where
  key : Answer
  pair : Answer

/-- The end of `lockdownd_do_pair`: the request, with a pair record. -/
def requestPair (verb : Verb) (record : PlistNode) (publicKey : Option (List UInt8))
    (answer : Answer) : Program Pairing PairError := do
  let s ← Program.get
  let dict := plistDictAddLabel (leaf plistNewDict) s.client.client.label
  let dict := plistDictInsertItem dict (cText "PairRecord") record
  let dict := plistDictInsertItem dict (cText "Request") (leaf (plistNewString verb.name.val))
  let (ret, reply) ← exchange (.pair verb publicKey) dict answer
  match reply with
  | none => return .of ret
  | some reply => do
      let result ← Program.lift (verb.checkResult reply)
      if result = RESULT_SUCCESS then do
        Program.modify (Pairing.settle verb publicKey)
        return .of .success
      else Program.lift (pairRefusal reply)

/-- `lockdownd_do_pair`. -/
def lockdowndDoPair (pairRecord : Option PairRecord) (verb : Verb) (answers : PairAnswers) :
    Program Pairing PairError := do
  let prepared ← preparePairRecord genPairCert pairRecord answers.key
  match prepared with
  | .error ret => return .of ret
  | .ok (record, publicKey) => requestPair verb record publicKey answers.pair

/-! ## The handshake -/

/-- A call on the client. -/
def onClient {α : Type} (program : Program World α) : Program Pairing α :=
  ⟨fun s => ((program.run s.client).1, { s with client := (program.run s.client).2 })⟩

/-- What the outside does during a handshake: its pairing calls in their order. -/
structure HandshakeAnswers where
  connected : Bool
  queryType : Answer
  first : PairAnswers
  validate : PairAnswers
  again : PairAnswers
  validateAgain : PairAnswers
  stop : Answer
  start : Answer
  ssl : Bool

/-- The device does not know the host yet: pair, and validate once more. -/
def pairAgain (answers : HandshakeAnswers) : Program Pairing PairError := do
  let ret ← lockdowndDoPair genPairCert none .pair answers.again
  if ret = .of .success then
    lockdowndDoPair genPairCert none .validatePair answers.validateAgain
  else return ret

/-- `lockdownd_client_new`. -/
def Pairing.connect (label : Option CText) (s : Pairing) : Pairing :=
  { s with client := lockdowndClientNew label, uuid := none }

/-- `lockdownd_client_new_with_handshake`, up to the code it returns; a client that is not
handed out is freed. -/
def lockdowndClientNewWithHandshake (uuid : CText) (label : Option CText)
    (answers : HandshakeAnswers) : Program Pairing PairError :=
  if answers.connected = false then return .muxError
  else do
    Program.modify (Pairing.connect label)
    -- the code for a query that fails is overwritten
    let _ ← lockdowndQueryType answers.queryType
    Program.modify fun s => { s with uuid := some uuid }
    let s ← Program.get
    -- and so is that of the first pairing
    if userprefHasDevicePublicKey (some uuid) s.userpref = false then do
      let _ ← lockdowndDoPair genPairCert none .pair answers.first
    let ret ← lockdowndDoPair genPairCert none .validatePair answers.validate
    let ret ← (if ret = .of .invalidHostId then pairAgain genPairCert answers else return ret)
    if ret = .of .success then do
      let (ret, _, _) ← onClient (lockdowndStartSession (some s.userpref.hostId) false
        answers.stop answers.start answers.ssl)
      return .of ret
    else return ret

/-! ## Runs -/

/-- A call of `lockdownd_pair`, `lockdownd_validate_pair` or `lockdownd_unpair`. -/
structure PairCall where
  pairRecord : Option PairRecord
  verb : Verb
  answers : PairAnswers

def PairCall.perform (call : PairCall) : Program Pairing PUnit := do
  let _ ← lockdowndDoPair genPairCert call.pairRecord call.verb call.answers

/-- A client and the calls on it: it comes out of a handshake, or is only connected. -/
inductive Visit where
  | handshake (uuid : CText) (label : Option CText) (answers : HandshakeAnswers)
      (calls : List PairCall)
  | connect (label : Option CText) (calls : List PairCall)

def Visit.perform : Visit → Program Pairing PUnit
  | .handshake uuid label answers calls => do
      let ret ← lockdowndClientNewWithHandshake genPairCert uuid label answers
      if ret = .of .success then calls.forM (PairCall.perform genPairCert) else return
  | .connect label calls => do
      Program.modify (Pairing.connect label)
      calls.forM (PairCall.perform genPairCert)

/-- One client after another. -/
def visits (run : List Visit) : Program Pairing PUnit := run.forM (Visit.perform genPairCert)

end Irestore.Lockdown
