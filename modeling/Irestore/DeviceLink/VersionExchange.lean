/-
# DeviceLink.VersionExchange — the first exchange of a device link client

The device announces its version, the client answers, and the device says that it is
ready.  A message is an array that begins with a string `DL…`; the version is its next two
items, which `device_link_service_version_exchange` reads without looking at their types.

* `isMessage_intact` — which plists are taken for a message.
* `version_ends_iff` — when a part of the version can be read.
* `exchanged_iff` — for which announcements the call ends with the code it is to return.
* `text_version_asserts` — an announcement whose major version is a string.
-/
import Irestore.Library.Program
import Irestore.Plist.Array

namespace Irestore.DeviceLink

open Irestore.Library Irestore.Library.Program Irestore.Library.CMemory Irestore.Plist

set_option autoImplicit false

/-! ## The call -/

/-- `device_link_service_error_t`. -/
inductive DeviceLinkServiceError where
  | success | invalidArg | plistError | muxError | badVersion | unknownError
  deriving DecidableEq, Repr

/-- The property list service below: what each receive gives, a plist or a failure, whether a
send goes through, and what was sent. -/
structure Link where
  incoming : List (Option PlistNode)
  accepts : Bool
  outgoing : List PlistNode

/-- `property_list_service_receive_plist`. -/
def receivePlist : Program Link (Option PlistNode) :=
  ⟨fun link =>
    match link.incoming with
    | [] => (.ok none, link)
    | plist :: incoming => (.ok plist, { link with incoming := incoming })⟩

/-- `property_list_service_send_binary_plist`. -/
def sendBinaryPlist (plist : PlistNode) : Program Link Bool :=
  ⟨fun link => (.ok link.accepts, { link with outgoing := link.outgoing ++ [plist] })⟩

/-- `device_link_service_get_message`: the message string; `none` when it is not set. -/
def getMessage (dlMsg : PlistNode) : Checked (Option (List UInt8)) :=
  if plistGetNodeType (some dlMsg) ≠ .array ∨ plistArrayGetSize dlMsg < 1 then return none
  else
    let cmd := plistArrayGetItem dlMsg 0
    if plistGetNodeType cmd ≠ .string then return none
    else do
      let text ← plistGetStringVal cmd
      if text.length < 9 ∨ text.take 2 ≠ (cText "DL").val then return none else return some text

/-- The message string is there, and is `name`. -/
def isMessage (plist : PlistNode) (name : CText) : Checked Bool := do
  let msg ← getMessage plist
  return decide (msg = some name.val)

/-- An item of the announcement as a part of the version, 0 when there is none. -/
def version (array : PlistNode) (n : Nat) : Checked UInt64 :=
  match plistArrayGetItem array n with
  | none => return 0
  | some node => plistGetUintVal (some node)

def versionExchangeName : CText := cText "DLMessageVersionExchange"

def deviceReadyName : CText := cText "DLMessageDeviceReady"

/-- The answer of the client. -/
def versionsOk (versionMajor : UInt64) : PlistNode :=
  [leaf (plistNewString versionExchangeName.val), leaf (plistNewString (cText "DLVersionsOk").val),
    leaf (plistNewUint versionMajor)].foldl plistArrayAppendItem (leaf plistNewArray)

/-- The end of `device_link_service_version_exchange`. -/
def receiveReady : Program Link DeviceLinkServiceError := do
  let array ← receivePlist
  match array with
  | none => return .muxError
  | some array => do
      let ready ← Program.lift (isMessage array deviceReadyName)
      return if ready then .success else .plistError

/-- `device_link_service_version_exchange`; the client is not NULL. -/
def versionExchange (versionMajor versionMinor : UInt64) : Program Link DeviceLinkServiceError := do
  let array ← receivePlist
  match array with
  | none => return .muxError
  | some array => do
      let announced ← Program.lift (isMessage array versionExchangeName)
      if announced = false then return .plistError
      else if plistArrayGetSize array < 3 then return .plistError
      else do
        let vmajor ← Program.lift (version array 1)
        let vminor ← Program.lift (version array 2)
        if versionMajor < vmajor then return .badVersion
        else if vmajor = versionMajor ∧ versionMinor < vminor then return .badVersion
        else do
          let sent ← sendBinaryPlist (versionsOk versionMajor)
          if sent then receiveReady else return .muxError

/-! ## Messages -/

/-- The item is a string of this text. -/
def TextAt (plist : PlistNode) (n : Nat) (text : CText) : Prop :=
  ∃ node, plist.2.toList[n]? = some node ∧ node.1.type = .string ∧ node.1.value = .strval text.val

/-- The item is an unsigned integer. -/
def UintAt (plist : PlistNode) (n : Nat) (value : UInt64) : Prop :=
  ∃ node, plist.2.toList[n]? = some node ∧ node.1.type = .uint ∧ node.1.value = .word value

/-- An array whose first item is the name. -/
def Named (plist : PlistNode) (name : CText) : Prop := plist.1.type = .array ∧ TextAt plist 0 name

/-- A version exchange message with a version. -/
structure Announces (plist : PlistNode) (vmajor vminor : UInt64) : Prop where
  named : Named plist versionExchangeName
  major : UintAt plist 1 vmajor
  minor : UintAt plist 2 vminor

/-- One version is lexicographically above another. -/
def Above (vmajor vminor versionMajor versionMinor : UInt64) : Prop :=
  versionMajor < vmajor ∨ vmajor = versionMajor ∧ versionMinor < vminor

theorem textAt_iff {plist : PlistNode} (intact : plist.Intact) {n : Nat} {node : PlistNode}
    (item : plist.2.toList[n]? = some node) {text : List UInt8}
    (read : plistGetStringVal (some node) = .ok text) (isString : node.1.type = .string)
    (name : CText) : TextAt plist n name ↔ text = name.val := by
  obtain ⟨text', value, read'⟩ :=
    plistGetStringVal_intact (intact.2.mem (List.mem_of_getElem? item)) isString
  cases read.symm.trans read'
  constructor
  · rintro ⟨node', item', -, value'⟩
    cases item.symm.trans item'
    exact PlistValue.strval.inj (value.symm.trans value')
  · rintro rfl
    exact ⟨node, item, isString, value⟩

/-- **Which intact plists are taken for a message.** -/
theorem isMessage_intact {plist : PlistNode} (name : CText) (intact : plist.Intact)
    (long : 9 ≤ name.val.length) (dl : name.val.take 2 = (cText "DL").val) :
    ∃ answer, isMessage plist name = .ok answer ∧
      (answer = true ↔ Named plist name ∧ 1 ≤ plistArrayGetSize plist) := by
  by_cases shape : plistGetNodeType (some plist) ≠ .array ∨ plistArrayGetSize plist < 1
  · refine ⟨false, ?_, iff_of_false (by decide) ?_⟩
    · rw [isMessage, getMessage, if_pos shape]
      rfl
    · rintro ⟨⟨isArray, -⟩, counted⟩
      rcases shape with other | empty
      · exact other isArray
      · omega
  · obtain ⟨isArray, counted⟩ := not_or.mp shape
    have isArray : plist.1.type = .array := not_not.mp isArray
    have item := plistArrayGetItem_eq isArray 0
    cases found : plist.2.toList[0]? with
    | none =>
      rw [found] at item
      refine ⟨false, ?_, iff_of_false (by decide) ?_⟩
      · rw [isMessage, getMessage, if_neg shape, item]
        rfl
      · rintro ⟨⟨-, node, isItem, -⟩, -⟩
        cases found.symm.trans isItem
    | some cmd =>
      rw [found] at item
      by_cases isString : cmd.1.type = .string
      · obtain ⟨text, -, read⟩ :=
          plistGetStringVal_intact (intact.2.mem (List.mem_of_getElem? found)) isString
        have same := textAt_iff intact found read isString name
        have named : Named plist name ∧ 1 ≤ plistArrayGetSize plist ↔ text = name.val := by
          rw [Named, same]
          exact ⟨fun both => both.1.2, fun same => ⟨⟨isArray, same⟩, Nat.not_lt.mp counted⟩⟩
        have isCmd : ¬ plistGetNodeType (some cmd) ≠ .string := not_not.mpr isString
        rw [named, isMessage, getMessage, if_neg shape, item]
        dsimp only
        rw [if_neg isCmd, read, ok_bind]
        by_cases other : text.length < 9 ∨ text.take 2 ≠ (cText "DL").val
        · refine ⟨false, by rw [if_pos other]; rfl, iff_of_false (by decide) ?_⟩
          rintro rfl
          rcases other with short | prefixed
          · omega
          · exact prefixed dl
        · refine ⟨decide (text = name.val), ?_, decide_eq_true_iff⟩
          rw [if_neg other]
          simp
      · have isCmd : plistGetNodeType (some cmd) ≠ .string := isString
        refine ⟨false, ?_, iff_of_false (by decide) ?_⟩
        · rw [isMessage, getMessage, if_neg shape, item]
          dsimp only
          rw [if_pos isCmd]
          rfl
        · rintro ⟨⟨-, node, isItem, isText, -⟩, -⟩
          cases found.symm.trans isItem
          exact isString isText

theorem version_eq {plist : PlistNode} (intact : plist.Intact) (isArray : plist.1.type = .array)
    {n : Nat} {value : UInt64} (isUint : UintAt plist n value) : version plist n = .ok value := by
  obtain ⟨node, found, isUint, isWord⟩ := isUint
  obtain ⟨bits, isWord', read⟩ :=
    plistGetUintVal_intact (intact.2.mem (List.mem_of_getElem? found)) isUint
  rw [version, plistArrayGetItem_eq isArray, found, PlistValue.word.inj (isWord.symm.trans isWord')]
  exact read

/-- **When a part of the version can be read**: it is an unsigned integer. -/
theorem version_ends_iff {plist : PlistNode} (intact : plist.Intact)
    (isArray : plist.1.type = .array) {n : Nat} (inside : n < plist.2.toList.length) :
    Ends (version plist n) ↔ ∃ value, UintAt plist n value := by
  have found : plist.2.toList[n]? = some plist.2.toList[n] := List.getElem?_eq_getElem inside
  have whole := intact.2.mem (List.mem_of_getElem? found)
  constructor
  · intro ends
    rw [version, plistArrayGetItem_eq isArray, found] at ends
    have isUint := (plistGetUintVal_ends_iff whole).mp ends
    obtain ⟨bits, isWord, -⟩ := plistGetUintVal_intact whole isUint
    exact ⟨bits, _, found, isUint, isWord⟩
  · rintro ⟨bits, isUint⟩
    exact ⟨bits, version_eq intact isArray isUint⟩

/-! ## The exchange -/

section Exchange

variable (versionMajor versionMinor : UInt64)

/-- The device is ready after a version that is not above the expected one. -/
def Agreed (first second : Option PlistNode) (accepts : Bool) : Prop :=
  ∃ f s vmajor vminor, first = some f ∧ Announces f vmajor vminor ∧
    ¬ Above vmajor vminor versionMajor versionMinor ∧ accepts = true ∧ second = some s ∧
      Named s deviceReadyName

/-- The device announces a version above the expected one. -/
def TooNew (first : Option PlistNode) : Prop :=
  ∃ f vmajor vminor, first = some f ∧ Announces f vmajor vminor ∧
    Above vmajor vminor versionMajor versionMinor

/-- The call ends with the code for what the device sends; it succeeds after its answer. -/
def Exchanged (first second : Option PlistNode) (accepts : Bool) : Prop :=
  ∃ err link, (versionExchange versionMajor versionMinor).run ⟨[first, second], accepts, []⟩ =
      (.ok err, link) ∧
    (err = .success ↔ Agreed versionMajor versionMinor first second accepts) ∧
    (err = .badVersion ↔ TooNew versionMajor versionMinor first) ∧
    (err ≠ .success → err ≠ .badVersion → err = .plistError ∨ err = .muxError) ∧
    (err = .success → link.outgoing = [versionsOk versionMajor])

/-- What begins like an announcement and has three items goes on with two unsigned integers,
and the 32-bit counts do not hide the items of a message. -/
structure Conforms (first second : Option PlistNode) (accepts : Bool) : Prop where
  version : ∀ f ∈ first, Named f versionExchangeName → 3 ≤ plistArrayGetSize f →
    ∃ vmajor vminor, UintAt f 1 vmajor ∧ UintAt f 2 vminor
  counted : ∀ f ∈ first, Agreed versionMajor versionMinor first second accepts ∨
    TooNew versionMajor versionMinor first → 3 ≤ plistArrayGetSize f
  ready : ∀ s ∈ second, Agreed versionMajor versionMinor first second accepts →
    1 ≤ plistArrayGetSize s

end Exchange

theorem UintAt.unique {plist : PlistNode} {n : Nat} {a b : UInt64} (first : UintAt plist n a)
    (second : UintAt plist n b) : a = b := by
  obtain ⟨node, found, -, value⟩ := first
  obtain ⟨node', found', -, value'⟩ := second
  cases found.symm.trans found'
  exact PlistValue.word.inj (value.symm.trans value')

theorem Announces.unique {plist : PlistNode} {a b a' b' : UInt64} (first : Announces plist a b)
    (second : Announces plist a' b') : a = a' ∧ b = b' :=
  ⟨first.major.unique second.major, first.minor.unique second.minor⟩

section Runs

theorem run_receive_bind {α : Type} (next : Option PlistNode → Program Link α)
    (plist : Option PlistNode) (incoming : List (Option PlistNode)) (accepts : Bool)
    (outgoing : List PlistNode) :
    (receivePlist >>= next).run ⟨plist :: incoming, accepts, outgoing⟩ =
      (next plist).run ⟨incoming, accepts, outgoing⟩ := rfl

variable (versionMajor versionMinor : UInt64) (accepts : Bool) (second : Option PlistNode)
  {f : PlistNode}

/-- The end of the call, from the answer on. -/
theorem run_receiveReady {second : Option PlistNode} (intact : ∀ s ∈ second, s.Intact)
    (outgoing : List PlistNode) :
    ∃ err link, receiveReady.run ⟨[second], accepts, outgoing⟩ = (.ok err, link) ∧
      link.outgoing = outgoing ∧ (err = .success ∨ err = .plistError ∨ err = .muxError) ∧
      (err = .success ↔
        ∃ s, second = some s ∧ Named s deviceReadyName ∧ 1 ≤ plistArrayGetSize s) := by
  cases second with
  | none => exact ⟨_, _, rfl, rfl, .inr (.inr rfl), by simp⟩
  | some s =>
    obtain ⟨ready, isReady, iff⟩ := isMessage_intact deviceReadyName (intact s rfl)
      (by decide) (by decide)
    refine ⟨if ready then .success else .plistError, ⟨[], accepts, outgoing⟩, ?_, rfl, ?_, ?_⟩
    · rw [receiveReady, run_receive_bind]
      dsimp only
      rw [isReady]
      rfl
    · cases ready <;> simp
    · have answered : (∃ s', some s = some s' ∧ Named s' deviceReadyName ∧
          1 ≤ plistArrayGetSize s') ↔ ready = true := by
        rw [iff]
        constructor
        · rintro ⟨s', same, holds⟩
          cases same
          exact holds
        · exact fun holds => ⟨s, rfl, holds⟩
      rw [answered]
      cases ready <;> simp

/-- The call on a first message that is not taken for an announcement of three items. -/
theorem run_refused (intact : f.Intact) (refused : ¬ (Named f versionExchangeName ∧
      3 ≤ plistArrayGetSize f)) :
    ((versionExchange versionMajor versionMinor).run ⟨[some f, second], accepts, []⟩).1 =
      .ok .plistError := by
  obtain ⟨announced, isAnnounced, iff⟩ := isMessage_intact versionExchangeName intact
    (by decide) (by decide)
  rw [versionExchange, run_receive_bind]
  dsimp only
  rw [isAnnounced, run_lift_ok_bind]
  cases announced with
  | false => rfl
  | true =>
    have few : plistArrayGetSize f < 3 := by
      have named := (iff.mp rfl).1
      by_contra many
      exact refused ⟨named, Nat.not_lt.mp many⟩
    rw [if_neg (by decide), if_pos few]
    rfl

/-- The call on an announcement, as far as the version. -/
theorem run_announced (intact : f.Intact) (named : Named f versionExchangeName)
    (counted : 3 ≤ plistArrayGetSize f) :
    (versionExchange versionMajor versionMinor).run ⟨[some f, second], accepts, []⟩ =
      (do
        let vmajor ← Program.lift (version f 1)
        let vminor ← Program.lift (version f 2)
        if versionMajor < vmajor then return .badVersion
        else if vmajor = versionMajor ∧ versionMinor < vminor then return .badVersion
        else do
          let sent ← sendBinaryPlist (versionsOk versionMajor)
          if sent then receiveReady else return .muxError :
        Program Link DeviceLinkServiceError).run ⟨[second], accepts, []⟩ := by
  obtain ⟨announced, isAnnounced, iff⟩ := isMessage_intact versionExchangeName intact
    (by decide) (by decide)
  have isTrue : announced = true := iff.mpr ⟨named, by omega⟩
  subst isTrue
  rw [versionExchange, run_receive_bind]
  dsimp only
  rw [isAnnounced, run_lift_ok_bind,
    if_neg (by decide), if_neg (by omega)]

/-- The call on an announcement with a version. -/
theorem run_version (intact : f.Intact) (named : Named f versionExchangeName)
    (counted : 3 ≤ plistArrayGetSize f) {vmajor vminor : UInt64} (major : UintAt f 1 vmajor)
    (minor : UintAt f 2 vminor) :
    (Above vmajor vminor versionMajor versionMinor →
      (versionExchange versionMajor versionMinor).run ⟨[some f, second], accepts, []⟩ =
        (.ok .badVersion, ⟨[second], accepts, []⟩)) ∧
    (¬ Above vmajor vminor versionMajor versionMinor →
      (versionExchange versionMajor versionMinor).run ⟨[some f, second], accepts, []⟩ =
        if accepts then receiveReady.run ⟨[second], accepts, [versionsOk versionMajor]⟩
        else (.ok .muxError, ⟨[second], accepts, [versionsOk versionMajor]⟩)) := by
  have isArray := named.1
  rw [run_announced versionMajor versionMinor accepts second intact named counted,
    version_eq intact isArray major, version_eq intact isArray minor, run_lift_ok_bind, run_lift_ok_bind]
  constructor
  · rintro (larger | ⟨same, larger⟩)
    · rw [if_pos larger]
      rfl
    · by_cases below : versionMajor < vmajor
      · rw [if_pos below]
        rfl
      · rw [if_neg below, if_pos ⟨same, larger⟩]
        rfl
  · intro notAbove
    obtain ⟨notLarger, notMinor⟩ := not_or.mp notAbove
    rw [if_neg notLarger, if_neg notMinor]
    cases accepts <;> rfl

end Runs

/-! ## Which announcements are served -/

section Served

variable {versionMajor versionMinor : UInt64} {accepts : Bool} {second : Option PlistNode}
  {f : PlistNode} {vmajor vminor : UInt64}

theorem tooNew_iff (announces : Announces f vmajor vminor) :
    TooNew versionMajor versionMinor (some f) ↔ Above vmajor vminor versionMajor versionMinor := by
  constructor
  · rintro ⟨f', a, b, same, announces', isAbove⟩
    cases same
    obtain ⟨rfl, rfl⟩ := announces.unique announces'
    exact isAbove
  · exact fun isAbove => ⟨f, vmajor, vminor, rfl, announces, isAbove⟩

theorem agreed_iff (announces : Announces f vmajor vminor) :
    Agreed versionMajor versionMinor (some f) second accepts ↔
      ¬ Above vmajor vminor versionMajor versionMinor ∧ accepts = true ∧
        ∃ s, second = some s ∧ Named s deviceReadyName := by
  constructor
  · rintro ⟨f', s, a, b, same, announces', isAbove, sent, rest⟩
    cases same
    obtain ⟨rfl, rfl⟩ := announces.unique announces'
    exact ⟨isAbove, sent, s, rest⟩
  · rintro ⟨isAbove, sent, s, rest⟩
    exact ⟨f, s, vmajor, vminor, rfl, announces, isAbove, sent, rest⟩

theorem not_agreed (announces : Announces f vmajor vminor)
    (unanswered : Above vmajor vminor versionMajor versionMinor ∨ accepts = false) :
    ¬ Agreed versionMajor versionMinor (some f) second accepts := by
  rw [agreed_iff announces]
  rintro ⟨notAbove, sent, -⟩
  rcases unanswered with isAbove | refused
  · exact notAbove isAbove
  · exact Bool.false_ne_true (refused.symm.trans sent)

/-- Of an announcement with a version only the ready message can be hidden. -/
theorem conforms_iff (announces : Announces f vmajor vminor) (counted : 3 ≤ plistArrayGetSize f) :
    Conforms versionMajor versionMinor (some f) second accepts ↔
      ∀ s ∈ second, Agreed versionMajor versionMinor (some f) second accepts →
        1 ≤ plistArrayGetSize s := by
  refine ⟨Conforms.ready, fun ready => ⟨?_, ?_, ready⟩⟩
  · rintro f' same - -
    cases same
    exact ⟨vmajor, vminor, announces.major, announces.minor⟩
  · rintro f' same -
    cases same
    exact counted

/-- An announcement with a version above the expected one, or one whose answer is not sent. -/
theorem exchanged_unanswered (intact : f.Intact) (announces : Announces f vmajor vminor)
    (counted : 3 ≤ plistArrayGetSize f)
    (unanswered : Above vmajor vminor versionMajor versionMinor ∨ accepts = false) :
    Exchanged versionMajor versionMinor (some f) second accepts := by
  have tooNew := @tooNew_iff versionMajor versionMinor f vmajor vminor announces
  have notAgreed := @not_agreed versionMajor versionMinor accepts second f vmajor vminor announces
    unanswered
  obtain ⟨above, notAbove⟩ := run_version versionMajor versionMinor accepts second intact
    announces.named counted announces.major announces.minor
  by_cases isAbove : Above vmajor vminor versionMajor versionMinor
  · refine ⟨_, _, above isAbove, iff_of_false (by decide) notAgreed, ?_, ?_, ?_⟩
    · exact iff_of_true rfl (tooNew.mpr isAbove)
    · exact fun _ other => absurd rfl other
    · exact fun other => by cases other
  · have ran := notAbove isAbove
    rw [unanswered.resolve_left isAbove] at ran notAgreed ⊢
    refine ⟨_, _, ran, iff_of_false (by decide) notAgreed, ?_, ?_, ?_⟩
    · exact iff_of_false (by decide) fun new => isAbove (tooNew.mp new)
    · exact fun _ _ => .inr rfl
    · exact fun other => by cases other

/-- An announcement that is answered: the ready message decides. -/
theorem exchanged_answered_iff (intact : f.Intact) (intact' : ∀ s ∈ second, s.Intact)
    (announces : Announces f vmajor vminor) (counted : 3 ≤ plistArrayGetSize f)
    (notAbove : ¬ Above vmajor vminor versionMajor versionMinor) :
    Exchanged versionMajor versionMinor (some f) second true ↔
      Conforms versionMajor versionMinor (some f) second true := by
  obtain ⟨-, ran⟩ := run_version versionMajor versionMinor true second intact announces.named
    counted announces.major announces.minor
  obtain ⟨err, link, ready, outgoing, codes, success⟩ :=
    run_receiveReady true intact' [versionsOk versionMajor]
  have ran := ran notAbove
  rw [if_pos rfl, ready] at ran
  have same : Agreed versionMajor versionMinor (some f) second true ↔
      ∃ s, second = some s ∧ Named s deviceReadyName := by
    rw [agreed_iff announces]
    exact ⟨fun happy => happy.2.2, fun rest => ⟨notAbove, rfl, rest⟩⟩
  rw [conforms_iff announces counted]
  constructor
  · rintro ⟨err', link', ran', isSuccess, -⟩ s isSecond happy
    cases ran.symm.trans ran'
    obtain ⟨s', isSecond', -, one⟩ := success.mp (isSuccess.mpr happy)
    cases isSecond.symm.trans isSecond'
    exact one
  · intro one
    refine ⟨_, _, ran, ?_, ?_, ?_, fun _ => outgoing⟩
    · rw [success, same]
      constructor
      · rintro ⟨s, isSecond, named', -⟩
        exact ⟨s, isSecond, named'⟩
      · rintro ⟨s, isSecond, named'⟩
        exact ⟨s, isSecond, named', one s isSecond (same.mpr ⟨s, isSecond, named'⟩)⟩
    · refine iff_of_false ?_ fun new => notAbove ((tooNew_iff announces).mp new)
      rcases codes with rfl | rfl | rfl <;> decide
    · intro notSuccess _
      exact codes.resolve_left notSuccess

/-- An announcement of three items whose version cannot be read: the call does not end. -/
theorem numbers_of_exchanged (intact : f.Intact) (named : Named f versionExchangeName)
    (counted : 3 ≤ plistArrayGetSize f)
    (exchanged : Exchanged versionMajor versionMinor (some f) second accepts) :
    ∃ vmajor vminor, UintAt f 1 vmajor ∧ UintAt f 2 vminor := by
  obtain ⟨err, link, ran, -⟩ := exchanged
  have length : 3 ≤ f.2.toList.length := by
    rw [Siblings.length_toList]
    refine Nat.le_trans counted ?_
    rw [plistArrayGetSize, if_pos named.1]
    exact Nat.mod_le _ _
  rw [run_announced versionMajor versionMinor accepts second intact named counted] at ran
  obtain ⟨vmajor, readMajor, ran⟩ := run_lift_bind_eq_ok.mp ran
  obtain ⟨vminor, readMinor, -⟩ := run_lift_bind_eq_ok.mp ran
  obtain ⟨a, major⟩ := (version_ends_iff intact named.1 (by omega)).mp ⟨_, readMajor⟩
  obtain ⟨b, minor⟩ := (version_ends_iff intact named.1 (by omega)).mp ⟨_, readMinor⟩
  exact ⟨a, b, major, minor⟩

/-- A first message that is not taken for an announcement of three items. -/
theorem exchanged_refused_iff (intact : f.Intact)
    (refused : ¬ (Named f versionExchangeName ∧ 3 ≤ plistArrayGetSize f)) :
    Exchanged versionMajor versionMinor (some f) second accepts ↔
      Conforms versionMajor versionMinor (some f) second accepts := by
  have ends := run_refused versionMajor versionMinor accepts second intact refused
  constructor
  · rintro ⟨err, link, ran, success, bad, -⟩
    rw [ran] at ends
    cases ends
    refine ⟨fun f' same named counted => ?_, fun f' _ either => ?_, fun s _ happy => ?_⟩
    · cases same
      exact absurd ⟨named, counted⟩ refused
    · rcases either with happy | new
      · cases success.mpr happy
      · cases bad.mpr new
    · cases success.mpr happy
  · rintro ⟨-, counted, -⟩
    have neither : ¬ (Agreed versionMajor versionMinor (some f) second accepts ∨
        TooNew versionMajor versionMinor (some f)) := by
      intro either
      have enough := counted f rfl either
      rcases either with ⟨f', s, a, b, same, announces, -⟩ | ⟨f', a, b, same, announces, -⟩
      · cases same
        exact refused ⟨announces.named, enough⟩
      · cases same
        exact refused ⟨announces.named, enough⟩
    obtain ⟨notAgreed, notNew⟩ := not_or.mp neither
    refine ⟨.plistError, _, Prod.ext ends rfl, ?_, ?_, fun _ _ => .inl rfl, ?_⟩
    · exact iff_of_false (by decide) notAgreed
    · exact iff_of_false (by decide) notNew
    · exact fun other => by cases other

end Served

/-- **The exchange ends with the code it is to return exactly when what begins like an
announcement of three items goes on with two unsigned integers**, the counts apart. -/
theorem exchanged_iff (versionMajor versionMinor : UInt64) {first second : Option PlistNode}
    (intact : ∀ f ∈ first, f.Intact) (intact' : ∀ s ∈ second, s.Intact) (accepts : Bool) :
    Exchanged versionMajor versionMinor first second accepts ↔
      Conforms versionMajor versionMinor first second accepts := by
  cases first with
  | none =>
    refine iff_of_true ⟨.muxError, ⟨[second], accepts, []⟩, rfl, ?_, ?_, ?_, ?_⟩
      ⟨by simp, by simp, by simp [Agreed]⟩
    · simp [Agreed]
    · simp [TooNew]
    · exact fun _ _ => .inr rfl
    · simp
  | some f =>
    have whole := intact f rfl
    by_cases accepted : Named f versionExchangeName ∧ 3 ≤ plistArrayGetSize f
    swap
    · exact exchanged_refused_iff whole accepted
    obtain ⟨named, counted⟩ := accepted
    by_cases numbers : ∃ vmajor vminor, UintAt f 1 vmajor ∧ UintAt f 2 vminor
    swap
    · exact iff_of_false
        (fun exchanged => numbers (numbers_of_exchanged whole named counted exchanged))
        fun conforms => numbers (conforms.version f rfl named counted)
    obtain ⟨vmajor, vminor, major, minor⟩ := numbers
    have announces : Announces f vmajor vminor := ⟨named, major, minor⟩
    by_cases unanswered : Above vmajor vminor versionMajor versionMinor ∨ accepts = false
    · refine iff_of_true (exchanged_unanswered whole announces counted unanswered)
        ((conforms_iff announces counted).mpr fun s _ happy => ?_)
      exact absurd happy (not_agreed announces unanswered)
    · obtain ⟨notAbove, sent⟩ := not_or.mp unanswered
      rw [Bool.eq_true_of_not_eq_false sent]
      exact exchanged_answered_iff whole intact' announces counted notAbove

def messageOf (name : CText) (items : List PlistNode) : PlistNode :=
  (leaf (plistNewString name.val) :: items).foldl plistArrayAppendItem (leaf plistNewArray)

def announcement (vmajor vminor : UInt64) : PlistNode :=
  messageOf versionExchangeName [leaf (plistNewUint vmajor), leaf (plistNewUint vminor)]

/-- Version 100.1 where 300.0 is expected. -/
theorem lower_version_agreed :
    Agreed 300 0 (some (announcement 100 1)) (some (messageOf deviceReadyName [])) true ∧
      Exchanged 300 0 (some (announcement 100 1)) (some (messageOf deviceReadyName [])) true := by
  have announces : Announces (announcement 100 1) 100 1 :=
    ⟨⟨rfl, _, rfl, rfl, rfl⟩, ⟨_, rfl, rfl, rfl⟩, ⟨_, rfl, rfl, rfl⟩⟩
  have below : ¬ Above 100 1 300 0 := not_or.mpr ⟨by decide, by decide⟩
  refine ⟨⟨_, _, _, _, rfl, announces, below, rfl, rfl, rfl, _, rfl, rfl, rfl⟩, ?_⟩
  refine (exchanged_iff 300 0 ?_ ?_ true).mpr ⟨?_, ?_, ?_⟩
  · rintro f ⟨⟩
    exact ⟨trivial, ⟨rfl, trivial, rfl, trivial, rfl, trivial, trivial⟩⟩
  · rintro s ⟨⟩
    exact ⟨trivial, rfl, trivial, trivial⟩
  · rintro f ⟨⟩ - -
    exact ⟨_, _, announces.major, announces.minor⟩
  · rintro f ⟨⟩ -
    decide
  · rintro s ⟨⟩ -
    decide

def textVersion : PlistNode :=
  messageOf versionExchangeName
    [leaf (plistNewString (cText "100").val), leaf (plistNewUint 1)]

/-- An announcement whose major version is a string: `plist_get_uint_val` asserts. -/
theorem text_version_asserts :
    ((versionExchange 300 0).run
        ⟨[some textVersion, some (messageOf deviceReadyName [])], true, []⟩).1 =
      .error .assertion ∧
    ¬ Exchanged 300 0 (some textVersion) (some (messageOf deviceReadyName [])) true := by
  have asserts : ((versionExchange 300 0).run
      ⟨[some textVersion, some (messageOf deviceReadyName [])], true, []⟩).1 =
    .error .assertion := rfl
  refine ⟨asserts, ?_⟩
  rintro ⟨err, link, ran, -⟩
  rw [ran] at asserts
  cases asserts

end Irestore.DeviceLink
