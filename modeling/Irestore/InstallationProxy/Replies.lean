/-
# InstallationProxy.Replies — what a browse and an operation make of their replies

`instproxy_browse` gathers the items of `CurrentList` until a reply has another status than
`BrowsingApplications`; it counts them by `CurrentAmount`, and does not look at `Error`.
`instproxy_perform_operation` goes on until a reply has an `Error` or the status `Complete`.

* `browseReply_eq` — what a reply adds to the array.
* `browseLoop_eq`, `performOperation_eq` — what a loop makes of the replies it takes.
* `replies_heeded_iff` — when both do what they are to.
* `refusals_succeed` — an `Error` that a browse does not see, and one beside `Complete`.
-/
import Irestore.MobileSync.Client
import Irestore.Service.PropertyList
import Mathlib.Algebra.Order.BigOperators.Group.List

namespace Irestore.InstallationProxy

open Irestore.Library Irestore.Library.CMemory Irestore.Plist Irestore.Service
open Irestore.MobileSync (plistCopy stringNode)

set_option autoImplicit false

/-! ## The calls -/

inductive InstproxyError where
  | success
  | invalidArg
  | plistError
  | connFailed
  | opFailed
  | unknownError
  deriving DecidableEq, Repr

def instproxyError : PropertyListServiceError → InstproxyError
  | .success => .success
  | .invalidArg => .invalidArg
  | .plistError => .plistError
  | .muxError => .connFailed
  | .unknownError => .unknownError

/-- A plist as the parsers and the constructors make them, out of less than 2^32 bytes. -/
structure Sound (plist : PlistNode) : Prop where
  intact : plist.Intact
  short : ∀ node ∈ plist.2.toList, node.2.toList.length < 2 ^ 32

/-- What a receive gives: a plist exactly with success. -/
structure Receipt where
  received : Received PlistNode
  whole : received.err = .success ↔ received.plist.isSome = true
  sound : ∀ plist ∈ received.plist, Sound plist

/-- What is received of a connection is a receipt, when what the decoders give is sound. -/
theorem exists_receipt {decoders : Decoders PlistNode} {garbage : Nat → UInt8}
    {connection : Option Transport} {received : Received PlistNode}
    (run : internalPlistReceiveTimeout decoders garbage connection = .ok received)
    (sound : ∀ plist ∈ received.plist, Sound plist) :
    ∃ receipt : Receipt, receipt.received = received :=
  ⟨⟨received, received_success_iff run, sound⟩, rfl⟩

/-- The dictionary that `instproxy_send_command` sends. -/
def commandDict (command : CText) (clientOptions : Option PlistNode)
    (appid packagePath : Option CText) : Checked PlistNode := do
  let dict := appid.elim (leaf plistNewDict) fun appid =>
    plistDictInsertItem (leaf plistNewDict) (cText "ApplicationIdentifier")
      (leaf (plistNewString appid.val))
  let dict ←
    (match clientOptions with
    | none => return dict
    | some clientOptions =>
        if 0 < plistDictGetSize clientOptions then do
          let copied ← plistCopyNode clientOptions
          return plistDictInsertItem dict (cText "ClientOptions") copied
        else return dict)
  let dict := plistDictInsertItem dict (cText "Command") (leaf (plistNewString command.val))
  return packagePath.elim dict fun packagePath =>
    plistDictInsertItem dict (cText "PackagePath") (leaf (plistNewString packagePath.val))

/-- `instproxy_send_command` of a live client: the code, and what was given to the connection,
which answers with `sent`. -/
def instproxySendCommand (command : CText) (clientOptions : Option PlistNode)
    (appid packagePath : Option CText) (sent : PropertyListServiceError) :
    Checked (InstproxyError × Option PlistNode) :=
  if ∃ options ∈ clientOptions, options.1.type ≠ .dict then return (.invalidArg, none)
  else do
    let dict ← commandDict command clientOptions appid packagePath
    return (instproxyError sent, some dict)

/-- The text of a `Status`; none is read without one. -/
def statusText : Option PlistNode → Checked (Option (List UInt8))
  | none => return none
  | some pstatus => do
      let status ← plistGetStringVal (some pstatus)
      return some status

/-- The number of a `CurrentAmount`, 0 without one. -/
def amountVal : Option PlistNode → Checked UInt64
  | none => return 0
  | some camount => plistGetUintVal (some camount)

/-- The loop over `CurrentList`.  `plist_array_get_item` takes 32 bits of the index. -/
def appendItems (currentList : PlistNode) : (left i : Nat) → PlistNode → Checked PlistNode
  | 0, _, appsArray => return appsArray
  | left + 1, i, appsArray => do
      let item ← plistCopy (plistArrayGetItem currentList (i % 2 ^ 32))
      appendItems currentList left (i + 1) (plistArrayAppendItem appsArray item)

/-- What `instproxy_browse` does with a reply: the array, and the status. -/
def browseReply (appsArray dict : PlistNode) : Checked (PlistNode × Option (List UInt8)) := do
  let camount ← plistDictGetItem dict (cText "CurrentAmount")
  let pstatus ← plistDictGetItem dict (cText "Status")
  let currentAmount ← amountVal camount
  let appsArray ←
    (if 0 < currentAmount.toNat then do
      let currentList ← plistDictGetItem dict (cText "CurrentList")
      match currentList with
      | none => return appsArray
      | some currentList => appendItems currentList currentAmount.toNat 0 appsArray
    else return appsArray)
  let status ← statusText pstatus
  return (appsArray, status)

def browsingApplications : CText := cText "BrowsingApplications"

def complete : CText := cText "Complete"

/-- `res` and the array behind the loop, and the replies that were received in it. -/
structure Browsing where
  res : InstproxyError
  appsArray : PlistNode
  replies : List PlistNode

/-- The loop of `instproxy_browse`; behind the listed receipts the connection fails. -/
def browseLoop : PlistNode → List Receipt → Checked Browsing
  | appsArray, [] => return ⟨.connFailed, appsArray, []⟩
  | appsArray, receipt :: receipts =>
      let res := instproxyError receipt.received.err
      if res ≠ .success then return ⟨res, appsArray, []⟩
      else
        match receipt.received.plist with
        | none => return ⟨res, appsArray, []⟩
        | some dict => do
            let (appsArray, status) ← browseReply appsArray dict
            if status = some browsingApplications.val then do
              let browsing ← browseLoop appsArray receipts
              return { browsing with replies := dict :: browsing.replies }
            else if status = some complete.val then return ⟨.success, appsArray, [dict]⟩
            else return ⟨res, appsArray, [dict]⟩

/-- What the call returns, `*result` if it is stored, what was sent, and the replies received. -/
structure Browsed where
  res : InstproxyError
  result : Option PlistNode
  outgoing : Option PlistNode
  replies : List PlistNode

/-- `instproxy_browse`: whether there are a client with a connection and a place for the result,
what the connection says to the command, and what is received then. -/
def instproxyBrowse (connected wantsResult : Bool) (clientOptions : Option PlistNode)
    (sent : PropertyListServiceError) (receipts : List Receipt) : Checked Browsed :=
  if connected = false ∨ wantsResult = false then return ⟨.invalidArg, none, none, []⟩
  else do
    let (res, outgoing) ← instproxySendCommand (cText "Browse") clientOptions none none sent
    if res ≠ .success then return ⟨res, none, outgoing, []⟩
    else do
      let browsing ← browseLoop (leaf plistNewArray) receipts
      let result := if browsing.res = .success then some browsing.appsArray else none
      return ⟨browsing.res, result, outgoing, browsing.replies⟩

/-- The end of a reply of an operation: `ok` and `res`, when its `Error` left these. -/
def operationStatus (stripDebugCode : Bool) (dict : PlistNode) (ok : Bool) (res : InstproxyError) :
    Checked (Bool × InstproxyError) := do
  let status ← plistDictGetItem dict (cText "Status")
  match status with
  | none => return (ok, res)
  | some status => do
      let statusMsg ← plistGetStringVal (some status)
      let left := if statusMsg = complete.val then (false, .success) else (ok, res)
      if stripDebugCode then return left
      else do
        -- the percentage goes to a debug message
        let npercent ← plistDictGetItem dict (cText "PercentComplete")
        let _ ← amountVal npercent
        return left

/-- What `instproxy_perform_operation` makes of a reply: `ok` and `res`. -/
def operationReply (stripDebugCode : Bool) (dict : PlistNode) :
    Checked (Bool × InstproxyError) := do
  let err ← plistDictGetItem dict (cText "Error")
  match err with
  | none => operationStatus stripDebugCode dict true .success
  | some err =>
      if stripDebugCode then operationStatus stripDebugCode dict false .opFailed
      else do
        -- the text goes to a debug message
        let _ ← plistGetStringVal (some err)
        operationStatus stripDebugCode dict false .opFailed

/-- What the call returns, the calls of the callback, and the replies received. -/
structure Performed where
  res : InstproxyError
  notified : List (CText × PlistNode)
  replies : List PlistNode

/-- A reply before the rest. -/
def Performed.behind (statusCb : Bool) (operation : CText) (dict : PlistNode)
    (performed : Performed) : Performed where
  res := performed.res
  notified := (if statusCb then [(operation, dict)] else []) ++ performed.notified
  replies := dict :: performed.replies

/-- `instproxy_perform_operation` of a client that stays connected; behind the listed receipts the
connection fails. -/
def instproxyPerformOperation (stripDebugCode statusCb : Bool) (operation : CText) :
    List Receipt → Checked Performed
  | [] => return ⟨.connFailed, [], []⟩
  | receipt :: receipts =>
      let res := instproxyError receipt.received.err
      if res ≠ .success then return ⟨res, [], []⟩
      else
        match receipt.received.plist with
        | none => instproxyPerformOperation stripDebugCode statusCb operation receipts
        | some dict => do
            let (ok, res) ← operationReply stripDebugCode dict
            if ok then do
              let performed ← instproxyPerformOperation stripDebugCode statusCb operation receipts
              return performed.behind statusCb operation dict
            else return Performed.behind statusCb operation dict ⟨res, [], []⟩

/-! ## Replies -/

/-- What the dictionary holds under the key, as far as it can be searched. -/
def itemOf (dict : PlistNode) (key : CText) : Option PlistNode :=
  match plistDictGetItem dict key with
  | .ok item => item
  | .error _ => none

def statusOf (dict : PlistNode) : Option (List UInt8) :=
  match statusText (itemOf dict (cText "Status")) with
  | .ok status => status
  | .error _ => none

def amountOf (dict : PlistNode) : Nat :=
  match amountVal (itemOf dict (cText "CurrentAmount")) with
  | .ok amount => amount.toNat
  | .error _ => 0

/-- The items of an array. -/
def arrayItems (node : PlistNode) : List PlistNode :=
  if node.1.type = .array then node.2.toList else []

/-- The items of a reply's `CurrentList`. -/
def currentItems (dict : PlistNode) : List PlistNode :=
  (itemOf dict (cText "CurrentList")).elim [] arrayItems

/-- The dictionary can be searched for the key, and what it holds there is of the type. -/
def Admits (dict : PlistNode) (key : CText) (type : PlistType) : Prop :=
  ∃ item, plistDictGetItem dict key = .ok item ∧ ∀ node ∈ item, node.1.type = type

/-- The replies that a loop takes which goes on behind some of them. -/
def taken (goesOn : PlistNode → Bool) : List Receipt → List PlistNode
  | [] => []
  | receipt :: receipts =>
      match receipt.received.plist with
      | none => []
      | some dict => dict :: if goesOn dict then taken goesOn receipts else []

/-- The loop ended with a reply: the last one is not one to go on behind. -/
def Settled (goesOn : PlistNode → Bool) (replies : List PlistNode) : Prop :=
  ∃ last ∈ replies.getLast?, goesOn last = false

/-- The last reply had the status `Complete`, and none carried an `Error`. -/
structure Completed (replies : List PlistNode) : Prop where
  last : ∃ last ∈ replies.getLast?, statusOf last = some complete.val
  clean : ∀ dict ∈ replies, itemOf dict (cText "Error") = none

theorem itemOf_eq {dict : PlistNode} {key : CText} {item : Option PlistNode}
    (found : plistDictGetItem dict key = .ok item) : itemOf dict key = item := by
  rw [itemOf, found]

theorem admits_iff {dict : PlistNode} {key : CText} {type : PlistType} {item : Option PlistNode}
    (found : plistDictGetItem dict key = .ok item) :
    Admits dict key type ↔ ∀ node ∈ item, node.1.type = type := by
  rw [Admits, found]
  simp

theorem settled_cons {goesOn : PlistNode → Bool} {dict : PlistNode} {replies : List PlistNode}
    (goes : goesOn dict = true) : Settled goesOn (dict :: replies) ↔ Settled goesOn replies := by
  cases replies with
  | nil => simp [Settled, goes]
  | cons next replies => rw [Settled, Settled, List.getLast?_cons_cons]

theorem settled_singleton {goesOn : PlistNode → Bool} {dict : PlistNode}
    (stops : goesOn dict = false) : Settled goesOn [dict] := ⟨dict, rfl, stops⟩

/-- The text of a status can be taken. -/
theorem statusText_ends_iff {dict : PlistNode} (sound : Sound dict) {pstatus : Option PlistNode}
    (found : plistDictGetItem dict (cText "Status") = .ok pstatus) :
    Ends (statusText pstatus) ↔ Admits dict (cText "Status") .string := by
  rw [admits_iff found]
  cases pstatus with
  | none => exact iff_of_true ⟨_, rfl⟩ (by simp)
  | some pstatus =>
    have intact := sound.intact.2.mem (plistDictGetItem_mem found)
    rw [statusText, ends_bind_iff]
    simp only [pure_eq_ok, Ends, Except.ok.injEq, exists_eq', and_true]
    exact (plistGetStringVal_ends_iff intact).trans (by simp)

/-- A number can be taken. -/
theorem amountVal_ends_iff {dict : PlistNode} (sound : Sound dict) {key : CText}
    {camount : Option PlistNode} (found : plistDictGetItem dict key = .ok camount) :
    Ends (amountVal camount) ↔ Admits dict key .uint := by
  rw [admits_iff found]
  cases camount with
  | none => exact iff_of_true ⟨_, rfl⟩ (by simp)
  | some camount =>
    have intact := sound.intact.2.mem (plistDictGetItem_mem found)
    exact (plistGetUintVal_ends_iff intact).trans (by simp)

/-! ## The items of a list -/

theorem arrayGetItem_eq (node : PlistNode) (n : Nat) :
    plistArrayGetItem node n = (arrayItems node)[n]? := by
  rw [plistArrayGetItem, arrayItems]
  split <;> rfl

theorem arrayItems_intact {node item : PlistNode} (intact : node.Intact)
    (member : item ∈ arrayItems node) : item.Intact := by
  rw [arrayItems] at member
  split at member
  · exact intact.2.mem member
  · exact absurd member List.not_mem_nil

/-- As many items as there are are copied one after another; the next one is NULL. -/
theorem appendItems_eq {currentList : PlistNode} (intact : currentList.Intact)
    (short : (arrayItems currentList).length < 2 ^ 32) (left : Nat) :
    ∀ {i : Nat} {appsArray : PlistNode}, i ≤ (arrayItems currentList).length →
      appendItems currentList left i appsArray =
        if left + i ≤ (arrayItems currentList).length then
          .ok ((((arrayItems currentList).drop i).take left).foldl plistArrayAppendItem appsArray)
        else .error .assertion := by
  induction left with
  | zero =>
    intro i appsArray inside
    rw [if_pos (by omega), List.take_zero]
    rfl
  | succ left ih =>
    intro i appsArray inside
    rw [appendItems, Nat.mod_eq_of_lt (by omega), arrayGetItem_eq]
    cases found : (arrayItems currentList)[i]? with
    | none =>
      rw [if_neg (by have := List.getElem?_eq_none_iff.mp found; omega)]
      rfl
    | some item =>
      obtain ⟨here, isItem⟩ := List.getElem?_eq_some_iff.mp found
      have copied : plistCopy (some item) = .ok item :=
        plistCopyNode_intact (arrayItems_intact intact (List.mem_of_getElem? found))
      rw [copied, ok_bind, ih (by omega), List.drop_eq_getElem_cons here, isItem,
        List.take_succ_cons, List.foldl_cons, Nat.add_right_comm, Nat.add_assoc]

/-- The whole loop over the list. -/
theorem appendItems_zero {currentList : PlistNode} (intact : currentList.Intact)
    (short : (arrayItems currentList).length < 2 ^ 32) (left : Nat) (appsArray : PlistNode) :
    appendItems currentList left 0 appsArray =
      if left ≤ (arrayItems currentList).length then
        .ok (((arrayItems currentList).take left).foldl plistArrayAppendItem appsArray)
      else .error .assertion :=
  appendItems_eq intact short left (Nat.zero_le _)

/-! ## A browse -/

/-- The status to go on behind. -/
def browsing (dict : PlistNode) : Bool := statusOf dict = some browsingApplications.val

/-- The items that are taken of a reply. -/
def shown (dict : PlistNode) : List PlistNode := (currentItems dict).take (amountOf dict)

/-- A reply that is read without a fault: the amount is a number, the status a string, and the
list, where one is looked up, has as many items as the amount says, if it is there. -/
structure Listable (dict : PlistNode) : Prop where
  amount : Admits dict (cText "CurrentAmount") .uint
  status : Admits dict (cText "Status") .string
  enough : 0 < amountOf dict → ∃ currentList,
    plistDictGetItem dict (cText "CurrentList") = .ok currentList ∧
      ∀ node ∈ currentList, amountOf dict ≤ (arrayItems node).length

theorem arrayItems_short {dict node : PlistNode} (sound : Sound dict) {key : CText}
    (found : plistDictGetItem dict key = .ok (some node)) : (arrayItems node).length < 2 ^ 32 := by
  rw [arrayItems]
  split
  · exact sound.short node (plistDictGetItem_mem found)
  · exact Nat.two_pow_pos 32

/-- The number that was taken is that of the reply. -/
theorem amountOf_eq {dict : PlistNode} {camount : Option PlistNode} {amount : UInt64}
    (found : plistDictGetItem dict (cText "CurrentAmount") = .ok camount)
    (read : amountVal camount = .ok amount) : amountOf dict = amount.toNat := by
  rw [amountOf, itemOf_eq found, read]

theorem statusOf_eq {dict : PlistNode} {pstatus : Option PlistNode} {status : Option (List UInt8)}
    (found : plistDictGetItem dict (cText "Status") = .ok pstatus)
    (read : statusText pstatus = .ok status) : statusOf dict = status := by
  rw [statusOf, itemOf_eq found, read]

/-- **What a reply adds to the array.** -/
theorem browseReply_eq {dict : PlistNode} (sound : Sound dict) (listable : Listable dict)
    (appsArray : PlistNode) :
    browseReply appsArray dict =
      .ok ((shown dict).foldl plistArrayAppendItem appsArray, statusOf dict) := by
  obtain ⟨camount, isAmount, -⟩ := listable.amount
  obtain ⟨pstatus, isStatus, -⟩ := listable.status
  obtain ⟨amount, readAmount⟩ := (amountVal_ends_iff sound isAmount).mpr listable.amount
  obtain ⟨status, readStatus⟩ := (statusText_ends_iff sound isStatus).mpr listable.status
  have sameAmount := amountOf_eq isAmount readAmount
  rw [browseReply, isAmount, ok_bind, isStatus, ok_bind, readAmount, ok_bind,
    statusOf_eq isStatus readStatus, ← sameAmount]
  by_cases some : 0 < amountOf dict
  · obtain ⟨currentList, isList, enough⟩ := listable.enough some
    rw [if_pos some, isList, ok_bind, shown, currentItems, itemOf_eq isList]
    cases currentList with
    | none =>
      rw [Option.elim_none, List.take_nil]
      simp only [pure_eq_ok, ok_bind, readStatus]
      rfl
    | some node =>
      have intact := sound.intact.2.mem (plistDictGetItem_mem isList)
      have appended :=
        appendItems_zero intact (arrayItems_short sound isList) (amountOf dict) appsArray
      rw [if_pos (enough node rfl)] at appended
      simp only [appended, ok_bind, readStatus]
      rfl
  · have none : shown dict = [] := by rw [shown, Nat.eq_zero_of_not_pos some, List.take_zero]
    rw [if_neg some, none]
    simp only [pure_eq_ok, ok_bind, readStatus]
    rfl

theorem listable_of_browseReply {dict : PlistNode} (sound : Sound dict) {appsArray : PlistNode}
    (ends : Ends (browseReply appsArray dict)) : Listable dict := by
  obtain ⟨camount, isAmount, ends⟩ := ends_bind_iff.mp ends
  obtain ⟨pstatus, isStatus, ends⟩ := ends_bind_iff.mp ends
  obtain ⟨amount, readAmount, ends⟩ := ends_bind_iff.mp ends
  obtain ⟨appsArray', appended, ends⟩ := ends_bind_iff.mp ends
  obtain ⟨status, readStatus, -⟩ := ends_bind_iff.mp ends
  refine ⟨(amountVal_ends_iff sound isAmount).mp ⟨amount, readAmount⟩,
    (statusText_ends_iff sound isStatus).mp ⟨status, readStatus⟩, fun some => ?_⟩
  rw [← amountOf_eq isAmount readAmount, if_pos some] at appended
  obtain ⟨currentList, isList, appended⟩ := bind_eq_ok.mp appended
  refine ⟨currentList, isList, ?_⟩
  rintro node ⟨⟩
  by_contra fewer
  have intact := sound.intact.2.mem (plistDictGetItem_mem isList)
  have faults := appendItems_zero intact (arrayItems_short sound isList) (amountOf dict) appsArray
  rw [if_neg fewer] at faults
  cases faults.symm.trans appended

theorem instproxyError_eq_success {err : PropertyListServiceError} :
    instproxyError err = .success ↔ err = .success := by
  cases err <;> simp [instproxyError]

theorem Receipt.failed {receipt : Receipt} (nothing : receipt.received.plist = none) :
    instproxyError receipt.received.err ≠ .success := by
  intro success
  have replied := receipt.whole.mp (instproxyError_eq_success.mp success)
  rw [nothing] at replied
  cases replied

theorem Receipt.succeeded {receipt : Receipt} {dict : PlistNode}
    (replied : receipt.received.plist = some dict) :
    instproxyError receipt.received.err = .success :=
  instproxyError_eq_success.mpr (receipt.whole.mpr (by rw [replied]; rfl))

theorem taken_failed {goesOn : PlistNode → Bool} {receipt : Receipt}
    (nothing : receipt.received.plist = none) (receipts : List Receipt) :
    taken goesOn (receipt :: receipts) = [] := by
  rw [taken, nothing]

theorem taken_replied {goesOn : PlistNode → Bool} {receipt : Receipt} {dict : PlistNode}
    (replied : receipt.received.plist = some dict) (receipts : List Receipt) :
    taken goesOn (receipt :: receipts) =
      dict :: if goesOn dict then taken goesOn receipts else [] := by
  rw [taken, replied]

/-- What holds of every reply taken, one reply at a time. -/
theorem forall_taken_replied {goesOn : PlistNode → Bool} {P : PlistNode → Prop} {receipt : Receipt}
    {dict : PlistNode} (replied : receipt.received.plist = some dict) (receipts : List Receipt) :
    (∀ other ∈ taken goesOn (receipt :: receipts), P other) ↔
      P dict ∧ (goesOn dict = true → ∀ other ∈ taken goesOn receipts, P other) := by
  rw [taken_replied replied, List.forall_mem_cons]
  cases goesOn dict <;> simp

theorem forall_taken_failed {goesOn : PlistNode → Bool} {P : PlistNode → Prop} {receipt : Receipt}
    (nothing : receipt.received.plist = none) (receipts : List Receipt) :
    ∀ other ∈ taken goesOn (receipt :: receipts), P other := by
  rw [taken_failed nothing]
  exact fun _ member => absurd member List.not_mem_nil

theorem browseLoop_failed {receipt : Receipt} (nothing : receipt.received.plist = none)
    (appsArray : PlistNode) (receipts : List Receipt) :
    browseLoop appsArray (receipt :: receipts) =
      .ok ⟨instproxyError receipt.received.err, appsArray, []⟩ :=
  if_pos (Receipt.failed nothing)

/-- The loop as far as the status of its first reply. -/
theorem browseLoop_replied {receipt : Receipt} {dict : PlistNode}
    (replied : receipt.received.plist = some dict) (appsArray : PlistNode)
    (receipts : List Receipt) :
    browseLoop appsArray (receipt :: receipts) = (browseReply appsArray dict >>= fun read =>
      if read.2 = some browsingApplications.val then
        browseLoop read.1 receipts >>= fun browsing =>
          .ok { browsing with replies := dict :: browsing.replies }
      else .ok ⟨.success, read.1, [dict]⟩) := by
  have success := Receipt.succeeded replied
  rw [browseLoop, if_neg (not_not.mpr success), replied, success]
  refine congrArg (browseReply appsArray dict >>= ·) (funext fun read => ?_)
  refine ite_congr rfl (fun _ => rfl) fun _ => ?_
  exact ite_self _

/-- **What the loop makes of the replies it takes**, when all can be read. -/
theorem browseLoop_eq {receipts : List Receipt} :
    ∀ {appsArray : PlistNode}, (∀ dict ∈ taken browsing receipts, Listable dict) →
      ∃ res, browseLoop appsArray receipts = .ok ⟨res,
          ((taken browsing receipts).flatMap shown).foldl plistArrayAppendItem appsArray,
          taken browsing receipts⟩ ∧
        (res = .success ↔ Settled browsing (taken browsing receipts)) := by
  induction receipts with
  | nil => exact fun _ => ⟨.connFailed, rfl, by simp [Settled, taken]⟩
  | cons receipt receipts ih =>
    intro appsArray listable
    cases replied : receipt.received.plist with
    | none =>
      rw [browseLoop_failed replied, taken_failed replied]
      exact ⟨_, rfl, iff_of_false (Receipt.failed replied) (by simp [Settled])⟩
    | some dict =>
      have sound := receipt.sound dict replied
      rw [taken_replied replied] at listable ⊢
      rw [browseLoop_replied replied, browseReply_eq sound (listable dict (.head _)), ok_bind]
      by_cases goes : statusOf dict = some browsingApplications.val
      · have goesOn : browsing dict = true := decide_eq_true goes
        rw [if_pos goesOn] at listable ⊢
        obtain ⟨res, ran, settles⟩ := @ih ((shown dict).foldl plistArrayAppendItem appsArray)
          fun later member => listable later (.tail _ member)
        rw [if_pos goes, ran, ok_bind, settled_cons goesOn, List.flatMap_cons, List.foldl_append]
        exact ⟨res, rfl, settles⟩
      · have stops : browsing dict = false := decide_eq_false goes
        rw [stops, if_neg goes, if_neg Bool.false_ne_true, List.flatMap_singleton]
        exact ⟨.success, rfl, iff_of_true rfl (settled_singleton stops)⟩

/-- A loop that ends has read every reply it took. -/
theorem listable_of_browseLoop {receipts : List Receipt} : ∀ {appsArray : PlistNode},
    Ends (browseLoop appsArray receipts) → ∀ dict ∈ taken browsing receipts, Listable dict := by
  induction receipts with
  | nil => exact fun _ _ member => absurd member List.not_mem_nil
  | cons receipt receipts ih =>
    intro appsArray ends
    cases replied : receipt.received.plist with
    | none => exact forall_taken_failed replied receipts
    | some dict =>
      have sound := receipt.sound dict replied
      rw [browseLoop_replied replied] at ends
      obtain ⟨read, ran, ends⟩ := ends_bind_iff.mp ends
      have listable := listable_of_browseReply sound ⟨read, ran⟩
      cases ran.symm.trans (browseReply_eq sound listable appsArray)
      refine (forall_taken_replied replied receipts).mpr ⟨listable, fun goesOn => ?_⟩
      rw [if_pos (show statusOf dict = _ from of_decide_eq_true goesOn)] at ends
      obtain ⟨rest, ran, -⟩ := ends_bind_iff.mp ends
      exact ih ⟨rest, ran⟩

/-! ## An operation -/

/-- The replies to go on behind: no `Error`, and not the status `Complete`. -/
def pending (dict : PlistNode) : Bool :=
  (itemOf dict (cText "Error")).isNone && decide (statusOf dict ≠ some complete.val)

/-- A reply that is read without a fault: the status is a string, and where there is debug code
the error is one too, and the percentage beside a status a number. -/
structure Followable (stripDebugCode : Bool) (dict : PlistNode) : Prop where
  error : ∃ err, plistDictGetItem dict (cText "Error") = .ok err ∧
    (stripDebugCode = false → ∀ node ∈ err, node.1.type = .string)
  status : Admits dict (cText "Status") .string
  percent : stripDebugCode = false → (itemOf dict (cText "Status")).isSome →
    Admits dict (cText "PercentComplete") .uint

/-- The status, when the error left these. -/
theorem operationStatus_eq {stripDebugCode : Bool} {dict : PlistNode} (sound : Sound dict)
    (followable : Followable stripDebugCode dict) (ok : Bool) (res : InstproxyError) :
    operationStatus stripDebugCode dict ok res =
      .ok (if statusOf dict = some complete.val then (false, .success) else (ok, res)) := by
  obtain ⟨status, isStatus, -⟩ := followable.status
  obtain ⟨text, readText⟩ := (statusText_ends_iff sound isStatus).mpr followable.status
  rw [operationStatus, isStatus, ok_bind, statusOf_eq isStatus readText]
  cases status with
  | none =>
    cases readText
    rfl
  | some status =>
    obtain ⟨statusMsg, read, same⟩ := bind_eq_ok.mp readText
    cases same
    simp only [read, ok_bind, Option.some.injEq]
    cases stripDebugCode with
    | true => rfl
    | false =>
      have percent := followable.percent rfl (by rw [itemOf_eq isStatus]; rfl)
      obtain ⟨npercent, isPercent, -⟩ := id percent
      obtain ⟨val, readVal⟩ := (amountVal_ends_iff sound isPercent).mpr percent
      rw [if_neg Bool.false_ne_true, isPercent, ok_bind, readVal]
      rfl

/-- **What a reply comes to.** -/
theorem operationReply_eq {stripDebugCode : Bool} {dict : PlistNode} (sound : Sound dict)
    (followable : Followable stripDebugCode dict) :
    ∃ res, operationReply stripDebugCode dict = .ok (pending dict, res) ∧
      (pending dict = false → (res = .success ↔ statusOf dict = some complete.val)) := by
  obtain ⟨err, isErr, isString⟩ := followable.error
  have status := operationStatus_eq sound followable
  rw [operationReply, isErr, ok_bind, pending, itemOf_eq isErr]
  cases err with
  | none =>
    dsimp only
    rw [status]
    by_cases done : statusOf dict = some complete.val
    · rw [if_pos done]
      simp [done]
    · rw [if_neg done]
      simp [done]
  | some err =>
    have read : (if stripDebugCode = true then operationStatus stripDebugCode dict false .opFailed
        else do
          let _ ← plistGetStringVal (some err)
          operationStatus stripDebugCode dict false .opFailed) =
        operationStatus stripDebugCode dict false .opFailed := by
      cases stripDebugCode with
      | true => rfl
      | false =>
        have intact := sound.intact.2.mem (plistDictGetItem_mem isErr)
        obtain ⟨text, read⟩ := (plistGetStringVal_ends_iff intact).mpr (isString rfl err rfl)
        rw [if_neg Bool.false_ne_true, read, ok_bind]
    dsimp only
    rw [read, status]
    by_cases done : statusOf dict = some complete.val
    · rw [if_pos done]
      simp [done]
    · rw [if_neg done]
      simp [done]

/-- What was read of the status of a reply. -/
theorem admits_of_operationStatus {stripDebugCode ok : Bool} {dict : PlistNode}
    {res : InstproxyError} (sound : Sound dict) (ends : Ends (operationStatus stripDebugCode dict ok res)) :
    Admits dict (cText "Status") .string ∧ (stripDebugCode = false →
      (itemOf dict (cText "Status")).isSome → Admits dict (cText "PercentComplete") .uint) := by
  obtain ⟨status, isStatus, ends⟩ := ends_bind_iff.mp ends
  rw [itemOf_eq isStatus, admits_iff isStatus]
  cases status with
  | none => simp
  | some status =>
    have intact := sound.intact.2.mem (plistDictGetItem_mem isStatus)
    obtain ⟨statusMsg, read, ends⟩ := ends_bind_iff.mp ends
    have isString := (plistGetStringVal_ends_iff intact).mp ⟨statusMsg, read⟩
    refine ⟨by simpa using isString, fun debug _ => ?_⟩
    rw [debug, if_neg Bool.false_ne_true] at ends
    obtain ⟨npercent, isPercent, ends⟩ := ends_bind_iff.mp ends
    obtain ⟨val, readVal, -⟩ := ends_bind_iff.mp ends
    exact (amountVal_ends_iff sound isPercent).mp ⟨val, readVal⟩

theorem followable_of_operationReply {stripDebugCode : Bool} {dict : PlistNode} (sound : Sound dict)
    (ends : Ends (operationReply stripDebugCode dict)) : Followable stripDebugCode dict := by
  obtain ⟨err, isErr, ends⟩ := ends_bind_iff.mp ends
  cases err with
  | none =>
    obtain ⟨status, percent⟩ := admits_of_operationStatus sound ends
    exact ⟨⟨none, isErr, fun _ node never => by cases never⟩, status, percent⟩
  | some err =>
    have intact := sound.intact.2.mem (plistDictGetItem_mem isErr)
    cases stripDebugCode with
    | true =>
      obtain ⟨status, percent⟩ := admits_of_operationStatus sound ends
      exact ⟨⟨some err, isErr, fun never => by cases never⟩, status, percent⟩
    | false =>
      obtain ⟨text, read, ends⟩ := ends_bind_iff.mp ends
      have isString := (plistGetStringVal_ends_iff intact).mp ⟨text, read⟩
      obtain ⟨status, percent⟩ := admits_of_operationStatus sound ends
      exact ⟨⟨some err, isErr, fun _ => by simpa using isString⟩, status, percent⟩

section Operation

variable {stripDebugCode statusCb : Bool} {operation : CText}

theorem performOperation_failed {receipt : Receipt} (nothing : receipt.received.plist = none)
    (receipts : List Receipt) :
    instproxyPerformOperation stripDebugCode statusCb operation (receipt :: receipts) =
      .ok ⟨instproxyError receipt.received.err, [], []⟩ :=
  if_pos (Receipt.failed nothing)

/-- The loop as far as what its first reply comes to. -/
theorem performOperation_replied {receipt : Receipt} {dict : PlistNode}
    (replied : receipt.received.plist = some dict) (receipts : List Receipt) :
    instproxyPerformOperation stripDebugCode statusCb operation (receipt :: receipts) =
      (operationReply stripDebugCode dict >>= fun left =>
        if left.1 then
          instproxyPerformOperation stripDebugCode statusCb operation receipts >>= fun performed =>
            .ok (performed.behind statusCb operation dict)
        else .ok (Performed.behind statusCb operation dict ⟨left.2, [], []⟩)) := by
  have success := Receipt.succeeded replied
  rw [instproxyPerformOperation, if_neg (not_not.mpr success), replied]
  rfl

/-- **What the loop makes of the replies it takes**, when all can be read. -/
theorem performOperation_eq {receipts : List Receipt}
    (followable : ∀ dict ∈ taken pending receipts, Followable stripDebugCode dict) :
    ∃ performed,
      instproxyPerformOperation stripDebugCode statusCb operation receipts = .ok performed ∧
        performed.replies = taken pending receipts ∧
        (performed.res = .success ↔
          ∃ last ∈ (taken pending receipts).getLast?, statusOf last = some complete.val) := by
  induction receipts with
  | nil => exact ⟨_, rfl, rfl, by simp [taken]⟩
  | cons receipt receipts ih =>
    cases replied : receipt.received.plist with
    | none =>
      rw [performOperation_failed replied, taken_failed replied]
      exact ⟨_, rfl, rfl, iff_of_false (Receipt.failed replied) (by simp)⟩
    | some dict =>
      have sound := receipt.sound dict replied
      rw [taken_replied replied] at followable ⊢
      obtain ⟨res, read, settles⟩ := operationReply_eq sound (followable dict (.head _))
      rw [performOperation_replied replied, read, ok_bind]
      cases goes : pending dict with
      | true =>
        rw [if_pos goes] at followable
        obtain ⟨performed, ran, replies, done⟩ :=
          ih fun later member => followable later (.tail _ member)
        rw [if_pos rfl, if_pos rfl, ran, ok_bind]
        refine ⟨_, rfl, congrArg (dict :: ·) replies, done.trans ?_⟩
        have notDone : statusOf dict ≠ some complete.val := by
          simp only [pending, Bool.and_eq_true, decide_eq_true_eq] at goes
          exact goes.2
        cases taken pending receipts with
        | nil => simp [notDone]
        | cons next later => rw [List.getLast?_cons_cons]
      | false =>
        rw [if_neg Bool.false_ne_true, if_neg Bool.false_ne_true]
        exact ⟨_, rfl, rfl, (settles goes).trans (by simp)⟩

theorem followable_of_performOperation {receipts : List Receipt}
    (ends : Ends (instproxyPerformOperation stripDebugCode statusCb operation receipts)) :
    ∀ dict ∈ taken pending receipts, Followable stripDebugCode dict := by
  induction receipts with
  | nil => exact fun _ member => absurd member List.not_mem_nil
  | cons receipt receipts ih =>
    cases replied : receipt.received.plist with
    | none => exact forall_taken_failed replied receipts
    | some dict =>
      have sound := receipt.sound dict replied
      rw [performOperation_replied replied] at ends
      obtain ⟨left, read, ends⟩ := ends_bind_iff.mp ends
      have followable := followable_of_operationReply sound ⟨left, read⟩
      obtain ⟨res, read', -⟩ := operationReply_eq sound followable
      cases read.symm.trans read'
      refine (forall_taken_replied replied receipts).mpr ⟨followable, fun goes => ?_⟩
      rw [goes, if_pos rfl] at ends
      obtain ⟨rest, ran, -⟩ := ends_bind_iff.mp ends
      exact ih ⟨rest, ran⟩

end Operation

/-! ## What they are to do -/

/-- A browse ends; it succeeds only when the last reply had the status `Complete` and none carried
an `Error`, and with an array of the items of all lists, in their order. -/
def BrowseUpheld (clientOptions : Option PlistNode) (sent : PropertyListServiceError)
    (receipts : List Receipt) : Prop :=
  ∃ browsed, instproxyBrowse true true clientOptions sent receipts = .ok browsed ∧
    (browsed.res = .success → Completed browsed.replies ∧ ∃ array, browsed.result = some array ∧
      array.1.type = .array ∧ array.2.toList = browsed.replies.flatMap currentItems)

/-- An operation ends; it succeeds only when the last reply had the status `Complete` and none
carried an `Error`. -/
def OperationUpheld (stripDebugCode statusCb : Bool) (operation : CText) (receipts : List Receipt) :
    Prop :=
  ∃ performed, instproxyPerformOperation stripDebugCode statusCb operation receipts = .ok performed ∧
    (performed.res = .success → Completed performed.replies)

/-- The options are a dictionary, and the command is sent. -/
def Sent (clientOptions : Option PlistNode) (sent : PropertyListServiceError) : Prop :=
  (∀ options ∈ clientOptions, options.1.type = .dict) ∧ sent = .success

/-- A reply as a browse takes it for: it has one of the two statuses and no `Error`, and its list no
more items than its amount says. -/
structure Regular (dict : PlistNode) : Prop where
  status : browsing dict = true ∨ statusOf dict = some complete.val
  clean : itemOf dict (cText "Error") = none
  listed : (currentItems dict).length ≤ amountOf dict

/-- The replies that are taken can be read, and when the last one is not one to go on behind, all
are regular. -/
def BrowseServed (receipts : List Receipt) : Prop :=
  (∀ dict ∈ taken browsing receipts, Listable dict) ∧
    (Settled browsing (taken browsing receipts) → ∀ dict ∈ taken browsing receipts, Regular dict)

/-- The replies that are taken can be read, and one with the status `Complete` has no `Error`. -/
def OperationServed (stripDebugCode : Bool) (receipts : List Receipt) : Prop :=
  ∀ dict ∈ taken pending receipts, Followable stripDebugCode dict ∧
    (statusOf dict = some complete.val → itemOf dict (cText "Error") = none)

/-- Only the last reply that is taken is one not to go on behind. -/
theorem goesOn_or_last {goesOn : PlistNode → Bool} {receipts : List Receipt} :
    ∀ dict ∈ taken goesOn receipts,
      goesOn dict = true ∨ (taken goesOn receipts).getLast? = some dict := by
  induction receipts with
  | nil => exact fun _ member => absurd member List.not_mem_nil
  | cons receipt receipts ih =>
    cases replied : receipt.received.plist with
    | none => exact forall_taken_failed replied receipts
    | some first =>
      refine (forall_taken_replied replied receipts).mpr ⟨?_, fun goes other member => ?_⟩
      · rw [taken_replied replied]
        cases goesOn first <;> simp
      · rw [taken_replied replied, if_pos goes]
        refine (ih other member).imp_right fun last => ?_
        rw [List.getLast?_cons, last]
        rfl

/-- Lists each of which is the front of another make the same whole only when they are the same. -/
theorem eq_of_flatMap_eq {α β : Type} {f g : α → List β} {xs : List α} :
    (∀ x ∈ xs, f x <+: g x) → xs.flatMap f = xs.flatMap g → ∀ x ∈ xs, f x = g x := by
  induction xs with
  | nil => exact fun _ _ _ member => absurd member List.not_mem_nil
  | cons x xs ih =>
    intro front same
    obtain ⟨isFront, fronts⟩ := List.forall_mem_cons.mp front
    obtain ⟨missing, whole⟩ := isFront
    rw [List.flatMap_cons, List.flatMap_cons, ← whole, List.append_assoc] at same
    have rest := List.append_cancel_left same
    have shorter : (xs.flatMap f).length ≤ (xs.flatMap g).length := by
      rw [List.length_flatMap, List.length_flatMap]
      exact List.sum_le_sum fun y member => (fronts y member).length_le
    have none : missing = [] := by
      rw [rest, List.length_append] at shorter
      exact List.length_eq_zero_iff.mp (by omega)
    subst none
    rw [List.append_nil] at whole
    exact List.forall_mem_cons.mpr ⟨whole, ih fronts rest⟩

/-- The command of a browse: with options that are a dictionary it is sent. -/
theorem commandDict_ends {clientOptions : Option PlistNode}
    (intact : ∀ options ∈ clientOptions, options.Intact) (command : CText)
    (appid packagePath : Option CText) :
    Ends (commandDict command clientOptions appid packagePath) := by
  cases clientOptions with
  | none => exact ⟨_, rfl⟩
  | some options =>
    rw [commandDict]
    dsimp only
    split
    · rw [plistCopyNode_intact (intact options rfl)]
      exact ⟨_, rfl⟩
    · exact ⟨_, rfl⟩

theorem instproxySendCommand_eq {clientOptions : Option PlistNode}
    (intact : ∀ options ∈ clientOptions, options.Intact) (command : CText)
    (appid packagePath : Option CText) (sent : PropertyListServiceError) :
    ∃ res outgoing, instproxySendCommand command clientOptions appid packagePath sent =
        .ok (res, outgoing) ∧ (res = .success ↔ Sent clientOptions sent) := by
  rw [instproxySendCommand]
  by_cases other : ∃ options ∈ clientOptions, options.1.type ≠ .dict
  · rw [if_pos other]
    obtain ⟨options, isOptions, noDict⟩ := other
    exact ⟨_, _, rfl, iff_of_false (by decide) fun accepted => noDict (accepted.1 options isOptions)⟩
  · obtain ⟨dict, built⟩ := commandDict_ends intact command appid packagePath
    rw [if_neg other, built]
    refine ⟨_, _, rfl, instproxyError_eq_success.trans ?_⟩
    rw [Sent, and_iff_right]
    intro options isOptions
    by_contra noDict
    exact other ⟨options, isOptions, noDict⟩

/-- The loop of a browse does what the browse is to do. -/
def LoopUpheld (receipts : List Receipt) : Prop :=
  ∃ browsing, browseLoop (leaf plistNewArray) receipts = .ok browsing ∧
    (browsing.res = .success → Completed browsing.replies ∧ browsing.appsArray.1.type = .array ∧
      browsing.appsArray.2.toList = browsing.replies.flatMap currentItems)

/-- A browse is its loop, when the command is sent. -/
theorem browseUpheld_iff {clientOptions : Option PlistNode}
    (intact : ∀ options ∈ clientOptions, options.Intact) (sent : PropertyListServiceError)
    (receipts : List Receipt) :
    BrowseUpheld clientOptions sent receipts ↔ (Sent clientOptions sent → LoopUpheld receipts) := by
  obtain ⟨res, outgoing, command, accepted⟩ :=
    instproxySendCommand_eq intact (cText "Browse") none none sent
  rw [BrowseUpheld, instproxyBrowse, if_neg (by decide), command, ok_bind, ← accepted]
  by_cases success : res = .success
  · rw [forall_prop_of_true success]
    dsimp only
    rw [if_neg (not_not.mpr success), exists_bind_iff]
    refine exists_congr fun browsing => and_congr_right fun _ => ?_
    simp only [pure_eq_ok, Except.ok.injEq, exists_eq_left']
    refine imp_congr_right fun done => and_congr_right fun _ => ?_
    simp [done]
  · refine iff_of_true ⟨_, if_pos success, fun done => absurd done success⟩ fun done =>
      absurd done success

theorem loopUpheld_iff (receipts : List Receipt) : LoopUpheld receipts ↔ BrowseServed receipts := by
  by_cases listable : ∀ dict ∈ taken browsing receipts, Listable dict
  swap
  · refine iff_of_false ?_ fun served => listable served.1
    rintro ⟨browsing, ran, -⟩
    exact listable (listable_of_browseLoop ⟨browsing, ran⟩)
  obtain ⟨res, ran, settles⟩ := @browseLoop_eq receipts (leaf plistNewArray) listable
  obtain ⟨isArray, items⟩ := foldl_newArray ((taken browsing receipts).flatMap shown)
  have front : ∀ dict ∈ taken browsing receipts, shown dict <+: currentItems dict :=
    fun _ _ => List.take_prefix _ _
  rw [LoopUpheld, BrowseServed, and_iff_right listable, ran, ← settles]
  simp only [Except.ok.injEq, exists_eq_left']
  refine imp_congr_right fun success => ?_
  rw [and_iff_right isArray, items]
  constructor
  · rintro ⟨completed, same⟩ dict member
    refine ⟨?_, completed.clean dict member, List.take_eq_self_iff _ |>.mp
      (eq_of_flatMap_eq front same dict member)⟩
    refine (goesOn_or_last dict member).imp_right fun last => ?_
    obtain ⟨final, isFinal, done⟩ := completed.last
    cases last.symm.trans isFinal
    exact done
  · intro regular
    obtain ⟨last, isLast, stops⟩ := settles.mp success
    have status := (regular last (List.mem_of_getLast? isLast)).status
    rw [stops] at status
    refine ⟨⟨⟨last, isLast, status.resolve_left Bool.false_ne_true⟩,
      fun dict member => (regular dict member).clean⟩, ?_⟩
    refine List.flatMap_congr fun dict member => ?_
    exact List.take_of_length_le (regular dict member).listed

theorem operationUpheld_iff (stripDebugCode statusCb : Bool) (operation : CText)
    (receipts : List Receipt) :
    OperationUpheld stripDebugCode statusCb operation receipts ↔
      OperationServed stripDebugCode receipts := by
  by_cases followable : ∀ dict ∈ taken pending receipts, Followable stripDebugCode dict
  swap
  · refine iff_of_false ?_ fun served => followable fun dict member => (served dict member).1
    rintro ⟨performed, ran, -⟩
    exact followable (followable_of_performOperation ⟨performed, ran⟩)
  obtain ⟨performed, ran, replies, done⟩ :=
    @performOperation_eq stripDebugCode statusCb operation receipts followable
  rw [OperationUpheld, ran]
  simp only [Except.ok.injEq, exists_eq_left']
  rw [done, replies]
  constructor
  · intro upheld dict member
    refine ⟨followable dict member, fun status => ?_⟩
    rcases goesOn_or_last dict member with goes | last
    · simp [pending, status] at goes
    · exact (upheld ⟨dict, last, status⟩).clean dict member
  · rintro served ⟨last, isLast, status⟩
    refine ⟨⟨last, isLast, status⟩, fun dict member => ?_⟩
    rcases goesOn_or_last dict member with goes | isLast'
    · simp only [pending, Bool.and_eq_true, Option.isNone_iff_eq_none] at goes
      exact goes.1
    · cases isLast.symm.trans isLast'
      exact (served last member).2 status

/-- **Both do what they are to do exactly on the replies they serve.** -/
theorem replies_heeded_iff {clientOptions : Option PlistNode}
    (intact : ∀ options ∈ clientOptions, options.Intact) (sent : PropertyListServiceError)
    (stripDebugCode statusCb : Bool) (operation : CText) (receipts : List Receipt) :
    (BrowseUpheld clientOptions sent receipts ↔ (Sent clientOptions sent → BrowseServed receipts)) ∧
      (OperationUpheld stripDebugCode statusCb operation receipts ↔
        OperationServed stripDebugCode receipts) := by
  refine ⟨?_, operationUpheld_iff stripDebugCode statusCb operation receipts⟩
  rw [browseUpheld_iff intact sent receipts, loopUpheld_iff]

/-! ## Two exchanges -/

/-- A receive of a plist. -/
def Receipt.reply (plist : PlistNode) (sound : Sound plist) : Receipt where
  received := ⟨.success, some plist⟩
  whole := iff_of_true rfl rfl
  sound := by
    rintro _ ⟨⟩
    exact sound

theorem sound_newDict : Sound (leaf plistNewDict) :=
  ⟨⟨trivial, trivial⟩, fun _ never => absurd never List.not_mem_nil⟩

/-- A dictionary that gets an item. -/
theorem Sound.insertItem {dict : PlistNode} (sound : Sound dict) (key : CText) {item : PlistNode}
    (intact : item.Intact) (short : item.2.toList.length < 2 ^ 32) :
    Sound (plistDictInsertItem dict key item) := by
  refine ⟨sound.intact.insertItem intact key, fun node member => ?_⟩
  rw [plistDictInsertItem] at member
  split at member
  · rw [Siblings.toList_append] at member
    rcases List.mem_append.mp member with old | new
    · exact sound.short node old
    · rcases List.mem_cons.mp new with rfl | new
      · exact Nat.two_pow_pos 32
      · rcases List.mem_singleton.mp new with rfl
        exact short
  · exact sound.short node member

def dictOf (items : List (CText × PlistNode)) : PlistNode :=
  items.foldl (fun dict pair => plistDictInsertItem dict pair.1 pair.2) (leaf plistNewDict)

theorem dictOf_sound {items : List (CText × PlistNode)}
    (each : ∀ pair ∈ items, pair.2.Intact ∧ pair.2.2.toList.length < 2 ^ 32) :
    Sound (dictOf items) := by
  refine List.foldlRecOn items _ sound_newDict fun dict sound pair member => ?_
  exact sound.insertItem pair.1 (each pair member).1 (each pair member).2

theorem stringNode_sound (text : CText) :
    (stringNode text).Intact ∧ (stringNode text).2.toList.length < 2 ^ 32 :=
  ⟨⟨rfl, trivial⟩, Nat.two_pow_pos 32⟩

/-- A reply that holds one text. -/
def textReply (key text : CText) : Receipt :=
  .reply (dictOf [(key, stringNode text)]) (dictOf_sound (by simpa using stringNode_sound text))

/-- The items of a reply with one application. -/
def listing : List (CText × PlistNode) :=
  [(cText "CurrentAmount", leaf (plistNewUint 1)),
    (cText "CurrentList", plistArrayAppendItem (leaf plistNewArray) (stringNode (cText "Maps"))),
    (cText "Status", stringNode browsingApplications)]

theorem listing_sound : Sound (dictOf listing) := by
  refine dictOf_sound fun pair member => ?_
  simp only [listing, List.mem_cons, List.not_mem_nil, or_false] at member
  rcases member with rfl | rfl | rfl
  · exact ⟨⟨rfl, trivial⟩, Nat.two_pow_pos 32⟩
  · exact ⟨⟨trivial, rfl, trivial, trivial⟩, Nat.one_lt_two_pow (by decide)⟩
  · exact stringNode_sound _

def completion : PlistNode := dictOf [(cText "Status", stringNode complete)]

theorem admits_of_item {dict node : PlistNode} {key : CText} {type : PlistType}
    (found : plistDictGetItem dict key = .ok (some node)) (typed : node.1.type = type) :
    Admits dict key type :=
  ⟨some node, found, fun other same => by cases same; exact typed⟩

theorem admits_of_absent {dict : PlistNode} {key : CText}
    (absent : plistDictGetItem dict key = .ok none) (type : PlistType) : Admits dict key type :=
  ⟨none, absent, fun other never => by cases never⟩

theorem listing_listable : Listable (dictOf listing) where
  amount := admits_of_item rfl rfl
  status := admits_of_item rfl rfl
  enough _ := ⟨_, rfl, fun node same => by cases same; decide⟩

theorem completion_listable : Listable completion where
  amount := admits_of_absent rfl _
  status := admits_of_item rfl rfl
  enough some := absurd some (by decide)

/-- A reply with one application, and one that ends the browse; and the end of an operation. -/
theorem applications_listed :
    BrowseUpheld none .success
        [.reply (dictOf listing) listing_sound, textReply (cText "Status") complete] ∧
      OperationUpheld false true (cText "Install") [textReply (cText "Status") complete] := by
  have absent : ∀ options ∈ (none : Option PlistNode), options.Intact := by simp
  constructor
  · refine (replies_heeded_iff absent .success false true (cText "Install") _).1.mpr fun _ => ?_
    have listed : taken browsing [.reply (dictOf listing) listing_sound,
        textReply (cText "Status") complete] = [dictOf listing, completion] := rfl
    rw [BrowseServed, listed]
    simp only [List.forall_mem_cons]
    exact ⟨⟨listing_listable, completion_listable, by simp⟩,
      fun _ => ⟨⟨.inl rfl, rfl, by decide⟩, ⟨.inr rfl, rfl, by decide⟩, by simp⟩⟩
  · refine (replies_heeded_iff absent .success false true (cText "Install") _).2.mpr ?_
    have finished : taken pending [textReply (cText "Status") complete] = [completion] := rfl
    rw [OperationServed, finished]
    rintro _ (_ | ⟨_, ⟨⟩⟩)
    exact ⟨⟨⟨none, rfl, by simp⟩, admits_of_item rfl rfl, fun _ _ => admits_of_absent rfl _⟩,
      fun _ => rfl⟩

/-- The items of a reply with an error and the status `Complete`. -/
def refusal : List (CText × PlistNode) :=
  [(cText "Error", stringNode (cText "APIInternalError")), (cText "Status", stringNode complete)]

theorem refusal_sound : Sound (dictOf refusal) := by
  refine dictOf_sound fun pair member => ?_
  simp only [refusal, List.mem_cons, List.not_mem_nil, or_false] at member
  rcases member with rfl | rfl
  · exact stringNode_sound _
  · exact stringNode_sound _

/-- A refusal is taken for success by a browse, also without a status; and by an operation when it
has the status `Complete`. -/
theorem refusals_succeed :
    ¬ BrowseUpheld none .success [textReply (cText "Error") (cText "APIInternalError")] ∧
      ¬ OperationUpheld false true (cText "Install") [.reply (dictOf refusal) refusal_sound] := by
  constructor
  · rintro ⟨browsed, ran, upheld⟩
    cases ran
    obtain ⟨⟨last, isLast, done⟩, -⟩ := (upheld rfl).1
    cases isLast
    revert done
    decide
  · rintro ⟨performed, ran, upheld⟩
    cases ran
    have clean := (upheld rfl).clean _ (.head _)
    cases clean

end Irestore.InstallationProxy
