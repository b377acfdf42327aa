/-
# MobileSync.Changes — a changes message, built and read

`create_process_changes_message` and `mobilesync_receive_changes` agree on an array of five
items.  The reader takes the type of the caller's variable where it means that of the fifth
item, so what it stores for the actions depends on what the variable held before.

* `item_messageOf` — the items of a message.
* `readActions_changesMessage` — what is stored for the actions.
* `changes_read_iff` — when what was sent is what is read.
* `actions_dropped` — a dictionary of actions, and a variable that holds NULL.
-/
import Irestore.MobileSync.Client

namespace Irestore.MobileSync

open Irestore.Library Irestore.Library.Program Irestore.Library.CMemory Irestore.Plist

set_option autoImplicit false

/-! ## The message -/

/-- The five items. -/
def changesItems (dataClass : CText) (entities : PlistNode) (moreChanges : UInt8)
    (actions : Option PlistNode) : List PlistNode :=
  [stringNode (cText "SDMessageProcessChanges"), stringNode dataClass, entities,
    leaf (plistNewBool moreChanges), actions.getD EMPTY_PARAMETER_STRING]

/-- What the reader stores when it stores these actions. -/
def changesResults (entities : PlistNode) (moreChanges : UInt8) (actions : Option PlistNode) :
    Results where
  entities := some entities
  isLastRecord := some (decide (moreChanges = 0))
  actions := some actions

/-- What the reader stores for the actions, by what their variable leads to. -/
def storedActions (actions : Option PlistNode) (before : Variable) : Checked (Option PlistNode) := do
  let type ← nodeTypeOfVariable before
  return if type = PlistType.dict.code then some (actions.getD EMPTY_PARAMETER_STRING) else none

theorem emptyParameterString_intact : PlistNode.Intact EMPTY_PARAMETER_STRING :=
  ⟨rfl, trivial⟩

theorem createProcessChangesMessage_eq (dataClass : CText) {entities : PlistNode}
    (intact : entities.Intact) (moreChanges : UInt8) {actions : Option PlistNode}
    (intactActions : ∀ node ∈ actions, node.Intact) :
    createProcessChangesMessage dataClass entities moreChanges actions =
      .ok (messageOf (changesItems dataClass entities moreChanges actions)) := by
  have copied : plistCopy (some entities) = .ok entities := plistCopyNode_intact intact
  cases actions with
  | none =>
    simp only [createProcessChangesMessage, copied]
    rfl
  | some node =>
    have copiedActions : plistCopy (some node) = .ok node :=
      plistCopyNode_intact (intactActions node rfl)
    simp only [createProcessChangesMessage, copied, copiedActions]
    rfl

theorem item_messageOf (items : List PlistNode) (n : Nat) :
    plistArrayGetItem (messageOf items) n = items[n]? := by
  obtain ⟨isArray, chain⟩ := foldl_newArray items
  rw [messageOf, plistArrayGetItem_eq isArray, chain]

/-! ## The reader -/

section Message

variable (dataClass : CText) {entities : PlistNode} (intact : entities.Intact)
  (moreChanges : UInt8) {actions : Option PlistNode} (intactActions : ∀ node ∈ actions, node.Intact)

include intactActions in
/-- What is stored for the actions. -/
theorem readActions_changesMessage (before : Variable) :
    readActions (messageOf (changesItems dataClass entities moreChanges actions)) before =
      storedActions actions before := by
  have fifth :
      plistArrayGetItem (messageOf (changesItems dataClass entities moreChanges actions)) 4 =
        some (actions.getD EMPTY_PARAMETER_STRING) := item_messageOf _ 4
  have copied : plistCopy (some (actions.getD EMPTY_PARAMETER_STRING)) =
      .ok (actions.getD EMPTY_PARAMETER_STRING) := by
    cases actions with
    | none => exact plistCopyNode_intact emptyParameterString_intact
    | some node => exact plistCopyNode_intact (intactActions node rfl)
  rw [readActions, storedActions, fifth, copied]
  cases nodeTypeOfVariable before with
  | error fault => rfl
  | ok type =>
    simp only [ok_bind]
    split <;> rfl

include intact intactActions in
/-- What is read of the message. -/
theorem readChanges_changesMessage (before : Variable) :
    readChanges true true (some before)
        (messageOf (changesItems dataClass entities moreChanges actions)) =
      (storedActions actions before).map fun stored =>
        (.success, changesResults entities moreChanges stored) := by
  have third :
      plistArrayGetItem (messageOf (changesItems dataClass entities moreChanges actions)) 2 =
        some entities := item_messageOf _ 2
  have fourth :
      plistArrayGetItem (messageOf (changesItems dataClass entities moreChanges actions)) 3 =
        some (leaf (plistNewBool moreChanges)) := item_messageOf _ 3
  have flag : plistGetBoolVal (some (leaf (plistNewBool moreChanges))) = .ok moreChanges := by
    simp [plistGetBoolVal, leaf, plistNewBool]
  rw [readChanges, third, fourth, flag, plistCopy, plistCopyNode_intact intact]
  rw [← readActions_changesMessage dataClass moreChanges intactActions before]
  cases acted :
    readActions (messageOf (changesItems dataClass entities moreChanges actions)) before <;>
    simp only [wanted, Option.getD_some, acted] <;>
    rfl

end Message

/-! ## Both -/

/-- The message is built, and a client that receives it stores the entities, the negation of
the flag, and the actions, or NULL when there are none. -/
def ChangesRead (w : World) (dataClass : CText) (entities : PlistNode) (moreChanges : UInt8)
    (actions : Option PlistNode) (before : Variable) (sent pinged : Bool) : Prop :=
  ∃ msg, createProcessChangesMessage dataClass entities moreChanges actions = .ok msg ∧
    ((mobilesyncReceiveChanges true true (some before) ⟨sent, some msg, pinged⟩).run w).1 =
      .ok (.success, changesResults entities moreChanges actions)

theorem ok_eq_changesResults_iff {entities : PlistNode} {moreChanges : UInt8}
    {actions : Option PlistNode} (stored : Option PlistNode) :
    (.ok (.success, changesResults entities moreChanges stored) : Checked Outcome) =
      .ok (.success, changesResults entities moreChanges actions) ↔ stored = actions := by
  constructor
  · intro same
    have results := congrArg Prod.snd (Except.ok.inj same)
    exact Option.some.inj (congrArg Results.actions results)
  · rintro rfl
    rfl

/-- What the variable held leads to a word that is `PLIST_DICT` when actions are sent; when
none are, it held NULL or leads to another word. -/
def LeadsTo (actions : Option PlistNode) : Variable → Prop
  | .null => actions = none
  | .pointer (.ok word) => actions.isSome ↔ word = PlistType.dict.code
  | .pointer (.error _) => False

/-- **What was sent is what is read exactly when the variable for the actions leads to the type
that the actions have.** -/
theorem changes_read_iff {w : World} {session : CText} (started : w.client.dataClass = some session)
    (dataClass : CText) {entities : PlistNode} (intact : entities.Intact) (moreChanges : UInt8)
    {actions : Option PlistNode} (intactActions : ∀ node ∈ actions, node.Intact)
    (before : Variable) (sent pinged : Bool) :
    ChangesRead w dataClass entities moreChanges actions before sent pinged ↔
      LeadsTo actions before := by
  have built := createProcessChangesMessage_eq dataClass intact moreChanges intactActions
  have ran : ((mobilesyncReceiveChanges true true (some before) ⟨sent, some (messageOf
      (changesItems dataClass entities moreChanges actions)), pinged⟩).run w).1 =
      readChanges true true (some before)
        (messageOf (changesItems dataClass entities moreChanges actions)) := by
    have first : plistArrayGetItem (messageOf (changesItems dataClass entities moreChanges actions))
        0 = some (stringNode (cText "SDMessageProcessChanges")) := item_messageOf _ 0
    rw [mobilesyncReceiveChanges, withDataClass, run_get_bind, started]
    dsimp only
    rw [mobilesyncReceive, run_modify_bind, run_lift, unlessCancelled, responseType, first]
    rfl
  rw [readChanges_changesMessage dataClass intact moreChanges intactActions] at ran
  have reduces : ChangesRead w dataClass entities moreChanges actions before sent pinged ↔
      ((storedActions actions before).map fun stored =>
        (MobilesyncError.success, changesResults entities moreChanges stored)) =
          .ok (.success, changesResults entities moreChanges actions) := by
    constructor
    · rintro ⟨msg, isBuilt, read⟩
      cases built.symm.trans isBuilt
      exact ran.symm.trans read
    · exact fun read => ⟨_, built, ran.trans read⟩
  rw [reduces]
  cases before with
  | null => exact (ok_eq_changesResults_iff none).trans eq_comm
  | pointer typeWord =>
    cases typeWord with
    | error fault => exact iff_of_false (fun same => by cases same) id
    | ok word =>
      refine (ok_eq_changesResults_iff _).trans ?_
      rw [LeadsTo]
      by_cases isDict : word = PlistType.dict.code
      · rw [if_pos isDict]
        cases actions <;> simp [isDict]
      · rw [if_neg isDict]
        cases actions <;> simp [isDict]

/-- The client after a start. -/
def syncing : World := ⟨⟨.deviceToComputer, some (cText "Notes")⟩, []⟩

def noEntities : PlistNode := leaf plistNewDict

theorem noEntities_intact : noEntities.Intact := ⟨trivial, trivial⟩

/-- A note that was changed. -/
def oneNote : PlistNode :=
  plistDictInsertItem (leaf plistNewDict) (cText "1") (stringNode (cText "Note"))

/-- All records are sent. -/
def allSent : PlistNode :=
  plistDictInsertItem (leaf plistNewDict)
    (cText "SyncDeviceLinkAllRecordsOfPulledEntityTypeSentKey") (leaf (plistNewBool 1))

/-- Entities and actions, and a variable that leads to a dictionary. -/
theorem note_and_action_read :
    ChangesRead syncing (cText "Notes") oneNote 1 (some allSent)
      (.pointer (.ok PlistType.dict.code)) true true := by
  have name : (stringNode (cText "Note")).Intact := ⟨rfl, trivial⟩
  have flag : PlistNode.Intact (leaf (plistNewBool 1)) := ⟨rfl, trivial⟩
  have intact : oneNote.Intact := noEntities_intact.insertItem name _
  have intactActions : ∀ node ∈ some allSent, node.Intact := by
    rintro node ⟨⟩
    exact noEntities_intact.insertItem flag _
  exact (changes_read_iff rfl (cText "Notes") intact 1 intactActions _ true true).mpr
    (iff_of_true rfl rfl)

/-- A dictionary of actions, and a variable that holds NULL: NULL is what is stored. -/
theorem actions_dropped :
    ¬ ChangesRead syncing (cText "Notes") noEntities 1 (some noEntities) .null true true := by
  rintro ⟨msg, built, read⟩
  have same : createProcessChangesMessage (cText "Notes") noEntities 1 (some noEntities) =
      .ok (messageOf (changesItems (cText "Notes") noEntities 1 (some noEntities))) :=
    createProcessChangesMessage_eq _ noEntities_intact _ fun node isNode => by
      cases isNode
      exact noEntities_intact
  cases same.symm.trans built
  have stored := congrArg (fun ran => match ran with
    | .ok outcome => outcome.2.actions
    | .error _ => none) read
  revert stored
  decide

end Irestore.MobileSync
