/-
# Restore.Tss — asking for the blobs of a build

`get_shsh_blobs` makes a request of a build identity, sends it, and takes the answer for the
TSS record.  `tss_send_request` gathers the body that comes in pieces, counting in an `int`,
and looks into it whatever became of the transfer.  The server at the address it asks by
default is `tsslocal.rb`, which hands out a file.

* `tssCreateRequest_iff` — when there is a request, and what is in it; an entry of the manifest
  that is no dictionary makes it free a node of the tree.
* `receive_spec` — the pieces of a body.
* `getShshBlobs_local_iff` — the record that comes from the local server.
-/
import Irestore.Plist.Xml
import Irestore.Restore.TssBlob

namespace Irestore.Restore

open Irestore.Library Irestore.Library.CMemory Irestore.Plist

set_option autoImplicit false

/-! ## `sscanf` with `%x` -/

def hexValue (b : UInt8) : Option Nat :=
  if 0x30 ≤ b ∧ b ≤ 0x39 then some (b.toNat - 0x30)
  else if 0x41 ≤ b ∧ b ≤ 0x46 then some (b.toNat - 0x37)
  else if 0x61 ≤ b ∧ b ≤ 0x66 then some (b.toNat - 0x57)
  else none

/-- The number that the hexadecimal digits in front of a text make. -/
def hexNumber (text : List UInt8) : Nat :=
  (text.map hexValue).takeWhile Option.isSome |>.foldl (fun n digit => 16 * n + digit.getD 0) 0

/-- What `sscanf` with `%x` leaves in an `int` that was 0. -/
def sscanfHex (text : List UInt8) : UInt32 :=
  let text := text.dropWhile fun b => b = 0x20 ∨ (0x09 ≤ b ∧ b ≤ 0x0d)
  let (negative, text) := match text with
    | 0x2d :: rest => (true, rest)
    | 0x2b :: rest => (false, rest)
    | _ => (false, text)
  let text := match text with
    | 0x30 :: 0x78 :: rest | 0x30 :: 0x58 :: rest => rest
    | _ => text
  let n := hexNumber text
  if 2 ^ 64 ≤ n then UInt32.ofNat (2 ^ 64 - 1)
  else if negative then UInt32.ofNat (2 ^ 64 - n)
  else UInt32.ofNat n

/-- The argument of `plist_new_uint` that an `int` becomes. -/
def signExtend (n : UInt32) : UInt64 := n.toInt32.toInt64.toUInt64

/-! ## The request -/

def ECID_STRSIZE : Nat := 0x20

/-- What `tss_create_request` reads of the build identity. -/
structure TssFields where
  uniqueBuildId : List UInt8
  chipId : List UInt8
  boardId : List UInt8
  securityDomain : List UInt8

def tssFields (identity : PlistNode) : Checked (Option TssFields) := do
  let uniqueBuildId ← dataItem identity (cText "UniqueBuildID")
  match uniqueBuildId with
  | none => return none
  | some uniqueBuildId => do
      let chipId ← stringItem identity (cText "ApChipID")
      match chipId with
      | none => return none
      | some chipId => do
          let boardId ← stringItem identity (cText "ApBoardID")
          match boardId with
          | none => return none
          | some boardId => do
              let securityDomain ← stringItem identity (cText "ApSecurityDomain")
              return securityDomain.map fun securityDomain =>
                ⟨uniqueBuildId, chipId, boardId, securityDomain⟩

/-- The entries that every request begins with. -/
def requestHead (fields : TssFields) (ecid : UInt64) : Bindings :=
  [(cText "@HostIpAddress", leaf (plistNewString (cText "192.168.0.1").val)),
    (cText "@HostPlatformInfo", leaf (plistNewString (cText "darwin").val)),
    (cText "@VersionInfo", leaf (plistNewString (cText "3.8").val)),
    (cText "@Locality", leaf (plistNewString (cText "en_US").val)),
    (cText "ApProductionMode", leaf (plistNewBool 1)),
    (cText "ApECID", leaf (plistNewString (snprintf ECID_STRSIZE (decimal ecid)))),
    (cText "ApChipID", leaf (plistNewUint (signExtend (sscanfHex fields.chipId)))),
    (cText "ApBoardID", leaf (plistNewUint (signExtend (sscanfHex fields.boardId)))),
    (cText "ApSecurityDomain", leaf (plistNewUint (signExtend (sscanfHex fields.securityDomain)))),
    (cText "UniqueBuildID", leaf (plistNewData fields.uniqueBuildId))]

/-- A new dictionary with these entries inserted. -/
def insertAll (request : PlistNode) (entries : Bindings) : PlistNode :=
  entries.foldl (fun request (key, item) => plistDictInsertItem request key item) request

/-- The loop over the manifest, the iterator at `iter`.  At an entry that is no dictionary
`free` is called for the request, which is a node of a tree and no block of `malloc`. -/
def addEntries (manifest : PlistNode) : (rounds iter : Nat) → PlistNode → Checked PlistNode
  | 0, _, _ => .error .diverges
  | rounds + 1, iter, request => do
      let (key, entry, iter) ← plistDictNextItem manifest iter
      match key with
      | none => return request
      | some key =>
          match entry with
          | none => .error .invalidFree
          | some entry =>
              if entry.1.type ≠ .dict then .error .invalidFree
              else do
                let tssEntry ← plistCopyNode entry
                addEntries manifest rounds iter
                  (plistDictInsertItem request ⟨cString key, nul_free_cString key⟩ tssEntry)

/-- `tss_create_request`. -/
def tssCreateRequest (identity : PlistNode) (ecid : UInt64) : Checked (Option PlistNode) := do
  let fields ← tssFields identity
  match fields with
  | none => return none
  | some fields =>
      if ecid = 0 then return none
      else do
        let request := insertAll (leaf plistNewDict) (requestHead fields ecid)
        let manifest ← plistDictGetItem identity (cText "Manifest")
        match manifest with
        | none => return none
        | some manifest =>
            if manifest.1.type ≠ .dict then return none
            else some <$> addEntries manifest (manifest.2.length + 1) 0 request

/-! ## The answer -/

/-- `tss_response`: the bytes written to `content`, and `length`. -/
structure TssResponse where
  content : List UInt8
  length : Int
  deriving DecidableEq

/-- `tss_write_callback`.  With a negative length the block is made too short, or not at all. -/
def tssWriteCallback (response : TssResponse) (data : List UInt8) : Checked TssResponse :=
  if data = [] then .ok response
  else if response.length < 0 then .error .outOfBounds
  else .ok ⟨response.content.take response.length.toNat ++ data,
    toInt32 (response.length.toNat + data.length)⟩

section Exchange

variable (fromXml : List UInt8 → Checked (Option PlistNode))

/-- What `tss_send_request` makes of the response.  Of an empty one it reads a byte that was never
written. -/
def readAnswer (response : TssResponse) : Checked (Option PlistNode) :=
  if response.content = [] then .error .outOfBounds
  else
    match strstr (cText "MESSAGE=SUCCESS").val (cString response.content) with
    | none => .ok none
    | some _ =>
        match strstr (cText "<?xml").val (cString response.content) with
        | none => .ok none
        | some offset =>
            let tssSize := ((response.length - offset) % 2 ^ 32).toNat
            fromXml ((response.content.drop offset).take tssSize)

/-- `tss_send_request`: whether there is a handle, and the pieces the server's answer to the
request comes in. -/
def tssSendRequest (handle : Bool) (server : PlistNode → List (List UInt8)) (request : PlistNode) :
    Checked (Option PlistNode) :=
  if handle then do
    let response ← (server request).foldlM tssWriteCallback ⟨[], 0⟩
    readAnswer fromXml response
  else .error .nullPointer

/-- `get_shsh_blobs`. -/
def getShshBlobs (handle : Bool) (server : PlistNode → List (List UInt8)) (ecid : UInt64)
    (identity : PlistNode) : Checked (Int × Option PlistNode) := do
  let request ← tssCreateRequest identity ecid
  match request with
  | none => return (-1, none)
  | some request => do
      let response ← tssSendRequest fromXml handle server request
      match response with
      | none => return (-1, none)
      | some tss => return (0, some tss)

end Exchange

/-- What `TssLocal` answers to every request, from the file it reads. -/
def tssLocal (file : List UInt8) : List UInt8 :=
  (cText "MESSAGE=SUCCESS\r\nBODY=").val ++ file

/-! ## What is in a request -/

/-- A build identity: a dictionary of intact nodes, with the components of its manifest. -/
structure BuildIdentity where
  node : PlistNode
  entries : Bindings
  isDict : node.1.type = .dict
  holds : Alternates node.2 entries
  intact : node.Intact
  components : Bindings
  manifest : ∀ manifest, entries.lookup (cText "Manifest") = some manifest →
    manifest.1.type = .dict → Alternates manifest.2 components

section Items

variable {dict : PlistNode} {bindings : Bindings} (isDict : dict.1.type = .dict)
  (alternates : Alternates dict.2 bindings) (intact : dict.Intact)

include isDict alternates intact

/-- A string of an intact dictionary can be looked for. -/
theorem stringItem_ends (key : CText) : ∃ text, stringItem dict key = .ok text := by
  obtain ⟨node, found, intactItem⟩ := getItem_intact isDict alternates intact key
  rw [stringItem, found, ok_bind]
  by_cases isString : plistGetNodeType node = .string
  · rw [if_pos isString]
    cases node with
    | none => cases isString
    | some node =>
      obtain ⟨text, -, read⟩ := plistGetStringVal_intact (intactItem node rfl) isString
      rw [read]
      exact ⟨some text, rfl⟩
  · rw [if_neg isString]
    exact ⟨none, rfl⟩

theorem dataItem_ends (key : CText) : ∃ bytes, dataItem dict key = .ok bytes := by
  obtain ⟨node, found, intactItem⟩ := getItem_intact isDict alternates intact key
  rw [dataItem, found, ok_bind]
  by_cases isData : plistGetNodeType node = .data
  · rw [if_pos isData]
    cases node with
    | none => cases isData
    | some node =>
      obtain ⟨bytes, -, read⟩ := plistGetDataVal_intact (intactItem node rfl) isData
      exact ⟨some bytes, read⟩
  · rw [if_neg isData]
    exact ⟨none, rfl⟩

end Items

theorem chainOf_append (front back : Bindings) :
    (chainOf front).append (chainOf back) = chainOf (front ++ back) := by
  induction front with
  | nil => rfl
  | cons entry front ih =>
    obtain ⟨key, item⟩ := entry
    show Siblings.cons _ _ (Siblings.cons _ _ ((chainOf front).append (chainOf back))) = _
    rw [ih]
    rfl

theorem insertItem_chainOf (entries : Bindings) (key : CText) (item : PlistNode) :
    plistDictInsertItem (plistNewDict, chainOf entries) key item =
      (plistNewDict, chainOf (entries ++ [(key, item)])) := by
  have isDict : ((plistNewDict, chainOf entries) : PlistNode).1.type = .dict := rfl
  rw [← chainOf_append, plistDictInsertItem, if_pos isDict, plistNewKey, cString_of_nul_free key.2]
  rfl

/-- Entries inserted one after the other stand in their order. -/
theorem insertAll_chainOf {more : Bindings} : ∀ entries : Bindings,
    insertAll (plistNewDict, chainOf entries) more = (plistNewDict, chainOf (entries ++ more)) := by
  induction more with
  | nil =>
    intro entries
    rw [List.append_nil]
    rfl
  | cons entry more ih =>
    intro entries
    obtain ⟨key, item⟩ := entry
    show insertAll (plistDictInsertItem (plistNewDict, chainOf entries) key item) more = _
    rw [insertItem_chainOf, ih, List.append_assoc]
    rfl

section Manifest

variable {manifest : PlistNode} {components : Bindings}

/-- The iterator behind the last entry that is counted. -/
theorem plistDictNextItem_end (isDict : manifest.1.type = .dict)
    (alternates : Alternates manifest.2 components) :
    plistDictNextItem manifest (2 * plistDictGetSize manifest) =
      .ok (none, none, 2 * plistDictGetSize manifest) := by
  have even := alternates.length
  have behind : ¬ (manifest.1.type = .dict ∧
      2 * plistDictGetSize manifest < manifest.2.length % 2 ^ 32) := by
    rw [plistDictGetSize, if_pos isDict, even]
    omega
  rw [plistDictNextItem, if_neg behind]
  rfl

/-- **The loop over the manifest**: it adds the entries that are left, when all are
dictionaries, and faults otherwise. -/
theorem addEntries_spec (isDict : manifest.1.type = .dict)
    (alternates : Alternates manifest.2 components) (intact : manifest.Intact) :
    ∀ (rounds i : Nat) (entries : Bindings), plistDictGetSize manifest + 1 ≤ i + rounds →
      i ≤ plistDictGetSize manifest →
      addEntries manifest rounds (2 * i) (plistNewDict, chainOf entries) =
        if ∀ component ∈ (components.take (plistDictGetSize manifest)).drop i,
            component.2.1.type = .dict then
          .ok (plistNewDict,
            chainOf (entries ++ (components.take (plistDictGetSize manifest)).drop i))
        else .error .invalidFree := by
  intro rounds
  induction rounds with
  | zero =>
    intro i entries enough inside
    omega
  | succ rounds ih =>
    intro i entries enough inside
    rcases Nat.lt_or_ge i (plistDictGetSize manifest) with below | done
    · obtain ⟨key, item, bound, next⟩ :=
        plistDictNextItem_eq isDict alternates intact.2 below
      have split : (components.take (plistDictGetSize manifest)).drop i =
          (key, item) :: (components.take (plistDictGetSize manifest)).drop (i + 1) := by
        rw [List.drop_eq_getElem?_toList_append, List.getElem?_take_of_lt below, bound]
        rfl
      rw [addEntries, next, ok_bind]
      dsimp only
      by_cases notDict : item.1.type ≠ .dict
      · have bad : ¬ ∀ component ∈ (components.take (plistDictGetSize manifest)).drop i,
            component.2.1.type = .dict := by
          rw [split]
          exact fun all => notDict (all _ List.mem_cons_self)
        rw [if_pos notDict, if_neg bad]
      · have intactItem : item.Intact :=
          intact.2.mem (alternates.item_mem (key, item) (List.mem_of_getElem? bound))
        have sameKey : (⟨cString key.val, nul_free_cString key.val⟩ : CText) = key :=
          Subtype.ext (cString_of_nul_free key.2)
        have ran := ih (i + 1) (entries ++ [(key, item)]) (by omega) below
        have later : (∀ component ∈ (components.take (plistDictGetSize manifest)).drop i,
            component.2.1.type = .dict) ↔
              ∀ component ∈ (components.take (plistDictGetSize manifest)).drop (i + 1),
                component.2.1.type = .dict := by
          rw [split, List.forall_mem_cons, and_iff_right (not_not.mp notDict)]
        rw [if_neg notDict, plistCopyNode_intact intactItem, ok_bind, sameKey, insertItem_chainOf,
          ran, if_congr later rfl rfl, split, List.append_assoc]
        rfl
    · obtain rfl : i = plistDictGetSize manifest := Nat.le_antisymm inside done
      have empty : (components.take (plistDictGetSize manifest)).drop
          (plistDictGetSize manifest) = [] :=
        List.drop_eq_nil_of_le (List.length_take_le _ _)
      rw [addEntries, plistDictNextItem_end isDict alternates, ok_bind, empty, List.append_nil,
        if_pos fun _ member => absurd member List.not_mem_nil]
      rfl

end Manifest

/-- A run that gives NULL where there is nothing to give. -/
theorem finds_none {α : Type} {run : Checked (Option α)} (ran : run = .ok none) {holds : α → Prop}
    (never : ∀ a, ¬ holds a) :
    ∃ result, run = .ok result ∧ ∀ a, result = some a ↔ holds a :=
  ⟨none, ran, fun a => iff_of_false (by simp) (never a)⟩

/-- The build identity has these fields. -/
structure BuildIdentity.Has (identity : BuildIdentity) (fields : TssFields) : Prop where
  uniqueBuildId : dataItem identity.node (cText "UniqueBuildID") = .ok (some fields.uniqueBuildId)
  chipId : stringItem identity.node (cText "ApChipID") = .ok (some fields.chipId)
  boardId : stringItem identity.node (cText "ApBoardID") = .ok (some fields.boardId)
  securityDomain :
    stringItem identity.node (cText "ApSecurityDomain") = .ok (some fields.securityDomain)

theorem tssFields_spec (identity : BuildIdentity) :
    ∃ result, tssFields identity.node = .ok result ∧
      ∀ fields, result = some fields ↔ identity.Has fields := by
  have strings := stringItem_ends identity.isDict identity.holds identity.intact
  obtain ⟨uniqueBuildId, isBuild⟩ :=
    dataItem_ends identity.isDict identity.holds identity.intact (cText "UniqueBuildID")
  obtain ⟨chipId, isChip⟩ := strings (cText "ApChipID")
  obtain ⟨boardId, isBoard⟩ := strings (cText "ApBoardID")
  obtain ⟨securityDomain, isDomain⟩ := strings (cText "ApSecurityDomain")
  have has (fields : TssFields) : identity.Has fields ↔ uniqueBuildId = some fields.uniqueBuildId ∧
      chipId = some fields.chipId ∧ boardId = some fields.boardId ∧
        securityDomain = some fields.securityDomain := by
    constructor
    · rintro ⟨build, chip, board, domain⟩
      exact ⟨Except.ok.inj (isBuild.symm.trans build), Except.ok.inj (isChip.symm.trans chip),
        Except.ok.inj (isBoard.symm.trans board), Except.ok.inj (isDomain.symm.trans domain)⟩
    · rintro ⟨rfl, rfl, rfl, rfl⟩
      exact ⟨isBuild, isChip, isBoard, isDomain⟩
  rw [tssFields, isBuild, ok_bind]
  cases uniqueBuildId with
  | none => exact finds_none rfl fun fields holds => by simp [has] at holds
  | some uniqueBuildId =>
    dsimp only
    rw [isChip, ok_bind]
    cases chipId with
    | none => exact finds_none rfl fun fields holds => by simp [has] at holds
    | some chipId =>
      dsimp only
      rw [isBoard, ok_bind]
      cases boardId with
      | none => exact finds_none rfl fun fields holds => by simp [has] at holds
      | some boardId =>
        dsimp only
        rw [isDomain, ok_bind]
        cases securityDomain with
        | none => exact finds_none rfl fun fields holds => by simp [has] at holds
        | some securityDomain =>
          refine ⟨_, rfl, fun fields => ?_⟩
          obtain ⟨build, chip, board, domain⟩ := fields
          simp [has]

/-- The entries of a request: those of every request, and the components the manifest counts. -/
def BuildIdentity.asked (identity : BuildIdentity) (manifest : PlistNode) : Bindings :=
  identity.components.take (plistDictGetSize manifest)

/-- All that a request needs but the kinds of the manifest's entries. -/
structure BuildIdentity.Asks (identity : BuildIdentity) (ecid : UInt64) (fields : TssFields)
    (manifest : PlistNode) : Prop where
  has : identity.Has fields
  given : ecid ≠ 0
  found : identity.entries.lookup (cText "Manifest") = some manifest
  isDict : manifest.1.type = .dict

theorem BuildIdentity.Asks.unique {identity : BuildIdentity} {ecid : UInt64}
    {fields fields' : TssFields} {manifest manifest' : PlistNode}
    (asks : identity.Asks ecid fields manifest) (asks' : identity.Asks ecid fields' manifest') :
    fields = fields' ∧ manifest = manifest' := by
  obtain ⟨result, -, isFields⟩ := tssFields_spec identity
  have first := (isFields fields).mpr asks.has
  have second := (isFields fields').mpr asks'.has
  exact ⟨Option.some.inj (first.symm.trans second),
    Option.some.inj (asks.found.symm.trans asks'.found)⟩

/-- Without all of this nothing is requested. -/
theorem tssCreateRequest_none {identity : BuildIdentity} {ecid : UInt64}
    (unasked : ∀ fields manifest, ¬ identity.Asks ecid fields manifest) :
    tssCreateRequest identity.node ecid = .ok none := by
  obtain ⟨found, read, isFields⟩ := tssFields_spec identity
  have looked := getItem_eq identity.isDict identity.holds (cText "Manifest")
  rw [tssCreateRequest, read, ok_bind]
  cases found with
  | none => rfl
  | some fields =>
    dsimp only
    by_cases noEcid : ecid = 0
    · rw [if_pos noEcid]
      rfl
    · rw [if_neg noEcid, looked, ok_bind]
      cases isManifest : identity.entries.lookup (cText "Manifest") with
      | none => rfl
      | some manifest =>
        dsimp only
        rw [if_pos fun isDict =>
          unasked fields manifest ⟨(isFields fields).mp rfl, noEcid, isManifest, isDict⟩]
        rfl

/-- With it the entries of the manifest are added. -/
theorem tssCreateRequest_asks {identity : BuildIdentity} {ecid : UInt64} {fields : TssFields}
    {manifest : PlistNode} (asks : identity.Asks ecid fields manifest) :
    tssCreateRequest identity.node ecid =
      if ∀ component ∈ identity.asked manifest, component.2.1.type = .dict then
        .ok (some (plistNewDict, chainOf (requestHead fields ecid ++ identity.asked manifest)))
      else .error .invalidFree := by
  obtain ⟨has, given, found, isDict⟩ := asks
  obtain ⟨result, read, isFields⟩ := tssFields_spec identity
  have looked := getItem_eq identity.isDict identity.holds (cText "Manifest")
  have intact : manifest.Intact :=
    identity.intact.2.mem (plistDictGetItem_mem (looked.trans (congrArg _ found)))
  have counted : plistDictGetSize manifest + 1 ≤ 0 + (manifest.2.length + 1) := by
    rw [plistDictGetSize, if_pos isDict]
    omega
  have added := addEntries_spec isDict (identity.manifest manifest found isDict) intact
    (manifest.2.length + 1) 0 (requestHead fields ecid) counted (Nat.zero_le _)
  have head : insertAll (leaf plistNewDict) (requestHead fields ecid) =
      (plistNewDict, chainOf (requestHead fields ecid)) := insertAll_chainOf []
  rw [tssCreateRequest, read, ok_bind, (isFields fields).mpr has]
  dsimp only
  rw [if_neg given, looked, ok_bind, found]
  dsimp only
  rw [if_neg (not_not.mpr isDict), head]
  refine (congrArg (Except.map some) added).trans ?_
  rw [List.drop_zero]
  exact apply_ite (Except.map some) _ _ _

/-- **When there is a request, and what is in it**: the identity has its four fields, the ECID is
not 0, and the manifest is a dictionary of dictionaries; all of these are in the request.  An
entry that is no dictionary is the one fault. -/
theorem tssCreateRequest_iff (identity : BuildIdentity) (ecid : UInt64) :
    (∀ request, tssCreateRequest identity.node ecid = .ok (some request) ↔
      ∃ fields manifest, identity.Asks ecid fields manifest ∧
        (∀ component ∈ identity.asked manifest, component.2.1.type = .dict) ∧
          request = (plistNewDict,
            chainOf (requestHead fields ecid ++ identity.asked manifest))) ∧
    ∀ fault, tssCreateRequest identity.node ecid = .error fault ↔
      fault = .invalidFree ∧ ∃ fields manifest, identity.Asks ecid fields manifest ∧
        ∃ component ∈ identity.asked manifest, component.2.1.type ≠ .dict := by
  by_cases unasked : ∀ fields manifest, ¬ identity.Asks ecid fields manifest
  · rw [tssCreateRequest_none unasked]
    refine ⟨fun request => iff_of_false (by simp) ?_, fun fault => iff_of_false (by simp) ?_⟩
    · rintro ⟨fields, manifest, asks, -⟩
      exact unasked fields manifest asks
    · rintro ⟨-, fields, manifest, asks, -⟩
      exact unasked fields manifest asks
  · push Not at unasked
    obtain ⟨fields, manifest, asks⟩ := unasked
    rw [tssCreateRequest_asks asks]
    by_cases all : ∀ component ∈ identity.asked manifest, component.2.1.type = .dict
    · rw [if_pos all]
      constructor
      · intro request
        constructor
        · intro same
          cases same
          exact ⟨fields, manifest, asks, all, rfl⟩
        · rintro ⟨fields', manifest', asks', -, rfl⟩
          obtain ⟨rfl, rfl⟩ := asks.unique asks'
          rfl
      · refine fun fault => iff_of_false (by simp) ?_
        rintro ⟨-, fields', manifest', asks', component, member, other⟩
        obtain ⟨rfl, rfl⟩ := asks.unique asks'
        exact other (all component member)
    · rw [if_neg all]
      constructor
      · refine fun request => iff_of_false (by simp) ?_
        rintro ⟨fields', manifest', asks', all', -⟩
        obtain ⟨rfl, rfl⟩ := asks.unique asks'
        exact all all'
      · push Not at all
        intro fault
        constructor
        · intro same
          cases same
          exact ⟨rfl, fields, manifest, asks, all⟩
        · rintro ⟨rfl, -⟩
          rfl

/-- An identity whose manifest has this one entry. -/
def iBssIdentity (entry : PlistNode) (intact : entry.Intact) : BuildIdentity where
  node := (plistNewDict, chainOf [(cText "UniqueBuildID", leaf (plistNewData [7, 8])),
    (cText "ApChipID", leaf (plistNewString (cText "0x8920").val)),
    (cText "ApBoardID", leaf (plistNewString (cText "0x00").val)),
    (cText "ApSecurityDomain", leaf (plistNewString (cText "0x01").val)),
    (cText "Manifest", (plistNewDict, chainOf [(cText "iBSS", entry)]))])
  entries := _
  isDict := rfl
  holds := chainOf_alternates _
  intact := ⟨trivial, rfl, trivial, rfl, trivial, rfl, trivial, rfl, trivial, rfl, trivial, rfl,
    trivial, rfl, trivial, rfl, trivial, rfl, trivial, trivial,
    ⟨rfl, trivial, intact.1, intact.2, trivial⟩, trivial⟩
  components := [(cText "iBSS", entry)]
  manifest := by
    rintro manifest ⟨⟩ -
    exact chainOf_alternates _

theorem iBss_asks {entry : PlistNode} (intact : entry.Intact) :
    (iBssIdentity entry intact).Asks 5
      ⟨[7, 8], (cText "0x8920").val, (cText "0x00").val, (cText "0x01").val⟩
      (plistNewDict, chainOf [(cText "iBSS", entry)]) :=
  ⟨⟨rfl, rfl, rfl, rfl⟩, by decide, rfl, rfl⟩

/-- A dictionary is requested; for any other entry the request is freed by the wrong function. -/
theorem iBss_requested :
    tssCreateRequest (iBssIdentity (leaf plistNewDict) ⟨trivial, trivial⟩).node 5 =
      .ok (some (plistNewDict, chainOf
        [(cText "@HostIpAddress", leaf (plistNewString (cText "192.168.0.1").val)),
          (cText "@HostPlatformInfo", leaf (plistNewString (cText "darwin").val)),
          (cText "@VersionInfo", leaf (plistNewString (cText "3.8").val)),
          (cText "@Locality", leaf (plistNewString (cText "en_US").val)),
          (cText "ApProductionMode", leaf (plistNewBool 1)),
          (cText "ApECID", leaf (plistNewString (cText "5").val)),
          (cText "ApChipID", leaf (plistNewUint 0x8920)),
          (cText "ApBoardID", leaf (plistNewUint 0)),
          (cText "ApSecurityDomain", leaf (plistNewUint 1)),
          (cText "UniqueBuildID", leaf (plistNewData [7, 8])),
          (cText "iBSS", leaf plistNewDict)])) ∧
      tssCreateRequest (iBssIdentity (leaf (plistNewBool 1)) ⟨rfl, trivial⟩).node 5 =
        .error .invalidFree := by
  refine ⟨((tssCreateRequest_iff _ 5).1 _).mpr ⟨_, _, iBss_asks _, ?_, rfl⟩,
    ((tssCreateRequest_iff _ 5).2 _).mpr ⟨rfl, _, _, iBss_asks _, _, List.mem_cons_self, ?_⟩⟩
  · exact fun component member => List.mem_singleton.mp member ▸ rfl
  · decide

/-! ## `strstr` -/

/-- A text without the first byte of what is looked for may stand in front. -/
theorem strstr_append {b : UInt8} {needle front : List UInt8} (absent : b ∉ front)
    (text : List UInt8) :
    strstr (b :: needle) (front ++ text) =
      (strstr (b :: needle) text).map (· + front.length) := by
  induction front with
  | nil =>
    rw [List.nil_append, List.length_nil]
    exact Option.map_id'.symm
  | cons c front ih =>
    obtain ⟨differ, absent⟩ := not_or.mp (List.mem_cons.not.mp absent)
    have other : (b :: needle).isPrefixOf (c :: (front ++ text)) = false := by
      rw [List.isPrefixOf_cons_cons, beq_eq_false_iff_ne.mpr differ, Bool.false_and]
    rw [List.cons_append, strstr, if_neg (by rw [other]; decide), ih absent, Option.map_map]
    rfl

theorem strstr_none {b : UInt8} {needle text : List UInt8} (absent : b ∉ text) :
    strstr (b :: needle) text = none := by
  have behind := @strstr_append b needle text absent []
  rwa [List.append_nil] at behind

theorem strstr_le {needle text : List UInt8} : ∀ {offset : Nat},
    strstr needle text = some offset → offset ≤ text.length := by
  induction text with
  | nil =>
    intro offset found
    rw [strstr] at found
    split at found
    · cases found
      exact le_refl _
    · cases found
  | cons b text ih =>
    intro offset found
    rw [strstr] at found
    split at found
    · cases found
      exact Nat.zero_le _
    · obtain ⟨later, isLater, rfl⟩ := Option.map_eq_some_iff.mp found
      exact Nat.succ_le_succ (ih isLater)

/-! ## The pieces of an answer -/

/-- The most that a write callback is given at once. -/
def CURL_MAX_WRITE_SIZE : Nat := 16384

/-- The response that holds these bytes. -/
def TssResponse.holding (content : List UInt8) : TssResponse := ⟨content, toInt32 content.length⟩

/-- No byte comes at 2 GiB or behind, but in the piece that crosses it. -/
def Counted : Nat → List (List UInt8) → Prop
  | _, [] => True
  | n, piece :: pieces => (piece = [] ∨ n < 2 ^ 31) ∧ Counted (n + piece.length) pieces

theorem toInt32_negative {n : Nat} (small : n < 2 ^ 32) : toInt32 n < 0 ↔ 2 ^ 31 ≤ n := by
  rw [toInt32, Nat.mod_eq_of_lt small]
  split <;> omega

/-- One piece. -/
theorem tssWriteCallback_holding {content : List UInt8} (small : content.length < 2 ^ 32)
    (data : List UInt8) :
    tssWriteCallback (.holding content) data =
      if data = [] ∨ content.length < 2 ^ 31 then .ok (.holding (content ++ data))
      else .error .outOfBounds := by
  rw [tssWriteCallback]
  by_cases empty : data = []
  · rw [if_pos empty, if_pos (.inl empty), empty, List.append_nil]
  rw [if_neg empty]
  have sign : (TssResponse.holding content).length < 0 ↔ 2 ^ 31 ≤ content.length :=
    toInt32_negative small
  by_cases below : content.length < 2 ^ 31
  · have count : (TssResponse.holding content).length.toNat = content.length := by
      show (toInt32 content.length).toNat = content.length
      rw [toInt32_of_lt below]
      rfl
    rw [if_neg (sign.not.mpr (by omega)), if_pos (.inr below), count, ← List.length_append]
    show Except.ok (⟨content.take content.length ++ data, _⟩ : TssResponse) = _
    rw [List.take_length]
    rfl
  · rw [if_pos (sign.mpr (by omega)), if_neg (not_or.mpr ⟨empty, below⟩)]

/-- **All pieces**: the body is put together again, however it was cut; a piece that comes when
2 GiB are there is written out of the block. -/
theorem receive_spec {pieces : List (List UInt8)}
    (short : ∀ piece ∈ pieces, piece.length ≤ CURL_MAX_WRITE_SIZE) :
    ∀ content : List UInt8, content.length < 2 ^ 31 + CURL_MAX_WRITE_SIZE →
      (Counted content.length pieces →
        pieces.foldlM tssWriteCallback (.holding content) =
            .ok (.holding (content ++ pieces.flatten)) ∧
          (content ++ pieces.flatten).length < 2 ^ 31 + CURL_MAX_WRITE_SIZE) ∧
      (¬ Counted content.length pieces →
        pieces.foldlM tssWriteCallback (.holding content) = .error .outOfBounds) := by
  induction pieces with
  | nil =>
    intro content bound
    rw [List.flatten_nil, List.append_nil]
    exact ⟨fun _ => ⟨rfl, bound⟩, fun never => absurd trivial never⟩
  | cons piece pieces ih =>
    intro content bound
    obtain ⟨shortHere, shortLater⟩ := List.forall_mem_cons.mp short
    rw [CURL_MAX_WRITE_SIZE] at bound shortHere
    have step := @tssWriteCallback_holding content (by omega) piece
    rw [List.foldlM_cons, step, Counted]
    by_cases taken : piece = [] ∨ content.length < 2 ^ 31
    · have next : (content ++ piece).length < 2 ^ 31 + CURL_MAX_WRITE_SIZE := by
        rw [List.length_append, CURL_MAX_WRITE_SIZE]
        rcases taken with rfl | below
        · rw [List.length_nil]
          omega
        · omega
      rw [if_pos taken, ok_bind, and_iff_right taken, List.flatten_cons, ← List.append_assoc,
        ← List.length_append]
      exact ih shortLater (content ++ piece) next
    · rw [if_neg taken, error_bind]
      exact ⟨fun counted => absurd counted.1 taken, fun _ => rfl⟩

/-! ## The local server -/

/-- The local server, which may break off; the pieces are cut as it comes. -/
structure LocalServer (file : List UInt8) where
  answer : PlistNode → List (List UInt8)
  short : ∀ request, ∀ piece ∈ answer request, piece.length ≤ CURL_MAX_WRITE_SIZE
  cut : ∀ request, (answer request).flatten <+: tssLocal file

section Local

variable (fromXml : List UInt8 → Checked (Option PlistNode))

theorem cString_append_of_nul_free {front : List UInt8} (nulFree : 0 ∉ front)
    (text : List UInt8) : cString (front ++ text) = front ++ cString text := by
  refine List.takeWhile_append_of_pos fun b member => bne_iff_ne.mpr ?_
  rintro rfl
  exact nulFree member

theorem localHead_plain :
    0 ∉ (cText "MESSAGE=SUCCESS\r\nBODY=").val ∧ 0x3c ∉ (cText "MESSAGE=SUCCESS\r\nBODY=").val := by
  decide

/-- What is read of a body of the local server. -/
theorem readAnswer_local {got : List UInt8}
    (bound : (tssLocal got).length < 2 ^ 31 + CURL_MAX_WRITE_SIZE) :
    readAnswer fromXml (.holding (tssLocal got)) =
      match strstr (cText "<?xml").val (cString got) with
      | none => .ok none
      | some offset => fromXml (got.drop offset) := by
  have visible : cString (tssLocal got) =
      (cText "MESSAGE=SUCCESS\r\nBODY=").val ++ cString got :=
    cString_append_of_nul_free localHead_plain.1 got
  have success : strstr (cText "MESSAGE=SUCCESS").val (cString (tssLocal got)) = some 0 := by
    rw [visible]
    exact if_pos rfl
  have xml : strstr (cText "<?xml").val (cString (tssLocal got)) =
      (strstr (cText "<?xml").val (cString got)).map (· + 22) := by
    rw [visible]
    exact strstr_append localHead_plain.2 (cString got)
  have nonempty : (TssResponse.holding (tssLocal got)).content ≠ [] := List.cons_ne_nil _ _
  rw [readAnswer, if_neg nonempty]
  show (match strstr (cText "MESSAGE=SUCCESS").val (cString (tssLocal got)) with
    | none => Except.ok none
    | some _ =>
        match strstr (cText "<?xml").val (cString (tssLocal got)) with
        | none => Except.ok none
        | some offset => fromXml (((tssLocal got).drop offset).take
            ((toInt32 (tssLocal got).length - offset) % 2 ^ 32).toNat)) = _
  rw [success, xml]
  cases found : strstr (cText "<?xml").val (cString got) with
  | none => rfl
  | some offset =>
    have inside : offset ≤ got.length :=
      (strstr_le found).trans (List.takeWhile_sublist _).length_le
    have length : (tssLocal got).length = 22 + got.length := List.length_append
    have rest : (tssLocal got).drop (offset + 22) = got.drop offset := by
      rw [Nat.add_comm, tssLocal]
      exact @List.drop_length_add_append _ (cText "MESSAGE=SUCCESS\r\nBODY=").val got offset
    have count : ((toInt32 (tssLocal got).length - (offset + 22 : Nat)) % 2 ^ 32).toNat =
        got.length - offset := by
      rw [CURL_MAX_WRITE_SIZE] at bound
      rw [length] at bound ⊢
      rw [toInt32]
      split <;> omega
    show fromXml (((tssLocal got).drop (offset + 22)).take
      ((toInt32 (tssLocal got).length - (offset + 22 : Nat)) % 2 ^ 32).toNat) = _
    rw [rest, count, List.take_of_length_le (by rw [List.length_drop])]

/-- Of a body that breaks off before the file nothing is read. -/
theorem readAnswer_short {body : List UInt8} (short : body <+: tssLocal []) (tss : PlistNode) :
    readAnswer fromXml (.holding body) ≠ .ok (some tss) := by
  have plain : (0x3c : UInt8) ∉ cString body := by
    intro member
    have inBody := short.subset ((List.takeWhile_sublist _).subset member)
    rw [tssLocal, List.append_nil] at inBody
    exact localHead_plain.2 inBody
  have noXml : strstr (cText "<?xml").val (cString body) = none := strstr_none plain
  intro ran
  rw [readAnswer] at ran
  split at ran
  · cases ran
  · split at ran
    · cases ran
    · rw [show (TssResponse.holding body).content = body from rfl, noXml] at ran
      cases ran

/-- A body that comes from the local server has a part of the file, or nothing is read of it. -/
theorem body_cases {file body : List UInt8} (cut : body <+: tssLocal file) :
    body <+: tssLocal [] ∨ ∃ got, body = tssLocal got := by
  have head : tssLocal [] <+: tssLocal file := by
    rw [tssLocal, List.append_nil]
    exact List.prefix_append _ _
  rcases List.prefix_or_prefix_of_prefix cut head with short | ⟨got, whole⟩
  · exact .inl short
  · refine .inr ⟨got, ?_⟩
    rw [← whole, tssLocal, tssLocal, List.append_nil]

/-- **The record that comes from the local server**: there is a request, and an XML declaration in
what came of the file; the record is what is read from there on. -/
theorem getShshBlobs_local_iff {file : List UInt8} (server : LocalServer file) (ecid : UInt64)
    (identity : PlistNode) (tss : PlistNode) :
    getShshBlobs fromXml true server.answer ecid identity = .ok (0, some tss) ↔
      ∃ request got offset, tssCreateRequest identity ecid = .ok (some request) ∧
        Counted 0 (server.answer request) ∧ (server.answer request).flatten = tssLocal got ∧
          strstr (cText "<?xml").val (cString got) = some offset ∧
            fromXml (got.drop offset) = .ok (some tss) := by
  have received {request : PlistNode} (counted : Counted 0 (server.answer request)) :=
    (receive_spec (server.short request) [] (by decide)).1 counted
  constructor
  · intro ran
    obtain ⟨made, isRequest, rest⟩ := bind_eq_ok.mp ran
    cases made with
    | none => cases rest
    | some request =>
      obtain ⟨response, sent, same⟩ := bind_eq_ok.mp rest
      cases response with
      | none => cases same
      | some record =>
        cases same
        rw [tssSendRequest, if_pos rfl] at sent
        have counted : Counted 0 (server.answer request) := by
          by_contra uncounted
          have failed := (receive_spec (server.short request) [] (by decide)).2 uncounted
          rw [show (⟨[], 0⟩ : TssResponse) = .holding [] from rfl, failed, error_bind] at sent
          cases sent
        obtain ⟨folded, bound⟩ := received counted
        rw [show (⟨[], 0⟩ : TssResponse) = .holding [] from rfl, folded, ok_bind,
          List.nil_append] at sent
        rcases body_cases (server.cut request) with short | ⟨got, whole⟩
        · exact absurd sent (readAnswer_short fromXml short tss)
        · rw [List.nil_append, whole] at bound
          rw [whole, readAnswer_local fromXml bound] at sent
          cases found : strstr (cText "<?xml").val (cString got) with
          | none =>
            rw [found] at sent
            cases sent
          | some offset =>
            rw [found] at sent
            exact ⟨request, got, offset, isRequest, counted, whole, found, sent⟩
  · rintro ⟨request, got, offset, isRequest, counted, whole, found, read⟩
    obtain ⟨folded, bound⟩ := received counted
    rw [List.nil_append, whole] at bound folded
    have sent : tssSendRequest fromXml true server.answer request = .ok (some tss) := by
      rw [tssSendRequest, if_pos rfl, show (⟨[], 0⟩ : TssResponse) = .holding [] from rfl, folded,
        ok_bind, readAnswer_local fromXml bound, found]
      exact read
    rw [getShshBlobs, isRequest, ok_bind]
    dsimp only
    rw [sent]
    rfl

end Local

/-- A file that is an empty dictionary behind a declaration. -/
def recordFile : List UInt8 := (cText "<?xml version=\"1.0\"?><plist><dict/></plist>").val

/-- The answer in two pieces. -/
def twoPieces : LocalServer recordFile where
  answer _ := [(tssLocal recordFile).take 30, (tssLocal recordFile).drop 30]
  short _ := by decide
  cut _ := by
    have whole : [(tssLocal recordFile).take 30, (tssLocal recordFile).drop 30].flatten =
        tssLocal recordFile := by
      rw [List.flatten_cons, List.flatten_singleton, List.take_append_drop]
    exact ⟨[], by rw [whole, List.append_nil]⟩

/-- What is read of this file. -/
def readRecord (xml : List UInt8) : Checked (Option PlistNode) :=
  .ok (if xml = recordFile then some (leaf plistNewDict) else none)

theorem twoPieces_read :
    getShshBlobs readRecord true twoPieces.answer 5
      (iBssIdentity (leaf plistNewDict) ⟨trivial, trivial⟩).node =
        .ok (0, some (leaf plistNewDict)) := by
  have asked := tssCreateRequest_asks (@iBss_asks (leaf plistNewDict) ⟨trivial, trivial⟩)
  refine (getShshBlobs_local_iff readRecord twoPieces 5 _ _).mpr
    ⟨_, recordFile, 0, asked, ⟨.inr (by decide), .inr (by decide), trivial⟩, ?_, by decide, ?_⟩
  · exact List.take_append_drop 30 _
  · exact congrArg Except.ok (if_pos rfl)

end Irestore.Restore
