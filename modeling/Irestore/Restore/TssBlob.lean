/-
# Restore.TssBlob — the blob of a component in a TSS response

`tss_get_blob_by_path` goes through the entries of a response in their order.  An entry that is
no dictionary is skipped, one without a `Path` ends the search with an error, and the first one
with the path asked for gives its `Blob`.

* `Response` — a response with the entries it holds.
* `Pathless`, `Offers` — the entries that end the search.
* `scanList_reaches` — what a scan finds, by the entries before it.
* `blobByPath_of_perm` — the result by the entries in any order, as far as no entry without a
  path stands before the match.
* `pathless_entry_hides_blob` — two orders of the same two entries.
-/
import Irestore.Plist.Access

namespace Irestore.Restore

open Irestore.Library Irestore.Library.CMemory Irestore.Plist

set_option autoImplicit false

/-! ## The search -/

/-- How one entry leaves the loop: with the next one, with `return -1`, or with `break`. -/
inductive Scanned where
  | skipped
  | failed
  | taken (blob : Option (List UInt8))
  deriving DecidableEq, Repr

/-- The body of the loop for an item that may be NULL. -/
def scanEntry (path : CText) : Option PlistNode → Checked Scanned
  | none => .ok .skipped
  | some entry =>
      if entry.1.type ≠ .dict then return .skipped
      else do
        let pathNode ← plistDictGetItem entry (cText "Path")
        if plistGetNodeType pathNode ≠ .string then return .failed
        else do
          let entryPath ← plistGetStringVal pathNode
          if path.val = entryPath then do
            let blobNode ← plistDictGetItem entry (cText "Blob")
            if plistGetNodeType blobNode ≠ .data then return .failed
            else do
              let blob ← plistGetDataVal blobNode
              return .taken blob
          else return .skipped

/-- The loop of `tss_get_blob_by_path`, the iterator at `iter`. -/
def scanEntries (path : CText) (tss : PlistNode) : Nat → Nat → Checked Scanned
  | 0, _ => .ok .skipped
  | rounds + 1, iter => do
      let (key, entry, iter) ← plistDictNextItem tss iter
      if key = none then return .skipped
      else do
        let scanned ← scanEntry path entry
        match scanned with
        | .skipped => scanEntries path tss rounds iter
        | _ => return scanned

/-- What is returned, with what is left in `*blob`. -/
def blobResult : Scanned → Int × Option (List UInt8)
  | .skipped | .failed | .taken none => (-1, none)
  | .taken (some bytes) => if bytes.length ≤ 0 then (-1, none) else (0, some bytes)

theorem blobResult_cases (scanned : Scanned) :
    (∃ bytes, blobResult scanned = (0, some bytes)) ∨ blobResult scanned = (-1, none) := by
  unfold blobResult
  split
  · exact .inr rfl
  · exact .inr rfl
  · exact .inr rfl
  · split
    · exact .inr rfl
    · exact .inl ⟨_, rfl⟩

/-- `tss_get_blob_by_path`. -/
def tssGetBlobByPath (tss : PlistNode) (path : CText) : Checked (Int × Option (List UInt8)) := do
  let scanned ← scanEntries path tss (plistDictGetSize tss) 0
  return blobResult scanned

/-! ## Responses -/

/-- A response: a dictionary of intact nodes whose dictionaries have a value behind each key. -/
structure Response where
  node : PlistNode
  entries : Bindings
  isDict : node.1.type = .dict
  holds : Alternates node.2 entries
  intact : node.Intact
  regular : ∀ entry ∈ entries, entry.2.1.type = .dict → ∃ items, Alternates entry.2.2 items

/-- A dictionary without a string under `Path`. -/
def Pathless (entry : PlistNode) : Prop :=
  entry.1.type = .dict ∧ stringItem entry (cText "Path") = .ok none

/-- A dictionary with the path asked for. -/
def Matches (path : CText) (entry : PlistNode) : Prop :=
  entry.1.type = .dict ∧ stringItem entry (cText "Path") = .ok (some path.val)

/-- A match whose `Blob` is data of at least one byte. -/
def Offers (path : CText) (bytes : List UInt8) (entry : PlistNode) : Prop :=
  Matches path entry ∧ dataItem entry (cText "Blob") = .ok (some bytes) ∧ bytes ≠ []

/-- A node in which the search can look for a path and a blob. -/
def Regular (entry : PlistNode) : Prop :=
  entry.Intact ∧ (entry.1.type = .dict → ∃ items, Alternates entry.2 items)

theorem Response.entry_regular (response : Response) :
    ∀ entry ∈ response.entries, Regular entry.2 :=
  fun entry member => ⟨response.intact.2.mem (Alternates.item_mem response.holds entry member),
    response.regular entry member⟩

/-! ## One entry -/

/-- What an entry does to the scan. -/
inductive Scans (path : CText) (entry : PlistNode) : Scanned → Prop
  | skips (pathed : ¬ Pathless entry) (other : ¬ Matches path entry) : Scans path entry .skipped
  | pathless (missing : Pathless entry) : Scans path entry .failed
  | blobless (found : Matches path entry) (missing : dataItem entry (cText "Blob") = .ok none) :
      Scans path entry .failed
  | takes {bytes : List UInt8} (found : Matches path entry)
      (blob : dataItem entry (cText "Blob") = .ok (some bytes)) :
      Scans path entry (.taken (some bytes))

/-- The data under `Blob`, as the loop takes it. -/
theorem scans_blob {path : CText} {entry : PlistNode} {items : Bindings}
    (alternates : Alternates entry.2 items) (intact : entry.Intact) (found : Matches path entry) :
    ∃ scanned, (do
        let blobNode ← plistDictGetItem entry (cText "Blob")
        if plistGetNodeType blobNode ≠ .data then return .failed
        else do
          let blob ← plistGetDataVal blobNode
          return .taken blob : Checked Scanned) = .ok scanned ∧ Scans path entry scanned := by
  obtain ⟨blobNode, looked, intactBlob⟩ := getItem_intact found.1 alternates intact (cText "Blob")
  rw [looked, ok_bind]
  by_cases isData : plistGetNodeType blobNode = .data
  · cases blobNode with
    | none => cases isData
    | some node =>
      obtain ⟨bytes, -, read⟩ := plistGetDataVal_intact (intactBlob node rfl) isData
      rw [if_neg (not_not.mpr isData), read]
      refine ⟨_, rfl, .takes found ?_⟩
      rw [dataItem, looked, ok_bind, if_pos isData, read]
  · rw [if_pos isData]
    refine ⟨.failed, rfl, .blobless found ?_⟩
    rw [dataItem, looked, ok_bind, if_neg isData]
    rfl

/-- Each entry scans in one of these ways. -/
theorem scanEntry_scans {path : CText} {entry : PlistNode} (regular : Regular entry) :
    ∃ scanned, scanEntry path (some entry) = .ok scanned ∧ Scans path entry scanned := by
  by_cases isDict : entry.1.type = .dict
  · obtain ⟨items, alternates⟩ := regular.2 isDict
    obtain ⟨pathNode, found, intactPath⟩ :=
      getItem_intact isDict alternates regular.1 (cText "Path")
    rw [scanEntry, if_neg (not_not.mpr isDict), found, ok_bind]
    by_cases isString : plistGetNodeType pathNode = .string
    · cases pathNode with
      | none => cases isString
      | some node =>
        obtain ⟨text, -, read⟩ := plistGetStringVal_intact (intactPath node rfl) isString
        have item : stringItem entry (cText "Path") = .ok (some text) := by
          rw [stringItem, found, ok_bind, if_pos isString, read]
          rfl
        rw [if_neg (not_not.mpr isString), read, ok_bind]
        by_cases same : path.val = text
        · rw [if_pos same]
          have matches' : Matches path entry := ⟨isDict, by rw [item, same]⟩
          exact scans_blob alternates regular.1 matches'
        · rw [if_neg same]
          refine ⟨.skipped, rfl, .skips (fun pathless => ?_) fun matches' => ?_⟩
          · cases item.symm.trans pathless.2
          · exact same (Option.some.inj (Except.ok.inj (item.symm.trans matches'.2))).symm
    · rw [if_pos isString]
      refine ⟨.failed, rfl, .pathless ⟨isDict, ?_⟩⟩
      rw [stringItem, found, ok_bind, if_neg isString]
      rfl
  · rw [scanEntry, if_pos isDict]
    exact ⟨.skipped, rfl, .skips (fun pathless => isDict pathless.1) fun found => isDict found.1⟩

/-! ## All entries -/

/-- The loop over the items of a dictionary. -/
def scanList (path : CText) : List PlistNode → Checked Scanned
  | [] => .ok .skipped
  | entry :: rest => do
      let scanned ← scanEntry path (some entry)
      match scanned with
      | .skipped => scanList path rest
      | _ => return scanned

/-- The iterator hands out the entries one by one, as many as the dictionary counts. -/
theorem scanEntries_eq (response : Response) (path : CText) : ∀ rounds i,
    i + rounds = plistDictGetSize response.node →
      scanEntries path response.node rounds (2 * i) =
        scanList path (((response.entries.map Prod.snd).drop i).take rounds)
  | 0, i, _ => by
      rw [List.take_zero]
      rfl
  | rounds + 1, i, total => by
      obtain ⟨key, entry, bound, next⟩ := plistDictNextItem_eq response.isDict response.holds
        response.intact.2 (show i < plistDictGetSize response.node by omega)
      have item : (response.entries.map Prod.snd).drop i =
          entry :: (response.entries.map Prod.snd).drop (i + 1) := by
        rw [List.drop_eq_getElem?_toList_append, List.getElem?_map, bound]
        rfl
      rw [scanEntries, next, item, List.take_succ_cons, scanList]
      have ih := scanEntries_eq response path rounds (i + 1) (by omega)
      simp only [ok_bind, reduceCtorEq, if_false, ih]

/-- The entries give these bytes: an entry that offers them, with neither an entry without a
path nor another match in front. -/
def Reaches (path : CText) (bytes : List UInt8) : List PlistNode → Prop
  | [] => False
  | entry :: rest => Offers path bytes entry ∨
      (¬ Pathless entry ∧ ¬ Matches path entry) ∧ Reaches path bytes rest

/-- **What a scan finds.** -/
theorem scanList_reaches (path : CText) {entries : List PlistNode}
    (regular : ∀ entry ∈ entries, Regular entry) :
    ∃ scanned, scanList path entries = .ok scanned ∧
      ∀ bytes, blobResult scanned = (0, some bytes) ↔ Reaches path bytes entries := by
  induction entries with
  | nil => exact ⟨.skipped, rfl, fun bytes => iff_of_false (by simp [blobResult]) id⟩
  | cons entry rest ih =>
    obtain ⟨scanned, ran, scans⟩ := @scanEntry_scans path entry (regular entry List.mem_cons_self)
    obtain ⟨later, ran', finds⟩ := ih fun other member => regular other (.tail _ member)
    rw [scanList, ran, ok_bind]
    cases scans with
    | skips pathed other =>
      refine ⟨later, ran', fun bytes => (finds bytes).trans ?_⟩
      exact ⟨fun reaches => .inr ⟨⟨pathed, other⟩, reaches⟩, fun reaches =>
        reaches.elim (fun offers => absurd offers.1 other) And.right⟩
    | pathless missing =>
      refine ⟨.failed, rfl, fun bytes => iff_of_false (by simp [blobResult]) ?_⟩
      rintro (offers | passed)
      · cases missing.2.symm.trans offers.1.2
      · exact passed.1.1 missing
    | blobless found missing =>
      refine ⟨.failed, rfl, fun bytes => iff_of_false (by simp [blobResult]) ?_⟩
      rintro (offers | passed)
      · cases missing.symm.trans offers.2.1
      · exact passed.1.2 found
    | @takes blob found taken =>
      refine ⟨.taken (some blob), rfl, fun bytes => ?_⟩
      have whole : blobResult (.taken (some blob)) = (0, some bytes) ↔
          blob = bytes ∧ bytes ≠ [] := by
        cases blob <;> cases bytes <;> simp [blobResult]
      rw [whole]
      constructor
      · rintro ⟨rfl, nonempty⟩
        exact .inl ⟨found, taken, nonempty⟩
      · rintro (offers | passed)
        · exact ⟨Option.some.inj (Except.ok.inj (taken.symm.trans offers.2.1)), offers.2.2⟩
        · exact absurd found passed.1.2

/-! ## The entries in any order -/

/-- No two entries match. -/
def AtMostOne (path : CText) (entries : List PlistNode) : Prop :=
  entries.Pairwise fun x y => ¬ (Matches path x ∧ Matches path y)

/-- The match is among the first `n` entries, and each dictionary before it has a path. -/
def Clear (path : CText) (n : Nat) (entries : List PlistNode) : Prop :=
  ∀ front entry back, entries = front ++ entry :: back → Matches path entry →
    (∀ other ∈ front, ¬ Pathless other) ∧ front.length < n

theorem AtMostOne.perm {path : CText} {entries entries' : List PlistNode}
    (same : entries'.Perm entries) (unique : AtMostOne path entries) : AtMostOne path entries' :=
  (same.pairwise_iff fun apart both => apart both.symm).mpr unique

theorem clear_cons_iff {path : CText} {n : Nat} {entry : PlistNode} {rest : List PlistNode}
    (other : ¬ Matches path entry) :
    Clear path (n + 1) (entry :: rest) ↔
      ((∃ found ∈ rest, Matches path found) → ¬ Pathless entry) ∧ Clear path n rest := by
  constructor
  · intro clear
    refine ⟨fun ⟨found, member, isMatch⟩ => ?_, fun front found back split isMatch => ?_⟩
    · obtain ⟨front, back, rfl⟩ := List.append_of_mem member
      exact (clear (entry :: front) found back rfl isMatch).1 entry List.mem_cons_self
    · obtain ⟨pathed, inside⟩ := clear (entry :: front) found back (by rw [split]; rfl) isMatch
      exact ⟨fun x member => pathed x (.tail _ member), Nat.lt_of_succ_lt_succ inside⟩
  · rintro ⟨pathed, clear⟩ front found back split isMatch
    cases front with
    | nil =>
      obtain ⟨rfl, -⟩ := List.cons.inj split
      exact absurd isMatch other
    | cons first front =>
      obtain ⟨rfl, same⟩ := List.cons.inj split
      obtain ⟨pathed', inside⟩ := clear front found back same isMatch
      refine ⟨List.forall_mem_cons.mpr ⟨pathed ⟨found, ?_, isMatch⟩, pathed'⟩,
        Nat.succ_lt_succ inside⟩
      rw [same]
      exact List.mem_append_right _ List.mem_cons_self

/-- What is reached among the first entries, by all entries in any order. -/
theorem reaches_take_iff {path : CText} {bytes : List UInt8} {entries : List PlistNode}
    (unique : AtMostOne path entries) : ∀ n, Reaches path bytes (entries.take n) ↔
      (∃ entry ∈ entries, Offers path bytes entry) ∧ Clear path n entries := by
  induction entries with
  | nil =>
    intro n
    rw [List.take_nil]
    exact iff_of_false id fun found => by simpa using found.1
  | cons entry rest ih =>
    obtain ⟨apart, unique⟩ := List.pairwise_cons.mp unique
    intro n
    cases n with
    | zero =>
      refine iff_of_false id ?_
      rintro ⟨⟨found, member, offers⟩, clear⟩
      obtain ⟨front, back, split⟩ := List.append_of_mem member
      exact Nat.not_lt_zero _ (clear front found back split offers.1).2
    | succ n =>
      rw [List.take_succ_cons, Reaches, ih unique, List.exists_mem_cons_iff]
      by_cases isMatch : Matches path entry
      · have alone : ¬ ∃ found ∈ rest, Matches path found :=
          fun ⟨found, member, isMatch'⟩ => apart found member ⟨isMatch, isMatch'⟩
        have clear : Clear path (n + 1) (entry :: rest) := by
          intro front found back split isMatch'
          cases front with
          | nil => exact ⟨nofun, Nat.succ_pos n⟩
          | cons first front =>
            obtain ⟨-, split⟩ := List.cons.inj split
            exact absurd ⟨found, by simp [split], isMatch'⟩ alone
        refine ⟨fun reaches => ⟨.inl ?_, clear⟩, fun found => .inl ?_⟩
        · exact reaches.elim id fun passed => absurd isMatch passed.1.2
        · exact found.1.elim id fun ⟨other, member, offers⟩ =>
            absurd ⟨other, member, offers.1⟩ alone
      · rw [clear_cons_iff isMatch]
        constructor
        · rintro (offers | ⟨⟨pathed, -⟩, found, clear⟩)
          · exact absurd offers.1 isMatch
          · exact ⟨.inr found, fun _ => pathed, clear⟩
        · rintro ⟨offers | ⟨found, member, offers⟩, pathed, clear⟩
          · exact absurd offers.1 isMatch
          · exact .inr ⟨⟨pathed ⟨found, member, offers.1⟩, isMatch⟩, ⟨found, member, offers⟩, clear⟩

/-- **The result by the entries**: in every order of them the bytes the match offers, unless an
entry without a path stands before it; and an error when there is none, or it offers nothing. -/
theorem blobByPath_of_perm (response response' : Response)
    (same : response'.entries.Perm response.entries) (path : CText)
    (unique : AtMostOne path (response.entries.map Prod.snd)) :
    ∃ result, tssGetBlobByPath response'.node path = .ok result ∧
      (∀ bytes, result = (0, some bytes) ↔
        (∃ entry ∈ response.entries, Offers path bytes entry.2) ∧
          Clear path (plistDictGetSize response'.node) (response'.entries.map Prod.snd)) ∧
      ((∀ bytes, result ≠ (0, some bytes)) → result.1 < 0 ∧ result.2 = none) := by
  obtain ⟨scanned, ran, finds⟩ := @scanList_reaches path
    ((response'.entries.map Prod.snd).take (plistDictGetSize response'.node)) fun entry member => by
      obtain ⟨binding, bound, rfl⟩ := List.mem_map.mp (List.mem_of_mem_take member)
      exact response'.entry_regular binding bound
  refine ⟨blobResult scanned, ?_, fun bytes => ?_, fun none' => ?_⟩
  · have whole := scanEntries_eq response' path (plistDictGetSize response'.node) 0 (Nat.zero_add _)
    rw [tssGetBlobByPath, whole, List.drop_zero, ran]
    rfl
  · have items := same.map Prod.snd
    rw [finds, reaches_take_iff (unique.perm items)]
    refine and_congr_left fun _ => ⟨?_, ?_⟩
    · rintro ⟨entry, member, offers⟩
      obtain ⟨binding, bound, rfl⟩ := List.mem_map.mp (items.subset member)
      exact ⟨binding, bound, offers⟩
    · rintro ⟨entry, member, offers⟩
      exact ⟨entry.2, items.symm.subset (List.mem_map_of_mem member), offers⟩
  · obtain ⟨bytes, given⟩ | refused := blobResult_cases scanned
    · exact absurd given (none' bytes)
    · rw [refused]
      exact ⟨by decide, rfl⟩

/-! ## Two entries in both orders -/

/-- The children of a dictionary of these bindings. -/
def chainOf : Bindings → GNode
  | [] => .nil
  | (key, item) :: rest =>
      .cons ⟨.strval key.val, key.val.length, .key⟩ .nil (.cons item.1 item.2 (chainOf rest))

theorem chainOf_alternates : ∀ bindings, Alternates (chainOf bindings) bindings
  | [] => .nil
  | _ :: rest => .cons rfl rfl (chainOf_alternates rest)

theorem chainOf_intact : ∀ {bindings : Bindings}, (∀ binding ∈ bindings, binding.2.Intact) →
    Intact (chainOf bindings)
  | [], _ => trivial
  | (_, _) :: _, intact =>
      have item := intact _ List.mem_cons_self
      ⟨rfl, trivial, item.1, item.2,
        chainOf_intact fun binding member => intact binding (.tail _ member)⟩

/-- The response of these entries. -/
def Response.ofEntries (entries : Bindings) (regular : ∀ entry ∈ entries, Regular entry.2) :
    Response where
  node := (plistNewDict, chainOf entries)
  entries := entries
  isDict := rfl
  holds := chainOf_alternates entries
  intact := ⟨trivial, chainOf_intact fun entry member => (regular entry member).1⟩
  regular := fun entry member => (regular entry member).2

def pathOfLlb : CText := cText "LLB"

/-- An entry with a path and a blob of two bytes. -/
def llbEntry : PlistNode :=
  (plistNewDict, chainOf [(cText "Path", leaf (plistNewString pathOfLlb.val)),
    (cText "Blob", leaf (plistNewData [1, 2]))])

/-- An empty dictionary. -/
def emptyEntry : PlistNode := leaf plistNewDict

theorem entries_regular : Regular llbEntry ∧ Regular emptyEntry :=
  ⟨⟨⟨trivial, rfl, trivial, rfl, trivial, rfl, trivial, rfl, trivial, trivial⟩,
    fun _ => ⟨_, chainOf_alternates _⟩⟩, ⟨⟨trivial, trivial⟩, fun _ => ⟨_, .nil⟩⟩⟩

/-- The entry with the path first, or last. -/
def llbFirst : Response :=
  .ofEntries [(cText "a", llbEntry), (cText "b", emptyEntry)] (by
    simpa using entries_regular)

def llbLast : Response :=
  .ofEntries [(cText "b", emptyEntry), (cText "a", llbEntry)] (by
    simpa using entries_regular.symm)

theorem llb_offers : Offers pathOfLlb [1, 2] llbEntry := ⟨⟨rfl, rfl⟩, rfl, by decide⟩

theorem empty_pathless : Pathless emptyEntry := ⟨rfl, rfl⟩

theorem llb_alone : AtMostOne pathOfLlb (llbFirst.entries.map Prod.snd) := by
  have other : ¬ Matches pathOfLlb emptyEntry := fun found => by
    cases empty_pathless.2.symm.trans found.2
  simp [AtMostOne, llbFirst, Response.ofEntries, other]

/-- The entries changed places, so that the one without a path stands behind the match. -/
theorem llb_first_blob : ∃ result, tssGetBlobByPath llbFirst.node pathOfLlb = .ok result ∧
    result = (0, some [1, 2]) := by
  have swapped : llbFirst.entries.Perm llbLast.entries := List.Perm.swap _ _ _
  obtain ⟨result, ran, gives, -⟩ := blobByPath_of_perm llbLast llbFirst swapped pathOfLlb
    (llb_alone.perm (swapped.symm.map Prod.snd))
  refine ⟨result, ran, (gives [1, 2]).mpr ⟨⟨_, .tail _ List.mem_cons_self, llb_offers⟩, ?_⟩⟩
  intro front entry back split found
  cases front with
  | nil => exact ⟨nofun, by decide⟩
  | cons first front =>
    obtain ⟨-, behind⟩ := List.cons.inj split
    have last : entry ∈ [emptyEntry] := by
      change [emptyEntry] = front ++ entry :: back at behind
      rw [behind]
      exact List.mem_append_right front List.mem_cons_self
    rw [List.mem_singleton.mp last] at found
    cases empty_pathless.2.symm.trans found.2

/-- The same two entries, the one without a path in front of the match. -/
theorem pathless_entry_hides_blob : llbLast.entries.Perm llbFirst.entries ∧
    AtMostOne pathOfLlb (llbFirst.entries.map Prod.snd) ∧
    (∃ entry ∈ llbLast.entries, Offers pathOfLlb [1, 2] entry.2) ∧
    tssGetBlobByPath llbFirst.node pathOfLlb = .ok (0, some [1, 2]) ∧
    tssGetBlobByPath llbLast.node pathOfLlb = .ok (-1, none) :=
  ⟨List.Perm.swap _ _ _, llb_alone, ⟨_, .tail _ List.mem_cons_self, llb_offers⟩, rfl, rfl⟩

end Irestore.Restore
