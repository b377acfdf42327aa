/-
# MobileBackup.Moves — what a `DLMessageMoveFiles` does to the files

The moves are made one after the other in the order of the dictionary, and what is at the
place of the new file is removed before it is known whether there is an old one.

* `Flat` — regular files in directories that are there: what `remove` and `rename` do to them.
* `MoveRequest` — a message that lists moves.
* `run_moveFiles` — the loop makes the moves up to the first that fails.
* `moves_performed_iff` — for which lists the files end up where the message says, whatever
  the files are, and what becomes of two files that are to change places.
-/
import Irestore.Library.Moves
import Irestore.MobileBackup.Conversation

namespace Irestore.MobileBackup

open Function Irestore.Library Irestore.Library.Program Irestore.Library.CMemory Irestore.Plist
  Irestore.DeviceLink

set_option autoImplicit false

/-! ## Files and moves -/

/-- Regular files, any there may be, by the entries that paths lead to.  For the paths in
directories that are there, `remove` empties an entry, and `rename` to an empty one succeeds
exactly when there is a file; an `errno` is an `int`. -/
structure Flat {Disk F : Type} [DecidableEq F] (system : System Disk) (place : CText → F)
    (look : Disk → F → Option (List UInt8)) (inside : CText → Prop) : Prop where
  stored : ∀ files, ∃ disk, look disk = files
  removed : ∀ disk path, inside path →
    look (system.remove disk path).2 = update (look disk) (place path) none
  missing : ∀ disk old new, inside old → inside new → look disk (place old) = none →
    (∃ errno : Errno, errno.val < 2 ^ 31 ∧ (system.rename disk old new).1 = some errno) ∧
      look (system.rename disk old new).2 = look disk
  renamed : ∀ disk old new contents, inside old → inside new →
    look disk (place old) = some contents → look disk (place new) = none →
      (system.rename disk old new).1 = none ∧
        look (system.rename disk old new).2 =
          update (update (look disk) (place old) none) (place new) (some contents)

/-- The text of a string node. -/
def stringOf (node : PlistNode) : CText :=
  match node.1.value with
  | .strval text => textOf text
  | _ => cText ""

/-- A message whose second item is a dictionary of old and new names. -/
structure MoveRequest where
  message : PlistNode
  moves : PlistNode
  bindings : Bindings
  item : plistArrayGetItem message 1 = some moves
  isDict : moves.1.type = .dict
  holds : Alternates moves.2 bindings
  intact : moves.Intact
  strings : ∀ binding ∈ bindings, binding.2.1.type = .string
  small : moves.2.length < 2 ^ 32

namespace MoveRequest

variable {Disk F : Type} (system : System Disk) (place : CText → F)
  (look : Disk → F → Option (List UInt8)) (request : MoveRequest)

/-- The paths of the moves. -/
def paths : List (CText × CText) :=
  request.bindings.map fun binding =>
    (system.buildPath binding.1, system.buildPath (stringOf binding.2))

/-- From where to where files are to go. -/
def entries : List (F × F) := (request.paths system).map (Prod.map place place)

/-- The request is answered with the status 0, and the files become these. -/
def MovesTo (host : Host Disk) (files : F → Option (List UInt8)) : Prop :=
  ∃ host' plist, (handleMoveFiles system request.message).run host = (.ok (), host') ∧
    host'.traffic = host.traffic ++ [.response plist] ∧ UintAt plist 1 0 ∧
      look host'.disk = files

variable [DecidableEq F]

/-- The request is answered with the status 0, and every file is where it was to go. -/
def Performs (host : Host Disk) : Prop :=
  ∃ files, request.MovesTo system look host files ∧
    Moved (request.entries system place) (look host.disk) files

end MoveRequest

/-! ## Names -/

theorem textOf_val (text : CText) : textOf text.val = text := by
  refine Subtype.ext ?_
  exact cString_of_nul_free text.property

theorem stringOf_eq {node : PlistNode} (intact : node.Intact) (isString : node.1.type = .string) :
    ∃ text, plistGetStringVal (some node) = .ok text ∧ textOf text = stringOf node := by
  obtain ⟨text, value, read⟩ := plistGetStringVal_intact intact isString
  exact ⟨text, read, by rw [stringOf, value]⟩

/-! ## Status codes -/

/-- No error is reported as 0. -/
theorem ofInt_errno_ne_zero {errno : Errno} (small : errno.val < 2 ^ 31) :
    UInt64.ofInt (errnoToDeviceError errno.val) ≠ 0 := by
  obtain ⟨number, positive⟩ := errno
  rw [errnoToDeviceError]
  split
  · decide
  · split
    · decide
    · intro same
      have zero : (UInt64.ofInt (-(number : Int))).toNat = 0 := congrArg UInt64.toNat same
      rw [UInt64.ofInt, UInt64.toNat_ofNat'] at zero
      have bound : number < 2 ^ 31 := small
      omega

theorem statusResponse_eq (statusCode : Int) (status1 : Option CText) :
    ∃ plist, statusResponse statusCode status1 (some (leaf plistNewDict)) = .ok plist ∧
      ∀ value, UintAt plist 1 value ↔ value = UInt64.ofInt statusCode := by
  refine ⟨_, rfl, fun value => ?_⟩
  rw [UintAt, (foldl_newArray _).2]
  constructor
  · rintro ⟨node, item, -, held⟩
    cases item
    exact (PlistValue.word.inj held).symm
  · rintro rfl
    exact ⟨_, rfl, rfl, rfl⟩

/-! ## The loop -/

section Loop

variable {Disk F : Type} [DecidableEq F] {system : System Disk} {place : CText → F}
  {look : Disk → F → Option (List UInt8)} {inside : CText → Prop}

/-- What is left behind moves: the failure they ended with, and the files. -/
structure MadeMoves (look : Disk → F → Option (List UInt8))
    (result : Bool × (F → Option (List UInt8))) (host : Host Disk) (failed : Option Errno)
    (host' : Host Disk) : Prop where
  silent : host'.traffic = host.traffic
  small : ∀ errno ∈ failed, errno.val < 2 ^ 31
  success : failed = none ↔ result.1 = true
  files : look host'.disk = result.2

variable (flat : Flat system place look inside)

include flat

/-- One move, over the files there are. -/
theorem run_moveFile {key str : CText} (old_inside : inside (system.buildPath key))
    (new_inside : inside (system.buildPath str)) (host : Host Disk) :
    ∃ failed host', (moveFile system key str).run host = (.ok failed, host') ∧
      MadeMoves look (move (place (system.buildPath key)) (place (system.buildPath str))
        (look host.disk)) host failed host' := by
  generalize source : system.buildPath key = old at old_inside
  generalize target : system.buildPath str = new at new_inside
  generalize cleared : (system.remove host.disk new).2 = disk
  have files : look disk = update (look host.disk) (place new) none := by
    rw [← cleared, flat.removed _ _ new_inside]
  refine ⟨(system.rename disk old new).1, { host with disk := (system.rename disk old new).2 },
    ?_, ?_⟩
  · rw [moveFile, source, target, ← cleared]
    rfl
  · rw [move]
    cases there : update (look host.disk) (place new) none (place old) with
    | none =>
      obtain ⟨⟨errno, small, failed⟩, same⟩ :=
        flat.missing disk old new old_inside new_inside (files ▸ there)
      rw [failed]
      exact ⟨rfl, fun errno' member => Option.some.inj member ▸ small,
        iff_of_false (Option.some_ne_none _) Bool.false_ne_true, same.trans files⟩
    | some contents =>
      have empty : look disk (place new) = none := by rw [files, update_self]
      obtain ⟨fine, moved⟩ :=
        flat.renamed disk old new contents old_inside new_inside (files ▸ there) empty
      rw [fine]
      exact ⟨rfl, fun errno' member => (Option.not_mem_none errno' member).elim,
        iff_of_true rfl rfl, by rw [moved, files]⟩

/-- The entry of the dictionary for a move. -/
theorem run_moveEntry (request : MoveRequest)
    (paths_inside : ∀ m ∈ request.paths system, inside m.1 ∧ inside m.2) {key : CText}
    {item : PlistNode} (member : (key, item) ∈ request.bindings) (host : Host Disk) :
    ∃ failed host', (moveEntry system (some key.val) (some item)).run host = (.ok failed, host') ∧
      MadeMoves look (move (place (system.buildPath key))
        (place (system.buildPath (stringOf item))) (look host.disk)) host failed host' := by
  have isString : item.1.type = .string := request.strings _ member
  obtain ⟨text, read, named⟩ := stringOf_eq (request.intact.2.mem (request.holds.item_mem _ member))
    isString
  obtain ⟨old_inside, new_inside⟩ := paths_inside _ (List.mem_map_of_mem member)
  obtain ⟨failed, host', ran, made⟩ := run_moveFile flat old_inside new_inside host
  refine ⟨failed, host', ?_, made⟩
  have named' : textOf text = stringOf item := named
  have read' : plistGetStringVal (some item) = .ok text := read
  have isString' : plistGetNodeType (some item) = .string := isString
  rw [← ran, moveEntry, if_pos isString', read', run_lift_ok_bind, named', textOf_val]

/-- **The loop makes the moves**, from the iterator on, up to the first that fails. -/
theorem run_moveFiles (request : MoveRequest)
    (paths_inside : ∀ m ∈ request.paths system, inside m.1 ∧ inside m.2) :
    ∀ rounds i (host : Host Disk),
    i ≤ request.bindings.length → request.bindings.length - i < rounds →
      ∃ failed host', (moveFiles system (some request.moves) rounds (2 * i)).run host =
          (.ok failed, host') ∧
        MadeMoves look (moveAll ((request.entries system place).drop i) (look host.disk)) host
          failed host'
  | 0, i, host => fun _ few => absurd few (Nat.not_lt_zero _)
  | rounds + 1, i, host => by
      intro inside few
      have count := request.holds.length
      have small := request.small
      have size : plistDictGetSize request.moves = request.bindings.length := by
        rw [plistDictGetSize, if_pos request.isDict]
        omega
      rw [moveFiles]
      rcases Nat.lt_or_ge i request.bindings.length with more | done
      · obtain ⟨key, item, bound, next⟩ := plistDictNextItem_eq request.isDict request.holds
          request.intact.2 (show i < plistDictGetSize request.moves by omega)
        have path : (request.entries system place).drop i =
            (place (system.buildPath key), place (system.buildPath (stringOf item))) ::
              (request.entries system place).drop (i + 1) := by
          rw [List.drop_eq_getElem?_toList_append, MoveRequest.entries, MoveRequest.paths,
            List.getElem?_map, List.getElem?_map, bound]
          rfl
        obtain ⟨failed, host', ran, made⟩ :=
          run_moveEntry flat request paths_inside (List.mem_of_getElem? bound) host
        rw [nextItem, next, run_lift_ok_bind, run_bind ran, path, moveAll]
        cases failed with
        | some errno =>
          have broke := mt made.success.mpr (Option.some_ne_none errno)
          exact ⟨some errno, host', rfl, by rw [if_neg broke]; exact made⟩
        | none =>
          obtain ⟨failed, host'', ran', made'⟩ :=
            run_moveFiles request paths_inside rounds (i + 1) host' more (by omega)
          rw [made.files] at made'
          rw [if_pos (made.success.mp rfl)]
          exact ⟨failed, host'', ran', made'.silent.trans made.silent, made'.small, made'.success,
            made'.files⟩
      · have empty : (request.entries system place).drop i = [] :=
          List.drop_eq_nil_of_le (by
            rw [MoveRequest.entries, MoveRequest.paths, List.length_map, List.length_map]
            exact done)
        have next : plistDictNextItem request.moves (2 * i) = .ok (none, none, 2 * i) := by
          rw [plistDictNextItem, if_neg (by omega)]
          rfl
        rw [empty, nextItem, next]
        exact ⟨none, host, rfl, rfl, fun errno member => (Option.not_mem_none errno member).elim,
          iff_of_true rfl rfl, rfl⟩

/-- The branch of the loop: the moves, and their status. -/
theorem run_handleMoveFiles (request : MoveRequest)
    (paths_inside : ∀ m ∈ request.paths system, inside m.1 ∧ inside m.2) (host : Host Disk) :
    ∃ host' plist, (handleMoveFiles system request.message).run host = (.ok (), host') ∧
      host'.traffic = host.traffic ++ [.response plist] ∧
        (UintAt plist 1 0 ↔
          (moveAll (request.entries system place) (look host.disk)).1 = true) ∧
          look host'.disk = (moveAll (request.entries system place) (look host.disk)).2 := by
  have rounds : roundsOf (some request.moves) = request.moves.2.length + 1 := rfl
  obtain ⟨failed, host', ran, made⟩ := run_moveFiles flat request paths_inside
    (roundsOf (some request.moves)) 0 host (Nat.zero_le _)
    (by rw [rounds, request.holds.length]; omega)
  obtain ⟨plist, built, code⟩ := statusResponse_eq (errcodeOf failed) (errdescOf system failed)
  refine ⟨{ host' with traffic := host'.traffic ++ [.response plist] }, plist, ?_, ?_, ?_,
    made.files⟩
  · rw [handleMoveFiles, request.item, run_bind ran, mobilebackup2SendStatusResponse, built]
    rfl
  · dsimp only
    rw [made.silent]
  · refine (code 0).trans (Iff.trans ?_ made.success)
    cases failed with
    | none => exact iff_of_true rfl rfl
    | some errno =>
      exact iff_of_false (Ne.symm (ofInt_errno_ne_zero (made.small errno rfl)))
        (Option.some_ne_none errno)

/-- The files that the moves leave, when all succeed. -/
theorem movesTo_iff (request : MoveRequest)
    (paths_inside : ∀ m ∈ request.paths system, inside m.1 ∧ inside m.2) (host : Host Disk)
    (files : F → Option (List UInt8)) :
    request.MovesTo system look host files ↔
      moveAll (request.entries system place) (look host.disk) = (true, files) := by
  obtain ⟨host', plist, ran, traffic, code, left⟩ :=
    run_handleMoveFiles flat request paths_inside host
  constructor
  · rintro ⟨host'', plist', ran', traffic', code', rfl⟩
    cases ran.symm.trans ran'
    have same := List.append_cancel_left (traffic.symm.trans traffic')
    cases same
    exact Prod.ext (code.mp code') left.symm
  · intro all
    rw [all] at code left
    exact ⟨host', plist, ran, traffic, code.mpr rfl, left⟩

theorem performs_iff (request : MoveRequest)
    (paths_inside : ∀ m ∈ request.paths system, inside m.1 ∧ inside m.2) (host : Host Disk) :
    request.Performs system place look host ↔
      Performed (request.entries system place) (look host.disk) := by
  constructor
  · rintro ⟨files, left, moved⟩
    have all := (movesTo_iff flat request paths_inside host files).mp left
    exact ⟨congrArg Prod.fst all, by rwa [congrArg Prod.snd all]⟩
  · rintro ⟨success, moved⟩
    exact ⟨_, (movesTo_iff flat request paths_inside host _).mpr (Prod.ext success rfl), moved⟩

end Loop

/-- **A list of moves is carried out over any files it finds, exactly when no move is onto
itself, onto a later one's old place, or onto another's new place**; of two files that are to
change places the first stays, and the second is lost. -/
theorem moves_performed_iff {Disk F : Type} [DecidableEq F] {system : System Disk}
    {place : CText → F} {look : Disk → F → Option (List UInt8)} {inside : CText → Prop}
    (flat : Flat system place look inside) (request : MoveRequest)
    (paths_inside : ∀ m ∈ request.paths system, inside m.1 ∧ inside m.2)
    (distinct : ((request.entries system place).map Prod.fst).Nodup) :
    ((∀ host : Host Disk, Filled (request.entries system place) (look host.disk) →
      request.Performs system place look host) ↔ Harmless (request.entries system place)) ∧
    ∀ a b, a ≠ b → request.entries system place = [(a, b), (b, a)] →
      ∀ host : Host Disk, look host.disk a ≠ none →
        request.MovesTo system look host (update (look host.disk) b none) := by
  have : Nontrivial (List UInt8) := ⟨[], [0], by decide⟩
  constructor
  · rw [← @moveAll_iff _ (List UInt8) _ _ _ distinct]
    constructor
    · intro performs files filled
      obtain ⟨disk, stored⟩ := flat.stored files
      have performed := performs ⟨.whole [], disk, [], 0, calm⟩ (by dsimp only; rwa [stored])
      rw [performs_iff flat request paths_inside] at performed
      dsimp only at performed
      rwa [stored] at performed
    · exact fun performed host filled =>
        (performs_iff flat request paths_inside host).mpr (performed _ filled)
  · intro a b differ swapped host there
    obtain ⟨contents, held⟩ := Option.ne_none_iff_exists'.mp there
    refine (movesTo_iff flat request paths_inside host _).mpr ?_
    rw [swapped]
    exact moveAll_swap differ held

theorem filesOnly_flat (receivePlist : Transport → Option PlistNode × Transport) :
    Flat (filesOnly receivePlist) id (fun disk => disk) fun _ => True where
  stored files := ⟨files, rfl⟩
  removed _ _ _ := rfl
  missing disk old new _ _ absent := by
    refine ⟨⟨⟨ENOENT, by decide⟩, by decide, ?_⟩, ?_⟩ <;>
      · simp only [filesOnly, id_eq] at absent ⊢
        rw [absent]
  renamed disk old new contents _ _ there _ := by
    simp only [filesOnly, id_eq] at there ⊢
    rw [there]
    exact ⟨rfl, rfl⟩

theorem nameNode_intact (name : String) : (nameNode name).Intact := ⟨rfl, trivial⟩

/-- Two files that change places. -/
def swapMoves : PlistNode :=
  plistDictInsertItem (plistDictInsertItem (leaf plistNewDict) (cText "a") (nameNode "b"))
    (cText "b") (nameNode "a")

def swap : MoveRequest where
  message := arrayOf [nameNode "DLMessageMoveFiles", swapMoves]
  moves := swapMoves
  bindings := [(cText "a", nameNode "b"), (cText "b", nameNode "a")]
  item := rfl
  isDict := rfl
  holds := by
    have first := @insertItem_alternates (leaf plistNewDict) [] rfl .nil (cText "a") (nameNode "b")
    exact (insertItem_alternates first.1 first.2 (cText "b") (nameNode "a")).2
  intact := by
    have empty : PlistNode.Intact (leaf plistNewDict) := ⟨trivial, trivial⟩
    exact (empty.insertItem (nameNode_intact "b") _).insertItem (nameNode_intact "a") _
  strings := by
    intro binding member
    rcases List.mem_cons.mp member with rfl | member
    · rfl
    · cases List.mem_singleton.mp member
      rfl
  small := by decide

/-- The files before. -/
def oneAndTwo : CText → Option (List UInt8) :=
  update (update (fun _ => none) (cText "a") (some [1])) (cText "b") (some [2])

/-- The first file is where it was, and the second is gone. -/
theorem swap_lost :
    (¬ ∀ host, Filled (swap.entries (filesOnly asksOnce) id) host.disk →
      swap.Performs (filesOnly asksOnce) id (fun disk => disk) host) ∧
    oneAndTwo (cText "a") = some [1] ∧ oneAndTwo (cText "b") = some [2] ∧
    ∃ files, swap.MovesTo (filesOnly asksOnce) (fun disk => disk)
        ⟨.whole [], oneAndTwo, [], 0, calm⟩ files ∧
      files (cText "a") = some [1] ∧ files (cText "b") = none := by
  obtain ⟨performed, swapped⟩ := moves_performed_iff (filesOnly_flat asksOnce) swap
    (fun _ _ => ⟨trivial, trivial⟩) (by decide)
  refine ⟨fun performs => ?_, rfl, rfl, _, swapped (cText "a") (cText "b") (by decide) rfl
    ⟨.whole [], oneAndTwo, [], 0, calm⟩ (by decide), rfl, rfl⟩
  have harmless := performed.mp performs
  exact (List.pairwise_cons.mp harmless.ordered).1 (cText "b", cText "a") List.mem_cons_self rfl

end Irestore.MobileBackup
