/-
# Plist.AccessPath — walking down a tree by indices and keys

`plist_access_pathv` takes one argument of its list for each container it goes down into: an
index below an array, a key below a dictionary.  On another node it takes none and stays.

* `foldPath` — the two getters, one behind the other over the whole path.
* `PathFits` — every step has the kind of the container it meets.
* `accessPath_eq_iff` — the walk is that fold exactly when no scalar is met before the path ends.
* `scalar_for_missing_child` — a key below a string gives the string.
-/
import Irestore.Plist.Access

namespace Irestore.Plist

open Irestore.Library Irestore.Library.CMemory

set_option autoImplicit false

/-! ## The walk -/

/-- A variadic argument. -/
inductive PathStep where
  | index (n : UInt32)
  | key (key : CText)
  deriving DecidableEq

/-- `va_arg(v, uint32_t)`; an argument of the other kind, or none, is not what is read. -/
def vaIndex : List PathStep → Checked (UInt32 × List PathStep)
  | .index n :: v => .ok (n, v)
  | _ => .error .wildPointer

/-- `va_arg(v, const char*)`. -/
def vaKey : List PathStep → Checked (CText × List PathStep)
  | .key key :: v => .ok (key, v)
  | _ => .error .wildPointer

/-- The loop of `plist_access_pathv`, for so many rounds and the arguments not yet taken. -/
def plistAccessPathv : Option PlistNode → Nat → List PathStep → Checked (Option PlistNode)
  | none, _, _ => .ok none
  | some node, 0, _ => .ok (some node)
  | some node, rounds + 1, v =>
      if node.1.type = .array then do
        let (n, v) ← vaIndex v
        plistAccessPathv (plistArrayGetItem node n.toNat) rounds v
      else if node.1.type = .dict then do
        let (key, v) ← vaKey v
        let current ← plistDictGetItem node key
        plistAccessPathv current rounds v
      else plistAccessPathv (some node) rounds v

/-- `plist_access_path`, of a path. -/
def plistAccessPath (plist : Option PlistNode) (path : List PathStep) :
    Checked (Option PlistNode) :=
  plistAccessPathv plist path.length path

/-! ## The fold -/

/-- One getter; each of them gives NULL for a node that is not its container. -/
def getItem (node : PlistNode) : PathStep → Checked (Option PlistNode)
  | .index n => .ok (plistArrayGetItem node n.toNat)
  | .key key => plistDictGetItem node key

/-- The getters over the whole path, as far as there is a node. -/
def foldPath : Option PlistNode → List PathStep → Checked (Option PlistNode)
  | none, _ => .ok none
  | some node, [] => .ok (some node)
  | some node, step :: path => do
      let current ← getItem node step
      foldPath current path

/-- The step has the kind of the node. -/
def PathStep.Fits (step : PathStep) (node : PlistNode) : Prop :=
  match step with
  | .index _ => node.1.type ≠ .dict
  | .key _ => node.1.type ≠ .array

/-- Every step of the path has the kind of the container it meets. -/
def PathFits : Option PlistNode → List PathStep → Prop
  | none, _ | some _, [] => True
  | some node, step :: path =>
      step.Fits node ∧ ∀ current, getItem node step = .ok current → PathFits current path

/-- The path goes on below a node that is neither an array nor a dictionary. -/
def PastScalar : Option PlistNode → List PathStep → Prop
  | none, _ | some _, [] => False
  | some node, step :: path =>
      (node.1.type ≠ .array ∧ node.1.type ≠ .dict) ∨
        ∃ current, getItem node step = .ok current ∧ PastScalar current path

/-! ## The walk and the fold -/

/-- On a scalar the rounds that are left pass without a step. -/
theorem accessPathv_scalar {node : PlistNode} (scalar : node.1.type ≠ .array ∧ node.1.type ≠ .dict)
    (v : List PathStep) : ∀ rounds, plistAccessPathv (some node) rounds v = .ok (some node)
  | 0 => rfl
  | rounds + 1 => by
      rw [plistAccessPathv, if_neg scalar.1, if_neg scalar.2]
      exact accessPathv_scalar scalar v rounds

/-- Neither getter finds anything below a scalar. -/
theorem getItem_scalar {node : PlistNode} (scalar : node.1.type ≠ .array ∧ node.1.type ≠ .dict)
    (step : PathStep) : getItem node step = .ok none := by
  cases step with
  | index n => exact congrArg Except.ok (if_neg scalar.1)
  | key key => exact if_neg scalar.2

/-- One round below a container takes its argument, and is the getter of its kind. -/
theorem accessPathv_step {node : PlistNode} {step : PathStep} (fits : step.Fits node)
    (container : ¬ (node.1.type ≠ .array ∧ node.1.type ≠ .dict)) (rounds : Nat)
    (v : List PathStep) :
    plistAccessPathv (some node) (rounds + 1) (step :: v) =
      getItem node step >>= fun current => plistAccessPathv current rounds v := by
  rw [plistAccessPathv]
  cases step with
  | index n =>
    have isArray : node.1.type = .array := by
      by_contra other
      exact container ⟨other, fits⟩
    rw [if_pos isArray]
    rfl
  | key key =>
    have isDict : node.1.type = .dict := by
      by_contra other
      exact container ⟨fits, other⟩
    rw [if_neg fits, if_pos isDict]
    rfl

/-- **The walk is the fold** over a path that fits the tree, exactly when it meets no scalar
before its last step. -/
theorem accessPath_eq_iff (plist : Option PlistNode) (path : List PathStep)
    (fits : PathFits plist path) :
    plistAccessPath plist path = foldPath plist path ↔ ¬ PastScalar plist path := by
  rw [plistAccessPath]
  induction path generalizing plist with
  | nil =>
    cases plist with
    | none => exact iff_of_true rfl id
    | some node => exact iff_of_true rfl id
  | cons step path ih =>
    cases plist with
    | none => exact iff_of_true rfl id
    | some node =>
      rw [List.length_cons, foldPath]
      by_cases scalar : node.1.type ≠ .array ∧ node.1.type ≠ .dict
      · refine iff_of_false ?_ (not_not_intro (.inl scalar))
        rw [accessPathv_scalar scalar, getItem_scalar scalar, ok_bind]
        cases path <;> nofun
      · rw [accessPathv_step fits.1 scalar]
        cases found : getItem node step with
        | error fault =>
          refine iff_of_true rfl ?_
          rintro (isScalar | ⟨current, other, -⟩)
          · exact scalar isScalar
          · cases found.symm.trans other
        | ok current =>
          rw [ok_bind, ok_bind, ih current (fits.2 current found)]
          refine not_congr ⟨fun past => .inr ⟨current, found, past⟩, ?_⟩
          rintro (isScalar | ⟨current', other, past⟩)
          · exact absurd isScalar scalar
          · cases found.symm.trans other
            exact past

/-! ## A tree with one string -/

/-- `{"name": "iPhone"}`. -/
def nameTree : PlistNode :=
  (plistNewDict, .cons (plistNewKey (cText "name").val) .nil
    (.cons (plistNewString (cText "iPhone").val) .nil .nil))

def nameNode : PlistNode := leaf (plistNewString (cText "iPhone").val)

theorem name_found : getItem nameTree (.key (cText "name")) = .ok (some nameNode) := rfl

theorem pathFits_end (plist : Option PlistNode) : PathFits plist [] := by
  cases plist <;> trivial

/-- A path that ends in the string. -/
theorem path_to_name : plistAccessPath (some nameTree) [.key (cText "name")] =
    foldPath (some nameTree) [.key (cText "name")] := by
  refine (accessPath_eq_iff (some nameTree) [.key (cText "name")]
    ⟨nofun, fun current _ => pathFits_end current⟩).mpr ?_
  rintro (scalar | ⟨current, found, past⟩)
  · exact scalar.2 rfl
  · cases name_found.symm.trans found
    exact past

/-- A path that goes on below the string, and ends in it. -/
theorem scalar_for_missing_child :
    PathFits (some nameTree) [.key (cText "name"), .key (cText "first")] ∧
      foldPath (some nameTree) [.key (cText "name"), .key (cText "first")] = .ok none ∧
      plistAccessPath (some nameTree) [.key (cText "name"), .key (cText "first")] =
        .ok (some nameNode) := by
  refine ⟨⟨nofun, fun current found => ?_⟩, rfl, rfl⟩
  cases name_found.symm.trans found
  exact ⟨nofun, fun current _ => pathFits_end current⟩

end Irestore.Plist
