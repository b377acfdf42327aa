/-
# PlistCpp.Mirror — the wrappers mirror the plist trees

`Mirrors` is the agreement of wrappers and plist nodes, on every level: the items of an
array are the wrappers of the children in order, the bindings of a dictionary those of
its keys and values, which alternate.  `Agree` adds the ledger of the addresses: each one
given out is live once or was freed once.

* `Mirrors.amend` — a change of one structure that keeps its own mirror.
* `Mirrors.find` — the wrapper a pointer names, and the tree at its node.
* `Mirrors.copied` — the wrappers made for a copy.
-/
import Irestore.PlistCpp.Structures
import Mathlib.Data.Multiset.Range

namespace Irestore.PlistCpp

open Irestore.Library Irestore.Library.CMemory

set_option autoImplicit false

variable {V : Type}

/-- The addresses of the nodes of a chain, and the nodes of its wrappers. -/
def addresses (chain : Siblings (PNode V)) : List Nat := chain.labels.map PNode.address

def nodesOf (wrappers : Siblings Wrapper) : List Nat := wrappers.labels.map Wrapper.node

/-- The wrappers of a structure of the given kind mirror the children of its node. -/
inductive Mirrors : Kind → Siblings Wrapper → Siblings (PNode V) → Prop
  | nil {kind : Kind} : Mirrors kind .nil .nil
  | item {wrapper : Wrapper} {node : PNode V} {held rest : Siblings Wrapper}
      {below next : Siblings (PNode V)} (same : wrapper.node = node.address)
      (typed : node.content.kind? = some wrapper.kind) (inner : Mirrors wrapper.kind held below)
      (later : Mirrors .array rest next) :
      Mirrors .array (.cons wrapper held rest) (.cons node below next)
  | binding {keyNode : PNode V} {text : CText} {wrapper : Wrapper} {node : PNode V}
      {held rest : Siblings Wrapper} {below next : Siblings (PNode V)}
      (key : keyNode.content = .key text) (named : wrapper.key = text.val)
      (unbound : wrapper.key ∉ keysOf rest)
      (same : wrapper.node = node.address) (typed : node.content.kind? = some wrapper.kind)
      (inner : Mirrors wrapper.kind held below) (later : Mirrors .dict rest next) :
      Mirrors .dict (.cons wrapper held rest) (.cons keyNode .nil (.cons node below next))

/-- The objects mirror the plist trees, and every address given out is live once or was
freed once. -/
structure Agree (w : World V) : Prop where
  mirrors : Mirrors .array w.objects w.heap
  ledger : (addresses w.heap : Multiset Nat) + w.freed = Multiset.range w.next

theorem agree_start : Agree (World.start : World V) := ⟨.nil, rfl⟩

/-! ## Chains -/

/-- The text of a key goes through a `std::string` and back. -/
theorem cStr_val (text : CText) : cStr text.val = text :=
  Subtype.ext (cString_of_nul_free text.property)

@[simp] theorem addresses_nil : addresses (.nil : Siblings (PNode V)) = [] := rfl

@[simp] theorem addresses_cons (node : PNode V) (below next : Siblings (PNode V)) :
    addresses (.cons node below next) = node.address :: (addresses below ++ addresses next) := by
  simp [addresses, Siblings.labels]

@[simp] theorem nodesOf_nil : nodesOf .nil = [] := rfl

@[simp] theorem nodesOf_cons (wrapper : Wrapper) (held rest : Siblings Wrapper) :
    nodesOf (.cons wrapper held rest) = wrapper.node :: (nodesOf held ++ nodesOf rest) := by
  simp [nodesOf, Siblings.labels]

@[simp] theorem keysOf_cons (wrapper : Wrapper) (held rest : Siblings Wrapper) :
    keysOf (.cons wrapper held rest) = wrapper.key :: keysOf rest := rfl

@[simp] theorem keysOf_append (front back : Siblings Wrapper) :
    keysOf (front.append back) = keysOf front ++ keysOf back := by
  simp [keysOf]

theorem keysOf_amend (p : Wrapper → Bool) (f : Siblings Wrapper → Siblings Wrapper) :
    ∀ wrappers : Siblings Wrapper, keysOf (wrappers.amend p f) = keysOf wrappers
  | .nil => rfl
  | .cons wrapper held rest => by
      rw [Siblings.amend, keysOf_cons, keysOf_cons, keysOf_amend p f rest]

theorem PNode.at_of_typed {target : Nat} {kind : Kind} {node : PNode V}
    (passes : node.typed target kind = true) : node.at target = true := by
  simp only [PNode.typed, Bool.decide_and, Bool.and_eq_true] at passes
  exact passes.1

theorem Wrapper.at_of_typed {target : Nat} {kind : Kind} {wrapper : Wrapper}
    (passes : wrapper.typed target kind = true) : wrapper.at target = true := by
  simp only [Wrapper.typed, Bool.decide_and, Bool.and_eq_true] at passes
  exact passes.1

namespace Mirrors

variable {kind : Kind} {wrappers : Siblings Wrapper} {chain : Siblings (PNode V)}

/-- The wrappers wrap nodes of the chain, each its own. -/
theorem nodes_sublist (mirrors : Mirrors kind wrappers chain) :
    (nodesOf wrappers).Sublist (addresses chain) := by
  induction mirrors with
  | nil => exact .refl _
  | item same typed inner later ihInner ihLater =>
    rw [nodesOf_cons, addresses_cons, same]
    exact (ihInner.append ihLater).cons_cons _
  | binding key named unbound same typed inner later ihInner ihLater =>
    rw [nodesOf_cons, addresses_cons, addresses_cons, addresses_nil, List.nil_append, same]
    exact ((ihInner.append ihLater).cons_cons _).cons _

theorem nodes_subset (mirrors : Mirrors kind wrappers chain) :
    nodesOf wrappers ⊆ addresses chain := mirrors.nodes_sublist.subset

/-- The children of a dictionary alternate: two for each binding. -/
theorem length_dict (mirrors : Mirrors kind wrappers chain) (isDict : kind = .dict) :
    chain.length = 2 * wrappers.length := by
  induction mirrors with
  | nil => rfl
  | item => cases isDict
  | binding key named unbound same typed inner later ihInner ihLater =>
    rw [Siblings.length, Siblings.length, Siblings.length, ihLater rfl]
    omega

/-- The items of an array are the wrappers of its children, in order. -/
theorem roots_eq (mirrors : Mirrors kind wrappers chain) (isArray : kind = .array) :
    (chain.toList.map fun tree => tree.1.address) = wrappers.toList.map fun tree => tree.1.node := by
  induction mirrors with
  | nil => rfl
  | item same typed inner later ihInner ihLater =>
    rw [Siblings.toList, Siblings.toList, List.map_cons, List.map_cons, ihLater rfl, same]
  | binding => cases isArray

theorem length_eq (mirrors : Mirrors kind wrappers chain) (isArray : kind = .array) :
    chain.length = wrappers.length := by
  have lengths := congrArg List.length (mirrors.roots_eq isArray)
  rwa [List.length_map, List.length_map, Siblings.length_toList, Siblings.length_toList] at lengths

theorem mem_keysOf (mirrors : Mirrors kind wrappers chain) (isDict : kind = .dict)
    {tree : Tree (PNode V)} {text : CText} (root : tree ∈ chain.toList)
    (key : tree.1.content = .key text) : text.val ∈ keysOf wrappers := by
  induction mirrors with
  | nil => cases root
  | item => cases isDict
  | binding isKey named unbound same typed inner later ihInner ihLater =>
    rw [Siblings.toList, Siblings.toList, List.mem_cons, List.mem_cons] at root
    rw [keysOf_cons, List.mem_cons]
    rcases root with rfl | rfl | inRest
    · exact .inl ((congrArg Subtype.val (Content.key.inj (key.symm.trans isKey))).trans named.symm)
    · rw [key] at typed
      cases typed
    · exact .inr (ihLater rfl inRest)

/-- A `_map` that mirrors a dictionary has no key with a NUL. -/
theorem nul_free_of_mem (mirrors : Mirrors kind wrappers chain) (isDict : kind = .dict)
    {key : List UInt8} (member : key ∈ keysOf wrappers) : 0 ∉ key := by
  induction mirrors with
  | nil => cases member
  | item => cases isDict
  | @binding keyNode text wrapper node held rest below next isKey named unbound same typed inner
      later ihInner ihLater =>
    rw [keysOf_cons, List.mem_cons] at member
    rcases member with rfl | inRest
    · rw [named]
      exact text.property
    · exact ihLater rfl inRest

/-- A dictionary has one pair for a key. -/
theorem key_unique (mirrors : Mirrors kind wrappers chain) (isDict : kind = .dict)
    {one other : Tree (PNode V)} {text : CText} (root : one ∈ chain.toList)
    (root' : other ∈ chain.toList) (key : one.1.content = .key text)
    (key' : other.1.content = .key text) : one = other := by
  induction mirrors with
  | nil => cases root
  | item => cases isDict
  | @binding keyNode text' wrapper node held rest below next isKey named unbound same typed inner
      later ihInner ihLater =>
    have notValue : ∀ {tree : Tree (PNode V)}, tree.1.content = .key text →
        tree ≠ (node, below) := by
      rintro tree isText rfl
      rw [isText] at typed
      cases typed
    have elsewhere : ∀ {tree : Tree (PNode V)}, tree ∈ next.toList → tree.1.content = .key text →
        keyNode.content ≠ .key text := by
      intro tree inRest isText equal
      rw [named, Content.key.inj (isKey.symm.trans equal)] at unbound
      exact unbound (later.mem_keysOf rfl inRest isText)
    rw [Siblings.toList, Siblings.toList, List.mem_cons, List.mem_cons] at root root'
    rcases root with rfl | isValue | inRest
    · rcases root' with rfl | isValue' | inRest'
      · rfl
      · exact absurd isValue' (notValue key')
      · exact absurd key (elsewhere inRest' key')
    · exact absurd isValue (notValue key)
    · rcases root' with rfl | isValue' | inRest'
      · exact absurd key' (elsewhere inRest key)
      · exact absurd isValue' (notValue key')
      · exact ihLater rfl inRest inRest'

/-- Below the node of a structure is what its wrappers mirror. -/
theorem held_of_find {address : Nat} (mirrors : Mirrors kind wrappers chain)
    {tree : Tree (PNode V)} (found : chain.find (PNode.at address) = some tree) {structure' : Kind}
    (typed : tree.1.content.kind? = some structure') :
    ∃ held, Mirrors structure' held tree.2 := by
  have step : ∀ {wrapper : Wrapper} {node : PNode V} {held : Siblings Wrapper}
      {below next : Siblings (PNode V)}, node.content.kind? = some wrapper.kind →
      Mirrors wrapper.kind held below →
      (below.find (PNode.at address) = some tree → ∃ held, Mirrors structure' held tree.2) →
      (next.find (PNode.at address) = some tree → ∃ held, Mirrors structure' held tree.2) →
      (Siblings.cons node below next).find (PNode.at address) = some tree →
      ∃ held, Mirrors structure' held tree.2 := by
    intro wrapper node held below next isKind inner inBelow inNext found
    rw [Siblings.find] at found
    split at found
    · cases found
      cases typed.symm.trans isKind
      exact ⟨held, inner⟩
    · rcases Option.or_eq_some_iff.mp found with foundBelow | ⟨-, foundNext⟩
      · exact inBelow foundBelow
      · exact inNext foundNext
  induction mirrors with
  | nil => cases found
  | item same isKind inner later ihInner ihLater =>
    exact step isKind inner ihInner ihLater found
  | @binding keyNode text wrapper node held rest below next isKey named unbound same isKind inner
      later ihInner ihLater =>
    rw [Siblings.find] at found
    split at found
    · cases found
      rw [isKey] at typed
      cases typed
    · rw [Siblings.find, Option.none_or] at found
      exact step isKind inner ihInner ihLater found

theorem below_nil (mirrors : Mirrors kind .nil chain) : chain = .nil := by
  cases mirrors
  rfl

theorem below_value (mirrors : Mirrors kind wrappers chain) (isValue : kind = .value) :
    chain = .nil := by
  cases mirrors with
  | nil => rfl
  | item => cases isValue
  | binding => cases isValue

/-- Two arrays of trees, one behind the other. -/
theorem append_items {wrappers' : Siblings Wrapper} {chain' : Siblings (PNode V)}
    (mirrors : Mirrors kind wrappers chain) (isArray : kind = .array)
    (more : Mirrors .array wrappers' chain') :
    Mirrors .array (wrappers.append wrappers') (chain.append chain') := by
  induction mirrors with
  | nil => exact more
  | item same typed inner later ihInner ihLater =>
    exact .item same typed inner (ihLater rfl)
  | binding => cases isArray

/-- Trees put into an array. -/
theorem insert_items {item : Siblings Wrapper} {tree : Siblings (PNode V)}
    (mirrors : Mirrors kind wrappers chain) (isArray : kind = .array)
    (more : Mirrors .array item tree) (pos : Nat) :
    Mirrors .array (.insertAt pos item wrappers) (.insertAt pos tree chain) := by
  induction mirrors generalizing pos with
  | nil =>
    cases pos with
    | zero => rwa [Siblings.insertAt, Siblings.insertAt, Siblings.append_nil, Siblings.append_nil]
    | succ pos => exact more
  | @item wrapper node held rest below next same typed inner later ihInner ihLater =>
    cases pos with
    | zero => exact more.append_items rfl (.item same typed inner later)
    | succ pos => exact .item same typed inner (ihLater rfl pos)
  | binding => cases isArray

/-- A binding put behind those of a dictionary that has none for its key. -/
theorem append_binding {keyNode : PNode V} {text : CText} {wrapper : Wrapper} {node : PNode V}
    {held : Siblings Wrapper} {below : Siblings (PNode V)}
    (mirrors : Mirrors kind wrappers chain) (isDict : kind = .dict)
    (key : keyNode.content = .key text) (named : wrapper.key = text.val)
    (unbound : wrapper.key ∉ keysOf wrappers) (same : wrapper.node = node.address)
    (typed : node.content.kind? = some wrapper.kind)
    (inner : Mirrors wrapper.kind held below) :
    Mirrors .dict (wrappers.append (.cons wrapper held .nil))
      (chain.append (.cons keyNode .nil (.cons node below .nil))) := by
  induction mirrors with
  | nil => exact .binding key named (by simp [keysOf, Siblings.toList]) same typed inner .nil
  | item => cases isDict
  | @binding keyNode' text' wrapper' node' held' rest below' next key' named' unbound' same' typed'
      inner' later ihInner ihLater =>
    rw [keysOf_cons, List.mem_cons, not_or] at unbound
    refine .binding key' named' ?_ same' typed' inner' (ihLater rfl unbound.2)
    rw [keysOf_append, List.mem_append, not_or]
    refine ⟨unbound', fun member => unbound.1 ?_⟩
    simpa [keysOf, Siblings.toList, eq_comm] using member

theorem typed_eq {wrapper : Wrapper} {node : PNode V} (same : wrapper.node = node.address)
    (typed : node.content.kind? = some wrapper.kind) (target : Nat) (kind : Kind) :
    PNode.typed target kind node = Wrapper.typed target kind wrapper := by
  simp [PNode.typed, Wrapper.typed, same, typed]

theorem typed_key {keyNode : PNode V} {text : CText} (key : keyNode.content = .key text)
    (target : Nat) (kind : Kind) : PNode.typed target kind keyNode = false := by
  simp [PNode.typed, key, Content.kind?]

/-- **A change of a structure that keeps its own mirror keeps the whole mirror.** -/
theorem amend {target : Nat} {structure' : Kind} {P : Siblings Wrapper → Prop}
    {f : Siblings Wrapper → Siblings Wrapper} {g : Siblings (PNode V) → Siblings (PNode V)}
    (change : ∀ {held below}, Mirrors structure' held below → P held →
      Mirrors structure' (f held) (g below))
    (mirrors : Mirrors kind wrappers chain)
    (every : wrappers.EveryAt (Wrapper.typed target structure') P) :
    Mirrors kind (wrappers.amend (Wrapper.typed target structure') f)
      (chain.amend (PNode.typed target structure') g) := by
  have inside : ∀ {wrapper : Wrapper} {node : PNode V} {held : Siblings Wrapper}
      {below : Siblings (PNode V)}, wrapper.node = node.address →
      node.content.kind? = some wrapper.kind → Mirrors wrapper.kind held below →
      (Wrapper.typed target structure' wrapper = true → P held) →
      Mirrors wrapper.kind (held.amend (Wrapper.typed target structure') f)
        (below.amend (PNode.typed target structure') g) →
      Mirrors wrapper.kind
        (if Wrapper.typed target structure' wrapper then f held
          else held.amend (Wrapper.typed target structure') f)
        (if PNode.typed target structure' node then g below
          else below.amend (PNode.typed target structure') g) := by
    intro wrapper node held below same typed inner here amended
    rw [typed_eq same typed]
    split
    · rename_i isTarget
      have isKind : wrapper.kind = structure' := by
        simp only [Wrapper.typed, Bool.decide_and, Bool.and_eq_true, decide_eq_true_eq] at isTarget
        exact isTarget.2
      rw [isKind] at inner ⊢
      exact change inner (here isTarget)
    · exact amended
  induction mirrors with
  | nil => exact .nil
  | item same typed inner later ihInner ihLater =>
    exact .item same typed (inside same typed inner every.1 (ihInner every.2.1))
      (ihLater every.2.2)
  | @binding keyNode text wrapper node held rest below next key named unbound same typed inner later
      ihInner ihLater =>
    simp only [Siblings.amend, typed_key key, Bool.false_eq_true, if_false]
    refine .binding key named ?_ same typed (inside same typed inner every.1 (ihInner every.2.1))
      (ihLater every.2.2)
    rwa [keysOf_amend]

theorem find_eq_none {address : Nat} (absent : address ∉ addresses chain) :
    chain.find (PNode.at address) = none := by
  refine Siblings.find_eq_none_iff.mpr fun node member => ?_
  rw [PNode.at, decide_eq_false_iff_not]
  rintro rfl
  exact absent (List.mem_map_of_mem member)

theorem mem_nodesOf_of_find {address : Nat} {tree : Tree Wrapper}
    (found : wrappers.find (Wrapper.at address) = some tree) : address ∈ nodesOf wrappers := by
  obtain ⟨member, isNode⟩ := Siblings.find_eq_some found
  rw [Wrapper.at, decide_eq_true_eq] at isNode
  exact isNode ▸ List.mem_map_of_mem member

/-- The wrapper a pointer names and the tree at its node mirror each other. -/
def Located (address : Nat) (wrappers : Siblings Wrapper) (chain : Siblings (PNode V)) : Prop :=
  ∀ tree, wrappers.find (Wrapper.at address) = some tree →
    ∃ node, chain.find (PNode.at address) = some node ∧
      node.1.content.kind? = some tree.1.kind ∧ Mirrors tree.1.kind tree.2 node.2

theorem located_item {address : Nat} {wrapper : Wrapper} {node : PNode V}
    {held rest : Siblings Wrapper} {below next : Siblings (PNode V)}
    (same : wrapper.node = node.address) (typed : node.content.kind? = some wrapper.kind)
    (inner : Mirrors wrapper.kind held below) (later : Mirrors kind rest next)
    (apart : (addresses (.cons node below next)).Nodup) (inHeld : Located address held below)
    (inRest : Located address rest next) :
    Located address (.cons wrapper held rest) (.cons node below next) := by
  intro tree found
  rw [addresses_cons, List.nodup_cons, List.nodup_append] at apart
  have test : PNode.at address node = Wrapper.at address wrapper := by
    simp [PNode.at, Wrapper.at, same]
  rw [Siblings.find] at found
  rw [Siblings.find, test]
  split at found
  · cases found
    rename_i here
    rw [if_pos here]
    exact ⟨(node, below), rfl, typed, inner⟩
  · rename_i elsewhere
    rw [if_neg elsewhere]
    rcases Option.or_eq_some_iff.mp found with foundBelow | ⟨-, foundLater⟩
    · obtain ⟨node', found', mirrored⟩ := inHeld tree foundBelow
      exact ⟨node', by rw [found', Option.some_or], mirrored⟩
    · obtain ⟨node', found', mirrored⟩ := inRest tree foundLater
      have inNext := later.nodes_subset (mem_nodesOf_of_find foundLater)
      have absent : address ∉ addresses below := fun member =>
        apart.2.2.2 address member address inNext rfl
      exact ⟨node', by rw [find_eq_none absent, Option.none_or, found'], mirrored⟩

theorem find (address : Nat) (mirrors : Mirrors kind wrappers chain)
    (apart : (addresses chain).Nodup) : Located address wrappers chain := by
  induction mirrors with
  | nil =>
    intro tree found
    cases found
  | item same typed inner later ihInner ihLater =>
    have split := apart
    rw [addresses_cons, List.nodup_cons, List.nodup_append] at split
    exact located_item same typed inner later apart (ihInner split.2.1) (ihLater split.2.2.1)
  | @binding keyNode text wrapper node held rest below next key named unbound same typed inner later
      ihInner ihLater =>
    rw [addresses_cons, addresses_nil, List.nil_append, List.nodup_cons] at apart
    have split := apart.2
    rw [addresses_cons, List.nodup_cons, List.nodup_append] at split
    intro tree found
    obtain ⟨node', found', mirrored⟩ :=
      located_item same typed inner later apart.2 (ihInner split.2.1) (ihLater split.2.2.1) tree
        found
    have inPair : address ∈ addresses (.cons node below next) := by
      obtain ⟨member, isNode⟩ := Siblings.find_eq_some found'
      rw [PNode.at, decide_eq_true_eq] at isNode
      exact isNode ▸ List.mem_map_of_mem member
    have notKey : PNode.at address keyNode = false := by
      rw [PNode.at, decide_eq_false_iff_not]
      rintro rfl
      exact apart.1 inPair
    refine ⟨node', ?_, mirrored⟩
    rw [Siblings.find, notKey]
    exact found'

/-! ## Copies -/

/-- The wrappers made for a copy mirror it, under the same keys. -/
theorem copied (mirrors : Mirrors kind wrappers chain) : ∀ next : Nat,
    ∃ made, fromPlist kind (plistCopyNodes next chain).1 = .ok made ∧
      Mirrors kind made (plistCopyNodes next chain).1 ∧
      (kind = .dict → keysOf made = keysOf wrappers) := by
  induction mirrors with
  | nil =>
    intro next
    refine ⟨.nil, ?_, .nil, fun _ => rfl⟩
    rw [plistCopyNodes]
    cases ‹Kind› <;> rfl
  | @item wrapper node held rest below later same typed inner laterMirrors ihInner ihLater =>
    intro next
    obtain ⟨madeBelow, ranBelow, mirrorsBelow, -⟩ := ihInner (next + 1)
    obtain ⟨madeLater, ranLater, mirrorsLater, -⟩ := ihLater (plistCopyNodes (next + 1) below).2
    refine ⟨.cons ⟨[], next, wrapper.kind⟩ madeBelow madeLater, ?_,
      .item rfl typed mirrorsBelow mirrorsLater, by simp⟩
    simp only [plistCopyNodes, fromPlist, typed, ranBelow, ranLater, ok_bind]
    rfl
  | @binding keyNode text wrapper node held rest below later key named unbound same typed inner
      laterMirrors ihInner ihLater =>
    intro next
    obtain ⟨madeBelow, ranBelow, mirrorsBelow, -⟩ := ihInner (next + 1 + 1)
    obtain ⟨madeLater, ranLater, mirrorsLater, keys⟩ :=
      ihLater (plistCopyNodes (next + 1 + 1) below).2
    refine ⟨.cons ⟨wrapper.key, next + 1, wrapper.kind⟩ madeBelow madeLater, ?_,
      .binding key named ?_ rfl typed mirrorsBelow mirrorsLater, fun _ => ?_⟩
    · simp only [plistCopyNodes, fromPlist, key, ← named, typed, ranBelow, ranLater, ok_bind]
      rfl
    · rwa [keys rfl]
    · rw [keysOf_cons, keysOf_cons, keys rfl]

end Mirrors

/-- A copy has fresh addresses, one after the other, and the contents of its source. -/
theorem copyNodes_spec : ∀ (chain : Siblings (PNode V)) (next : Nat),
    addresses (plistCopyNodes next chain).1 = List.range' next chain.labels.length ∧
      (plistCopyNodes next chain).2 = next + chain.labels.length ∧
      (plistCopyNodes next chain).1.map PNode.content = chain.map PNode.content
  | .nil, next => ⟨rfl, rfl, rfl⟩
  | .cons node below rest, next => by
      obtain ⟨fresh, later, same⟩ := copyNodes_spec below (next + 1)
      obtain ⟨fresh', later', same'⟩ := copyNodes_spec rest (plistCopyNodes (next + 1) below).2
      rw [later] at fresh' later' same'
      have length : (Siblings.cons node below rest).labels.length =
          below.labels.length + rest.labels.length + 1 := by simp [Siblings.labels]
      refine ⟨?_, ?_, ?_⟩
      · simp only [plistCopyNodes, later, addresses_cons, fresh, fresh', length]
        rw [List.range'_append_1, List.range'_succ]
      · simp only [plistCopyNodes, later, later', length]
        omega
      · simp only [plistCopyNodes, later, Siblings.map, same, same']

end Irestore.PlistCpp
