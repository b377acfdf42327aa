/-
# PlistCpp.Copies — clones, and where they are put

A clone is a wrapper and a plist tree at the next addresses, and the two mirror each
other.  What the structures do with it is one change on each side: it becomes an object
of its own, or it goes into one structure, at the place of that structure both sides name
by the same address.

* `clone_spec` — a clone is fresh and has the contents of its source.
* `addObject_agrees`, `insertion_agrees` — the two sides agree with the clone in place.
-/
import Irestore.PlistCpp.Mirror

namespace Irestore.PlistCpp

open Irestore.Library Irestore.Library.CMemory

set_option autoImplicit false

variable {V : Type}

/-! ## Worlds that agree -/

theorem apart_of_ledger {live freed : List Nat} {next : Nat}
    (ledger : (live : Multiset Nat) + freed = Multiset.range next) : live.Nodup := by
  have all : (Multiset.range next).Nodup := Multiset.nodup_range _
  rw [← ledger] at all
  exact Multiset.coe_nodup.mp (Multiset.nodup_of_le (Multiset.le_add_right _ _) all)

namespace Agree

variable {w : World V}

theorem apart (agree : Agree w) : (addresses w.heap).Nodup := apart_of_ledger agree.ledger

theorem lt_next (agree : Agree w) {address : Nat} (live : address ∈ addresses w.heap) :
    address < w.next := by
  have member : address ∈ (addresses w.heap : Multiset Nat) + w.freed :=
    Multiset.mem_add.mpr (.inl live)
  rwa [agree.ledger, Multiset.mem_range] at member

theorem nodes_once (agree : Agree w) (address : Nat) :
    w.heap.labels.countP (PNode.at address) ≤ 1 :=
  Siblings.countP_le_one agree.apart fun _ passes => of_decide_eq_true passes

theorem wrappers_once (agree : Agree w) (address : Nat) :
    w.objects.labels.countP (Wrapper.at address) ≤ 1 :=
  Siblings.countP_le_one (agree.apart.sublist agree.mirrors.nodes_sublist)
    fun _ passes => of_decide_eq_true passes

end Agree

/-- A pointer of the caller names a wrapper of this kind. -/
def Holds (w : World V) (address : Nat) (kind : Kind) (P : Siblings Wrapper → Prop) : Prop :=
  ∃ wrapper, w.objects.find (Wrapper.at address) = some wrapper ∧ wrapper.1.kind = kind ∧
    P wrapper.2

theorem node_of_find {w : World V} {address : Nat} {wrapper : Tree Wrapper}
    (found : w.objects.find (Wrapper.at address) = some wrapper) : wrapper.1.node = address :=
  of_decide_eq_true (Siblings.find_eq_some found).2

/-! ## Clones -/

/-- What a tree holds, without its addresses. -/
def Tree.contents (tree : Tree (PNode V)) : Siblings (Content V) := tree.chain.map PNode.content

/-- A new wrapper for a new tree that takes the addresses from `start` on. -/
structure Fresh (start : Nat) (wrapper : Tree Wrapper) (item : Tree (PNode V)) (next : Nat) :
    Prop where
  first : item.1.address = start
  same : wrapper.1.node = item.1.address
  typed : item.1.content.kind? = some wrapper.1.kind
  mirrors : Mirrors wrapper.1.kind wrapper.2 item.2
  ledger : (addresses item.chain : Multiset Nat) + Multiset.range start = Multiset.range next

theorem range'_add_range (start n : Nat) :
    (List.range' start n : Multiset Nat) + Multiset.range start = Multiset.range (start + n) := by
  rw [add_comm, Multiset.range, Multiset.range, Multiset.coe_add, List.range_eq_range',
    List.range_eq_range']
  have joined := @List.range'_append_1 0 start n
  rw [Nat.zero_add] at joined
  rw [joined]

theorem Fresh.scalar {start : Nat} {content : Content V} {kind : Kind}
    (typed : content.kind? = some kind) :
    Fresh start (⟨[], start, kind⟩, .nil) (⟨start, content⟩, .nil) (start + 1) :=
  ⟨rfl, rfl, typed, .nil, range'_add_range start 1⟩

theorem Fresh.lt {start next : Nat} {wrapper : Tree Wrapper} {item : Tree (PNode V)}
    (fresh : Fresh start wrapper item next) : start < next := by
  have member : start ∈ (addresses item.chain : Multiset Nat) + Multiset.range start :=
    Multiset.mem_add.mpr (.inl (by simp [Tree.chain, fresh.first]))
  rwa [fresh.ledger, Multiset.mem_range] at member

/-- A copy: fresh, and with the contents of its source. -/
def Copied (w : World V) (tree : Tree (PNode V))
    (made : Checked (Tree Wrapper × Tree (PNode V) × Nat)) : Prop :=
  ∃ wrapper item next, made = .ok (wrapper, item, next) ∧ Fresh w.next wrapper item next ∧
    item.contents = tree.contents

theorem copyStructure_spec (w : World V) {kind : Kind} {held : Siblings Wrapper}
    {tree : Tree (PNode V)} (typed : tree.1.content.kind? = some kind)
    (mirrors : Mirrors kind held tree.2) : Copied w tree (copyStructure w kind tree) := by
  obtain ⟨made, ran, mirrored, -⟩ := mirrors.copied (w.next + 1)
  obtain ⟨fresh, later, same⟩ := copyNodes_spec tree.2 (w.next + 1)
  refine ⟨(⟨[], w.next, kind⟩, made), (⟨w.next, tree.1.content⟩, _),
    (plistCopyNodes (w.next + 1) tree.2).2, ?_, ⟨rfl, rfl, typed, mirrored, ?_⟩, ?_⟩
  · rw [copyStructure]
    simp only [ran, ok_bind]
    rfl
  · have all := range'_add_range w.next (tree.2.labels.length + 1)
    rw [List.range'_succ, ← fresh] at all
    rw [later, Tree.chain, addresses_cons, addresses_nil, List.append_nil, all]
    congr 1
    omega
  · simp only [Tree.contents, Tree.chain, Siblings.map, same]

/-- `Clone` asks for no NULL key: a dictionary has one binding at most. -/
def Cloneable (wrapper : Tree Wrapper) : Prop := wrapper.1.kind = .dict → wrapper.2.length ≤ 1

/-- **A clone is fresh, and has the contents of its source.** -/
theorem clone_spec {w : World V} (agree : Agree w) {source : Nat} {wrapper : Tree Wrapper}
    (found : w.objects.find (Wrapper.at source) = some wrapper) (cloneable : Cloneable wrapper) :
    ∃ tree, w.tree source = .ok tree ∧ Copied w tree (clone w wrapper.1) := by
  obtain ⟨tree, located, typed, mirrors⟩ := agree.mirrors.find source agree.apart wrapper found
  have here : w.tree source = .ok tree := by rw [World.tree, located]; rfl
  refine ⟨tree, here, ?_⟩
  rw [clone, node_of_find found, here, ok_bind]
  cases isKind : wrapper.1.kind with
  | value =>
    rw [isKind] at typed mirrors
    refine ⟨_, _, _, rfl, Fresh.scalar typed, ?_⟩
    simp only [Tree.contents, Tree.chain, mirrors.below_value rfl, Siblings.map]
  | array =>
    rw [isKind] at typed mirrors
    exact copyStructure_spec w typed mirrors
  | dict =>
    have short := cloneable isKind
    rw [isKind] at typed mirrors
    have length := mirrors.length_dict rfl
    show Copied w tree (copyDictionary w tree)
    rw [copyDictionary, if_neg (by omega)]
    exact copyStructure_spec w typed mirrors

/-! ## Clones in place -/

theorem addObject_agrees {w : World V} (agree : Agree w) {wrapper : Tree Wrapper}
    {item : Tree (PNode V)} {next : Nat} (fresh : Fresh w.next wrapper item next) :
    Agree (addObject w wrapper item next) ∧
      (addObject w wrapper item next).tree w.next = .ok item := by
  refine ⟨⟨agree.mirrors.append_items rfl (.item fresh.same fresh.typed fresh.mirrors .nil), ?_⟩,
    ?_⟩
  · show ((addresses (w.heap.append item.chain) : List Nat) : Multiset Nat) + w.freed = _
    rw [addresses, Siblings.labels_append, List.map_append, ← Multiset.coe_add]
    show (addresses w.heap : Multiset Nat) + addresses item.chain + w.freed = Multiset.range next
    rw [← fresh.ledger, ← agree.ledger]
    abel
  · have unused : w.next ∉ addresses w.heap := fun live => Nat.lt_irrefl _ (agree.lt_next live)
    have atFirst : PNode.at w.next item.1 = true := decide_eq_true fresh.first
    rw [World.tree, addObject]
    simp only [Siblings.find_append, Mirrors.find_eq_none unused, Option.none_or, Tree.chain,
      Siblings.find, atFirst, if_true]
    rfl

theorem tree_of_holds {w : World V} (agree : Agree w) {target : Nat} {kind : Kind}
    {P : Siblings Wrapper → Prop} (holds : Holds w target kind P) :
    ∃ tree, w.tree target = .ok tree ∧ tree.1 ∈ w.heap.labels ∧
      PNode.typed target kind tree.1 = true := by
  obtain ⟨wrapper, found, isKind, -⟩ := holds
  obtain ⟨tree, located, typed, -⟩ := agree.mirrors.find target agree.apart wrapper found
  obtain ⟨member, isNode⟩ := Siblings.find_eq_some located
  refine ⟨tree, by rw [World.tree, located]; rfl, member, ?_⟩
  rw [PNode.at, decide_eq_true_eq] at isNode
  simp [PNode.typed, isNode, typed, isKind]

/-- The ledger when nodes at the next addresses are put into a structure. -/
theorem insertion_ledger {w : World V} (agree : Agree w) {target : Nat} {kind : Kind}
    {P : Siblings Wrapper → Prop} (holds : Holds w target kind P)
    (g : Siblings (PNode V) → Siblings (PNode V)) (added : List (PNode V)) (next : Nat)
    (adds : ∀ below, ((g below).labels : Multiset (PNode V)) = below.labels + added)
    (ledger : (added.map PNode.address : Multiset Nat) + Multiset.range w.next =
      Multiset.range next) :
    (addresses (w.heap.amend (PNode.typed target kind) g) : Multiset Nat) + w.freed =
      Multiset.range next := by
  have once : w.heap.labels.countP (PNode.typed target kind) = 1 := by
    obtain ⟨tree, -, member, passes⟩ := tree_of_holds agree holds
    have some := List.countP_pos_iff.mpr ⟨tree.1, member, passes⟩
    have most : w.heap.labels.countP (PNode.typed target kind) ≤ 1 :=
      Siblings.countP_le_one agree.apart fun _ passes => of_decide_eq_true (PNode.at_of_typed passes)
    omega
  have balance := congrArg (Multiset.map PNode.address) (Siblings.labels_amend adds once)
  rw [Multiset.map_add, Multiset.map_coe, Multiset.map_coe, Multiset.map_coe] at balance
  rw [addresses, balance, ← ledger, ← agree.ledger, addresses]
  abel

/-- What `plist_dict_insert_item` adds: a key node, and the tree. -/
theorem labels_append_pair (keyNode : PNode V) (item : Tree (PNode V)) (below : Siblings (PNode V)) :
    ((below.append (.cons keyNode .nil item.chain)).labels : Multiset (PNode V)) =
      below.labels + ((keyNode :: item.chain.labels : List (PNode V)) : Multiset (PNode V)) := by
  rw [Siblings.labels_append, ← Multiset.coe_add]
  simp [Siblings.labels]

theorem Fresh.ledger_pair {start next : Nat} {wrapper : Tree Wrapper} {item : Tree (PNode V)}
    (fresh : Fresh start wrapper item next) (key : CText) :
    (((⟨next, .key key⟩ :: item.chain.labels : List (PNode V)).map PNode.address : List Nat) :
      Multiset Nat) + Multiset.range start = Multiset.range (next + 1) := by
  rw [List.map_cons, ← Multiset.cons_coe, Multiset.cons_add]
  show next ::ₘ ((addresses item.chain : Multiset Nat) + Multiset.range start) = _
  rw [fresh.ledger, ← Multiset.range_succ]

/-- **A clone put into a structure on both sides**: `f` puts it among the wrappers, `g` among
the plist nodes, with the nodes `added`. -/
theorem insertion_agrees {w : World V} (agree : Agree w) {target : Nat} {kind : Kind}
    {P : Siblings Wrapper → Prop} (holds : Holds w target kind P)
    (f : Siblings Wrapper → Siblings Wrapper) (g : Siblings (PNode V) → Siblings (PNode V))
    (added : List (PNode V)) (next : Nat)
    (change : ∀ {held below}, Mirrors kind held below → P held → Mirrors kind (f held) (g below))
    (adds : ∀ below, ((g below).labels : Multiset (PNode V)) = below.labels + added)
    (ledger : (added.map PNode.address : Multiset Nat) + Multiset.range w.next =
      Multiset.range next) :
    Agree { w with
      heap := w.heap.amend (PNode.typed target kind) g
      next := next
      objects := w.objects.amend (Wrapper.typed target kind) f } := by
  refine ⟨Mirrors.amend change agree.mirrors ?_,
    insertion_ledger agree holds g added next adds ledger⟩
  obtain ⟨wrapper, found, -, property⟩ := holds
  exact Siblings.everyAt_of_find (fun _ => Wrapper.at_of_typed) found property
    (agree.wrappers_once target)

end Irestore.PlistCpp
