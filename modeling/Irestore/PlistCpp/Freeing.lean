/-
# PlistCpp.Freeing — what destructors free

The destructor of a wrapper frees the nodes of the wrappers it holds, and then its own.
While the wrappers mirror the plist trees each of these nodes is live when its turn
comes.

* `deleteWrappers_spec` — destructors free each node while it is live.
* `root_of_mem` — an object and its tree go together.
-/
import Irestore.PlistCpp.Mirror

namespace Irestore.PlistCpp

open Irestore.Library Irestore.Library.CMemory

set_option autoImplicit false

variable {V : Type}

/-! ## Freeing -/

/-- The forest without the nodes at these addresses and what is below them. -/
def without (gone : List Nat) (forest : Siblings (PNode V)) : Siblings (PNode V) :=
  forest.prune fun node => node.address ∈ gone

theorem without_congr {gone gone' : List Nat} (same : ∀ a, a ∈ gone ↔ a ∈ gone')
    (forest : Siblings (PNode V)) : without gone forest = without gone' forest := by
  simp only [without, same]

theorem without_at (gone : List Nat) (address : Nat) (forest : Siblings (PNode V)) :
    (without gone forest).prune (PNode.at address) = without (address :: gone) forest := by
  rw [without, Siblings.prune_prune, without]
  congr 1
  funext node
  simp [PNode.at, Bool.or_comm]

/-- The balance of the ledger: what is live and what was freed. -/
def World.ledger (w : World V) : Multiset Nat := (addresses w.heap : Multiset Nat) + w.freed

theorem plistFree_of_mem {w : World V} {address : Nat} (live : address ∈ addresses w.heap) :
    ∃ w', plistFree w address = .ok w' ∧ w'.heap = w.heap.prune (PNode.at address) ∧
      w'.next = w.next ∧ w'.objects = w.objects ∧ w'.ledger = w.ledger := by
  obtain ⟨node, member, isNode⟩ := List.mem_map.mp live
  obtain ⟨tree, found⟩ := @Siblings.exists_find _ (PNode.at address) w.heap node member
    (decide_eq_true isNode)
  refine ⟨{ w with
    heap := w.heap.prune (PNode.at address)
    freed := w.freed ++ (w.heap.cut (PNode.at address)).map PNode.address }, ?_, rfl, rfl, rfl, ?_⟩
  · rw [plistFree, World.tree, found]
    rfl
  · have balance := congrArg (Multiset.map PNode.address)
      (@Siblings.labels_prune _ (PNode.at address) w.heap)
    rw [Multiset.map_add, Multiset.map_coe, Multiset.map_coe, Multiset.map_coe] at balance
    show (addresses _ : Multiset Nat) + (w.freed ++ _ : List Nat) = addresses w.heap + w.freed
    rw [addresses, addresses, ← balance, ← Multiset.coe_add]
    abel

/-- A node of the forest at an address of the chain is one of the chain. -/
theorem mem_of_address {chain forest : Siblings (PNode V)} (apart : (addresses forest).Nodup)
    (inside : chain.labels ⊆ forest.labels) {node : PNode V} (member : node ∈ forest.labels)
    (isAddress : node.address ∈ addresses chain) : node ∈ chain.labels := by
  obtain ⟨other, inChain, same⟩ := List.mem_map.mp isAddress
  rw [← List.inj_on_of_nodup_map apart (inside inChain) member same]
  exact inChain

/-- The chain stands where the nodes already gone do not reach it. -/
structure Stands (gone : List Nat) (chain forest : Siblings (PNode V)) : Prop where
  exposed : Siblings.Exposed (fun node => node.address ∈ gone) chain forest
  apart : (addresses forest).Nodup
  kept : ∀ a ∈ addresses chain, a ∉ gone

namespace Stands

variable {gone : List Nat} {node : PNode V} {below next chain forest : Siblings (PNode V)}

theorem children (stands : Stands gone (.cons node below next) forest) :
    Stands gone below forest where
  exposed := stands.exposed.children
    (decide_eq_false (stands.kept node.address (by simp)))
  apart := stands.apart
  kept := fun a member => stands.kept a (by simp [member])

theorem rest (stands : Stands gone (.cons node below next) forest) : Stands gone next forest where
  exposed := stands.exposed.rest
  apart := stands.apart
  kept := fun a member => stands.kept a (by simp [member])

theorem nodup (stands : Stands gone chain forest) : (addresses chain).Nodup :=
  stands.apart.sublist (stands.exposed.labels_sublist.map _)

/-- Freeing within the chain does not reach it from above. -/
theorem exposed_of_within (stands : Stands gone chain forest) {gone' : List Nat}
    (within : ∀ a ∈ gone', a ∈ gone ∨ a ∈ addresses chain) :
    Siblings.Exposed (fun node => node.address ∈ gone') chain forest := by
  refine stands.exposed.of_within (fun node member isGone => ?_) (List.Nodup.of_map _ stands.apart)
  rcases within node.address (of_decide_eq_true isGone) with already | inChain
  · exact .inl (decide_eq_true already)
  · exact .inr (mem_of_address stands.apart stands.exposed.labels_sublist.subset member inChain)

end Stands

/-- Deleting the wrappers of a chain frees their nodes, each while it is live. -/
def Deletes (wrappers : Siblings Wrapper) (chain : Siblings (PNode V)) : Prop :=
  ∀ {gone : List Nat} {forest : Siblings (PNode V)} {w : World V}, Stands gone chain forest →
    w.heap = without gone forest →
      ∃ w', deleteWrappers wrappers w = .ok w' ∧
        w'.heap = without (nodesOf wrappers ++ gone) forest ∧ w'.next = w.next ∧
        w'.objects = w.objects ∧ w'.ledger = w.ledger

theorem deletes_nil {chain : Siblings (PNode V)} : Deletes .nil chain :=
  fun {_ _ w} _ heap => ⟨w, rfl, heap, rfl, rfl, rfl⟩

theorem deletes_item {wrapper : Wrapper} {node : PNode V}
    {held rest : Siblings Wrapper} {below next : Siblings (PNode V)}
    (same : wrapper.node = node.address) (inner : Mirrors wrapper.kind held below)
    (inHeld : Deletes held below) (inRest : Deletes rest next) :
    Deletes (.cons wrapper held rest) (.cons node below next) := by
  intro gone forest w stands heap
  have apart := stands.nodup
  rw [addresses_cons, List.nodup_cons, List.mem_append, not_or, List.nodup_append] at apart
  obtain ⟨w₁, ran₁, heap₁, next₁, objects₁, ledger₁⟩ := inHeld stands.children heap
  have heldGone : ∀ a ∈ nodesOf held ++ gone,
      a ∈ gone ∨ a ∈ addresses (.cons node below next) := by
    intro a member
    rcases List.mem_append.mp member with inBelow | already
    · exact .inr (by simp [inner.nodes_subset inBelow])
    · exact .inl already
  have keptNode : node.address ∉ nodesOf held ++ gone := by
    rw [List.mem_append, not_or]
    exact ⟨fun member => apart.1.1 (inner.nodes_subset member), stands.kept _ (by simp)⟩
  have live : wrapper.node ∈ addresses w₁.heap := by
    rw [heap₁, same]
    refine List.mem_map_of_mem ((stands.exposed_of_within heldGone).mem_prune ?_)
    rw [Siblings.prune, if_neg (by simpa using keptNode)]
    exact List.mem_cons_self
  obtain ⟨w₂, ran₂, heap₂, next₂, objects₂, ledger₂⟩ := plistFree_of_mem live
  rw [heap₁, without_at, same] at heap₂
  have nodeGone : ∀ a ∈ node.address :: (nodesOf held ++ gone),
      a ∈ gone ∨ a ∈ addresses (.cons node below next) := by
    intro a member
    rcases List.mem_cons.mp member with rfl | earlier
    · exact .inr (by simp)
    · exact heldGone a earlier
  have standsNext : Stands (node.address :: (nodesOf held ++ gone)) next forest := by
    refine ⟨(stands.exposed_of_within nodeGone).rest, stands.apart, fun a member isGone => ?_⟩
    rcases List.mem_cons.mp isGone with rfl | earlier
    · exact apart.1.2 member
    · rcases List.mem_append.mp earlier with inBelow | already
      · exact apart.2.2.2 a (inner.nodes_subset inBelow) a member rfl
      · exact stands.kept a (by simp [member]) already
  obtain ⟨w₃, ran₃, heap₃, next₃, objects₃, ledger₃⟩ := inRest standsNext heap₂
  refine ⟨w₃, ?_, ?_, next₃.trans (next₂.trans next₁), objects₃.trans (objects₂.trans objects₁),
    ledger₃.trans (ledger₂.trans ledger₁)⟩
  · rw [deleteWrappers, ran₁, ok_bind, ran₂, ok_bind, ran₃]
  · rw [heap₃]
    refine without_congr (fun a => ?_) forest
    simp only [nodesOf_cons, same, List.mem_append, List.mem_cons]
    tauto

/-- **The destructors of wrappers that mirror a chain free each node while it is live.** -/
theorem deleteWrappers_spec {kind : Kind} {wrappers : Siblings Wrapper}
    {chain : Siblings (PNode V)} (mirrors : Mirrors kind wrappers chain) :
    Deletes wrappers chain := by
  induction mirrors with
  | nil => exact deletes_nil
  | item same typed inner later ihInner ihLater =>
    exact deletes_item same inner ihInner ihLater
  | @binding keyNode text wrapper node held rest below next key named unbound same typed inner later
      ihInner ihLater =>
    intro gone forest w stands heap
    exact deletes_item same inner ihInner ihLater stands.rest heap

/-! ## Objects that go -/

theorem without_eq_self {gone : List Nat} {forest : Siblings (PNode V)}
    (kept : ∀ a ∈ addresses forest, a ∉ gone) : without gone forest = forest :=
  Siblings.prune_eq_self fun _ member => decide_eq_false (kept _ (List.mem_map_of_mem member))

theorem withoutObject_cons (wrapper : Wrapper) (held rest : Siblings Wrapper) (object : Nat) :
    withoutObject (.cons wrapper held rest) object =
      if wrapper.node = object then withoutObject rest object
      else .cons wrapper held (withoutObject rest object) := by
  simp only [withoutObject, Siblings.toList, List.filter_cons]
  split <;> simp_all [Siblings.ofList]

theorem withoutObject_eq_self {objects : Siblings Wrapper} {object : Nat}
    (absent : object ∉ nodesOf objects) : withoutObject objects object = objects := by
  rw [withoutObject, List.filter_eq_self.mpr, Siblings.ofList_toList]
  intro tree root
  rw [decide_eq_true_eq]
  rintro rfl
  exact absent (List.mem_map_of_mem (Siblings.root_mem_labels root))

/-- Where an object stands among the plist trees, and the trees without it. -/
structure Root (object : Tree Wrapper) (objects : Siblings Wrapper)
    (heap : Siblings (PNode V)) (node : PNode V) (below next : Siblings (PNode V)) : Prop where
  isRoot : (node, below) ∈ heap.toList
  exposed : Siblings.Exposed (fun node => node.address ∈ ([] : List Nat)) (.cons node below next)
    heap
  same : object.1.node = node.address
  mirrors : Mirrors object.1.kind object.2 below
  rest : ∀ gone, object.1.node ∈ gone → gone ⊆ addresses (.cons node below .nil) →
    Mirrors .array (withoutObject objects object.1.node) (without gone heap)

theorem root_of_mem {kind : Kind} {objects : Siblings Wrapper} {heap : Siblings (PNode V)}
    (mirrors : Mirrors kind objects heap) (isArray : kind = .array)
    (apart : (addresses heap).Nodup) {object : Tree Wrapper} (member : object ∈ objects.toList) :
    ∃ node below next, Root object objects heap node below next := by
  induction mirrors with
  | nil => cases member
  | binding => cases isArray
  | @item wrapper node held rest below next same typed inner later ihInner ihLater =>
    rw [addresses_cons, List.nodup_cons, List.mem_append, not_or, List.nodup_append] at apart
    rw [Siblings.toList, List.mem_cons] at member
    rcases member with rfl | inRest
    · refine ⟨node, below, next, List.mem_cons_self, .here, same, inner, fun gone removed within => ?_⟩
      have restKept : wrapper.node ∉ nodesOf rest := fun member =>
        apart.1.2 (same ▸ later.nodes_subset member)
      have nextKept : ∀ a ∈ addresses next, a ∉ gone := by
        intro a inNext isGone
        have inTree := within isGone
        rw [addresses_cons, addresses_nil, List.append_nil, List.mem_cons] at inTree
        rcases inTree with rfl | inBelow
        · exact apart.1.2 inNext
        · exact apart.2.2.2 a inBelow a inNext rfl
      rw [withoutObject_cons, if_pos rfl, withoutObject_eq_self restKept, without, Siblings.prune,
        if_pos (by simpa [← same] using removed)]
      rw [← without, without_eq_self nextKept]
      exact later
    · obtain ⟨node', below', next', root⟩ := ihLater rfl apart.2.2.1 inRest
      have inNext : addresses (.cons node' below' .nil) ⊆ addresses next := by
        refine List.Subset.trans ?_ (root.exposed.labels_sublist.map PNode.address).subset
        simp only [Siblings.labels, List.map_cons, List.map_append]
        rw [addresses_cons, addresses_nil, List.append_nil]
        exact List.cons_subset_cons _ (List.subset_append_left _ _)
      refine ⟨node', below', next', List.mem_cons_of_mem _ root.isRoot, .later root.exposed,
        root.same, root.mirrors, fun gone removed within => ?_⟩
      have other : wrapper.node ≠ object.1.node := by
        rw [same]
        intro equal
        exact apart.1.2 (equal ▸ inNext (within removed))
      have nodeKept : node.address ∉ gone := fun isGone => apart.1.2 (inNext (within isGone))
      have belowKept : ∀ a ∈ addresses below, a ∉ gone := fun a inBelow isGone =>
        apart.2.2.2 a inBelow a (inNext (within isGone)) rfl
      rw [withoutObject_cons, if_neg other, without, Siblings.prune,
        if_neg (by simpa using nodeKept), ← without, ← without, without_eq_self belowKept]
      exact .item same typed inner (root.rest gone removed within)

end Irestore.PlistCpp
