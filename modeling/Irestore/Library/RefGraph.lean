/-
# Library.RefGraph — tables of nodes that refer to each other, and their unfolding

A `RefGraph α κ` is a table of nodes: each has a label and its edges in order, an edge
a kind and the position of the node it leads to.  Unfolding a node replaces every
edge by the tree of the node it leads to; the kind of an edge may change the label
at its end (`mark`).

* `unfold_total` — when every edge stays in the table and none closes a cycle, every
  node has an unfolding, no deeper than the table is long.
-/
import Mathlib.Data.List.Perm.Subperm
import Mathlib.Logic.Relation
import Irestore.Library.Siblings

namespace Irestore.Library

set_option autoImplicit false

structure RefGraph (α κ : Type) where
  nodes : List (α × List (κ × Nat))

namespace RefGraph

variable {α κ : Type} (graph : RefGraph α κ)

/-- The tree of a node, no deeper than the first argument. -/
def unfold (mark : κ → α → α) : Nat → Nat → Option (α × Siblings α)
  | 0, _ => none
  | depth + 1, i => do
      let (label, edges) ← graph.nodes[i]?
      let children ← Siblings.collect (edges.map fun edge => do
        let (label, children) ← unfold mark depth edge.2
        return (mark edge.1 label, children))
      return (label, children)

/-- Node `i` has an edge to node `t`. -/
def Edge (i t : Nat) : Prop :=
  ∃ label edges kind, graph.nodes[i]? = some (label, edges) ∧ (kind, t) ∈ edges

def Acyclic : Prop := ∀ i, ¬ Relation.TransGen graph.Edge i i

/-- Every edge leads to a node of the table. -/
def Closed : Prop := ∀ i t, graph.Edge i t → t < graph.nodes.length

variable {graph} {mark : κ → α → α}

theorem unfold_succ {depth i : Nat} {tree : α × Siblings α} :
    graph.unfold mark (depth + 1) i = some tree ↔
      ∃ edges, graph.nodes[i]? = some (tree.1, edges) ∧
        edges.map (fun edge => (graph.unfold mark depth edge.2).map fun below =>
          (mark edge.1 below.1, below.2)) = tree.2.toList.map some := by
  obtain ⟨label, children⟩ := tree
  have each : (fun edge : κ × Nat => do
      let (label, children) ← graph.unfold mark depth edge.2
      return (mark edge.1 label, children)) =
      fun edge => (graph.unfold mark depth edge.2).map fun below =>
        (mark edge.1 below.1, below.2) := by
    funext edge
    cases graph.unfold mark depth edge.2 <;> rfl
  rw [unfold, each]
  cases found : graph.nodes[i]? with
  | none => simp
  | some node =>
    obtain ⟨label', edges⟩ := node
    simp only [Option.bind_eq_bind, Option.bind_some, Option.bind_eq_some_iff, pure,
      Option.some.injEq, Prod.mk.injEq, Siblings.collect_eq_some]
    constructor
    · rintro ⟨chain, collected, rfl, rfl⟩
      exact ⟨edges, ⟨rfl, rfl⟩, collected⟩
    · rintro ⟨edges', ⟨rfl, rfl⟩, collected⟩
      exact ⟨children, collected, rfl, rfl⟩

/-- Distinct positions of a table are no more than it is long. -/
theorem length_le_of_nodup {path : List Nat} {n : Nat} (nodup : path.Nodup)
    (inside : ∀ p ∈ path, p < n) : path.length ≤ n := by
  have within : path ⊆ List.range n := fun p member => List.mem_range.mpr (inside p member)
  simpa using (List.subperm_of_subset nodup within).length_le

/-- The nodes on the way to `i` are distinct, so the depth left suffices. -/
theorem unfold_below (closed : graph.Closed) (acyclic : graph.Acyclic) :
    ∀ (depth : Nat) (path : List Nat) (i : Nat), path.Nodup →
      (∀ p ∈ path, p < graph.nodes.length ∧ Relation.TransGen graph.Edge p i) →
      i < graph.nodes.length → graph.nodes.length ≤ depth + path.length →
      ∃ tree, graph.unfold mark depth i = some tree := by
  intro depth
  induction depth with
  | zero =>
    intro path i nodup above inside enough
    have fresh : i ∉ path := fun member => acyclic i (above i member).2
    have longer := @length_le_of_nodup (i :: path) graph.nodes.length
      (List.nodup_cons.mpr ⟨fresh, nodup⟩) (by
        intro p member
        rcases List.mem_cons.mp member with rfl | member
        · exact inside
        · exact (above p member).1)
    simp only [List.length_cons] at longer
    omega
  | succ depth ih =>
    intro path i nodup above inside enough
    have fresh : i ∉ path := fun member => acyclic i (above i member).2
    obtain ⟨⟨label, edges⟩, found⟩ : ∃ node, graph.nodes[i]? = some node :=
      ⟨_, List.getElem?_eq_getElem inside⟩
    have trees : ∀ edge ∈ edges, ∃ tree, graph.unfold mark depth edge.2 = some tree := by
      intro edge member
      have step : graph.Edge i edge.2 := ⟨label, edges, edge.1, found, member⟩
      refine ih (i :: path) edge.2 (List.nodup_cons.mpr ⟨fresh, nodup⟩) ?_
        (closed i edge.2 step) (by simp only [List.length_cons]; omega)
      intro p onPath
      rcases List.mem_cons.mp onPath with rfl | onPath
      · exact ⟨inside, .single step⟩
      · exact ⟨(above p onPath).1, (above p onPath).2.tail step⟩
    obtain ⟨children, collected⟩ := Siblings.exists_collect
      (f := fun edge : κ × Nat => (graph.unfold mark depth edge.2).map fun below =>
        (mark edge.1 below.1, below.2)) (fun edge (member : edge ∈ edges) => by
      obtain ⟨tree, unfolded⟩ := trees edge member
      exact ⟨_, by rw [unfolded]; rfl⟩)
    exact ⟨(label, children), unfold_succ.mpr ⟨edges, found, collected⟩⟩

/-- **Every node of a closed acyclic graph has an unfolding.** -/
theorem unfold_total (closed : graph.Closed) (acyclic : graph.Acyclic) {i : Nat}
    (inside : i < graph.nodes.length) :
    ∃ tree, graph.unfold mark graph.nodes.length i = some tree :=
  unfold_below closed acyclic graph.nodes.length [] i List.nodup_nil (by simp) inside (by simp)

end RefGraph

end Irestore.Library
