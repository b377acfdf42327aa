/-
# Library.Preorder — the nodes of a tree in the order a depth-first walk meets them

* `subtrees` — every node of a chain with the chain of its children, parents before
  their children and a child before its later siblings.
* `tops` — the nodes of the chain itself.
* `children_perm` — the children of all nodes and the nodes of the chain itself are
  all nodes of the tree, each once.
* `children_nodup`, `no_child_before_parent` — so, when the labels are distinct, no
  label is a child of two nodes of a part of the walk, and none comes before its
  parent.
-/
import Mathlib.Data.List.Flatten
import Mathlib.Data.List.Perm.Basic
import Mathlib.Algebra.Order.Ring.Nat
import Irestore.Library.Siblings

namespace Irestore.Library.Siblings

set_option autoImplicit false

universe u

variable {α : Type u}

/-- The data of the nodes of the chain, their children not counted. -/
def tops : Siblings α → List α
  | .nil => []
  | .cons data _ next => data :: next.tops

/-- The nodes of the chain and below it with their children, depth first. -/
def subtrees : Siblings α → List (α × Siblings α)
  | .nil => []
  | .cons data children next => (data, children) :: (children.subtrees ++ next.subtrees)

theorem tops_eq_map_toList : ∀ chain : Siblings α, chain.tops = chain.toList.map Prod.fst
  | .nil => rfl
  | .cons _ _ next => by rw [tops, toList, tops_eq_map_toList next, List.map_cons]

theorem labels_eq_map_subtrees : ∀ chain : Siblings α, chain.labels = chain.subtrees.map Prod.fst
  | .nil => rfl
  | .cons _ children next => by
      rw [labels, subtrees, labels_eq_map_subtrees children, labels_eq_map_subtrees next,
        List.map_cons, List.map_append]

theorem toList_subset_subtrees : ∀ chain : Siblings α, chain.toList ⊆ chain.subtrees
  | .nil => List.Subset.refl []
  | .cons data children next => by
      intro node member
      rw [toList, List.mem_cons] at member
      rw [subtrees, List.mem_cons, List.mem_append]
      rcases member with rfl | later
      · exact .inl rfl
      · exact .inr (.inr (toList_subset_subtrees next later))

theorem tops_subset_labels (chain : Siblings α) : chain.tops ⊆ chain.labels := by
  rw [tops_eq_map_toList, labels_eq_map_subtrees]
  exact List.map_subset Prod.fst (toList_subset_subtrees chain)

/-- What is below a node of the walk is part of the walk. -/
theorem subtrees_trans {node : α × Siblings α} : ∀ {chain : Siblings α}, node ∈ chain.subtrees →
    node.2.subtrees ⊆ chain.subtrees
  | .cons data children next, member => by
      rw [subtrees, List.mem_cons, List.mem_append] at member
      rw [subtrees]
      intro inner below
      apply List.mem_cons_of_mem
      rcases member with rfl | inside | later
      · exact List.mem_append_left _ below
      · exact List.mem_append_left _ (subtrees_trans inside below)
      · exact List.mem_append_right _ (subtrees_trans later below)

/-- The children of all nodes of the walk, and the nodes of the chain itself. -/
theorem children_perm : ∀ chain : Siblings α,
    (chain.subtrees.flatMap (fun node => node.2.tops) ++ chain.tops).Perm chain.labels
  | .nil => List.Perm.refl []
  | .cons data children next => by
      have inner := children_perm children
      have later := children_perm next
      rw [subtrees, tops, labels, List.flatMap_cons, List.flatMap_append]
      calc children.tops ++ (children.subtrees.flatMap (fun node => node.2.tops) ++
              next.subtrees.flatMap fun node => node.2.tops) ++ data :: next.tops
          _ = (children.tops ++ children.subtrees.flatMap fun node => node.2.tops) ++
              ((next.subtrees.flatMap fun node => node.2.tops) ++ data :: next.tops) := by
            simp only [List.append_assoc]
          _ |>.Perm (data :: (children.labels ++ next.labels)) := by
            have front : (children.tops ++ children.subtrees.flatMap fun node => node.2.tops).Perm
                children.labels := List.perm_append_comm.trans inner
            have back : ((next.subtrees.flatMap fun node => node.2.tops) ++ data :: next.tops).Perm
                (data :: next.labels) := List.perm_middle.trans (later.cons data)
            exact (front.append back).trans List.perm_middle

/-- **No label is a child of two nodes.** -/
theorem children_nodup {chain : Siblings α} (distinct : chain.labels.Nodup)
    {part : List (α × Siblings α)} (walked : part.Sublist chain.subtrees) :
    (part.flatMap fun node => node.2.tops).Nodup := by
  have all := (children_perm chain).nodup_iff.mpr distinct
  have within : (part.flatMap fun node => node.2.tops).Sublist
      (chain.subtrees.flatMap fun node => node.2.tops) := walked.flatMap _
  exact within.nodup (List.nodup_append.mp all).1

/-- No label is below itself. -/
theorem not_mem_own_labels {node : α × Siblings α} : ∀ {chain : Siblings α}, chain.labels.Nodup →
    node ∈ chain.subtrees → node.1 ∉ node.2.labels
  | .cons data children next, distinct, member => by
      rw [labels, List.nodup_cons, List.nodup_append] at distinct
      obtain ⟨fresh, inner, later, -⟩ := distinct
      rw [subtrees, List.mem_cons, List.mem_append] at member
      rcases member with rfl | inside | behind
      · intro own
        exact fresh (List.mem_append_left _ own)
      · exact not_mem_own_labels inner inside
      · exact not_mem_own_labels later behind

/-- **No label comes before its parent.** -/
theorem no_child_before_parent : ∀ {chain : Siblings α}, chain.labels.Nodup →
    chain.subtrees.Pairwise fun node later => node.1 ∉ later.2.tops
  | .nil, _ => List.Pairwise.nil
  | .cons data children next, distinct => by
      rw [labels, List.nodup_cons, List.nodup_append] at distinct
      obtain ⟨fresh, inner, later, apart⟩ := distinct
      have below {chain : Siblings α} {node : α × Siblings α} (member : node ∈ chain.subtrees) :
          node.2.tops ⊆ chain.labels := by
        intro label isTop
        rw [labels_eq_map_subtrees]
        have deeper := subtrees_trans member
        have top := tops_subset_labels node.2 isTop
        rw [labels_eq_map_subtrees] at top
        exact List.map_subset Prod.fst deeper top
      rw [subtrees, List.pairwise_cons, List.pairwise_append]
      refine ⟨?_, no_child_before_parent inner, no_child_before_parent later, ?_⟩
      · intro node member isChild
        apply fresh
        rw [List.mem_append] at member ⊢
        exact member.imp (fun inside => below inside isChild) fun inside => below inside isChild
      · intro node member node' member' isChild
        have label : node.1 ∈ children.labels := by
          rw [labels_eq_map_subtrees]
          exact List.mem_map_of_mem member
        exact apart node.1 label node.1 (below member' isChild) rfl

end Irestore.Library.Siblings
