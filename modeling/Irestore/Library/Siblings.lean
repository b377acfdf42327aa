/-
# Library.Siblings — trees in first-child / next-sibling form

A `Siblings α` is a chain of nodes: each node carries its data, the chain of its
children and the chain of the nodes after it.  A pointer to a node of a C tree
whose nodes hold `children` and `next` pointers is such a chain, `nil` the null
pointer; a tree is a chain of one node.

* `toList` / `ofList` — the chain as the list of its (data, children) pairs.
* `append` — a chain put behind another one.
* `labels` — the data of every node, in the order a depth-first walk meets them.
* `traverse` — a partial map of every node's data, defined when it is defined at
  every node.
* `collect` — the chain of a list of trees, when all of them are there.
-/
import Mathlib.Algebra.Order.Ring.Nat
import Mathlib.Data.List.Basic
import Mathlib.Tactic.Common

namespace Irestore.Library

set_option autoImplicit false

universe u v

/-- A chain of sibling nodes. -/
inductive Siblings (α : Type u) where
  | nil
  | cons (data : α) (children next : Siblings α)
  deriving DecidableEq, Repr

namespace Siblings

variable {α : Type u} {β : Type v}

/-- The nodes of the chain, each with the chain of its children. -/
def toList : Siblings α → List (α × Siblings α)
  | .nil => []
  | .cons data children next => (data, children) :: next.toList

def ofList : List (α × Siblings α) → Siblings α
  | [] => .nil
  | (data, children) :: rest => .cons data children (ofList rest)

/-- How many nodes the chain has, their children not counted. -/
def length : Siblings α → Nat
  | .nil => 0
  | .cons _ _ next => next.length + 1

def append : Siblings α → Siblings α → Siblings α
  | .nil, back => back
  | .cons data children next, back => .cons data children (next.append back)

def map (f : α → β) : Siblings α → Siblings β
  | .nil => .nil
  | .cons data children next => .cons (f data) (children.map f) (next.map f)

/-- The data of every node of the chain and below it, depth first. -/
def labels : Siblings α → List α
  | .nil => []
  | .cons data children next => data :: (children.labels ++ next.labels)

/-- Apply a partial map to every node's data; `none` as soon as it is undefined. -/
def traverse (f : α → Option β) : Siblings α → Option (Siblings β)
  | .nil => some .nil
  | .cons data children next =>
      match f data, children.traverse f, next.traverse f with
      | some data', some children', some next' => some (.cons data' children' next')
      | _, _, _ => none

/-- The chain of the trees, when none is missing. -/
def collect : List (Option (α × Siblings α)) → Option (Siblings α)
  | [] => some .nil
  | tree :: rest => do
      let (data, children) ← tree
      let next ← collect rest
      return .cons data children next

@[simp] theorem ofList_toList : ∀ chain : Siblings α, ofList chain.toList = chain
  | .nil => rfl
  | .cons _ _ next => by simp [toList, ofList, ofList_toList next]

@[simp] theorem toList_ofList : ∀ nodes : List (α × Siblings α), (ofList nodes).toList = nodes
  | [] => rfl
  | _ :: rest => by simp [toList, ofList, toList_ofList rest]

@[simp] theorem length_toList : ∀ chain : Siblings α, chain.toList.length = chain.length
  | .nil => rfl
  | .cons _ _ next => by simp [toList, length, length_toList next]

theorem append_nil : ∀ chain : Siblings α, chain.append .nil = chain
  | .nil => rfl
  | .cons _ _ next => by simp [append, append_nil next]

@[simp] theorem toList_append : ∀ front back : Siblings α,
    (front.append back).toList = front.toList ++ back.toList
  | .nil, _ => rfl
  | .cons _ _ next, back => by simp [append, toList, toList_append next back]

theorem collect_eq_some : ∀ {trees : List (Option (α × Siblings α))} {chain : Siblings α},
    collect trees = some chain ↔ trees = chain.toList.map some
  | [], chain => by cases chain <;> simp [collect, toList]
  | tree :: rest, .nil => by
      cases tree <;> cases collected : collect rest <;> simp [collect, collected, toList]
  | tree :: rest, .cons data children next => by
      have tail := @collect_eq_some rest next
      rw [toList, List.map_cons, List.cons.injEq, ← tail]
      cases tree with
      | none => simp [collect]
      | some node =>
        cases collected : collect rest <;> simp [collect, collected, Prod.ext_iff, and_assoc]

/-- Trees that are all there have a chain. -/
theorem exists_collect {γ : Type v} {f : γ → Option (α × Siblings α)} {xs : List γ}
    (each : ∀ x ∈ xs, ∃ tree, f x = some tree) :
    ∃ chain : Siblings α, xs.map f = chain.toList.map some := by
  induction xs with
  | nil => exact ⟨.nil, rfl⟩
  | cons x xs ih =>
    obtain ⟨⟨data, children⟩, first⟩ := each x (by simp)
    obtain ⟨next, later⟩ := ih fun y member => each y (by simp [member])
    exact ⟨.cons data children next, by simp [toList, first, later]⟩

theorem traverse_cons {f : α → Option β} {data : α} {children next : Siblings α}
    {image : Siblings β} :
    (Siblings.cons data children next).traverse f = some image ↔
      ∃ data' children' next', image = .cons data' children' next' ∧ f data = some data' ∧
        children.traverse f = some children' ∧ next.traverse f = some next' := by
  simp only [traverse]
  constructor
  · intro mapped
    split at mapped
    · rename_i data' children' next' hd hc hn
      exact ⟨data', children', next', (Option.some.inj mapped).symm, hd, hc, hn⟩
    · cases mapped
  · rintro ⟨data', children', next', rfl, hd, hc, hn⟩
    rw [hd, hc, hn]

end Siblings

end Irestore.Library
