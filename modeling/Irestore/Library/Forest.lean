/-
# Library.Forest — finding, pruning and amending trees by their labels

Operations on a chain of trees that go by a test on the labels, wherever the node
stands.

* `find` — the first node that passes, with its children.
* `prune` — the forest without the nodes that pass and all below them; `cut` lists the
  labels that went.
* `amend` — the children of the nodes that pass, changed.
* `EveryAt` — what holds of the children of the nodes that pass.
* `Exposed` — a chain of the forest that pruning does not reach from above.
-/
import Irestore.Library.Siblings
import Mathlib.Algebra.Order.Group.Multiset
import Mathlib.Tactic.Abel

namespace Irestore.Library.Siblings

set_option autoImplicit false

universe u v

variable {α : Type u} (p q : α → Bool)

def find : Siblings α → Option (α × Siblings α)
  | .nil => none
  | .cons a below next => if p a then some (a, below) else (below.find).or next.find

def prune : Siblings α → Siblings α
  | .nil => .nil
  | .cons a below next => if p a then next.prune else .cons a below.prune next.prune

def cut : Siblings α → List α
  | .nil => []
  | .cons a below next => if p a then a :: (below.labels ++ next.cut) else below.cut ++ next.cut

def amend (f : Siblings α → Siblings α) : Siblings α → Siblings α
  | .nil => .nil
  | .cons a below next => .cons a (if p a then f below else below.amend f) (next.amend f)

def EveryAt (P : Siblings α → Prop) : Siblings α → Prop
  | .nil => True
  | .cons a below next => (p a = true → P below) ∧ below.EveryAt P ∧ next.EveryAt P

/-- The chain with another put before its node number `n`, or at its end. -/
def insertAt : Nat → Siblings α → Siblings α → Siblings α
  | 0, item, chain => item.append chain
  | _ + 1, item, .nil => item
  | n + 1, item, .cons a below next => .cons a below (insertAt n item next)

/-! ## Labels -/

theorem labels_append : ∀ front back : Siblings α,
    (front.append back).labels = front.labels ++ back.labels
  | .nil, _ => rfl
  | .cons a below next, back => by
      simp only [append, labels, labels_append next back, List.cons_append, List.append_assoc]

variable {p q}

theorem find_eq_some : ∀ {forest : Siblings α} {tree : α × Siblings α},
    forest.find p = some tree → tree.1 ∈ forest.labels ∧ p tree.1 = true
  | .cons a below next, tree, found => by
      rw [find] at found
      split at found
      · rename_i passes
        cases found
        exact ⟨List.mem_cons_self, passes⟩
      · rcases Option.or_eq_some_iff.mp found with inBelow | ⟨-, inNext⟩
        · obtain ⟨member, passes⟩ := find_eq_some inBelow
          exact ⟨List.mem_cons_of_mem _ (List.mem_append_left _ member), passes⟩
        · obtain ⟨member, passes⟩ := find_eq_some inNext
          exact ⟨List.mem_cons_of_mem _ (List.mem_append_right _ member), passes⟩

theorem labels_of_find : ∀ {forest : Siblings α} {tree : α × Siblings α},
    forest.find p = some tree → tree.2.labels.Sublist forest.labels
  | .cons a below next, tree, found => by
      rw [find] at found
      rw [labels]
      split at found
      · cases found
        exact (List.sublist_append_left _ _).cons _
      · rcases Option.or_eq_some_iff.mp found with inBelow | ⟨-, inNext⟩
        · exact ((labels_of_find inBelow).trans (List.sublist_append_left _ _)).cons _
        · exact ((labels_of_find inNext).trans (List.sublist_append_right _ _)).cons _

theorem find_eq_none_iff : ∀ {forest : Siblings α},
    forest.find p = none ↔ ∀ a ∈ forest.labels, p a = false
  | .nil => by simp [find, labels]
  | .cons a below next => by
      rw [find, labels]
      cases test : p a with
      | true => simp [test]
      | false => simp [test, find_eq_none_iff, or_imp, forall_and]

theorem exists_find {forest : Siblings α} {a : α} (member : a ∈ forest.labels)
    (passes : p a = true) : ∃ tree, forest.find p = some tree := by
  cases found : forest.find p with
  | some tree => exact ⟨tree, rfl⟩
  | none => cases passes.symm.trans (find_eq_none_iff.mp found a member)

theorem find_append : ∀ front back : Siblings α,
    (front.append back).find p = (front.find p).or (back.find p)
  | .nil, _ => rfl
  | .cons a below next, back => by
      rw [append, find, find, find_append next back]
      split
      · rfl
      · rw [Option.or_assoc]

/-- A test of one value of a label passes at most once when the labels differ in it. -/
theorem countP_le_one {β : Type v} [DecidableEq β] {f : α → β} {labels : List α}
    (apart : (labels.map f).Nodup) {b : β} (only : ∀ a, p a = true → f a = b) :
    labels.countP p ≤ 1 :=
  calc labels.countP p
      ≤ labels.countP ((· == b) ∘ f) :=
        List.countP_mono_left fun a _ passes => by simp [only a passes]
    _ = (labels.map f).count b := by rw [List.count, List.countP_map]
    _ ≤ 1 := List.nodup_iff_count_le_one.mp apart b

theorem fails_of_countP {labels : List α} (zero : labels.countP p = 0) :
    ∀ a ∈ labels, p a = false := by
  simpa using List.countP_eq_zero.mp zero

theorem root_mem_labels : ∀ {forest : Siblings α} {tree : α × Siblings α},
    tree ∈ forest.toList → tree.1 ∈ forest.labels
  | .cons a below next, tree, root => by
      rw [toList, List.mem_cons] at root
      rcases root with rfl | later
      · exact List.mem_cons_self
      · exact List.mem_cons_of_mem _ (List.mem_append_right _ (root_mem_labels later))

theorem find_of_root : ∀ {forest : Siblings α} {tree : α × Siblings α},
    tree ∈ forest.toList → p tree.1 = true → forest.labels.countP p ≤ 1 →
      forest.find p = some tree
  | .cons a below next, tree, root, passes, once => by
      simp only [labels, List.countP_cons, List.countP_append] at once
      rw [toList, List.mem_cons] at root
      rw [find]
      rcases root with rfl | later
      · rw [if_pos passes]
      · have inNext := find_of_root later passes (by omega)
        have member := List.countP_pos_iff.mpr ⟨tree.1, (find_eq_some inNext).1, passes⟩
        have fails : p a = false := by
          by_contra other
          rw [Bool.not_eq_false] at other
          rw [if_pos other] at once
          omega
        rw [if_neg (by simp [fails]), find_eq_none_iff.mpr (fails_of_countP (by omega)),
          Option.none_or, inNext]

theorem everyAt_of_fails {P : Siblings α → Prop} : ∀ {forest : Siblings α},
    (∀ a ∈ forest.labels, p a = false) → forest.EveryAt p P
  | .nil, _ => trivial
  | .cons a below next, fails => by
      simp only [labels, List.mem_cons, List.mem_append] at fails
      exact ⟨fun passes => absurd (fails a (.inl rfl)) (by simp [passes]),
        everyAt_of_fails fun b member => fails b (.inr (.inl member)),
        everyAt_of_fails fun b member => fails b (.inr (.inr member))⟩

/-- What holds at the one node found holds at every node that passes a stronger test. -/
theorem everyAt_of_find {P : Siblings α → Prop} (stronger : ∀ a, q a = true → p a = true) :
    ∀ {forest : Siblings α} {tree : α × Siblings α}, forest.find p = some tree → P tree.2 →
      forest.labels.countP p ≤ 1 → forest.EveryAt q P
  | .cons a below next, tree, found, holds, once => by
      have apart {rest : List α} (zero : rest.countP p = 0) : ∀ b ∈ rest, q b = false := by
        intro b member
        by_contra passes
        rw [Bool.not_eq_false] at passes
        cases (fails_of_countP zero b member).symm.trans (stronger b passes)
      simp only [labels, List.countP_cons, List.countP_append] at once
      rw [find] at found
      split at found
      · rename_i passes
        cases found
        rw [if_pos passes] at once
        exact ⟨fun _ => holds, everyAt_of_fails (apart (by omega)),
          everyAt_of_fails (apart (by omega))⟩
      · rename_i fails
        refine ⟨fun passes => absurd (stronger a passes) fails, ?_⟩
        rcases Option.or_eq_some_iff.mp found with inBelow | ⟨-, inNext⟩
        · have one := List.countP_pos_iff.mpr ⟨tree.1, find_eq_some inBelow⟩
          exact ⟨everyAt_of_find stronger inBelow holds (by omega),
            everyAt_of_fails (apart (by omega))⟩
        · have one := List.countP_pos_iff.mpr ⟨tree.1, find_eq_some inNext⟩
          exact ⟨everyAt_of_fails (apart (by omega)),
            everyAt_of_find stronger inNext holds (by omega)⟩

/-- What is found below a node that is found is found from above, when one node passes. -/
theorem find_find : ∀ {forest : Siblings α} {outer inner : α × Siblings α},
    forest.find q = some outer → outer.2.find p = some inner → forest.labels.countP p ≤ 1 →
      forest.find p = some inner
  | .cons a below next, outer, inner, found, within, once => by
      simp only [labels, List.countP_cons, List.countP_append] at once
      rw [find] at found
      have lift {tree : α × Siblings α} {rest : List α} (member : tree.1 ∈ rest)
          (passes : p tree.1 = true) : 0 < rest.countP p :=
        List.countP_pos_iff.mpr ⟨tree.1, member, passes⟩
      rw [find]
      split at found
      · cases found
        have one : 0 < below.labels.countP p :=
          lift (find_eq_some within).1 (find_eq_some within).2
        split
        · rename_i also
          rw [if_pos also] at once
          omega
        · rw [within, Option.some_or]
      · rcases Option.or_eq_some_iff.mp found with inBelow | ⟨-, inNext⟩
        · have again := find_find inBelow within (by omega)
          have one := lift (find_eq_some again).1 (find_eq_some again).2
          split
          · rename_i also
            rw [if_pos also] at once
            omega
          · rw [again, Option.some_or]
        · have again := find_find inNext within (by omega)
          have one := lift (find_eq_some again).1 (find_eq_some again).2
          split
          · rename_i also
            rw [if_pos also] at once
            omega
          · rw [find_eq_none_iff.mpr (fails_of_countP (by omega)), Option.none_or, again]

/-! ## Pruning -/

theorem prune_eq_self : ∀ {forest : Siblings α}, (∀ a ∈ forest.labels, p a = false) →
    forest.prune p = forest
  | .nil, _ => rfl
  | .cons a below next, fails => by
      simp only [labels, List.mem_cons, List.mem_append] at fails
      rw [prune, if_neg (by simp [fails a (.inl rfl)]),
        prune_eq_self fun b member => fails b (.inr (.inl member)),
        prune_eq_self fun b member => fails b (.inr (.inr member))]

theorem labels_prune_sublist : ∀ forest : Siblings α,
    (forest.prune p).labels.Sublist forest.labels
  | .nil => .refl _
  | .cons a below next => by
      rw [prune, labels]
      split
      · exact ((labels_prune_sublist next).trans (List.sublist_append_right _ _)).cons _
      · exact ((labels_prune_sublist below).append (labels_prune_sublist next)).cons_cons _

theorem root_mem_prune : ∀ {forest : Siblings α} {tree : α × Siblings α},
    tree ∈ forest.toList → p tree.1 = false → (tree.1, tree.2.prune p) ∈ (forest.prune p).toList
  | .cons a below next, tree, root, kept => by
      rw [toList, List.mem_cons] at root
      rw [prune]
      rcases root with rfl | later
      · rw [if_neg (by simp [kept])]
        exact List.mem_cons_self
      · have inNext := root_mem_prune later kept
        split
        · exact inNext
        · exact List.mem_cons_of_mem _ inNext

theorem length_prune : ∀ {forest : Siblings α},
    (∀ tree ∈ forest.toList, p tree.1 = false) → (forest.prune p).length = forest.length
  | .nil, _ => rfl
  | .cons a below next, kept => by
      rw [prune, if_neg (by simp [kept (a, below) List.mem_cons_self]), length, length,
        length_prune fun tree root => kept tree (List.mem_cons_of_mem _ root)]

/-- The tree of a node that goes is cut whole. -/
theorem find_subset_cut : ∀ {forest : Siblings α} {tree : α × Siblings α},
    forest.find p = some tree → tree.1 :: tree.2.labels ⊆ forest.cut p
  | .cons a below next, tree, found => by
      rw [find] at found
      rw [cut]
      split at found
      · rename_i passes
        cases found
        rw [if_pos passes]
        exact List.cons_subset_cons _ (List.subset_append_left _ _)
      · rename_i fails
        rw [if_neg fails]
        rcases Option.or_eq_some_iff.mp found with inBelow | ⟨-, inNext⟩
        · exact List.subset_append_of_subset_left _ (find_subset_cut inBelow)
        · exact List.subset_append_of_subset_right _ (find_subset_cut inNext)

/-- Pruning below a node changes what is below it, and nothing above. -/
theorem find_prune_within : ∀ {forest : Siblings α} {tree : α × Siblings α},
    forest.find q = some tree → forest.labels.Nodup →
      (∀ a ∈ forest.labels, p a = true → a ∈ tree.2.labels) →
        (forest.prune p).find q = some (tree.1, tree.2.prune p)
  | .cons a below next, tree, found, apart, within => by
      simp only [labels, List.nodup_cons, List.mem_append, not_or, List.nodup_append] at apart
      simp only [labels, List.mem_cons, List.mem_append] at within
      rw [find] at found
      rw [prune]
      split at found
      · rename_i here
        cases found
        rw [if_neg fun passes => apart.1.1 (within a (.inl rfl) passes), find, if_pos here]
      · rename_i elsewhere
        rcases Option.or_eq_some_iff.mp found with inBelow | ⟨absent, inNext⟩
        · have inside : tree.2.labels ⊆ below.labels := (labels_of_find inBelow).subset
          rw [if_neg fun passes => apart.1.1 (inside (within a (.inl rfl) passes)), find,
            if_neg elsewhere, find_prune_within inBelow apart.2.1
              (fun b member => within b (.inr (.inl member))), Option.some_or]
        · have inside : tree.2.labels ⊆ next.labels := (labels_of_find inNext).subset
          have kept : below.prune p = below := prune_eq_self fun b member => by
            by_contra passes
            rw [Bool.not_eq_false] at passes
            exact apart.2.2.2 b member b (inside (within b (.inr (.inl member)) passes)) rfl
          rw [if_neg fun passes => apart.1.2 (inside (within a (.inl rfl) passes)), find,
            if_neg elsewhere, kept, absent, Option.none_or,
            find_prune_within inNext apart.2.2.1 fun b member => within b (.inr (.inr member))]

theorem prune_prune : ∀ forest : Siblings α,
    (forest.prune q).prune p = forest.prune fun a => q a || p a
  | .nil => rfl
  | .cons a below next => by
      rw [prune, prune]
      cases first : q a with
      | true => simp only [Bool.true_or, if_true, prune_prune next]
      | false =>
        simp only [Bool.false_or, Bool.false_eq_true, if_false]
        rw [prune, prune_prune below, prune_prune next]

/-- Pruning a root without children leaves every other node where it is. -/
theorem find_prune_leaf (other : ∀ a, p a = true → q a = false) :
    ∀ {forest : Siblings α} {a : α} {tree : α × Siblings α}, (a, .nil) ∈ forest.toList →
      p a = true → forest.labels.countP p ≤ 1 → forest.find q = some tree →
        (forest.prune p).find q = some tree
  | .cons b below next, a, tree, root, passes, once, found => by
      simp only [labels, List.countP_cons, List.countP_append] at once
      rw [toList, List.mem_cons] at root
      rcases root with here | later
      · cases here
        rw [if_pos passes] at once
        rw [find, if_neg (by simp [other b passes])] at found
        rw [prune, if_pos passes, prune_eq_self (fails_of_countP (by omega))]
        exact found
      · have inNext := List.countP_pos_iff.mpr
          ⟨a, (find_eq_some (find_of_root later passes (by omega))).1, passes⟩
        have fails : p b = false := by
          by_contra also
          rw [Bool.not_eq_false] at also
          rw [if_pos also] at once
          omega
        rw [prune, if_neg (by simp [fails]), prune_eq_self (fails_of_countP (by omega)), find]
        rw [find] at found
        split at found
        · rename_i here
          rw [if_pos here, found]
        · rename_i elsewhere
          rw [if_neg elsewhere]
          rcases Option.or_eq_some_iff.mp found with inBelow | ⟨absent, further⟩
          · rw [inBelow, Option.some_or]
          · rw [absent, Option.none_or]
            exact find_prune_leaf other later passes (by omega) further

theorem prune_comm (forest : Siblings α) :
    (forest.prune q).prune p = (forest.prune p).prune q := by
  rw [prune_prune, prune_prune]
  congr 1
  funext a
  exact Bool.or_comm _ _

/-- **Nothing is lost by pruning**: the labels kept and those cut are all. -/
theorem labels_prune : ∀ forest : Siblings α,
    ((forest.prune p).labels : Multiset α) + forest.cut p = forest.labels
  | .nil => rfl
  | .cons a below next => by
      have inner := labels_prune below
      have rest := labels_prune next
      rw [prune, cut, labels]
      simp only [← Multiset.cons_coe, ← Multiset.coe_add, ← Multiset.singleton_add, ← inner,
        ← rest]
      split
      · simp only [← Multiset.cons_coe, ← Multiset.coe_add, ← Multiset.singleton_add, ← inner]
        abel
      · simp only [labels, ← Multiset.cons_coe, ← Multiset.coe_add, ← Multiset.singleton_add]
        abel

/-! ## Amending -/

theorem amend_eq_self {f : Siblings α → Siblings α} : ∀ {forest : Siblings α},
    (∀ a ∈ forest.labels, p a = false) → forest.amend p f = forest
  | .nil, _ => rfl
  | .cons a below next, fails => by
      simp only [labels, List.mem_cons, List.mem_append] at fails
      rw [amend, if_neg (by simp [fails a (.inl rfl)]),
        amend_eq_self fun b member => fails b (.inr (.inl member)),
        amend_eq_self fun b member => fails b (.inr (.inr member))]

theorem find_amend_none {f : Siblings α → Siblings α} (stronger : ∀ a, p a = true → q a = true)
    {forest : Siblings α} (absent : forest.find q = none) : (forest.amend p f).find q = none := by
  have fails := find_eq_none_iff.mp absent
  rw [amend_eq_self fun a member => ?_]
  · exact absent
  · by_contra passes
    rw [Bool.not_eq_false] at passes
    cases (fails a member).symm.trans (stronger a passes)

/-- An amended node is found where it was. -/
theorem find_amend {f : Siblings α → Siblings α} (stronger : ∀ a, p a = true → q a = true) :
    ∀ {forest : Siblings α} {tree : α × Siblings α}, forest.find q = some tree →
      p tree.1 = true → (forest.amend p f).find q = some (tree.1, f tree.2)
  | .cons a below next, tree, found, passes => by
      rw [find] at found
      rw [amend, find]
      split at found
      · rename_i here
        cases found
        rw [if_pos here, if_pos passes]
      · rename_i elsewhere
        rw [if_neg elsewhere, if_neg fun also => elsewhere (stronger a also)]
        rcases Option.or_eq_some_iff.mp found with inBelow | ⟨absent, inNext⟩
        · rw [find_amend stronger inBelow passes, Option.some_or]
        · rw [find_amend_none stronger absent, Option.none_or, find_amend stronger inNext passes]

/-- A change that adds labels to the children of a node adds them to the forest, when one
node passes. -/
theorem labels_amend {f : Siblings α → Siblings α} {added : List α}
    (adds : ∀ below, ((f below).labels : Multiset α) = below.labels + added) :
    ∀ {forest : Siblings α}, forest.labels.countP p = 1 →
      ((forest.amend p f).labels : Multiset α) = forest.labels + added
  | .nil, one => by simp [labels] at one
  | .cons a below next, one => by
      simp only [labels, List.countP_cons, List.countP_append] at one
      rw [amend]
      simp only [labels, ← Multiset.cons_coe, ← Multiset.coe_add, ← Multiset.singleton_add]
      split
      · rename_i passes
        rw [if_pos passes] at one
        rw [@amend_eq_self _ _ _ next (fails_of_countP (by omega)), adds]
        abel
      · rename_i fails
        rw [if_neg fails] at one
        rcases Nat.eq_zero_or_pos (below.labels.countP p) with zero | positive
        · rw [amend_eq_self (fails_of_countP zero), labels_amend adds (by omega)]
          abel
        · rw [@amend_eq_self _ _ _ next (fails_of_countP (by omega)), labels_amend adds (by omega)]
          abel

theorem labels_insertAt : ∀ (n : Nat) (item chain : Siblings α),
    ((insertAt n item chain).labels : Multiset α) = chain.labels + item.labels
  | 0, item, chain => by
      rw [insertAt, labels_append, ← Multiset.coe_add]
      abel
  | _ + 1, item, .nil => by
      rw [insertAt]
      simp [labels]
  | n + 1, item, .cons a below next => by
      rw [insertAt]
      simp only [labels, ← Multiset.cons_coe, ← Multiset.coe_add, ← Multiset.singleton_add,
        labels_insertAt n item next]
      abel

/-! ## Exposed chains -/

/-- The chain stands in the forest, and no node above it is to be pruned. -/
inductive Exposed (p : α → Bool) (chain : Siblings α) : Siblings α → Prop
  | here : Exposed p chain chain
  | child {a : α} {below next : Siblings α} (kept : p a = false) (inner : Exposed p chain below) :
      Exposed p chain (.cons a below next)
  | later {a : α} {below next : Siblings α} (inner : Exposed p chain next) :
      Exposed p chain (.cons a below next)

namespace Exposed

variable {chain forest : Siblings α}

theorem labels_sublist (exposed : Exposed p chain forest) :
    chain.labels.Sublist forest.labels := by
  induction exposed with
  | here => exact .refl _
  | child kept inner ih => exact (ih.trans (List.sublist_append_left _ _)).cons _
  | later inner ih => exact (ih.trans (List.sublist_append_right _ _)).cons _

/-- What pruning leaves of the chain is still in the forest. -/
theorem mem_prune (exposed : Exposed p chain forest) {a : α} (member : a ∈ (chain.prune p).labels) :
    a ∈ (forest.prune p).labels := by
  induction exposed with
  | here => exact member
  | child kept inner ih =>
    rw [prune, if_neg (by simp [kept])]
    exact List.mem_cons_of_mem _ (List.mem_append_left _ ih)
  | later inner ih =>
    rw [prune]
    split
    · exact ih
    · exact List.mem_cons_of_mem _ (List.mem_append_right _ ih)

/-- Pruning within the chain too leaves it exposed. -/
theorem of_within (exposed : Exposed p chain forest) {r : α → Bool}
    (within : ∀ a ∈ forest.labels, r a = true → p a = true ∨ a ∈ chain.labels)
    (apart : forest.labels.Nodup) : Exposed r chain forest := by
  induction exposed with
  | here => exact .here
  | @child a below next kept inner ih =>
    simp only [labels, List.nodup_cons, List.mem_append, not_or, List.nodup_append] at apart
    refine .child ?_ (ih (fun b member => within b (List.mem_cons_of_mem _
      (List.mem_append_left _ member))) apart.2.1)
    by_contra pruned
    rw [Bool.not_eq_false] at pruned
    rcases within a List.mem_cons_self pruned with already | inChain
    · cases kept.symm.trans already
    · exact apart.1.1 (inner.labels_sublist.subset inChain)
  | @later a below next inner ih =>
    simp only [labels, List.nodup_cons, List.nodup_append] at apart
    exact .later (ih (fun b member => within b (List.mem_cons_of_mem _
      (List.mem_append_right _ member))) apart.2.2.1)

theorem children {a : α} {below next : Siblings α}
    (exposed : Exposed p (.cons a below next) forest) (kept : p a = false) :
    Exposed p below forest := by
  induction exposed with
  | here => exact .child kept .here
  | child kept' inner ih => exact .child kept' ih
  | later inner ih => exact .later ih

theorem rest {a : α} {below next : Siblings α}
    (exposed : Exposed p (.cons a below next) forest) : Exposed p next forest := by
  induction exposed with
  | here => exact .later .here
  | child kept' inner ih => exact .child kept' ih
  | later inner ih => exact .later ih

/-- What is exposed below a node that is found, when nothing is to be pruned. -/
theorem of_find (none : ∀ a, p a = false) : ∀ {forest : Siblings α} {tree : α × Siblings α},
    forest.find q = some tree → Exposed p chain tree.2 → Exposed p chain forest
  | .cons a below next, tree, found, exposed => by
      rw [find] at found
      split at found
      · cases found
        exact .child (none a) exposed
      · rcases Option.or_eq_some_iff.mp found with inBelow | ⟨-, inNext⟩
        · exact .child (none a) (of_find none inBelow exposed)
        · exact .later (of_find none inNext exposed)

theorem of_root : ∀ {forest : Siblings α} {tree : α × Siblings α}, tree ∈ forest.toList →
    ∃ next, Exposed p (.cons tree.1 tree.2 next) forest
  | .cons a below next, tree, root => by
      rw [toList, List.mem_cons] at root
      rcases root with rfl | later
      · exact ⟨next, .here⟩
      · obtain ⟨next', exposed⟩ := of_root later
        exact ⟨next', .later exposed⟩

end Exposed

end Irestore.Library.Siblings
