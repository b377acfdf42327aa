/-
# Library.HashTable — a hash table whose probe order is unspecified

A table is the list of its (key, value) entries in order of insertion.  A
lookup compares the key it is given, one by one, with the stored keys of the
same hash and returns the value of the first one the (memory-checked) equality
accepts.  In which order it meets them is the table's business: `Probing` is any
such order.

* `lookup_eq_none` — nothing is found exactly when every stored key of that hash
  compares unequal.
* `lookup_eq_some` — what is found belongs to a stored key of that hash that
  compares equal.
* `lookup_ends` — a lookup ends when all its comparisons do.
* `ends_of_first` — and in some order, that of `Probing.first`, only when a given one
  does.
* `lookup_found` — a lookup that ends finds something when a stored key compares equal.
* `Apart.insert` — a key that is not found can be inserted beside those that compare
  unequal.
-/
import Irestore.Library.CMemory
import Mathlib.Data.List.Pairwise

namespace Irestore.Library.HashTable

open Irestore.Library.CMemory

set_option autoImplicit false

variable {K V H : Type} [DecidableEq H] {hash : K → H}

/-- The order in which a lookup meets the stored keys of one hash. -/
structure Probing (K V : Type) {H : Type} [DecidableEq H] (hash : K → H) where
  order : List (K × V) → K → List (K × V)
  perm : ∀ table key,
    (order table key).Perm (table.filter fun entry => decide (hash entry.1 = hash key))

/-- The order of insertion. -/
def Probing.insertion (K V : Type) {H : Type} [DecidableEq H] (hash : K → H) :
    Probing K V hash where
  order table key := table.filter fun entry => decide (hash entry.1 = hash key)
  perm _ _ := List.Perm.refl _

/-- One key first, where it is stored, and then the others in order of insertion. -/
def Probing.first [DecidableEq K] (V : Type) (hash : K → H) (stored : K) : Probing K V hash where
  order table key :=
    let entries := table.filter fun entry => decide (hash entry.1 = hash key)
    entries.filter (fun entry => decide (entry.1 = stored)) ++
      entries.filter fun entry => !decide (entry.1 = stored)
  perm _ _ := List.filter_append_perm _ _

def find (equal : K → K → Checked Bool) : List (K × V) → K → Checked (Option V)
  | [], _ => .ok none
  | (stored, value) :: rest, key => do
      if ← equal stored key then return some value else find equal rest key

def lookup (probing : Probing K V hash) (equal : K → K → Checked Bool)
    (table : List (K × V)) (key : K) : Checked (Option V) :=
  find equal (probing.order table key) key

variable {equal : K → K → Checked Bool}

theorem find_cons {stored : K} {value : V} {rest : List (K × V)} {key : K} {b : Bool}
    (compared : equal stored key = .ok b) :
    find equal ((stored, value) :: rest) key = if b then .ok (some value) else find equal rest key := by
  simp only [find, compared]
  cases b <;> rfl

theorem find_eq_none {entries : List (K × V)} {key : K} :
    find equal entries key = .ok none ↔ ∀ entry ∈ entries, equal entry.1 key = .ok false := by
  induction entries with
  | nil => simp [find]
  | cons entry rest ih =>
    obtain ⟨stored, value⟩ := entry
    cases compared : equal stored key with
    | error fault => simp [find, compared, bind, Except.bind]
    | ok b =>
      rw [find_cons compared]
      cases b with
      | true => simp [compared]
      | false => simp [compared, ih]

theorem find_eq_some {entries : List (K × V)} {key : K} {value : V}
    (found : find equal entries key = .ok (some value)) :
    ∃ stored, (stored, value) ∈ entries ∧ equal stored key = .ok true := by
  induction entries with
  | nil => simp [find] at found
  | cons entry rest ih =>
    obtain ⟨stored, value'⟩ := entry
    cases compared : equal stored key with
    | error fault => simp [find, compared, bind, Except.bind] at found
    | ok b =>
      rw [find_cons compared] at found
      cases b with
      | true =>
        simp only [if_true, Except.ok.injEq, Option.some.injEq] at found
        exact ⟨stored, by simp [found], compared⟩
      | false =>
        obtain ⟨stored', member, accepted⟩ := ih (by simpa using found)
        exact ⟨stored', by simp [member], accepted⟩

theorem find_ends {entries : List (K × V)} {key : K}
    (ends : ∀ entry ∈ entries, Ends (equal entry.1 key)) : Ends (find equal entries key) := by
  induction entries with
  | nil => exact ⟨none, rfl⟩
  | cons entry rest ih =>
    obtain ⟨stored, value⟩ := entry
    obtain ⟨b, compared⟩ := ends (stored, value) (by simp)
    rw [find_cons compared]
    cases b with
    | true => exact ⟨some value, rfl⟩
    | false => simpa using ih fun entry member => ends entry (by simp [member])

variable (probing : Probing K V hash) {table : List (K × V)} {key : K}

theorem mem_order {entry : K × V} :
    entry ∈ probing.order table key ↔ entry ∈ table ∧ hash entry.1 = hash key := by
  rw [(probing.perm table key).mem_iff]
  simp

theorem lookup_eq_none :
    lookup probing equal table key = .ok none ↔
      ∀ entry ∈ table, hash entry.1 = hash key → equal entry.1 key = .ok false := by
  rw [lookup, find_eq_none]
  simp only [mem_order, and_imp]

theorem lookup_eq_some {value : V} (found : lookup probing equal table key = .ok (some value)) :
    ∃ stored, (stored, value) ∈ table ∧ hash stored = hash key ∧ equal stored key = .ok true := by
  obtain ⟨stored, member, accepted⟩ := find_eq_some found
  obtain ⟨inTable, sameHash⟩ := (mem_order probing).mp member
  exact ⟨stored, inTable, sameHash, accepted⟩

theorem lookup_ends
    (ends : ∀ entry ∈ table, hash entry.1 = hash key → Ends (equal entry.1 key)) :
    Ends (lookup probing equal table key) :=
  find_ends fun entry member =>
    ends entry ((mem_order probing).mp member).1 ((mem_order probing).mp member).2

/-- A lookup that ends finds something when a stored key of that hash compares equal. -/
theorem lookup_found {stored : K} {value : V} (member : (stored, value) ∈ table)
    (sameHash : hash stored = hash key) (accepted : equal stored key = .ok true)
    (ends : Ends (lookup probing equal table key)) :
    ∃ found, lookup probing equal table key = .ok (some found) := by
  obtain ⟨answer, run⟩ := ends
  cases answer with
  | some found => exact ⟨found, run⟩
  | none =>
    have rejected := (lookup_eq_none probing).mp run (stored, value) member sameHash
    cases accepted.symm.trans rejected

/-- **In an order that begins with a stored key a lookup ends only when the comparison with
that key does.** -/
theorem ends_of_first [DecidableEq K] {stored : K} {value : V} (member : (stored, value) ∈ table)
    (sameHash : hash stored = hash key)
    (ends : Ends (lookup (Probing.first V hash stored) equal table key)) :
    Ends (equal stored key) := by
  have inFront : (stored, value) ∈
      (table.filter fun entry => decide (hash entry.1 = hash key)).filter
        fun entry => decide (entry.1 = stored) := by
    simp [member, sameHash]
  rw [lookup, Probing.first] at ends
  obtain ⟨entry, rest, split⟩ := List.exists_cons_of_ne_nil (List.ne_nil_of_mem inFront)
  have isStored : entry.1 = stored := by
    have first : entry ∈ (table.filter fun entry => decide (hash entry.1 = hash key)).filter
        fun entry => decide (entry.1 = stored) := split ▸ List.mem_cons_self
    simpa using (List.mem_filter.mp first).2
  obtain ⟨stored', value'⟩ := entry
  subst isStored
  simp only [split, List.cons_append, find] at ends
  obtain ⟨b, compared, -⟩ := ends_bind_iff.mp ends
  exact ⟨b, compared⟩

/-! ## Tables whose keys compare unequal -/

/-- No stored key of one hash compares equal with a later one. -/
def Apart (hash : K → H) (equal : K → K → Checked Bool) (table : List (K × V)) : Prop :=
  table.Pairwise fun entry later => hash entry.1 = hash later.1 → equal entry.1 later.1 = .ok false

/-- A key that is not found can be inserted. -/
theorem Apart.insert (apart : Apart hash equal table)
    (absent : lookup probing equal table key = .ok none) (value : V) :
    Apart hash equal (table ++ [(key, value)]) := by
  rw [Apart, List.pairwise_append]
  refine ⟨apart, List.pairwise_singleton _ _, ?_⟩
  intro entry stored new isNew sameHash
  rw [List.mem_singleton] at isNew
  subst isNew
  exact (lookup_eq_none probing).mp absent entry stored sameHash

end Irestore.Library.HashTable
