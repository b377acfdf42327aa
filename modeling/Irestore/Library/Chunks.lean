/-
# Library.Chunks — a list in pieces of one size

`chunk size xs i` is what a loop takes from `xs` in round `i`: up to `size` elements from
position `i * size` on.

* `flatten_chunks` — the chunks of so many rounds, one behind the other.
* `length_chunk` — all of them are full but the one that the list ends in.
-/
import Mathlib.Data.List.Basic

namespace Irestore.Library

set_option autoImplicit false

universe u

variable {α : Type u}

def chunk (size : Nat) (xs : List α) (i : Nat) : List α := (xs.drop (i * size)).take size

/-- The chunks of the first `n` rounds. -/
def chunks (size n : Nat) (xs : List α) : List (List α) := (List.range n).map (chunk size xs)

theorem length_chunk (size : Nat) (xs : List α) (i : Nat) :
    (chunk size xs i).length = min size (xs.length - i * size) := by
  rw [chunk, List.length_take, List.length_drop]

theorem chunk_subset (size : Nat) (xs : List α) (i : Nat) : chunk size xs i ⊆ xs :=
  fun _ member => List.mem_of_mem_drop (List.mem_of_mem_take member)

theorem length_chunk_of_le {size i : Nat} {xs : List α} (inside : (i + 1) * size ≤ xs.length) :
    (chunk size xs i).length = size := by
  rw [Nat.succ_mul] at inside
  rw [length_chunk]
  omega

theorem chunks_succ (size n : Nat) (xs : List α) :
    chunks size (n + 1) xs = chunks size n xs ++ [chunk size xs n] := by
  rw [chunks, List.range_succ, List.map_append]
  rfl

theorem flatten_chunks (size n : Nat) (xs : List α) :
    (chunks size n xs).flatten = xs.take (n * size) := by
  induction n with
  | zero => rw [Nat.zero_mul, List.take_zero]; rfl
  | succ n ih =>
    rw [chunks_succ, List.flatten_concat, ih, Nat.succ_mul, List.take_add]
    rfl

end Irestore.Library
