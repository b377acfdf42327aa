/-
# Plist.XmlFormat — `format_string`, the indentation of data in XML

`format_string` cuts a text into lines of `cols` columns and writes each, behind a
newline and `depth` tabs, into one zeroed buffer.

* `formatString_eq` — what it returns, and when its `int`s overflow.
* `filter_formatted` — without its blanks the result is the text.
* `formatString_layout` — the block it allocates and the lines of the text in it.
-/
import Irestore.Library.Chunks
import Irestore.Library.CMemory

namespace Irestore.Plist

open Irestore.Library Irestore.Library.CMemory

set_option autoImplicit false

/-- One round of the loop of `format_string`. -/
def formatLine (buf : List UInt8) (cols depth colw len : Nat) (newBuf : List UInt8) (i : Nat) :
    Checked (List UInt8) := do
  let newBuf ← store newBuf (i * colw) [10]
  let newBuf ← store newBuf (i * colw + 1) (List.replicate depth 9)
  let piece ← memcpy (buf.drop (i * cols)) (if (i + 1) * cols ≤ len then cols else len - i * cols)
  store newBuf (i * colw + 1 + depth) piece

/-- The block that `format_string` fills; the text is a string's, without its NUL. -/
def formatBlock (buf : List UInt8) (cols depth : Nat) : Checked (List UInt8) := do
  let colw ← int (depth + cols + 1)
  let len ← int buf.length
  let nlines := len / cols + 1
  let size ← int (nlines * colw + depth + 1)
  let newBuf ← (List.range nlines).foldlM (formatLine buf cols depth colw len)
    (List.replicate size 0)
  -- the final row of indentation and the terminator
  let newBuf ← store newBuf (len + (1 + depth) * nlines) [10]
  let newBuf ← store newBuf (len + (1 + depth) * nlines + 1) (List.replicate depth 9)
  store newBuf (len + (1 + depth) * nlines + depth + 1) [0]

/-- `format_string`: what its caller sees of the block. -/
def formatString (buf : List UInt8) (cols depth : Nat) : Checked (List UInt8) := do
  let block ← formatBlock buf cols depth
  return cString block

/-! ## What it returns -/

/-- A line and its indentation. -/
def line (buf : List UInt8) (cols depth i : Nat) : List UInt8 :=
  10 :: List.replicate depth 9 ++ (buf.drop (i * cols)).take cols

/-- The lines before the `n`th. -/
def lines (buf : List UInt8) (cols depth n : Nat) : List UInt8 :=
  (List.range n).flatMap (line buf cols depth)

def formatted (buf : List UInt8) (cols depth : Nat) : List UInt8 :=
  lines buf cols depth (buf.length / cols + 1) ++ 10 :: List.replicate depth 9

theorem lines_succ (buf : List UInt8) (cols depth n : Nat) :
    lines buf cols depth (n + 1) = lines buf cols depth n ++ line buf cols depth n := by
  simp [lines, List.range_succ]

section Format

variable {buf : List UInt8} {cols depth : Nat}

theorem length_lines (n : Nat) :
    (lines buf cols depth n).length = n * (depth + 1) + min (n * cols) buf.length := by
  induction n with
  | zero => simp [lines]
  | succ n ih =>
    rw [lines_succ, List.length_append, ih, line]
    simp only [List.length_append, List.length_cons, List.length_replicate, List.length_take,
      List.length_drop, Nat.succ_mul]
    omega

/-- Before the last line every line is full. -/
theorem mul_le_of_lt_lines (positive : 0 < cols) {i : Nat} (within : i < buf.length / cols + 1) :
    i * cols ≤ buf.length :=
  (Nat.le_div_iff_mul_le positive).mp (by omega)

/-- One line is written behind the lines before it. -/
theorem formatLine_lines (positive : 0 < cols) {i left : Nat}
    (within : i < buf.length / cols + 1) (room : (line buf cols depth i).length ≤ left) :
    formatLine buf cols depth (depth + cols + 1) buf.length
        (lines buf cols depth i ++ List.replicate left 0) i =
      .ok (lines buf cols depth (i + 1) ++
        List.replicate (left - (line buf cols depth i).length) 0) := by
  have before := mul_le_of_lt_lines positive within
  have start : (lines buf cols depth i).length = i * (depth + cols + 1) := by
    rw [length_lines, Nat.min_eq_left before, ← Nat.mul_add]
    congr 1
    omega
  have width : (if (i + 1) * cols ≤ buf.length then cols else buf.length - i * cols) =
      min cols (buf.length - i * cols) := by
    rw [Nat.succ_mul]
    split <;> omega
  have piece : memcpy (buf.drop (i * cols)) (min cols (buf.length - i * cols)) =
      .ok ((buf.drop (i * cols)).take cols) := by
    rw [memcpy_eq_ok, List.length_drop, ← List.length_drop, ← List.take_eq_take_min]
    exact ⟨Nat.min_le_right .., rfl⟩
  simp only [line, List.length_append, List.length_cons, List.length_replicate] at room ⊢
  unfold formatLine
  rw [store_append start (by simp; omega), ok_bind, store_append (by simp [start])
    (by simp; omega), ok_bind, width, piece, ok_bind, store_append (by simp [start]; omega)
    (by simp only [List.length_cons, List.length_nil, List.length_replicate]; omega), lines_succ,
    line]
  simp only [List.append_assoc, List.cons_append, List.nil_append, List.length_cons,
    List.length_nil, List.length_replicate, Nat.sub_sub]
  rw [show 0 + 1 + depth = depth + 1 by omega]

/-- The loop writes the lines. -/
theorem formatLines (positive : 0 < cols) {size : Nat}
    (room : (buf.length / cols + 1) * (depth + cols + 1) ≤ size) :
    ∀ {n : Nat}, n ≤ buf.length / cols + 1 →
      (List.range n).foldlM (formatLine buf cols depth (depth + cols + 1) buf.length)
          (List.replicate size 0) =
        .ok (lines buf cols depth n ++
          List.replicate (size - (lines buf cols depth n).length) 0)
  | 0, _ => by simp [lines]
  | n + 1, within => by
      have long : (lines buf cols depth (n + 1)).length ≤ size := by
        rw [length_lines]
        calc (n + 1) * (depth + 1) + min ((n + 1) * cols) buf.length
            ≤ (n + 1) * (depth + 1) + (n + 1) * cols := by omega
          _ = (n + 1) * (depth + cols + 1) := by
            rw [← Nat.mul_add]
            congr 1
            omega
          _ ≤ (buf.length / cols + 1) * (depth + cols + 1) := Nat.mul_le_mul_right _ within
          _ ≤ size := room
      rw [lines_succ, List.length_append] at long ⊢
      rw [List.range_succ, List.foldlM_append, formatLines positive room (by omega), ok_bind]
      simp only [List.foldlM_cons, List.foldlM_nil]
      rw [formatLine_lines positive (by omega) (by omega), ok_bind, pure_eq_ok, lines_succ,
        Nat.sub_sub]

theorem length_lines_all (positive : 0 < cols) :
    (lines buf cols depth (buf.length / cols + 1)).length =
      buf.length + (1 + depth) * (buf.length / cols + 1) := by
  have last : buf.length < (buf.length / cols + 1) * cols := by
    rw [Nat.mul_comm]
    exact Nat.lt_mul_div_succ _ positive
  rw [length_lines, Nat.min_eq_right (Nat.le_of_lt last), Nat.mul_comm, Nat.add_comm depth,
    Nat.add_comm]

theorem nul_free_formatted (nulFree : 0 ∉ buf) : 0 ∉ formatted buf cols depth := by
  have blank : ∀ {c : UInt8}, c ≠ 0 → ∀ n, 0 ∉ List.replicate n c := by
    intro c differ n member
    exact differ (List.eq_of_mem_replicate member).symm
  simp only [formatted, lines, line, List.mem_append, List.mem_flatMap, List.mem_cons, not_or,
    not_exists, not_and]
  refine ⟨fun i _ => ⟨⟨by decide, blank (by decide) _⟩, fun member => ?_⟩, by decide,
    blank (by decide) _⟩
  exact nulFree (List.mem_of_mem_drop (List.mem_of_mem_take member))

/-- What the allocation has room for: the lines, the last row and its terminator. -/
theorem formatted_room (positive : 0 < cols) :
    (formatted buf cols depth).length + 1 ≤
      (buf.length / cols + 1) * (depth + cols + 1) + depth + 1 := by
  have last : buf.length < (buf.length / cols + 1) * cols := by
    rw [Nat.mul_comm]
    exact Nat.lt_mul_div_succ _ positive
  have wide : (buf.length / cols + 1) * (depth + cols + 1) =
      (buf.length / cols + 1) * cols + (1 + depth) * (buf.length / cols + 1) := by
    rw [Nat.mul_comm (1 + depth), ← Nat.mul_add]
    congr 1
    omega
  rw [formatted, List.length_append, length_lines_all positive, List.length_cons,
    List.length_replicate]
  omega

/-- **The block that `format_string` fills**: the text and its terminator, and zeroes behind. -/
theorem formatBlock_eq (positive : 0 < cols)
    (small : (buf.length / cols + 1) * (depth + cols + 1) + depth + 1 < 2 ^ 31) :
    ∃ spare, formatBlock buf cols depth =
        .ok (formatted buf cols depth ++ 0 :: List.replicate spare 0) ∧
      (formatted buf cols depth ++ 0 :: List.replicate spare (0 : UInt8)).length =
        (buf.length / cols + 1) * (depth + cols + 1) + depth + 1 := by
  have column : depth + cols + 1 ≤ (buf.length / cols + 1) * (depth + cols + 1) :=
    Nat.le_mul_of_pos_left _ (Nat.succ_pos _)
  have room := @formatted_room buf cols depth positive
  have size := @length_lines_all buf cols depth positive
  have text : lines buf cols depth (buf.length / cols + 1) ++ [10] ++ List.replicate depth 9 =
      formatted buf cols depth := by simp [formatted]
  rw [← text] at room ⊢
  simp only [List.length_append, List.length_cons, List.length_nil, List.length_replicate,
    size] at room
  have long : buf.length < 2 ^ 31 := by
    have last := Nat.lt_mul_div_succ buf.length positive
    have wide : cols * (buf.length / cols + 1) ≤
        (buf.length / cols + 1) * (depth + cols + 1) := by
      rw [Nat.mul_comm]
      exact Nat.mul_le_mul_left _ (by omega)
    omega
  refine ⟨(buf.length / cols + 1) * (depth + cols + 1) + depth + 1 -
    (buf.length + (1 + depth) * (buf.length / cols + 1)) - 1 - depth - 1, ?_, ?_⟩
  · unfold formatBlock
    simp only [int, if_pos (show depth + cols + 1 < 2 ^ 31 by omega), ok_bind, if_pos long,
      if_pos small]
    rw [formatLines positive (by omega) (Nat.le_refl _), ok_bind, size,
      store_append size (by simp; omega), ok_bind,
      store_append (by simp [size]) (by simp; omega), ok_bind,
      store_append (by simp [size]; omega) (by simp; omega)]
    simp
  · simp only [List.length_append, List.length_cons, List.length_nil, List.length_replicate, size]
    omega

/-- **`format_string` returns the indented lines, unless an `int` overflows.** -/
theorem formatString_eq (positive : 0 < cols) (nulFree : 0 ∉ buf) :
    formatString buf cols depth =
      if (buf.length / cols + 1) * (depth + cols + 1) + depth + 1 < 2 ^ 31 then
        .ok (formatted buf cols depth)
      else .error .intOverflow := by
  rw [formatString]
  split
  · rename_i small
    obtain ⟨spare, filled, -⟩ := @formatBlock_eq buf cols depth positive small
    rw [filled, ok_bind, cString_append (nul_free_formatted nulFree)]
    rfl
  · rename_i large
    unfold formatBlock int
    split
    · rw [ok_bind]
      split
      · simp only [ok_bind, if_neg large, error_bind]
      · rfl
    · rfl

/-! ## Without its blanks -/

/-- The white space that base64 decoding skips. -/
def isBlank (b : UInt8) : Bool := b = 9 ∨ b = 10

theorem filter_formatted (positive : 0 < cols) (text : ∀ b ∈ buf, isBlank b = false) :
    (formatted buf cols depth).filter (fun b => !isBlank b) = buf := by
  have tabs : ∀ n, (List.replicate n (9 : UInt8)).filter (fun b => !isBlank b) = [] := by
    intro n
    rw [List.filter_replicate]
    rfl
  have newline : ∀ rest : List UInt8, (10 :: rest).filter (fun b => !isBlank b) =
      rest.filter fun b => !isBlank b := fun _ => rfl
  have kept : ∀ i, (line buf cols depth i).filter (fun b => !isBlank b) =
      (buf.drop (i * cols)).take cols := by
    intro i
    rw [line, List.cons_append, newline, List.filter_append, tabs, List.nil_append,
      List.filter_eq_self]
    intro b member
    rw [text b (List.mem_of_mem_drop (List.mem_of_mem_take member)), Bool.not_false]
  have last : buf.length ≤ (buf.length / cols + 1) * cols := by
    rw [Nat.mul_comm]
    exact Nat.le_of_lt (Nat.lt_mul_div_succ _ positive)
  rw [formatted, List.filter_append, newline, tabs, List.append_nil, lines, List.filter_flatMap]
  simp only [kept]
  exact (flatten_chunks cols _ buf).trans (List.take_of_length_le last)

/-! ## The lines of the text -/

/-- The lines behind the first newline: one for each chunk, and the last indentation. -/
def rows (buf : List UInt8) (cols depth : Nat) : List (List UInt8) :=
  (chunks cols (buf.length / cols + 1) buf ++ [[]]).map (List.replicate depth 9 ++ ·)

theorem formatted_eq_rows : formatted buf cols depth = (rows buf cols depth).flatMap (10 :: ·) := by
  have last : ([[]] : List (List UInt8)).flatMap
      (fun piece => 10 :: (List.replicate depth 9 ++ piece)) = 10 :: List.replicate depth 9 := by
    simp
  simp only [rows, chunks, List.flatMap_map, List.flatMap_append, last]
  rfl

theorem splitOn_flatMap_cons {separator : UInt8} {rows : List (List UInt8)}
    (apart : ∀ row ∈ rows, separator ∉ row) :
    (rows.flatMap (separator :: ·)).splitOn separator = [] :: rows := by
  have joined : ∀ {first : List UInt8} {rows : List (List UInt8)},
      (∀ row ∈ rows, separator ∉ row) → separator ∉ first →
        (first ++ rows.flatMap (separator :: ·)).splitOn separator = first :: rows := by
    intro first rows
    induction rows generalizing first with
    | nil =>
      intro _ free
      rw [List.flatMap_nil, List.append_nil, List.splitOn_eq_singleton free]
    | cons row rows ih =>
      intro apart free
      rw [List.flatMap_cons, List.cons_append, List.splitOn_append_cons_self_of_not_mem free,
        ih (fun other member => apart other (.tail _ member)) (apart row List.mem_cons_self)]
  exact joined apart List.not_mem_nil

/-- **The layout of `format_string`**: its stores stay in the block it allocates, and leave a
terminated text there that starts with a newline; each line behind it is `depth` tabs and at
most `cols` characters, and without newlines and tabs the text is what it was given. -/
theorem formatString_layout (positive : 0 < cols) (nulFree : 0 ∉ buf)
    (plain : ∀ b ∈ buf, isBlank b = false)
    (small : (buf.length / cols + 1) * (depth + cols + 1) + depth + 1 < 2 ^ 31) :
    ∃ text spare, formatString buf cols depth = .ok text ∧
      formatBlock buf cols depth = .ok (text ++ 0 :: spare) ∧
      (text ++ 0 :: spare).length =
        (buf.length / cols + 1) * (depth + cols + 1) + depth + 1 ∧ 0 ∉ text ∧
      (∃ rows, text.splitOn 10 = [] :: rows ∧ ∀ row ∈ rows, ∃ piece,
        row = List.replicate depth 9 ++ piece ∧ 9 ∉ piece ∧ piece.length ≤ cols) ∧
      text.filter (fun b => !isBlank b) = buf := by
  obtain ⟨spare, filled, whole⟩ := @formatBlock_eq buf cols depth positive small
  -- a row is the tabs and a chunk, or the tabs alone
  have pieces : ∀ row ∈ rows buf cols depth, ∃ piece, row = List.replicate depth 9 ++ piece ∧
      (∀ b ∈ piece, isBlank b = false) ∧ piece.length ≤ cols := by
    intro row member
    obtain ⟨piece, isPiece, rfl⟩ := List.mem_map.mp member
    refine ⟨piece, rfl, ?_⟩
    rcases List.mem_append.mp isPiece with isChunk | isEmpty
    · obtain ⟨i, -, rfl⟩ := List.mem_map.mp isChunk
      refine ⟨fun b inside => plain b (chunk_subset cols buf i inside), ?_⟩
      rw [length_chunk]
      exact Nat.min_le_left _ _
    · rw [List.mem_singleton.mp isEmpty]
      exact ⟨nofun, Nat.zero_le _⟩
  refine ⟨formatted buf cols depth, List.replicate spare 0, ?_, filled, whole,
    nul_free_formatted nulFree, ⟨rows buf cols depth, ?_, fun row member => ?_⟩,
    filter_formatted positive plain⟩
  · rw [formatString_eq positive nulFree, if_pos small]
  · rw [formatted_eq_rows, splitOn_flatMap_cons]
    intro row member newline
    obtain ⟨piece, rfl, text, -⟩ := pieces row member
    rcases List.mem_append.mp newline with tab | inside
    · exact absurd (List.eq_of_mem_replicate tab) (by decide)
    · exact absurd (text 10 inside) (by decide)
  · obtain ⟨piece, isRow, text, short⟩ := pieces row member
    exact ⟨piece, isRow, fun tab => absurd (text 9 tab) (by decide), short⟩

end Format

/-- Four characters in lines of two; the last line before the indentation is empty. -/
theorem format_two_columns :
    ∃ text spare, formatString [65, 66, 67, 68] 2 1 = .ok text ∧
      formatBlock [65, 66, 67, 68] 2 1 = .ok (text ++ 0 :: spare) ∧
      (text ++ 0 :: spare).length = (4 / 2 + 1) * (1 + 2 + 1) + 1 + 1 ∧ 0 ∉ text ∧
      (∃ rows, text.splitOn 10 = [] :: rows ∧ ∀ row ∈ rows, ∃ piece,
        row = List.replicate 1 9 ++ piece ∧ 9 ∉ piece ∧ piece.length ≤ 2) ∧
      text.filter (fun b => !isBlank b) = [65, 66, 67, 68] :=
  formatString_layout (by decide) (by decide) (by simp [isBlank]) (by decide)

end Irestore.Plist
