import Mathlib.Tactic

/-! Positions in a flattened list of rows, and the split of one list into
rows of bounded length. `offset rows m` is the position in `rows.flatten` at
which row `m` begins. -/

namespace Kulua.Foundation.Segment

variable {α : Type*}

def offset (rows : List (List α)) (m : Nat) : Nat := (rows.take m).flatten.length

@[simp] theorem offset_zero (rows : List (List α)) : offset rows 0 = 0 := by simp [offset]

theorem offset_succ {rows : List (List α)} {m : Nat} {row : List α} (h : rows[m]? = some row) :
    offset rows (m + 1) = offset rows m + row.length := by
  simp [offset, List.take_add_one, h]

theorem offset_length (rows : List (List α)) : offset rows rows.length = rows.flatten.length := by
  simp [offset]

theorem offset_mono (rows : List (List α)) {m n : Nat} (h : m ≤ n) :
    offset rows m ≤ offset rows n := by
  obtain ⟨d, rfl⟩ := Nat.exists_eq_add_of_le h
  simp [offset, List.take_add]

theorem offset_le (rows : List (List α)) (m : Nat) : offset rows m ≤ rows.flatten.length := by
  by_cases h : m ≤ rows.length
  · rw [← offset_length]
    exact offset_mono rows h
  · simp [offset, List.take_of_length_le (Nat.le_of_lt (Nat.lt_of_not_le h))]

theorem offset_append {rows : List (List α)} (more : List (List α)) {m : Nat}
    (h : m ≤ rows.length) : offset (rows ++ more) m = offset rows m := by
  simp [offset, List.take_append_of_le_length h]

theorem getElem?_flatten_offset {rows : List (List α)} {m : Nat} {row : List α}
    (h : rows[m]? = some row) {i : Nat} (hi : i < row.length) :
    rows.flatten[offset rows m + i]? = row[i]? := by
  obtain ⟨hm, rfl⟩ := List.getElem?_eq_some_iff.mp h
  have split : rows.flatten =
      (rows.take m).flatten ++ (rows[m] ++ (rows.drop (m + 1)).flatten) := by
    conv_lhs => rw [← List.take_append_drop m rows, List.flatten_append]
    rw [List.drop_eq_getElem_cons hm, List.flatten_cons]
  rw [split, offset, List.getElem?_append_right (by omega), Nat.add_sub_cancel_left,
    List.getElem?_append_left hi]

/-- A row that starts before the end of the flattened list and is not the end of
the list of rows exists. -/
theorem exists_row {rows : List (List α)} {m : Nat} (hm : m ≤ rows.length)
    (h : offset rows m < rows.flatten.length) : ∃ row, rows[m]? = some row := by
  rcases Nat.lt_or_eq_of_le hm with hlt | rfl
  · exact ⟨rows[m], List.getElem?_eq_getElem hlt⟩
  · rw [offset_length] at h
    omega

/-- Rows from `m` on occupy the positions from `offset rows m` on. -/
theorem flatten_drop_offset (rows : List (List α)) (m : Nat) :
    rows.flatten.drop (offset rows m) = (rows.drop m).flatten := by
  conv_lhs => rw [← List.take_append_drop m rows, List.flatten_append]
  simp [offset]

/-- A suffix whose entries all fail the test survives `dropWhile`. -/
theorem suffix_dropWhile {p : α → Bool} {xs ys : List α} (h : ys <:+ xs)
    (hy : ∀ y ∈ ys, p y = false) : ys <:+ xs.dropWhile p := by
  obtain ⟨pre, rfl⟩ := h
  induction pre with
  | nil =>
      cases ys with
      | nil => exact List.nil_suffix
      | cons y ys => simp [hy y (List.mem_cons_self ..)]
  | cons x pre ih =>
      rw [List.cons_append, List.dropWhile_cons]
      split
      · exact ih
      · exact List.suffix_append (x :: pre) ys

/-- A test that the places before `k` pass and no other place does cuts the list at `k`. -/
theorem dropWhile_eq_drop {p : α → Bool} {xs : List α} {k : Nat}
    (h : ∀ i x, xs[i]? = some x → (p x = true ↔ i < k)) : xs.dropWhile p = xs.drop k := by
  induction xs generalizing k with
  | nil => simp
  | cons x xs ih =>
      have hx : p x = true ↔ 0 < k := h 0 x rfl
      cases k with
      | zero =>
          rw [List.drop_zero, List.dropWhile_cons_of_neg]
          exact fun hp => (hx.mp hp).false
      | succ k =>
          rw [List.dropWhile_cons_of_pos (hx.mpr (Nat.succ_pos k)), List.drop_succ_cons]
          exact ih fun i y hy => (h (i + 1) y hy).trans Nat.succ_lt_succ_iff

/-- A test that exactly the places from `k` on pass keeps these. -/
theorem filter_eq_drop {p : α → Bool} {xs : List α} {k : Nat}
    (h : ∀ i x, xs[i]? = some x → (p x = true ↔ k ≤ i)) : xs.filter p = xs.drop k := by
  induction xs generalizing k with
  | nil => simp
  | cons x xs ih =>
      have hx : p x = true ↔ k ≤ 0 := h 0 x rfl
      cases k with
      | zero =>
          rw [List.drop_zero, List.filter_eq_self]
          intro y hy
          obtain ⟨i, hi⟩ := List.mem_iff_getElem?.mp hy
          exact (h i y hi).mpr (Nat.zero_le i)
      | succ k =>
          rw [List.filter_cons_of_neg (by simp [hx]), List.drop_succ_cons]
          exact ih fun i y hy => (h (i + 1) y hy).trans Nat.succ_le_succ_iff

def slice (xs : List α) (start len : Nat) : List α := (xs.drop start).take len

/-- Consecutive slices of length `n`; only the last one may be shorter. -/
def chunks (n : Nat) (xs : List α) : List (List α) :=
  (List.range ((xs.length + n - 1) / n)).map fun i => slice xs (i * n) n

@[simp] theorem length_chunks (n : Nat) (xs : List α) :
    (chunks n xs).length = (xs.length + n - 1) / n := by simp [chunks]

@[simp] theorem chunks_nil (n : Nat) : chunks n ([] : List α) = [] := by
  cases n with
  | zero => simp [chunks]
  | succ n => simp [chunks, Nat.div_eq_of_lt]

theorem flatten_slices (n k : Nat) (xs : List α) :
    ((List.range k).map fun i => slice xs (i * n) n).flatten = xs.take (k * n) := by
  induction k with
  | zero => simp
  | succ k ih =>
    rw [List.range_succ, List.map_append, List.flatten_append, ih, Nat.succ_mul, List.take_add]
    simp [slice]

theorem length_le_ceil_mul {n : Nat} (hn : 0 < n) (len : Nat) :
    len ≤ (len + n - 1) / n * n := by
  have h := Nat.div_add_mod (len + n - 1) n
  have hr := Nat.mod_lt (len + n - 1) hn
  rw [Nat.mul_comm] at h
  omega

theorem flatten_chunks {n : Nat} (hn : 0 < n) (xs : List α) : (chunks n xs).flatten = xs := by
  rw [chunks, flatten_slices]
  exact List.take_of_length_le (length_le_ceil_mul hn xs.length)

theorem length_le_of_mem_chunks {n : Nat} {xs c : List α} (h : c ∈ chunks n xs) : c.length ≤ n := by
  obtain ⟨i, -, rfl⟩ := List.mem_map.mp h
  exact List.length_take_le ..

theorem length_chunks_pos {n : Nat} (hn : 0 < n) {xs : List α} (h : xs ≠ []) :
    0 < (chunks n xs).length := by
  have := List.length_pos_iff.mpr h
  rw [length_chunks]
  exact Nat.div_pos (by omega) hn

end Kulua.Foundation.Segment
