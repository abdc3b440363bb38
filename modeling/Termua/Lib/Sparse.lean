import Mathlib

/-!
# Sparse rows

A sparse row has a value at some of its columns, in increasing order. `dense row a b` has an element
for each column from `a` up to `b`. It can be streamed from the row, with gaps between two of its
entries (`dense_cons`), or written into a table, an entry at a time in any order
(`foldlM_store_eq_dense`).
-/

namespace Sparse

variable {α : Type*} {row : List (ℕ × α)} {table : List (Option α)} {v : α} {a b i k : ℕ}

/-- The columns of a row increase. -/
def Increasing (row : List (ℕ × α)) : Prop := row.Pairwise fun e f => e.1 < f.1

/-- The value at a column. -/
def value (row : List (ℕ × α)) (i : ℕ) : Option α := (row.find? (·.1 = i)).map (·.2)

/-- The columns from `a` up to `b`. -/
def dense (row : List (ℕ × α)) (a b : ℕ) : List (Option α) :=
  (List.range' a (b - a)).map (value row)

/-- A value is written into a table; there is no column beyond its end. -/
def store (table : List (Option α)) (i : ℕ) (v : α) : Option (List (Option α)) :=
  if i < table.length then some (table.set i (some v)) else none

/-! ## Values -/

theorem value_cons : value ((k, v) :: row) i = if k = i then some v else value row i := by
  unfold value
  rw [List.find?_cons]
  by_cases hk : k = i
  · simp [hk]
  · simp [hk]

theorem value_eq_none (h : ∀ e ∈ row, e.1 ≠ i) : value row i = none := by
  unfold value
  rw [List.find?_eq_none.mpr fun e he => by simpa using h e he]
  rfl

/-! ## Streams -/

@[simp] theorem length_dense : (dense row a b).length = b - a := by
  unfold dense
  rw [List.length_map, List.length_range']

theorem getElem?_dense :
    (dense row a b)[i]? = if i < b - a then some (value row (a + i)) else none := by
  unfold dense
  rw [List.getElem?_map]
  split
  · next hlt => rw [List.getElem?_range' hlt, Nat.one_mul, Option.map_some]
  · next hge => rw [List.getElem?_eq_none (by rw [List.length_range']; omega), Option.map_none]

theorem dense_congr {row' : List (ℕ × α)} (h : ∀ i, a ≤ i → i < b → value row i = value row' i) :
    dense row a b = dense row' a b := by
  refine List.map_congr_left fun i hi => ?_
  have hmem := List.mem_range'_1.mp hi
  exact h i hmem.1 (by omega)

/-- A row without a column in the range is a gap. -/
theorem dense_eq_replicate (h : ∀ e ∈ row, e.1 < a ∨ b ≤ e.1) :
    dense row a b = List.replicate (b - a) none := by
  refine List.eq_replicate_iff.mpr ⟨length_dense, fun x hx => ?_⟩
  obtain ⟨i, hi, rfl⟩ := List.mem_map.mp hx
  have hmem := List.mem_range'_1.mp hi
  exact value_eq_none fun e he heq => by
    have := h e he
    omega

/-- The entries before the range do not count. -/
theorem dense_cons_of_lt (h : k < a) : dense ((k, v) :: row) a b = dense row a b := by
  refine dense_congr fun i hi _ => ?_
  rw [value_cons, if_neg (by omega)]

/-- The entries outside of the range do not count. -/
theorem dense_filter {p : ℕ → Bool} (h : ∀ i, a ≤ i → i < b → p i = true) :
    dense (row.filter fun e => p e.1) a b = dense row a b := by
  refine dense_congr fun i hi hb => ?_
  unfold value
  rw [List.find?_filter]
  congr 2
  funext e
  by_cases he : e.1 = i
  · simp [he, h i hi hb]
  · simp [he]

theorem dense_append (hab : a ≤ i) (hib : i ≤ b) :
    dense row a b = dense row a i ++ dense row i b := by
  have hrange := @List.range'_append a (i - a) (b - i) 1
  have hi : a + 1 * (i - a) = i := by omega
  have hb : i - a + (b - i) = b - a := by omega
  rw [hi, hb] at hrange
  unfold dense
  rw [← hrange, List.map_append]

/-- Up to the first column of a row there is a gap, behind it the rest of the row. -/
theorem dense_cons (h : Increasing ((k, v) :: row)) (hak : a ≤ k) (hkb : k < b) :
    dense ((k, v) :: row) a b = List.replicate (k - a) none ++ some v :: dense row (k + 1) b := by
  have hlt := (List.pairwise_cons.mp h).1
  have hgap : dense ((k, v) :: row) a k = List.replicate (k - a) none := by
    refine dense_eq_replicate fun e he => .inr ?_
    rcases List.mem_cons.mp he with rfl | he
    · exact le_rfl
    · exact (hlt e he).le
  have hone : dense ((k, v) :: row) k (k + 1) = [some v] := by
    unfold dense
    rw [Nat.add_sub_cancel_left]
    show [value ((k, v) :: row) k] = [some v]
    rw [value_cons, if_pos rfl]
  rw [dense_append hak hkb.le, dense_append (Nat.le_succ k) hkb, hgap, hone,
    dense_cons_of_lt (Nat.lt_succ_self k)]
  rfl

/-! ## Tables -/

/-- The entries of a row are written into a table whose columns start at `a`. -/
theorem foldlM_store (h : Increasing row) (hrange : ∀ e ∈ row, a ≤ e.1 ∧ e.1 < a + table.length) :
    ∃ table', row.foldlM (fun t e => store t (e.1 - a) e.2) table = some table' ∧
      table'.length = table.length ∧
      ∀ i, i < table.length → table'[i]? = ((value row (a + i)).map some).or table[i]? := by
  induction row generalizing table with
  | nil => exact ⟨table, rfl, rfl, fun i _ => rfl⟩
  | cons e row ih =>
    obtain ⟨k, v⟩ := e
    obtain ⟨hak, hkb⟩ := hrange (k, v) List.mem_cons_self
    have hlt : k - a < table.length := by omega
    obtain ⟨table', hfold, hlen, hget⟩ :=
      @ih (table.set (k - a) (some v)) (List.pairwise_cons.mp h).2 fun e he => by
        rw [List.length_set]
        exact hrange e (List.mem_cons_of_mem _ he)
    rw [List.length_set] at hlen hget
    refine ⟨table', ?_, hlen, fun i hi => ?_⟩
    · rw [List.foldlM_cons]
      have hstore : store table (k - a) v = some (table.set (k - a) (some v)) := if_pos hlt
      rw [hstore]
      exact hfold
    · rw [hget i hi, value_cons, List.getElem?_set]
      by_cases hk : k = a + i
      · -- the row has its column only once
        have hnone : value row (a + i) = none := value_eq_none fun e he heq => by
          have : k < e.1 := (List.pairwise_cons.mp h).1 e he
          omega
        rw [hnone, if_pos hk, if_pos (by omega), if_pos hlt]
        rfl
      · rw [if_neg hk, if_neg (by omega)]

/-- A table that has all the columns of a row becomes the row. -/
theorem foldlM_store_eq_dense (h : Increasing row) (hrange : ∀ e ∈ row, a ≤ e.1 ∧ e.1 < b) :
    row.foldlM (fun t e => store t (e.1 - a) e.2) (List.replicate (b - a) none) =
      some (dense row a b) := by
  have hroom : ∀ e ∈ row, a ≤ e.1 ∧ e.1 < a + (List.replicate (b - a) (none : Option α)).length := by
    intro e he
    rw [List.length_replicate]
    have := hrange e he
    omega
  obtain ⟨table', hfold, hlen, hget⟩ := foldlM_store h hroom
  rw [hfold, Option.some.injEq]
  rw [List.length_replicate] at hlen hget
  refine List.ext_getElem? fun i => ?_
  rw [getElem?_dense]
  split
  · next hi =>
    rw [hget i hi, List.getElem?_replicate_of_lt hi]
    rcases value row (a + i) with _ | v
    · rfl
    · rfl
  · next hi => exact List.getElem?_eq_none (by omega)

end Sparse
