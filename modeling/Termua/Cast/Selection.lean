import Mathlib
import Termua.Cast.Screen

/-!
# The selection on a captured screen

`visible_selection` turns a selection of the grid into a run of cells of the viewport, in reading order.
The run covers what is selected of the viewport (`visibleSelection_denotes`): cells are compared by
their index, which is the reading order of their rows and columns (`index_le_iff`).
-/

namespace Termua.Cast

/-- The index of a cell is in reading order. -/
theorem index_le_iff {columns row col row' col' : ℕ} (hcol : col < columns) (hcol' : col' < columns) :
    row * columns + col ≤ row' * columns + col' ↔ row < row' ∨ row = row' ∧ col ≤ col' := by
  rcases lt_trichotomy row row' with hlt | rfl | hgt
  · have hmul : (row + 1) * columns ≤ row' * columns := Nat.mul_le_mul_right columns hlt
    rw [Nat.succ_mul] at hmul
    exact ⟨fun _ => .inl hlt, fun _ => by omega⟩
  · omega
  · have hmul : (row' + 1) * columns ≤ row * columns := Nat.mul_le_mul_right columns hgt
    rw [Nat.succ_mul] at hmul
    omega

theorem GridPoint.le_iff {p q : GridPoint} :
    p.le q = true ↔ p.line < q.line ∨ p.line = q.line ∧ p.column ≤ q.column := by
  unfold GridPoint.le
  simp only [Bool.or_eq_true, Bool.and_eq_true, decide_eq_true_eq]

/-- A point with a column past the end in the last column. -/
def GridPoint.clampColumn (p : GridPoint) (columns : ℕ) : GridPoint :=
  { p with column := min p.column (columns - 1) }

/-- The grid point that a cell of the viewport shows. -/
def viewportPoint (displayOffset row col : ℕ) : GridPoint := ⟨row - displayOffset, col⟩

/-- A point lies between the two ends of a selection in reading order, whichever end is the first. -/
def SelectionRange.Contains (selection : SelectionRange) (columns : ℕ) (p : GridPoint) : Prop :=
  let a := selection.start.clampColumn columns
  let b := selection.stop.clampColumn columns
  (a.le p = true ∧ p.le b = true) ∨ b.le p = true ∧ p.le a = true

/-- A line lies between those of the two ends. -/
def SelectionRange.ContainsLine (selection : SelectionRange) (line : ℤ) : Prop :=
  min selection.start.line selection.stop.line ≤ line ∧
    line ≤ max selection.start.line selection.stop.line

/-- A run `(column, row, length)` covers a cell. -/
def InRun (run : ℕ × ℕ × ℕ) (columns row col : ℕ) : Prop :=
  run.2.1 * columns + run.1 ≤ row * columns + col ∧
    row * columns + col < run.2.1 * columns + run.1 + run.2.2

variable {selection : SelectionRange} {displayOffset columns rows : ℕ}

/-- The selection with its first end first. -/
def SelectionRange.ordered (selection : SelectionRange) : SelectionRange :=
  if selection.start.le selection.stop then selection else ⟨selection.stop, selection.start⟩

theorem SelectionRange.ordered_le (selection : SelectionRange) :
    selection.ordered.start.le selection.ordered.stop = true := by
  unfold SelectionRange.ordered
  split
  · next h => exact h
  · next h =>
    rw [GridPoint.le_iff] at h ⊢
    simp only
    omega

theorem visibleSelection_ordered (selection : SelectionRange) :
    visibleSelection (some selection) displayOffset columns rows =
      visibleSelection (some selection.ordered) displayOffset columns rows := by
  have hle := selection.ordered_le
  unfold SelectionRange.ordered at hle ⊢
  split
  · rfl
  · next h =>
    rw [if_neg h] at hle
    unfold visibleSelection
    simp only [h, hle, if_true, Option.bind_eq_bind, Option.bind_some]
    rfl

theorem SelectionRange.contains_ordered {p : GridPoint} :
    selection.ordered.Contains columns p ↔ selection.Contains columns p := by
  unfold SelectionRange.ordered
  split
  · exact Iff.rfl
  · exact or_comm

theorem SelectionRange.containsLine_ordered {line : ℤ} :
    selection.ordered.ContainsLine line ↔ selection.ContainsLine line := by
  unfold SelectionRange.ordered SelectionRange.ContainsLine
  split
  · exact Iff.rfl
  · rw [min_comm, max_comm]

/-- No row of the selection is visible. -/
def Hidden (selection : SelectionRange) (displayOffset rows : ℕ) : Prop :=
  ∀ row < rows, ¬ selection.ContainsLine (row - displayOffset)

/-- A run covers the cells of the viewport that a selection contains. -/
structure Denotes (run : ℕ × ℕ × ℕ) (selection : SelectionRange) (displayOffset columns rows : ℕ) :
    Prop where
  column_lt : run.1 < columns
  row_lt : run.2.1 < rows
  inside : run.2.1 * columns + run.1 + run.2.2 ≤ rows * columns
  covers : ∀ row < rows, ∀ col < columns, InRun run columns row col ↔
    selection.Contains columns (viewportPoint displayOffset row col)

/-- Between the ends of an ordered selection are the points from the first to the second. -/
theorem contains_iff_of_le (hle : selection.start.le selection.stop = true) {p : GridPoint} :
    selection.Contains columns p ↔
      (selection.start.clampColumn columns).le p = true ∧
        p.le (selection.stop.clampColumn columns) = true := by
  unfold SelectionRange.Contains
  refine ⟨?_, .inl⟩
  rintro (h | ⟨hstop, hstart⟩)
  · exact h
  · -- both ends are at the point
    unfold GridPoint.clampColumn at hstop hstart ⊢
    rw [GridPoint.le_iff] at hle hstop hstart ⊢
    rw [GridPoint.le_iff]
    simp only at hstop hstart ⊢
    constructor
    · omega
    · omega

/-- The first row and column on view, against the first end of a selection. -/
theorem le_viewportPoint {p : GridPoint} {row col r c : ℕ} (hcol : col < columns)
    (hr : (max (p.line + (displayOffset : ℤ)) 0).toNat = r)
    (hc : (if p.line + (displayOffset : ℤ) < 0 then 0 else min p.column (columns - 1)) = c) :
    (r < row ∨ r = row ∧ c ≤ col) ↔
      (p.clampColumn columns).le (viewportPoint displayOffset row col) = true := by
  rw [GridPoint.le_iff]
  unfold viewportPoint GridPoint.clampColumn
  simp only
  split at hc
  · omega
  · omega

/-- The last row and column on view, against the second end of a selection. -/
theorem viewportPoint_le {p : GridPoint} {row col r c : ℕ} (hrow : row < rows) (hcol : col < columns)
    (hon : 0 ≤ p.line + (displayOffset : ℤ))
    (hr : (min (p.line + (displayOffset : ℤ)) (rows - 1 : ℕ)).toNat = r)
    (hc : (if (rows : ℤ) ≤ p.line + displayOffset then columns - 1
      else min p.column (columns - 1)) = c) :
    (row < r ∨ row = r ∧ col ≤ c) ↔
      (viewportPoint displayOffset row col).le (p.clampColumn columns) = true := by
  rw [GridPoint.le_iff]
  unfold viewportPoint GridPoint.clampColumn
  simp only
  split at hc
  · omega
  · omega

theorem visibleSelection_of_le (hle : selection.start.le selection.stop = true)
    (hcolumns : 1 ≤ columns) (hrows : 1 ≤ rows) :
    (visibleSelection (some selection) displayOffset columns rows = none ∧
        Hidden selection displayOffset rows) ∨
      ∃ run, visibleSelection (some selection) displayOffset columns rows = some run ∧
        ¬ Hidden selection displayOffset rows ∧
        Denotes run selection displayOffset columns rows := by
  have horder := GridPoint.le_iff.mp hle
  unfold visibleSelection
  simp only [hle, if_true, Option.bind_eq_bind, Option.bind_some]
  by_cases hout : selection.stop.line + (displayOffset : ℤ) < 0 ∨
      (rows : ℤ) ≤ selection.start.line + displayOffset
  · refine .inl ⟨if_pos hout, fun row hrow hline => ?_⟩
    unfold SelectionRange.ContainsLine at hline
    omega
  rw [if_neg hout]
  -- the four numbers that the selection is cut to
  generalize hr₀ : (max (selection.start.line + (displayOffset : ℤ)) 0).toNat = r₀
  generalize hr₁ : (min (selection.stop.line + (displayOffset : ℤ)) (rows - 1 : ℕ)).toNat = r₁
  generalize hc₀ : (if selection.start.line + (displayOffset : ℤ) < 0 then 0
    else min selection.start.column (columns - 1)) = c₀
  generalize hc₁ : (if (rows : ℤ) ≤ selection.stop.line + displayOffset then columns - 1
    else min selection.stop.column (columns - 1)) = c₁
  have hc₀lt : c₀ < columns := by
    split at hc₀ <;> omega
  have hc₁lt : c₁ < columns := by
    split at hc₁ <;> omega
  have hr₁lt : r₁ < rows := by omega
  -- cut to the viewport the ends are still in order, row by row
  have hends : r₀ < r₁ ∨ r₀ = r₁ ∧ c₀ ≤ c₁ := by
    split at hc₀ <;> split at hc₁ <;> omega
  have hindex : r₀ * columns + c₀ ≤ r₁ * columns + c₁ := (index_le_iff hc₀lt hc₁lt).mpr hends
  rw [if_neg (by omega)]
  refine .inr ⟨_, rfl, ?_, ?_⟩
  · intro hhidden
    refine hhidden r₀ (by omega) ?_
    unfold SelectionRange.ContainsLine
    omega
  · refine ⟨hc₀lt, by show r₀ < rows; omega, ?_, fun row hrow col hcol => ?_⟩
    -- the run ends in the viewport, and it is the cells between the two ends in reading order
    · have hlast : (r₁ + 1) * columns ≤ rows * columns := Nat.mul_le_mul_right columns hr₁lt
      rw [Nat.succ_mul] at hlast
      show r₀ * columns + c₀ + (r₁ * columns + c₁ - (r₀ * columns + c₀) + 1) ≤ rows * columns
      omega
    · have hrun : InRun (c₀, r₀, r₁ * columns + c₁ - (r₀ * columns + c₀) + 1) columns row col ↔
          r₀ * columns + c₀ ≤ row * columns + col ∧ row * columns + col ≤ r₁ * columns + c₁ := by
        unfold InRun
        simp only
        omega
      rw [hrun, index_le_iff hc₀lt hcol, index_le_iff hcol hc₁lt, contains_iff_of_le hle,
        le_viewportPoint hcol hr₀ hc₀, viewportPoint_le hrow hcol (by omega) hr₁ hc₁]

theorem hidden_ordered :
    Hidden selection.ordered displayOffset rows ↔ Hidden selection displayOffset rows :=
  forall₂_congr fun _ _ => not_congr SelectionRange.containsLine_ordered

theorem Denotes.of_ordered {run : ℕ × ℕ × ℕ}
    (h : Denotes run selection.ordered displayOffset columns rows) :
    Denotes run selection displayOffset columns rows where
  column_lt := h.column_lt
  row_lt := h.row_lt
  inside := h.inside
  covers row hrow col hcol :=
    (h.covers row hrow col hcol).trans SelectionRange.contains_ordered

/-- For every selection, whichever end is the first and wherever their columns are, and every viewport:
there is no run where no row of the selection is visible, and otherwise the run covers the cells of the
viewport that are between the ends. -/
theorem visibleSelection_denotes (selection : SelectionRange) (displayOffset columns rows : ℕ)
    (hcolumns : 1 ≤ columns) (hrows : 1 ≤ rows) :
    (visibleSelection (some selection) displayOffset columns rows = none ↔
        ∀ row < rows, ¬ selection.ContainsLine (row - displayOffset)) ∧
      ∀ run, visibleSelection (some selection) displayOffset columns rows = some run →
        Denotes run selection displayOffset columns rows := by
  rw [visibleSelection_ordered]
  rcases @visibleSelection_of_le selection.ordered displayOffset columns rows
    selection.ordered_le hcolumns hrows with ⟨hnone, hhidden⟩ | ⟨run, hsome, hshown, hdenotes⟩
  · rw [hnone]
    exact ⟨⟨fun _ => hidden_ordered.mp hhidden, fun _ => rfl⟩, fun run hrun => nomatch hrun⟩
  · rw [hsome]
    refine ⟨⟨fun hnone => (nomatch hnone), fun hhidden => ?_⟩, ?_⟩
    · exact absurd (hidden_ordered.mpr hhidden) hshown
    · rintro run' ⟨⟩
      exact hdenotes.of_ordered

/-- A selection from the history into the second row, made upwards. -/
theorem visibleSelection_denotes_upwards :
    Denotes (0, 0, 8) ⟨⟨0, 2⟩, ⟨-3, 4⟩⟩ 1 5 3 :=
  (visibleSelection_denotes ⟨⟨0, 2⟩, ⟨-3, 4⟩⟩ 1 5 3 (by decide) (by decide)).2 _ (by decide)

end Termua.Cast
