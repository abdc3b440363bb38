import Mathlib
import Termua.Cast.Selection

/-!
# Highlighted ranges

`to_highlighted_range_lines` of `gpui_term/src/element.rs` cuts a range of grid points, a match of the
search or the selection, into the lines that are painted over the viewport. Where the range begins above
the viewport the first line on view keeps the column in which the range begins, and a range that begins
in the row below the viewport is not none; everywhere else the lines cover what `visible_selection`
denotes (`highlights_iff`).
-/

namespace Termua.Element

open Termua.Cast

/-- `HighlightedRangeLine`, in cells: `start_x` and `end_x` are these columns times the cell's width. -/
structure HighlightedRangeLine where
  startX : ℕ
  endX : ℕ
  deriving DecidableEq

/-- `to_highlighted_range_lines`, with the row in which the lines begin. -/
def toHighlightedRangeLines (range : SelectionRange) (displayOffset numLines numColumns : ℕ) :
    Option (ℕ × List HighlightedRangeLine) :=
  let unclampedStart : GridPoint := ⟨range.start.line + displayOffset, range.start.column⟩
  let unclampedEnd : GridPoint := ⟨range.stop.line + displayOffset, range.stop.column⟩
  if unclampedEnd.line < 0 ∨ (numLines : ℤ) < unclampedStart.line then none
  else
    let clampedStartLine := (max unclampedStart.line 0).toNat
    let clampedEndLine := (min unclampedEnd.line numLines).toNat
    some (clampedStartLine,
      (List.range' clampedStartLine (clampedEndLine + 1 - clampedStartLine)).map fun line =>
        { startX := if line = clampedStartLine then unclampedStart.column else 0
          endX := if line = clampedEndLine then unclampedEnd.column + 1 else numColumns })

variable {range : SelectionRange} {displayOffset numLines numColumns row col : ℕ}

/-- A point is one of the range, in reading order. -/
def InRange (range : SelectionRange) (p : GridPoint) : Prop :=
  range.start.le p = true ∧ p.le range.stop = true

/-- The lines cover a cell. -/
def Covered (range : SelectionRange) (displayOffset numLines numColumns row col : ℕ) : Prop :=
  ∃ startLine lines, toHighlightedRangeLines range displayOffset numLines numColumns =
      some (startLine, lines) ∧
    ∃ k line, lines[k]? = some line ∧ row = startLine + k ∧ line.startX ≤ col ∧ col < line.endX

/-- The lines of a range cover the visible cells of the range, the run of the selection covers the same
cells, and there are no lines where no cell is visible. -/
structure Highlights (range : SelectionRange) (displayOffset numLines numColumns : ℕ) : Prop where
  covers : ∀ row < numLines, ∀ col < numColumns,
    Covered range displayOffset numLines numColumns row col ↔
      InRange range (viewportPoint displayOffset row col)
  agrees : ∀ row < numLines, ∀ col < numColumns,
    Covered range displayOffset numLines numColumns row col ↔
      ∃ run, visibleSelection (some range) displayOffset numColumns numLines = some run ∧
        InRun run numColumns row col
  none_of_hidden :
    (∀ row < numLines, ∀ col < numColumns, ¬ InRange range (viewportPoint displayOffset row col)) →
      toHighlightedRangeLines range displayOffset numLines numColumns = none

/-- The range ends above the viewport, or begins behind the row that is below it, or it begins in a
cell of the viewport or, above it, in the first column. -/
def InView (range : SelectionRange) (displayOffset numLines numColumns : ℕ) : Prop :=
  range.stop.line + (displayOffset : ℤ) < 0 ∨
    (numLines : ℤ) < range.start.line + displayOffset ∨
    (0 < numLines ∧ range.start.line + (displayOffset : ℤ) < numLines ∧
      range.start.column < numColumns ∧
      (range.start.line + (displayOffset : ℤ) < 0 → range.start.column = 0))

/-- The row of the viewport in which the lines begin. -/
def startLine (range : SelectionRange) (displayOffset : ℕ) : ℕ :=
  (max (range.start.line + (displayOffset : ℤ)) 0).toNat

/-- The row in which the lines end, which may be the one below the viewport. -/
def endLine (range : SelectionRange) (displayOffset numLines : ℕ) : ℕ :=
  (min (range.stop.line + (displayOffset : ℤ)) numLines).toNat

/-- The line of a row. -/
def lineOf (range : SelectionRange) (displayOffset numLines numColumns line : ℕ) :
    HighlightedRangeLine where
  startX := if line = startLine range displayOffset then range.start.column else 0
  endX := if line = endLine range displayOffset numLines then range.stop.column + 1 else numColumns

theorem toHighlightedRangeLines_eq : toHighlightedRangeLines range displayOffset numLines numColumns =
    if range.stop.line + (displayOffset : ℤ) < 0 ∨
        (numLines : ℤ) < range.start.line + displayOffset then none
    else some (startLine range displayOffset,
      (List.range' (startLine range displayOffset)
        (endLine range displayOffset numLines + 1 - startLine range displayOffset)).map
          (lineOf range displayOffset numLines numColumns)) := rfl

theorem covered_iff : Covered range displayOffset numLines numColumns row col ↔
    ¬ (range.stop.line + (displayOffset : ℤ) < 0 ∨
        (numLines : ℤ) < range.start.line + displayOffset) ∧
      startLine range displayOffset ≤ row ∧ row ≤ endLine range displayOffset numLines ∧
      (row = startLine range displayOffset → range.start.column ≤ col) ∧
      if row = endLine range displayOffset numLines then col ≤ range.stop.column
      else col < numColumns := by
  unfold Covered
  rw [toHighlightedRangeLines_eq]
  by_cases hout : range.stop.line + (displayOffset : ℤ) < 0 ∨
      (numLines : ℤ) < range.start.line + displayOffset
  · rw [if_pos hout]
    exact ⟨fun ⟨_, _, hnone, _⟩ => (nomatch hnone), fun ⟨hin, _⟩ => absurd hout hin⟩
  rw [if_neg hout]
  -- the first line starts at the selection, the last one ends at it, and the others are whole
  have hcell : ∀ line, (lineOf range displayOffset numLines numColumns line).startX ≤ col ∧
      col < (lineOf range displayOffset numLines numColumns line).endX ↔
        (line = startLine range displayOffset → range.start.column ≤ col) ∧
          if line = endLine range displayOffset numLines then col ≤ range.stop.column
          else col < numColumns := by
    intro line
    unfold lineOf
    refine and_congr ?_ ?_
    · simp only
      split <;> omega
    · simp only
      split <;> omega
  constructor
  · rintro ⟨_, _, ⟨⟩, k, line, hk, rfl, hstart, hend⟩
    rw [List.getElem?_map, Option.map_eq_some_iff] at hk
    obtain ⟨x, hx, rfl⟩ := hk
    obtain ⟨hlt, rfl⟩ := List.getElem?_eq_some_iff.mp hx
    rw [List.length_range'] at hlt
    rw [List.getElem_range', Nat.one_mul] at hstart hend
    exact ⟨hout, by omega, by omega, (hcell _).mp ⟨hstart, hend⟩⟩
  · rintro ⟨-, hlo, hhi, hcols⟩
    refine ⟨_, _, rfl, row - startLine range displayOffset,
      lineOf range displayOffset numLines numColumns row, ?_, by omega, (hcell row).mpr hcols⟩
    rw [List.getElem?_map, List.getElem?_range' (by omega), Option.map_some, Nat.one_mul,
      Nat.add_sub_cancel' hlo]

theorem inRange_iff : InRange range (viewportPoint displayOffset row col) ↔
    (range.start.line + (displayOffset : ℤ) < row ∨
      range.start.line + (displayOffset : ℤ) = row ∧ range.start.column ≤ col) ∧
    ((row : ℤ) < range.stop.line + displayOffset ∨
      (row : ℤ) = range.stop.line + displayOffset ∧ col ≤ range.stop.column) := by
  unfold InRange viewportPoint
  rw [GridPoint.le_iff, GridPoint.le_iff]
  simp only
  omega

/-- The lines begin with the range where it begins in the viewport, or above it in the first column. -/
theorem covers_start
    (hcolumn : range.start.line + (displayOffset : ℤ) < 0 → range.start.column = 0) :
    (startLine range displayOffset ≤ row ∧
      (row = startLine range displayOffset → range.start.column ≤ col)) ↔
      (range.start.line + (displayOffset : ℤ) < row ∨
        range.start.line + (displayOffset : ℤ) = row ∧ range.start.column ≤ col) := by
  unfold startLine
  omega

/-- In the viewport the lines end with the range. -/
theorem covers_end (hrow : row < numLines) (hcol : col < numColumns)
    (hon : 0 ≤ range.stop.line + (displayOffset : ℤ)) :
    (row ≤ endLine range displayOffset numLines ∧
      if row = endLine range displayOffset numLines then col ≤ range.stop.column
      else col < numColumns) ↔
      ((row : ℤ) < range.stop.line + displayOffset ∨
        (row : ℤ) = range.stop.line + displayOffset ∧ col ≤ range.stop.column) := by
  unfold endLine
  split
  · omega
  · omega

/-- Between the ends of a selection that begins in a column of the viewport is its range. -/
theorem contains_iff_inRange (hle : range.start.le range.stop = true)
    (hcolumn : range.start.column < numColumns) (hcol : col < numColumns) :
    range.Contains numColumns (viewportPoint displayOffset row col) ↔
      InRange range (viewportPoint displayOffset row col) := by
  rw [contains_iff_of_le hle]
  unfold InRange viewportPoint GridPoint.clampColumn
  refine and_congr ?_ ?_
  · rw [min_eq_left (by omega)]
  · rw [GridPoint.le_iff, GridPoint.le_iff]
    simp only
    omega

theorem lines_of_contains (hle : range.start.le range.stop = true)
    (h : range.Contains numColumns (viewportPoint displayOffset row col)) :
    range.start.line + (displayOffset : ℤ) ≤ row ∧ (row : ℤ) ≤ range.stop.line + displayOffset := by
  obtain ⟨hstart, hstop⟩ := (contains_iff_of_le hle).mp h
  unfold viewportPoint GridPoint.clampColumn at hstart hstop
  rw [GridPoint.le_iff] at hstart hstop
  simp only at hstart hstop
  omega

/-- The run of the selection covers the cells between its ends. -/
theorem exists_run_iff (hle : range.start.le range.stop = true) (hrow : row < numLines)
    (hcol : col < numColumns) :
    (∃ run, visibleSelection (some range) displayOffset numColumns numLines = some run ∧
      InRun run numColumns row col) ↔
      range.Contains numColumns (viewportPoint displayOffset row col) := by
  rcases @visibleSelection_of_le range displayOffset numColumns numLines hle (by omega) (by omega)
    with ⟨hnone, hhidden⟩ | ⟨run, hsome, -, hdenotes⟩
  · rw [hnone]
    refine ⟨fun ⟨_, hrun, _⟩ => (nomatch hrun), fun hcontains => ?_⟩
    obtain ⟨hstart, hstop⟩ := lines_of_contains hle hcontains
    refine absurd ?_ (hhidden row hrow)
    unfold SelectionRange.ContainsLine
    omega
  · rw [← hdenotes.covers row hrow col hcol, hsome]
    constructor
    · rintro ⟨_, ⟨⟩, hrun⟩
      exact hrun
    · exact fun hrun => ⟨run, rfl, hrun⟩

/-- A range that is above the viewport, or behind the row below it, has no lines and no cells. -/
theorem highlights_of_outside (hle : range.start.le range.stop = true)
    (hout : range.stop.line + (displayOffset : ℤ) < 0 ∨
      (numLines : ℤ) < range.start.line + displayOffset) :
    Highlights range displayOffset numLines numColumns where
  covers row hrow col hcol := by
    rw [covered_iff, inRange_iff]
    omega
  agrees row hrow col hcol := by
    rw [covered_iff, exists_run_iff hle hrow hcol]
    refine ⟨fun h => absurd hout h.1, fun h => ?_⟩
    obtain ⟨hstart, hstop⟩ := lines_of_contains hle h
    omega
  none_of_hidden _ := by
    rw [toHighlightedRangeLines_eq, if_pos hout]

theorem highlights_of_inside (hle : range.start.le range.stop = true)
    (hon : 0 ≤ range.stop.line + (displayOffset : ℤ)) (hlines : 0 < numLines)
    (hstart : range.start.line + (displayOffset : ℤ) < numLines)
    (hcolumn : range.start.column < numColumns)
    (habove : range.start.line + (displayOffset : ℤ) < 0 → range.start.column = 0) :
    Highlights range displayOffset numLines numColumns := by
  have hcovers : ∀ row < numLines, ∀ col < numColumns,
      Covered range displayOffset numLines numColumns row col ↔
        InRange range (viewportPoint displayOffset row col) := by
    intro row hrow col hcol
    rw [covered_iff, inRange_iff, ← covers_start habove, ← covers_end hrow hcol hon]
    constructor
    · rintro ⟨-, hlo, hhi, hfirst, hlast⟩
      exact ⟨⟨hlo, hfirst⟩, hhi, hlast⟩
    · rintro ⟨⟨hlo, hfirst⟩, hhi, hlast⟩
      exact ⟨by omega, hlo, hhi, hfirst, hlast⟩
  refine ⟨hcovers, fun row hrow col hcol => ?_, fun hhidden => ?_⟩
  · rw [hcovers row hrow col hcol, exists_run_iff hle hrow hcol, contains_iff_inRange hle hcolumn hcol]
  · -- the first cell of the range that can be on view is
    have horder := GridPoint.le_iff.mp hle
    refine absurd ?_ (hhidden (startLine range displayOffset) ?_ range.start.column hcolumn)
    · rw [inRange_iff]
      unfold startLine
      omega
    · unfold startLine
      omega

/-- For every range in order, every display offset and every viewport: the lines cover exactly the
visible cells of the range, those of `visible_selection`, and are none where there are none, if and only
if the range is in view. -/
theorem highlights_iff (range : SelectionRange) (displayOffset numLines numColumns : ℕ)
    (hle : range.start.le range.stop = true) :
    Highlights range displayOffset numLines numColumns ↔
      InView range displayOffset numLines numColumns := by
  constructor
  · intro h
    by_cases hout : range.stop.line + (displayOffset : ℤ) < 0 ∨
        (numLines : ℤ) < range.start.line + displayOffset
    · exact hout.imp_right .inl
    rw [not_or, not_lt, not_lt] at hout
    -- there are lines, so a cell is visible
    obtain ⟨row, hrow, col, hcol, hin⟩ : ∃ row, row < numLines ∧ ∃ col, col < numColumns ∧
        InRange range (viewportPoint displayOffset row col) := by
      by_contra hnone
      have hhidden : ∀ row < numLines, ∀ col < numColumns,
          ¬ InRange range (viewportPoint displayOffset row col) :=
        fun row hrow col hcol hin => hnone ⟨row, hrow, col, hcol, hin⟩
      have hlines := h.none_of_hidden hhidden
      rw [toHighlightedRangeLines_eq, if_neg (by omega)] at hlines
      cases hlines
    rw [inRange_iff] at hin
    have hzero : range.start.line + (displayOffset : ℤ) < 0 → range.start.column = 0 := by
      intro habove
      have hfirst := (h.covers 0 (by omega) 0 (by omega)).mpr (inRange_iff.mpr (by omega))
      have hcolumn := (covered_iff.mp hfirst).2.2.2.1 (by unfold startLine; omega)
      omega
    refine .inr (.inr ⟨by omega, by omega, ?_, hzero⟩)
    by_contra hpast
    -- the run begins in the last column, which the range does not contain
    have hrow' : (range.start.line + (displayOffset : ℤ)).toNat < numLines := by omega
    have hcol' : numColumns - 1 < numColumns := by omega
    have hcontains : range.Contains numColumns (viewportPoint displayOffset
        (range.start.line + (displayOffset : ℤ)).toNat (numColumns - 1)) := by
      have horder := GridPoint.le_iff.mp hle
      rw [contains_iff_of_le hle, GridPoint.le_iff, GridPoint.le_iff]
      unfold viewportPoint GridPoint.clampColumn
      simp only
      omega
    have hcovered := (h.agrees _ hrow' _ hcol').mpr ((exists_run_iff hle hrow' hcol').mpr hcontains)
    have hrange := inRange_iff.mp ((h.covers _ hrow' _ hcol').mp hcovered)
    omega
  · rintro (habove | hbelow | ⟨hlines, hstart, hcolumn, habove⟩)
    · exact highlights_of_outside hle (.inl habove)
    · exact highlights_of_outside hle (.inr hbelow)
    · by_cases hon : range.stop.line + (displayOffset : ℤ) < 0
      · exact highlights_of_outside hle (.inl hon)
      · exact highlights_of_inside hle (by omega) hlines hstart hcolumn habove

/-- A range that begins in the history, with its first line whole. -/
theorem highlights_iff_history : Highlights ⟨⟨-3, 0⟩, ⟨0, 4⟩⟩ 1 3 10 ↔
    InView ⟨⟨-3, 0⟩, ⟨0, 4⟩⟩ 1 3 10 :=
  highlights_iff ⟨⟨-3, 0⟩, ⟨0, 4⟩⟩ 1 3 10 (by decide)

/-- Of a range that begins in the history in column two, the first line on view lacks two cells. -/
theorem not_highlights_history : ¬ ∀ (range : SelectionRange) (displayOffset numLines numColumns : ℕ),
    range.start.le range.stop = true →
      Highlights range displayOffset numLines numColumns := by
  intro h
  have hhighlights := h ⟨⟨-1, 2⟩, ⟨0, 4⟩⟩ 0 3 10 (by decide)
  have hcovered := (hhighlights.covers 0 (by decide) 0 (by decide)).mpr (by
    rw [inRange_iff]
    decide)
  have hcolumn := (covered_iff.mp hcovered).2.2.2.1 (by decide)
  exact absurd hcolumn (by decide)

end Termua.Element
