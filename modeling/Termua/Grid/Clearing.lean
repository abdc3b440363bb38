import Mathlib
import Termua.Grid.Pages

/-!
# Clearing the screen

`clear_viewport` moves the screen up to its last cell that is not empty into the history and clears what
is left; `reset` clears everything and numbers the lines anew. Both on the view of the grid.
-/

namespace Termua.Grid

open Scrollback (Page)

section Scan

variable {T D : Type} [GridCell T D] {g : Grid T}

/-- The cell at a column of a line of the screen. -/
theorem Holds.cell_eq {r : List (Row T × ℤ)} (h : g.Holds r) {p : ℕ} {row : List T}
    {above : List (List T)} (hrow : ((cellsOf r).take g.lines).drop p = row :: above) (c : ℕ) :
    g.cell ⟨(above.length : ℕ), c⟩ = row[c]? ∧ row.length = g.columns ∧
      above.length + p + 1 = g.lines := by
  have hle := h.lines_le
  have hlen := congrArg List.length hrow
  simp only [List.length_drop, List.length_take, length_cellsOf, List.length_cons] at hlen
  have hget : (cellsOf r)[p]? = some row := by
    have := congrArg (·[0]?) hrow
    simp only [List.getElem?_drop, Nat.add_zero, List.getElem?_cons_zero] at this
    rwa [List.getElem?_take_of_lt (by omega)] at this
  unfold cellsOf at hget
  rw [List.getElem?_map, Option.map_eq_some_iff] at hget
  obtain ⟨x, hx, rfl⟩ := hget
  have hpos : position g.lines (above.length : ℕ) = p := by
    unfold position
    omega
  refine ⟨?_, (h.raw.clean (List.mem_of_getElem? hx)).length, by omega⟩
  unfold cell
  rw [Storage.index_eq h.raw (by show ((above.length : ℕ) : ℤ) < g.lines; omega)
    (by rw [hpos]; exact hx)]
  rfl

/-- The topmost line of the grid is the oldest of its history. -/
theorem Holds.topmostLine {r : List (Row T × ℤ)} (h : g.Holds r) :
    g.dimensions.topmostLine = -(r.length - g.lines : ℕ) := by
  have := h.historySize
  unfold Grid.historySize at this
  unfold Dimensions.topmostLine
  rw [this]

/-- Where the scan for the last cell that is not empty ends when `cells` are left of its line and `above`
is above it: in that line if one of them is not empty, else above. -/
def ScanEnds (g : Grid T) (r : List (Row T × ℤ)) (cells : List T) (above : List (List T))
    (found : Option Point) : Prop :=
  ∃ q, found = some q ∧ q.line + 1 = (if cells.all GridCell.isEmpty then
    View.occupied (decide (r.length = g.lines)) above else above.length + 1 : ℕ)

/-- The scan steps to column `c` of the screen, and ends where it would end from there if the cell is
empty. -/
theorem Holds.scanEnds_visit {r : List (Row T × ℤ)} (h : g.Holds r) {fuel p c : ℕ} {row : List T}
    {above : List (List T)} (hrow : ((cellsOf r).take g.lines).drop p = row :: above)
    (hc : c < g.columns)
    (hrest : g.ScanEnds r (row.take c) above (g.lastOccupied fuel ⟨(above.length : ℕ), c⟩)) :
    g.ScanEnds r (row.take (c + 1)) above (do
      let cell ← g.cell ⟨(above.length : ℕ), c⟩
      if !GridCell.isEmpty cell || decide ((above.length : ℤ) < 0) then
        some (⟨(above.length : ℕ), c⟩ : Point)
      else g.lastOccupied fuel ⟨(above.length : ℕ), c⟩) := by
  obtain ⟨hcell, hlength, -⟩ := h.cell_eq hrow c
  have hbound : c < row.length := by omega
  have hget := List.getElem?_eq_getElem hbound
  unfold ScanEnds
  rw [hcell, hget, List.take_add_one, hget]
  simp only [Option.bind_eq_bind, Option.bind_some, Option.toList_some, List.all_append,
    List.all_cons, List.all_nil, Bool.and_true, Bool.and_eq_true]
  by_cases hempty : GridCell.isEmpty row[c] = true
  · obtain ⟨q, hq, hline⟩ := hrest
    refine ⟨q, ?_, ?_⟩
    · rw [if_neg (by simp [hempty])]
      exact hq
    · rw [hline]
      simp only [hempty, and_true]
  · refine ⟨_, if_pos (by simp [hempty]), ?_⟩
    simp only [hempty, Bool.false_eq_true, and_false, if_false]
    push_cast
    rfl

/-- The last cell of the line above the screen, where there is a history. -/
theorem Holds.cell_history {r : List (Row T × ℤ)} (h : g.Holds r) (hbare : g.lines < r.length) :
    ∃ cell, g.cell ⟨-1, g.columns - 1⟩ = some cell := by
  have hcols := h.columns_pos
  have hpos : position g.lines (-1) < r.length := by
    unfold position
    omega
  have hx := List.getElem?_eq_getElem hpos
  have hclean := h.raw.clean (List.mem_of_getElem? hx)
  have hbound : g.columns - 1 < r[position g.lines (-1)].1.inner.length := by
    rw [hclean.length]
    omega
  refine ⟨r[position g.lines (-1)].1.inner[g.columns - 1], ?_⟩
  unfold cell
  rw [Storage.index_eq h.raw (by omega) hx]
  exact List.getElem?_eq_getElem _

/-- From the first cell of the screen the scan ends there, or in the line above the screen. -/
theorem Holds.scanEnds_top {r : List (Row T × ℤ)} (h : g.Holds r) (fuel : ℕ) :
    g.ScanEnds r [] [] (g.lastOccupied (fuel + 1) ⟨0, 0⟩) := by
  have hle := h.lines_le
  have htop := h.topmostLine
  unfold lastOccupied prevPoint
  simp only [htop, and_true]
  by_cases hbare : r.length = g.lines
  · refine ⟨⟨0, 0⟩, ?_, ?_⟩
    · rw [if_pos (by omega)]
    · simp only [View.occupied, hbare, decide_true, if_true]
      rfl
  · have hlast : g.dimensions.lastColumn = g.columns - 1 := rfl
    obtain ⟨cell, hcell⟩ := h.cell_history (by omega)
    refine ⟨⟨-1, g.columns - 1⟩, ?_, ?_⟩
    · rw [if_neg (by omega)]
      simp only [zero_sub, hlast, hcell, Option.bind_eq_bind, Option.bind_some, if_true]
      exact if_pos (by simp)
    · simp only [View.occupied, hbare, decide_false]
      rfl

/-- The loop of `clear_viewport`, from column `col` of the line whose cells are `row` on: it stops in the
last line with a cell before `col` that is not empty, else above it. -/
theorem lastOccupied_eq {r : List (Row T × ℤ)} (h : g.Holds r) (fuel : ℕ) :
    ∀ {p col : ℕ} {row : List T} {above : List (List T)},
      ((cellsOf r).take g.lines).drop p = row :: above → col ≤ g.columns →
      above.length * g.columns + col < fuel →
      g.ScanEnds r (row.take col) above (g.lastOccupied fuel ⟨(above.length : ℕ), col⟩) := by
  have hle := h.lines_le
  have hcols := h.columns_pos
  have htop := h.topmostLine
  induction fuel with
  | zero => exact fun _ _ hfuel => absurd hfuel (Nat.not_lt_zero _)
  | succ fuel ih =>
    intro p col row above hrow hcol hfuel
    obtain ⟨-, -, hlines⟩ := h.cell_eq hrow 0
    rcases Nat.eq_zero_or_pos col with rfl | hpos
    · cases above with
      | nil => exact h.scanEnds_top fuel
      | cons row' above' =>
        -- to the last column of the line above
        have hrow' : ((cellsOf r).take g.lines).drop (p + 1) = row' :: above' := by
          rw [← List.drop_drop, hrow]
          rfl
        obtain ⟨-, hlength', -⟩ := h.cell_eq hrow' 0
        have hmul : (above'.length + 1) * g.columns = above'.length * g.columns + g.columns :=
          Nat.succ_mul ..
        simp only [List.length_cons] at hfuel
        obtain ⟨q, hq, hline⟩ := h.scanEnds_visit hrow' (c := g.columns - 1) (by omega)
          (ih hrow' (by omega) (by omega))
        refine ⟨q, ?_, ?_⟩
        · unfold lastOccupied prevPoint
          simp only [htop, if_true, and_true]
          rw [if_neg (by simp only [List.length_cons]; omega)]
          have hup : ((row' :: above').length : ℤ) - 1 = above'.length := by simp
          have hlast : g.dimensions.lastColumn = g.columns - 1 := rfl
          simp only [hup, hlast]
          exact hq
        · rw [hline, show g.columns - 1 + 1 = row'.length by omega, List.take_length]
          rfl
    · have hvisit := h.scanEnds_visit hrow (c := col - 1) (by omega)
        (ih hrow (by omega) (by omega))
      rw [Nat.sub_add_cancel hpos] at hvisit
      unfold lastOccupied prevPoint
      simp only [htop]
      rw [if_neg (by omega), if_neg (by omega)]
      exact hvisit

end Scan

variable {T D : Type} [DecidableEq D] [GridCell T D] {g : Grid T}

omit [DecidableEq D] in
theorem occupied_le (bare : Bool) (rows : List (List T)) :
    View.occupied bare rows ≤ max rows.length 1 := by
  induction rows with
  | nil =>
    unfold View.occupied
    split <;> simp
  | cons row above ih =>
    unfold View.occupied
    split
    · simp only [List.length_cons]
      omega
    · simp

/-- `clear_viewport` scrolls the screen up to its last line that is not empty into the history and resets
the lines above those that came in. -/
theorem clearViewport_steps (h : g.Wf) :
    ∃ g₁ g₂, View.occupied g.view.page.history.isEmpty g.view.page.screen.reverse ≤ g.lines ∧
      g.step (.scrollUp 0 g.lines
        (View.occupied g.view.page.history.isEmpty g.view.page.screen.reverse)) = some g₁ ∧
      g₁.Wf ∧
      g₁.view = g.view.step (.scrollUp 0 g.lines
        (View.occupied g.view.page.history.isEmpty g.view.page.screen.reverse)) ∧
      g₁.step (.resetRegion 0 (g.lines -
        View.occupied g.view.page.history.isEmpty g.view.page.screen.reverse)) = some g₂ ∧
      g.clearViewport = some g₂ := by
  have hholds : g.Holds g.active := h
  have hle := h.lines_le
  have hpos := h.lines_pos
  set rows := (cellsOf g.active).take g.lines with hrows
  have hlength : rows.length = g.lines := by
    rw [hrows, List.length_take, length_cellsOf]
    omega
  have hscreen : g.view.page.screen.reverse = rows := List.reverse_reverse _
  have hbare : g.view.page.history.isEmpty = decide (g.active.length = g.lines) := by
    have := hholds.length_history
    rw [Bool.eq_iff_iff, List.isEmpty_iff_length_eq_zero, decide_eq_true_iff]
    omega
  set n := View.occupied g.view.page.history.isEmpty g.view.page.screen.reverse with hn
  -- the loop ends in the last line of the screen that is not empty
  obtain ⟨point, hpoint, hline⟩ : ∃ point : Point,
      g.lastOccupied (g.lines * g.columns + 1) ⟨g.lines - 1, g.columns⟩ = some point ∧
        point.line + 1 = n := by
    obtain ⟨row, above, hcons⟩ : ∃ row above, rows = row :: above :=
      List.exists_cons_of_length_pos (by omega)
    have habove : above.length + 1 = g.lines := by rw [← hlength, hcons, List.length_cons]
    have hmul : (above.length + 1) * g.columns = above.length * g.columns + g.columns :=
      Nat.succ_mul ..
    obtain ⟨q, hq, hline⟩ := lastOccupied_eq hholds (g.lines * g.columns + 1) (p := 0) hcons
      (le_refl _) (by rw [← habove]; omega)
    obtain ⟨-, hrow, -⟩ := hholds.cell_eq (p := 0) hcons 0
    refine ⟨q, ?_, ?_⟩
    · rw [show (g.lines : ℤ) - 1 = (above.length : ℕ) by omega]
      exact hq
    · rw [hline, hn, hscreen, hbare, hcons, show g.columns = row.length by omega, List.take_length]
      rfl
  have hnle : n ≤ g.lines := by
    have := occupied_le g.view.page.history.isEmpty g.view.page.screen.reverse
    rw [← hn, hscreen, hlength] at this
    omega
  have hpositions : (point.line + 1).toNat = n := by omega
  have hscroll : g.view.Valid (.scrollUp 0 g.lines n) :=
    ⟨Nat.zero_le _, le_refl _, fun _ => hnle⟩
  obtain ⟨g₁, hg₁, hwf₁, hview₁⟩ := scrollUp_view h hscroll
  have hlines₁ : g₁.lines = g.lines := congrArg View.lines hview₁
  have hreset : g₁.view.Valid (.resetRegion 0 (g.lines - n)) :=
    ⟨Nat.zero_le _, by rw [hview₁]; exact Nat.sub_le _ _⟩
  obtain ⟨g₂, hg₂, -, -⟩ := resetRegion_view hwf₁ hreset
  refine ⟨g₁, g₂, hnle, hg₁, hwf₁, hview₁, hg₂, ?_⟩
  unfold clearViewport
  rw [hpoint]
  simp only [Option.bind_eq_bind, Option.bind_some, hpositions]
  simp only [Nat.cast_zero] at hg₁
  rw [hg₁]
  simp only [Nat.cast_zero, ← hlines₁] at hg₂
  exact hg₂

/-- `clear_viewport` on the view. -/
theorem clearViewport_view (h : g.Wf) :
    ∃ g', g.clearViewport = some g' ∧ g'.Wf ∧ g'.view = g.view.step .clearViewport := by
  obtain ⟨g₁, g₂, hnle, -, hwf₁, hview₁, hg₂, hclear⟩ := clearViewport_steps h
  set n := View.occupied g.view.page.history.isEmpty g.view.page.screen.reverse with hn
  have hreset : g₁.view.Valid (.resetRegion 0 (g.lines - n)) :=
    ⟨Nat.zero_le _, by rw [hview₁]; exact Nat.sub_le _ _⟩
  obtain ⟨g', hg', hwf', hview'⟩ := resetRegion_view hwf₁ hreset
  obtain rfl : g₂ = g' := Option.some.inj (hg₂.symm.trans hg')
  refine ⟨g₂, hclear, hwf', ?_⟩
  have hle := h.lines_le
  have hlines : g.view.lines = g.lines := rfl
  have hlen : g.view.page.screen.length = g.lines := by
    show ((cellsOf g.active).take g.lines).reverse.length = _
    rw [List.length_reverse, List.length_take, length_cellsOf]
    omega
  rw [hview', hview₁]
  unfold View.step View.blank
  simp only [← hn, Page.scrollUp, Page.clear, hlines, Nat.sub_zero, min_eq_left hnle,
    if_true, List.take_zero, List.nil_append]
  congr 2
  rw [List.take_of_length_le hlen.le, List.drop_eq_nil_of_le hlen.le, List.append_nil,
    List.drop_left' (by rw [List.length_drop]; omega), List.replicate_append_replicate]
  congr 1
  omega

/-! ## The full reset -/

/-- The lines of a grid after a reset, numbered from the topmost on. -/
theorem reset_holds (h : g.Wf) :
    ∃ g' rows, g.reset = some g' ∧ g'.Holds (Storage.numbered rows) ∧
      g'.Bounded (Storage.numbered rows) ∧
      rows.map Row.inner = List.replicate g.lines (List.replicate g.columns default) ∧
      g'.lines = g.lines ∧ g'.columns = g.columns ∧ g'.maxScrollLimit = g.maxScrollLimit ∧
      g'.displayOffset = 0 ∧ g'.cursor = { template := default } := by
  have hpos := h.lines_pos
  obtain ⟨g₁, hg₁, hwf₁, hview₁⟩ := clearHistory_view h
  have hlines₁ : g₁.lines = g.lines := congrArg View.lines hview₁
  have hcols₁ : g₁.columns = g.columns := congrArg View.columns hview₁
  have hlimit₁ : g₁.maxScrollLimit = g.maxScrollLimit := congrArg View.limit hview₁
  have hholds₁ : g₁.Holds g₁.active := hwf₁
  have hlength₁ : g₁.active.length = g.lines := by
    have hle := hwf₁.lines_le
    have hhist := hholds₁.length_history
    rw [hview₁] at hhist
    have : g₁.active.length - g₁.lines = 0 := hhist.symm
    omega
  -- the cursors are reset before the lines are
  let g₂ : Grid T := { g₁ with savedCursor := { template := default },
                               cursor := { template := default }, displayOffset := 0 }
  have hholds₂ : g₂.Holds ([] ++ (g₁.active ++ [])) := by
    rw [List.nil_append, List.append_nil]
    exact ⟨hwf₁.raw, hwf₁.columns_pos, hwf₁.lines_pos, hwf₁.lines_le, hwf₁.length_le⟩
  have htop : g₂.dimensions.topmostLine = 0 := by
    have hsize : g₁.historySize = 0 := by rw [hholds₁.historySize]; omega
    unfold Dimensions.topmostLine
    show -((g₁.historySize : ℕ) : ℤ) = 0
    rw [hsize]
    rfl
  obtain ⟨raw, fresh, hraw, hfresh, hblank, -, hholds₃⟩ := resetLines_holds 0 0 (g.lines - 1 : ℕ) 0
    g.lines hholds₂
    (by rw [List.length_nil, Nat.zero_add]; exact hlines₁.symm) (by omega)
  have hcells : (fresh.map Prod.fst).map Row.inner =
      List.replicate g.lines (List.replicate g.columns default) := by
    have hblank₂ : g₂.view.blank = List.replicate g.columns (default : T) := by
      unfold View.blank
      show List.replicate g₁.columns (GridCell.cleared (GridCell.discriminant (default : T))) = _
      rw [GridCell.cleared_default, hcols₁]
    rw [List.map_map, ← hblank₂, ← hlength₁]
    exact hblank
  -- the loop that numbers the lines
  have hnumber : (List.range g₁.lines).foldlM
        (fun raw (i : ℕ) => raw.setStableRowIdForLine i i) raw =
      (lineRange 0 g.lines).foldlM (fun raw i => raw.setStableRowIdForLine i i) raw := by
    unfold lineRange
    rw [List.foldlM_map, hlines₁, show ((g.lines : ℤ) - 0).toNat = g.lines by omega]
    simp only [zero_add]
  have hfreshLen : fresh.length = g.lines := hfresh.trans hlength₁
  have hraw₃ : raw.Holds g.columns g.lines ([] ++ (fresh ++ [])) := by
    have := hholds₃.raw
    rwa [show g₂.columns = g.columns from hcols₁, show g₂.lines = g.lines from hlines₁] at this
  obtain ⟨raw', hraw', hholds₄⟩ := Storage.update_holds (fun i x => some (x.1, i)) [] fresh
    (Storage.numbered (fresh.map Prod.fst)) [] (a := 0) (b := g.lines) hraw₃ (by simp) (by omega)
    (by simp) (Storage.nodup_lineRange 0 g.lines) (fun i => Storage.mem_lineRange)
    (fun j x hx => by
      simp only [Storage.numbered, List.getElem?_mapIdx, List.getElem?_map, hx, Option.map_some,
        List.length_map, hfreshLen])
    (fun i hi s r r' hs hr =>
      Storage.setStableRowIdForLine_holds i hs (Storage.mem_lineRange.mp hi).2 hr)
  rw [List.nil_append, List.append_nil] at hholds₄
  refine ⟨{ g₂ with raw := raw', stableRowMin := 0, stableRowMax := (g.lines - 1 : ℕ) },
    fresh.map Prod.fst, ?_, ?_, ⟨?_, ?_⟩, hcells, hlines₁, hcols₁, hlimit₁, rfl, rfl⟩
  · unfold reset
    rw [hg₁]
    simp only [Option.bind_eq_bind, Option.bind_some]
    show Option.bind ((lineRange g₂.dimensions.topmostLine g₁.lines).foldlM
      (resetLine g₂.cursor.template) g₂.raw) _ = _
    rw [htop, hlines₁]
    rw [Nat.cast_zero] at hraw
    rw [hraw, Option.bind_some]
    rw [hlines₁] at hnumber
    rw [hnumber, hraw']
    rfl
  · refine ⟨?_, hwf₁.columns_pos, hwf₁.lines_pos, ?_, ?_⟩
    · show raw'.Holds g₁.columns g₁.lines _
      rw [hcols₁, hlines₁]
      exact hholds₄
    · show g₁.lines ≤ _
      rw [Storage.length_numbered, List.length_map]
      omega
    · show _ ≤ g₁.lines + g₁.maxScrollLimit
      rw [Storage.length_numbered, List.length_map]
      omega
  · exact Storage.getLast?_numbered (by rw [List.length_map]; omega)
  · rw [Storage.head?_numbered (by rw [List.length_map]; omega), List.length_map, hfreshLen]
    rfl

omit [DecidableEq D] in
theorem cellsOf_numbered (rows : List (Row T)) :
    cellsOf (Storage.numbered rows) = rows.map Row.inner := by
  have hrows := congrArg (List.map Row.inner) (Storage.map_fst_numbered rows)
  rwa [List.map_map] at hrows

/-- `reset` on the view. -/
theorem reset_view (h : g.Wf) :
    ∃ g', g.reset = some g' ∧ g'.Wf ∧ g'.view = g.view.step .reset := by
  obtain ⟨g', rows, hg', hholds, -, hcells, hlines, hcols, hlimit, hoffset, hcursor⟩ := reset_holds h
  refine ⟨g', hg', hholds.wf, ?_⟩
  rw [hholds.view_eq, cellsOf_numbered, hcells, hlines, hcols, hlimit, hoffset, hcursor]
  unfold View.step Page.ofLines
  simp only [List.take_replicate, List.drop_replicate, min_self, Nat.sub_self, List.replicate_zero,
    List.reverse_replicate]
  rfl

omit [DecidableEq D] in
/-- A new grid shows blank lines. -/
theorem new_view {lines columns : ℕ} (limit : ℕ) (hlines : 0 < lines) (hcols : 0 < columns) :
    ∃ g : Grid T, new lines columns limit = some g ∧ g.Wf ∧
      g.view = { page := ⟨List.replicate lines (List.replicate columns default), []⟩
                 lines, columns, limit, offset := 0, template := default } := by
  obtain ⟨raw, hraw, hholds⟩ := Storage.withCapacity_holds (T := T) columns hlines
  have hlen : (Storage.numbered (List.replicate lines (Row.new columns : Row T))).length = lines := by
    rw [Storage.length_numbered, List.length_replicate]
  have hg : Holds (T := T)
      { raw, maxScrollLimit := limit, displayOffset := 0, savedCursor := { template := default },
        cursor := { template := default }, lines, columns, stableRowMin := 0,
        stableRowMax := (lines - 1 : ℕ) } (Storage.numbered (List.replicate lines (Row.new columns))) :=
    ⟨hholds, hcols, hlines, hlen.ge, hlen.le.trans (Nat.le_add_right _ _)⟩
  refine ⟨_, ?_, hg.wf, ?_⟩
  · unfold new
    rw [hraw]
    rfl
  · rw [hg.view_eq, cellsOf_numbered, List.map_replicate]
    unfold Page.ofLines
    simp only [List.take_replicate, List.drop_replicate, min_self, Nat.sub_self, List.replicate_zero,
      List.reverse_replicate]
    rfl

/-! ## What the operations leave -/

section Frame

variable {g' m : Grid T}

omit [DecidableEq D] in
theorem SameFrame.trans (h : SameFrame g m) (h' : SameFrame m g') : SameFrame g g' :=
  ⟨h'.cursor.trans h.cursor, h'.savedCursor.trans h.savedCursor, h'.columns.trans h.columns,
    h'.lines.trans h.lines, h'.maxScrollLimit.trans h.maxScrollLimit⟩

omit [DecidableEq D] in
/-- `recalc_stable_row_bounds` changes the bounds only. -/
theorem recalcStableRowBounds_frame (h : g.recalcStableRowBounds = some g') : SameFrame g g' := by
  unfold recalcStableRowBounds at h
  split at h
  · obtain rfl := Option.some.inj h
    exact ⟨rfl, rfl, rfl, rfl, rfl⟩
  · simp only [Option.bind_eq_bind, Option.bind_eq_some_iff] at h
    obtain ⟨lowest, -, highest, -, h⟩ := h
    obtain rfl := Option.some.inj h
    exact ⟨rfl, rfl, rfl, rfl, rfl⟩

theorem scrollUp_frame {start stop : ℤ} {positions : ℕ}
    (h : g.scrollUp start stop positions = some g') : SameFrame g g' := by
  unfold scrollUp at h
  split at h
  · simp only [Option.bind_eq_bind, Option.bind_eq_some_iff] at h
    obtain ⟨raw, -, h⟩ := h
    obtain rfl := Option.some.inj h
    exact ⟨rfl, rfl, rfl, rfl, rfl⟩
  · simp only [Option.bind_eq_bind, Option.bind_eq_some_iff] at h
    obtain ⟨raw, -, x, -, h⟩ := h
    split at h
    · obtain ⟨hc, hs, hcols, hlines, hlimit⟩ := recalcStableRowBounds_frame h
      exact ⟨hc, hs, hcols, hlines, hlimit⟩
    · obtain rfl := Option.some.inj h
      exact ⟨rfl, rfl, rfl, rfl, rfl⟩

theorem scrollDown_frame {start stop : ℤ} {positions : ℕ}
    (h : g.scrollDown start stop positions = some g') : SameFrame g g' := by
  unfold scrollDown at h
  split at h
  · simp only [Option.bind_eq_bind, Option.bind_eq_some_iff] at h
    obtain ⟨raw, -, h⟩ := h
    obtain rfl := Option.some.inj h
    exact ⟨rfl, rfl, rfl, rfl, rfl⟩
  · simp only [Option.bind_eq_bind, Option.bind_eq_some_iff] at h
    obtain ⟨raw, -, h⟩ := h
    split at h
    · obtain ⟨hc, hs, hcols, hlines, hlimit⟩ := recalcStableRowBounds_frame h
      exact ⟨hc, hs, hcols, hlines, hlimit⟩
    · obtain rfl := Option.some.inj h
      exact ⟨rfl, rfl, rfl, rfl, rfl⟩

theorem resetRegion_frame {start stop : ℤ} (h : g.resetRegion start stop = some g') :
    SameFrame g g' := by
  unfold resetRegion at h
  simp only [Option.bind_eq_bind, Option.bind_eq_some_iff] at h
  obtain ⟨raw, -, h⟩ := h
  obtain rfl := Option.some.inj h
  exact ⟨rfl, rfl, rfl, rfl, rfl⟩

/-- The operation is on the lines and the display, not on the cursors or the limit. -/
def Op.OnLines : Op T → Prop
  | .updateHistory _ | .reset | .setCursor _ => False
  | _ => True

/-- An operation on the lines leaves the cursors and the size of the grid. -/
theorem step_frame {op : Op T} (h : g.step op = some g') (hop : op.OnLines) : SameFrame g g' := by
  cases op with
  | scrollUp start stop positions => exact scrollUp_frame h
  | scrollDown start stop positions => exact scrollDown_frame h
  | resetRegion start stop => exact resetRegion_frame h
  | clearViewport =>
    unfold step clearViewport at h
    simp only [Option.bind_eq_bind, Option.bind_eq_some_iff] at h
    obtain ⟨point, -, m, hm, raw, -, h⟩ := h
    obtain rfl := Option.some.inj h
    exact (scrollUp_frame hm).trans ⟨rfl, rfl, rfl, rfl, rfl⟩
  | clearHistory =>
    unfold step clearHistory at h
    obtain ⟨hc, hs, hcols, hlines, hlimit⟩ := recalcStableRowBounds_frame h
    exact ⟨hc, hs, hcols, hlines, hlimit⟩
  | scrollDisplay scroll =>
    obtain rfl := Option.some.inj h
    exact ⟨rfl, rfl, rfl, rfl, rfl⟩
  | modifyRow line edit =>
    unfold step modifyRow at h
    simp only [Option.bind_eq_bind, Option.bind_eq_some_iff] at h
    obtain ⟨raw, -, h⟩ := h
    obtain rfl := Option.some.inj h
    exact ⟨rfl, rfl, rfl, rfl, rfl⟩
  | updateHistory historySize => exact hop.elim
  | reset => exact hop.elim
  | setCursor cursor => exact hop.elim

end Frame

/-! ## Steps -/

/-- An operation does to the view of a grid what it says, and does not panic. -/
theorem step_view (h : g.Wf) {op : Op T} (hv : g.view.Valid op) :
    ∃ g', g.step op = some g' ∧ g'.Wf ∧ g'.view = g.view.step op := by
  cases op with
  | scrollUp start stop positions => exact scrollUp_view h hv
  | scrollDown start stop positions => exact scrollDown_view h hv
  | resetRegion start stop => exact resetRegion_view h hv
  | clearViewport => exact clearViewport_view h
  | clearHistory => exact clearHistory_view h
  | updateHistory historySize => exact updateHistory_view h historySize
  | scrollDisplay scroll => exact ⟨_, rfl, scrollDisplay_view h scroll⟩
  | reset => exact reset_view h
  | modifyRow line edit => exact modifyRow_view h hv
  | setCursor cursor =>
    have hholds : ({ g with cursor } : Grid T).Holds g.active :=
      ⟨h.raw, h.columns_pos, h.lines_pos, h.lines_le, h.length_le⟩
    exact ⟨_, rfl, hholds.wf, hholds.view_eq⟩

end Termua.Grid
