import Mathlib
import Termua.Grid.Runs
import Termua.Lib.Returns
import Termua.Term.Handler

/-!
# The terminal does not panic

`Inv` is what holds between two actions of a terminal: the ring buffers of both grids are in order, the
cursors are on the screen, the scrolling region is a range of its lines, and there are tab stops for every
column and damage for every line. Every action keeps it and returns (`handle_keeps`), whatever the parser
or the user asks for.
-/

namespace Termua.Term

open Termua.Grid (Cell Point Cursor Flags Op)

variable {tables : Tables} {t t' m : Term}

/-! ## The invariant -/

/-- A point on the screen of a grid. -/
structure OnScreen (g : Grid Cell) (p : Point) : Prop where
  line_nonneg : 0 ≤ p.line
  line_lt : p.line < g.lines
  column_lt : p.column < g.columns

/-- A grid in order, with its cursors on its screen. -/
structure GridInv (lines columns : ℕ) (g : Grid Cell) : Prop where
  wf : g.Wf
  lines : g.lines = lines
  columns : g.columns = columns
  cursor : OnScreen g g.cursor.point
  savedCursor : OnScreen g g.savedCursor.point

/-- What holds of a terminal between two actions. -/
structure Inv (t : Term) : Prop where
  grid : GridInv t.screenLines t.columns t.grid
  inactiveGrid : GridInv t.screenLines t.columns t.inactiveGrid
  two_columns : 2 ≤ t.columns
  region_nonneg : 0 ≤ t.regionStart
  region_le : t.regionStart ≤ t.regionEnd
  region_pos : 0 < t.regionEnd
  region_end : t.regionEnd ≤ t.screenLines
  tabs : t.tabs.length = t.columns
  damage : t.damage.lines.length = t.screenLines
  lastCursor_nonneg : 0 ≤ t.damage.lastCursor.line
  lastCursor_lt : t.damage.lastCursor.line < t.screenLines
  colors : t.colors.length = colorCount

/-- A step keeps the invariant and does nothing to the screen that is not shown. -/
structure Keeps (t t' : Term) : Prop where
  inv : t'.Inv
  columns : t'.columns = t.columns
  screenLines : t'.screenLines = t.screenLines
  inactiveGrid : t'.inactiveGrid = t.inactiveGrid
  altScreen : t'.mode.altScreen = t.mode.altScreen
  config : t'.config = t.config

/-- A step that moves neither the cursor nor the scrolling region and changes no mode. -/
structure Holds (t t' : Term) : Prop extends Keeps t t' where
  cursor : t'.cursor = t.cursor
  mode : t'.mode = t.mode
  tabs : t'.tabs = t.tabs
  regionStart : t'.regionStart = t.regionStart
  regionEnd : t'.regionEnd = t.regionEnd

theorem Inv.holds (h : t.Inv) : t.Holds t :=
  ⟨⟨h, rfl, rfl, rfl, rfl, rfl⟩, rfl, rfl, rfl, rfl, rfl⟩

theorem Inv.keeps (h : t.Inv) : t.Keeps t := h.holds.toKeeps

theorem Keeps.trans (h : t.Keeps m) (h' : m.Keeps t') : t.Keeps t' where
  inv := h'.inv
  columns := h'.columns.trans h.columns
  screenLines := h'.screenLines.trans h.screenLines
  inactiveGrid := h'.inactiveGrid.trans h.inactiveGrid
  altScreen := h'.altScreen.trans h.altScreen
  config := h'.config.trans h.config

theorem Holds.trans (h : t.Holds m) (h' : m.Holds t') : t.Holds t' where
  toKeeps := h.toKeeps.trans h'.toKeeps
  cursor := h'.cursor.trans h.cursor
  mode := h'.mode.trans h.mode
  tabs := h'.tabs.trans h.tabs
  regionStart := h'.regionStart.trans h.regionStart
  regionEnd := h'.regionEnd.trans h.regionEnd

theorem Inv.onScreen (h : t.Inv) : OnScreen t.grid t.cursor.point := h.grid.cursor

theorem Inv.line_toNat_lt (h : t.Inv) : t.cursor.point.line.toNat < t.screenLines := by
  have hnonneg := h.onScreen.line_nonneg
  have hlt : t.cursor.point.line < t.screenLines := h.onScreen.line_lt
  omega

theorem Inv.lines_pos (h : t.Inv) : 0 < t.screenLines := by
  have := h.line_toNat_lt
  omega

/-- After a step that keeps the invariant comes another. -/
theorem Keeps.bind {x : Option Term} {f : Term → Option Term} (h : Returns x (Keeps t))
    (hf : ∀ m, m.Inv → Returns (f m) (Keeps m)) : Returns (x >>= f) (Keeps t) :=
  h.bind fun m hm => (hf m hm.inv).mono fun _ hk => hm.trans hk

/-! ## Elementary steps -/

theorem damageLine_holds (h : t.Inv) {line : ℕ} (hline : line < t.screenLines) (left right : ℕ) :
    Returns (t.damageLine line left right) (Holds t) := by
  have hget := List.getElem?_eq_getElem (show line < t.damage.lines.length by rw [h.damage]; exact hline)
  unfold damageLine
  rw [Ring.updateAt_eq_some (f := fun b => some (b.expand left right)) hget rfl]
  refine .some ⟨⟨?_, rfl, rfl, rfl, rfl, rfl⟩, rfl, rfl, rfl, rfl, rfl⟩
  exact { h with
    damage := (List.length_set ..).trans h.damage }

theorem damageCursor_holds (h : t.Inv) : Returns t.damageCursor (Holds t) :=
  damageLine_holds h h.line_toNat_lt _ _

theorem markFullyDamaged_holds (h : t.Inv) : t.Holds t.markFullyDamaged :=
  ⟨⟨{ h with }, rfl, rfl, rfl, rfl, rfl⟩, rfl, rfl, rfl, rfl, rfl⟩

/-- A step that changes modes other than that of the screen. -/
theorem withMode_keeps (h : t.Inv) {f : TermMode → TermMode}
    (hf : (f t.mode).altScreen = t.mode.altScreen) : t.Keeps (t.withMode f) :=
  ⟨{ h with }, rfl, rfl, rfl, hf, rfl⟩

/-- The cursor is changed and stays on the screen. -/
theorem withCursor_keeps (h : t.Inv) {f : Cursor Cell → Cursor Cell}
    (hf : OnScreen t.grid (f t.cursor).point) : t.Keeps (t.withCursor f) := by
  have hwf := h.grid.wf
  have hholds : (t.withCursor f).grid.Holds t.grid.active :=
    ⟨hwf.raw, hwf.columns_pos, hwf.lines_pos, hwf.lines_le, hwf.length_le⟩
  have hsaved := h.grid.savedCursor
  refine ⟨{ h with grid := ⟨hholds.wf, rfl, rfl, ?_, ?_⟩ }, rfl, rfl, rfl, rfl, rfl⟩
  · exact ⟨hf.line_nonneg, hf.line_lt, hf.column_lt⟩
  · exact ⟨hsaved.line_nonneg, hsaved.line_lt, hsaved.column_lt⟩

theorem toColumn_keeps (h : t.Inv) {column : ℕ} (hcol : column < t.columns) :
    t.Keeps (t.toColumn column) :=
  withCursor_keeps h ⟨h.onScreen.line_nonneg, h.onScreen.line_lt, hcol⟩

theorem toLine_keeps (h : t.Inv) {line : ℤ} (hnonneg : 0 ≤ line) (hlt : line < t.screenLines) :
    t.Keeps (t.toLine line) :=
  withCursor_keeps h ⟨hnonneg, hlt, h.onScreen.column_lt⟩

theorem needsWrap_keeps (h : t.Inv) (b : Bool) : t.Keeps (t.needsWrap b) :=
  withCursor_keeps h ⟨h.onScreen.line_nonneg, h.onScreen.line_lt, h.onScreen.column_lt⟩

theorem withTemplate_keeps (h : t.Inv) (f : Cell → Cell) : t.Keeps (t.withTemplate f) :=
  withCursor_keeps h ⟨h.onScreen.line_nonneg, h.onScreen.line_lt, h.onScreen.column_lt⟩

/-- An operation on the lines of a grid in order. -/
theorem GridInv.step {lines columns : ℕ} {g : Grid Cell} (h : GridInv lines columns g) (op : Op Cell)
    (hv : g.view.Valid op) (hop : op.OnLines) :
    ∃ g', g.step op = some g' ∧ GridInv lines columns g' ∧ Grid.SameFrame g g' := by
  obtain ⟨g', hg', hwf, -⟩ := Grid.step_view h.wf hv
  have hframe := Grid.step_frame hg' hop
  have hcursor := h.cursor
  have hsaved := h.savedCursor
  refine ⟨g', hg', ⟨hwf, hframe.lines.trans h.lines, hframe.columns.trans h.columns, ?_, ?_⟩, hframe⟩
  · rw [hframe.cursor]
    exact ⟨hcursor.line_nonneg, hframe.lines ▸ hcursor.line_lt, hframe.columns ▸ hcursor.column_lt⟩
  · rw [hframe.savedCursor]
    exact ⟨hsaved.line_nonneg, hframe.lines ▸ hsaved.line_lt, hframe.columns ▸ hsaved.column_lt⟩

/-- The grid is replaced by one in order. -/
theorem Inv.withGrid (h : t.Inv) {g : Grid Cell} (hg : GridInv t.screenLines t.columns g) :
    Inv { t with grid := g } := by
  have hlines : g.lines = t.screenLines := hg.lines
  have hcols : g.columns = t.columns := hg.columns
  have hgrid : GridInv g.lines g.columns g := ⟨hg.wf, rfl, rfl, hg.cursor, hg.savedCursor⟩
  have hinactive := h.inactiveGrid
  have htwo := h.two_columns
  have hend := h.region_end
  have htabs := h.tabs
  have hdamage := h.damage
  have hlast := h.lastCursor_lt
  rw [← hlines, ← hcols] at hinactive
  rw [← hcols] at htwo htabs
  rw [← hlines] at hend hdamage hlast
  exact ⟨hgrid, hinactive, htwo, h.region_nonneg, h.region_le, h.region_pos, hend, htabs, hdamage,
    h.lastCursor_nonneg, hlast, h.colors⟩

/-- An operation on the lines of the grid. -/
theorem onGrid_holds (h : t.Inv) {f : Grid Cell → Option (Grid Cell)} (op : Op Cell)
    (hf : f t.grid = t.grid.step op) (hv : t.grid.view.Valid op)
    (hop : op.OnLines) : Returns (t.onGrid f) (Holds t) := by
  obtain ⟨g, hg, hinv, hframe⟩ := h.grid.step op hv hop
  unfold onGrid
  rw [hf, hg]
  exact .some ⟨⟨h.withGrid hinv, hframe.columns, hframe.lines, rfl, rfl, rfl⟩, hframe.cursor, rfl, rfl,
    rfl, rfl⟩

/-! ## Writing to rows -/

/-- A change of cells as an edit: where it fails or changes their number it is none. -/
def total (f : List Cell → Option (List Cell)) :
    {f : List Cell → List Cell // ∀ l, (f l).length = l.length} :=
  ⟨fun l => if (f l).map List.length = some l.length then (f l).getD l else l, fun l => by
    beta_reduce
    split
    · next h =>
      obtain ⟨l', hl', hlen⟩ := Option.map_eq_some_iff.mp h
      rw [hl']
      exact hlen
    · rfl⟩

theorem total_apply {f : List Cell → Option (List Cell)} {l : List Cell}
    (h : Returns (f l) fun l' => l'.length = l.length) : f l = some ((total f).1 l) := by
  obtain ⟨l', hl', hlen⟩ := h
  unfold total
  simp only
  rw [if_pos (by rw [hl', Option.map_some, hlen]), hl', Option.getD_some]

/-- What is done to a row depends only on what is done to rows in order. -/
theorem modifyRow_congr {g : Grid Cell} (h : g.Wf) {f f' : Grid.Row Cell → Option (Grid.Row Cell)}
    (hf : ∀ row, row.Clean g.columns → f row = f' row) (line : ℤ) :
    g.modifyRow line f = g.modifyRow line f' := by
  have hupdate (i : ℕ) : Ring.updateAt f g.raw.inner i = Ring.updateAt f' g.raw.inner i := by
    unfold Ring.updateAt
    rcases hrow : g.raw.inner[i]? with _ | row
    · rfl
    · simp only [Option.bind_eq_bind, Option.bind_some, hf row (h.raw.rows row (List.mem_of_getElem? hrow))]
  unfold Grid.modifyRow Grid.Storage.modifyRow
  simp only [hupdate]

/-- Cells of a range of a line are changed by a function that returns on ranges of this length. -/
theorem modifyRange_holds (h : t.Inv) {line : ℤ} (hnonneg : 0 ≤ line) (hlt : line < t.screenLines)
    {start : ℕ} {stop : Option ℕ} (hstart : start ≤ stop.getD t.columns)
    (hstop : stop.getD t.columns ≤ t.columns) {f : List Cell → Option (List Cell)}
    (hf : ∀ l, l.length = stop.getD t.columns - start → Returns (f l) fun l' => l'.length = l.length) :
    Returns (t.onGrid (·.modifyRow line (·.modifyRange start stop f))) (Holds t) := by
  refine onGrid_holds h (.modifyRow line (.cells start stop (total f))) ?_ ?_ trivial
  · refine modifyRow_congr h.grid.wf (fun row hrow => ?_) line
    have hlen : row.inner.length = t.columns := hrow.length
    have happly := total_apply (hf ((row.inner.take (stop.getD t.columns)).drop start)
      (by rw [List.length_drop, List.length_take]; omega))
    unfold Grid.Row.Edit.on Grid.Row.modifyRange
    simp only [hlen, hstart, hstop, happly]
  · refine ⟨?_, hlt, hstart, hstop⟩
    have : (0 : ℤ) ≤ t.grid.view.page.history.length := Int.natCast_nonneg _
    omega

theorem clearCells_holds (h : t.Inv) {line : ℤ} (hnonneg : 0 ≤ line) (hlt : line < t.screenLines)
    {start : ℕ} {stop : Option ℕ} (hstart : start ≤ stop.getD t.columns)
    (hstop : stop.getD t.columns ≤ t.columns) (bg : Grid.Color) :
    Returns (t.clearCells line start stop bg) (Holds t) :=
  modifyRange_holds h hnonneg hlt hstart hstop fun _ _ => .some List.length_replicate

/-- One cell of the buffer is changed. -/
theorem modifyCell_holds (h : t.Inv) {p : Point} (htop : t.topmostLine ≤ p.line)
    (hlt : p.line < t.screenLines) (hcol : p.column < t.columns) (f : Cell → Cell) :
    Returns (t.onGrid (·.modifyCell p f)) (Holds t) := by
  refine onGrid_holds h (.modifyRow p.line (.cell p.column f)) rfl ?_ trivial
  refine ⟨?_, hlt, hcol⟩
  rw [← h.grid.wf.length_history]
  exact htop

theorem topmostLine_nonpos (t : Term) : t.topmostLine ≤ 0 := by
  unfold topmostLine Grid.Dimensions.topmostLine
  omega

theorem modifyCursorCell_holds (h : t.Inv) (f : Cell → Cell) :
    Returns (t.modifyCursorCell f) (Holds t) :=
  modifyCell_holds h (t.topmostLine_nonpos.trans h.onScreen.line_nonneg) h.onScreen.line_lt
    h.onScreen.column_lt f

/-- A cell of the screen can be read. -/
theorem cell_returns (h : t.Inv) {p : Point} (hp : OnScreen t.grid p) :
    Returns (t.grid.cell p) fun _ => True := by
  have hwf := h.grid.wf
  have htop : -(t.grid.historySize : ℤ) ≤ p.line := by
    have := hp.line_nonneg
    omega
  obtain ⟨x, hx, hrow⟩ := hwf.exists_row htop hp.line_lt
  have hlen := (hwf.raw.clean (List.mem_of_getElem? hx)).length
  unfold Grid.cell
  rw [hrow]
  exact ⟨_, List.getElem?_eq_getElem (by rw [hlen]; exact hp.column_lt), trivial⟩

/-! ## Scrolling and moving -/

/-- A region that begins in the scrolling region and ends with it, as natural numbers. -/
theorem region_toNat (h : t.Inv) {origin : ℤ} (hstart : t.regionStart ≤ origin)
    (hend : origin ≤ t.regionEnd) :
    ∃ start stop : ℕ, (start : ℤ) = origin ∧ (stop : ℤ) = t.regionEnd ∧ start ≤ stop ∧
      stop ≤ t.grid.lines := by
  have hnonneg := h.region_nonneg
  have hlines : t.regionEnd ≤ t.grid.lines := h.region_end
  exact ⟨origin.toNat, t.regionEnd.toNat, by omega, by omega, by omega, by omega⟩

theorem scrollUpRelative_holds (h : t.Inv) {origin : ℤ} (hstart : t.regionStart ≤ origin)
    (hend : origin ≤ t.regionEnd) (lines : ℕ) :
    Returns (t.scrollUpRelative origin lines) (Holds t) := by
  have hnonneg := h.region_nonneg
  obtain ⟨start, stop, rfl, hstop, hle, hlines⟩ := region_toNat h hstart hend
  have hscroll := onGrid_holds h (f := (·.scrollUp start t.regionEnd
      (min lines (t.regionEnd - t.regionStart).toNat)))
    (.scrollUp start stop (min lines (t.regionEnd - t.regionStart).toNat))
    (by rw [← hstop]; rfl) ⟨hle, hlines, fun h0 => by omega⟩ trivial
  exact hscroll.bind fun m hm => .pure (hm.trans (markFullyDamaged_holds hm.inv))

theorem scrollDownRelative_holds (h : t.Inv) {origin : ℤ} (hstart : t.regionStart ≤ origin)
    (hend : origin ≤ t.regionEnd) (lines : ℕ) :
    Returns (t.scrollDownRelative origin lines) (Holds t) := by
  obtain ⟨start, stop, rfl, hstop, hle, hlines⟩ := region_toNat h hstart hend
  have hscroll := onGrid_holds h (f := (·.scrollDown start t.regionEnd
      (min (min lines (t.regionEnd - t.regionStart).toNat) (t.regionEnd - start).toNat)))
    (.scrollDown start stop
      (min (min lines (t.regionEnd - t.regionStart).toNat) (t.regionEnd - start).toNat))
    (by rw [← hstop]; rfl) ⟨hle, hlines⟩ trivial
  exact hscroll.bind fun m hm => .pure (hm.trans (markFullyDamaged_holds hm.inv))

theorem moveLine_keeps (h : t.Inv) {line : ℤ} (hnonneg : 0 ≤ line) (hlt : line < t.screenLines) :
    Returns (t.moveLine line) fun t' => t.Keeps t' ∧ t'.mode = t.mode := by
  refine (damageCursor_holds h).bind fun m hm => ?_
  have hline := toLine_keeps hm.inv hnonneg (hm.screenLines ▸ hlt)
  refine (damageCursor_holds hline.inv).mono fun t' h' => ⟨?_, h'.mode.trans hm.mode⟩
  exact hm.toKeeps.trans (hline.trans h'.toKeeps)

theorem linefeed_keeps (h : t.Inv) :
    Returns t.linefeed fun t' => t.Keeps t' ∧ t'.mode = t.mode := by
  have hnonneg := h.onScreen.line_nonneg
  refine .ite (fun _ => ?_) fun _ => .ite (fun hlt => ?_) fun _ => .some ⟨h.keeps, rfl⟩
  · exact (scrollUpRelative_holds h (le_refl _) h.region_le 1).mono fun t' h' => ⟨h'.toKeeps, h'.mode⟩
  · exact moveLine_keeps h (by omega) hlt

/-- After a wrap, where lines wrap, the cursor is in the first column. -/
theorem wrapline_keeps (h : t.Inv) :
    Returns t.wrapline fun t' =>
      t.Keeps t' ∧ t'.mode = t.mode ∧ (t.mode.lineWrap → t'.cursor.point.column = 0) := by
  unfold wrapline
  refine .ite (fun hoff => .some ⟨h.keeps, rfl, fun hon => ?_⟩) fun _ => ?_
  · rw [hon] at hoff
    cases hoff
  refine (modifyCursorCell_holds h _).bind fun m hm => ?_
  -- at the end of the region the lines scroll; the line below it is on the screen
  have hdown : Returns m.wrapDown fun t' => m.Keeps t' ∧ t'.mode = m.mode := by
    have hnonneg := hm.inv.onScreen.line_nonneg
    have hend := hm.inv.region_end
    refine .ite (fun _ => linefeed_keeps hm.inv) fun hlt => ?_
    refine (damageCursor_holds hm.inv).bind fun d hd => .pure ⟨?_, hd.mode⟩
    have hline : d.Keeps (d.toLine (m.cursor.point.line + 1)) :=
      toLine_keeps hd.inv (by omega) (by rw [hd.screenLines]; omega)
    rw [← hd.cursor] at hline
    exact hd.toKeeps.trans hline
  refine hdown.bind fun d hd => ?_
  have hcol : d.Keeps (d.toColumn 0) :=
    toColumn_keeps hd.1.inv (by have := hd.1.inv.two_columns; omega)
  have hwrap := needsWrap_keeps hcol.inv false
  refine (damageCursor_holds hwrap.inv).mono fun t' h' => ⟨?_, ?_, fun _ => ?_⟩
  · exact hm.toKeeps.trans (hd.1.trans (hcol.trans (hwrap.trans h'.toKeeps)))
  · exact h'.mode.trans (hd.2.trans hm.mode)
  · rw [h'.cursor]
    rfl

theorem goto_keeps (h : t.Inv) (line : ℤ) (column : ℕ) : Returns (t.goto line column) (Keeps t) := by
  have htwo := h.two_columns
  have hpos := h.lines_pos
  have hend := h.region_end
  have hlast : t.lastColumn = t.columns - 1 := rfl
  have hbottom : t.bottommostLine = t.screenLines - 1 := rfl
  unfold goto
  refine (damageCursor_holds h).bind fun m hm => ?_
  have hmlines := hm.screenLines
  have hmcols := hm.columns
  have hline : m.Keeps (m.toLine (max (min (line + (if t.mode.origin then
      (t.regionStart, t.regionEnd - 1) else (0, t.bottommostLine)).1) (if t.mode.origin then
      (t.regionStart, t.regionEnd - 1) else (0, t.bottommostLine)).2) 0)) :=
    toLine_keeps hm.inv (le_max_right ..) (by split <;> simp only <;> omega)
  have hcolumn : min column m.lastColumn < m.columns := by
    have : m.lastColumn = m.columns - 1 := rfl
    omega
  have hcol := toColumn_keeps hline.inv (hline.columns ▸ hcolumn)
  refine (damageCursor_holds hcol.inv).bind fun d hd => .pure ?_
  exact hm.toKeeps.trans (hline.trans (hcol.trans (hd.toKeeps.trans (needsWrap_keeps hd.inv false))))

/-- The cursor goes to a column and no wrap is due. -/
theorem Keeps.settle (h : t.Keeps m) {column : ℕ} (hcol : column < t.columns) :
    t.Keeps ((m.toColumn column).needsWrap false) := by
  have hcolumn := toColumn_keeps h.inv (h.columns ▸ hcol)
  exact h.trans (hcolumn.trans (needsWrap_keeps hcolumn.inv false))

theorem Inv.lastColumn_lt (h : t.Inv) : t.lastColumn < t.columns := by
  have htwo := h.two_columns
  have hlast : t.lastColumn = t.columns - 1 := rfl
  omega

theorem moveForward_keeps (h : t.Inv) (columns : ℕ) : Returns (t.moveForward columns) (Keeps t) := by
  have hlast := h.lastColumn_lt
  refine (damageLine_holds h h.line_toNat_lt _ _).bind fun m hm => .pure (hm.toKeeps.settle ?_)
  omega

theorem moveBackward_keeps (h : t.Inv) (columns : ℕ) :
    Returns (t.moveBackward columns) (Keeps t) := by
  have hcol : t.cursor.point.column < t.columns := h.onScreen.column_lt
  refine (damageLine_holds h h.line_toNat_lt _ _).bind fun m hm => .pure (hm.toKeeps.settle ?_)
  omega

theorem backspace_keeps (h : t.Inv) : Returns t.backspace (Keeps t) := by
  have hcol : t.cursor.point.column < t.columns := h.onScreen.column_lt
  refine .ite (fun hpos => ?_) fun _ => .some h.keeps
  have hsettle := h.keeps.settle (show t.cursor.point.column - 1 < t.columns by omega)
  exact (damageLine_holds hsettle.inv (hsettle.screenLines ▸ h.line_toNat_lt) _ _).mono
    fun t' h' => hsettle.trans h'.toKeeps

theorem carriageReturn_keeps (h : t.Inv) : Returns t.carriageReturn (Keeps t) := by
  have htwo := h.two_columns
  refine (damageLine_holds h h.line_toNat_lt _ _).bind fun m hm => .pure (hm.toKeeps.settle ?_)
  omega

theorem newline_keeps (h : t.Inv) : Returns t.newline (Keeps t) := by
  refine Keeps.bind ((linefeed_keeps h).mono fun _ hk => hk.1) fun m hm => ?_
  exact .ite (fun _ => carriageReturn_keeps hm) fun _ => .some hm.keeps

theorem reverseIndex_keeps (h : t.Inv) : Returns t.reverseIndex (Keeps t) := by
  have hnonneg := h.onScreen.line_nonneg
  have hlt : t.cursor.point.line < t.screenLines := h.onScreen.line_lt
  refine .ite (fun _ => ?_) fun _ => ?_
  · exact (scrollDownRelative_holds h (le_refl _) h.region_le 1).mono fun _ h' => h'.toKeeps
  · exact (moveLine_keeps h (le_max_right ..) (by omega)).mono fun _ h' => h'.1

theorem insertBlankLines_keeps (h : t.Inv) (lines : ℕ) :
    Returns (t.insertBlankLines lines) (Keeps t) := by
  refine .ite (fun hregion => ?_) fun _ => .some h.keeps
  exact (scrollDownRelative_holds h hregion.1 hregion.2.le lines).mono fun _ h' => h'.toKeeps

theorem deleteLines_keeps (h : t.Inv) (lines : ℕ) : Returns (t.deleteLines lines) (Keeps t) := by
  refine .ite (fun hregion => ?_) fun _ => .some h.keeps
  exact (scrollUpRelative_holds h hregion.2.1 hregion.2.2.le _).mono fun _ h' => h'.toKeeps

/-! ## Tab stops -/

theorem nextTab_returns {tabs : List Bool} {columns : ℕ} (htabs : tabs.length = columns) :
    ∀ {fuel column : ℕ}, column < columns → columns ≤ column + fuel →
      Returns (nextTab tabs columns fuel column) (· < columns)
  | 0, column, hcol, hfuel => by omega
  | fuel + 1, column, hcol, hfuel => by
    refine .ite (fun _ => .some hcol) fun hne => ?_
    have hnext : column + 1 < columns := by omega
    rw [List.getElem?_eq_getElem (htabs ▸ hnext)]
    exact .ite (fun _ => .some hnext) fun _ => nextTab_returns htabs hnext (by omega)

theorem previousTab_returns {tabs : List Bool} {start columns : ℕ} (hstart : start < columns)
    (htabs : tabs.length = columns) :
    ∀ {column : ℕ}, column ≤ columns → Returns (previousTab tabs start column) (· < columns)
  | 0, _ => .some hstart
  | column + 1, hcol => by
    unfold previousTab
    rw [List.getElem?_eq_getElem (by rw [htabs]; exact hcol)]
    exact .ite (fun _ => .some hcol) fun _ => previousTab_returns hstart htabs (by omega)

/-- The cursor goes to the column of a tab stop. -/
theorem toTab_keeps (h : t.Inv) : Returns (nextTab t.tabs t.columns t.columns t.cursor.point.column)
    fun column => t.Keeps (t.toColumn column) :=
  (nextTab_returns h.tabs h.onScreen.column_lt (Nat.le_add_left ..)).mono fun _ hcol =>
    toColumn_keeps h hcol

theorem putTabs_keeps (h : t.Inv) (count : ℕ) : Returns (putTabs tables count t) (Keeps t) := by
  induction count generalizing t with
  | zero => exact .some h.keeps
  | succ count ih =>
    refine .ite (fun _ => ?_) fun _ => .some h.keeps
    refine Keeps.bind ((modifyCursorCell_holds h _).mono fun _ h' => h'.toKeeps) fun m hm => ?_
    refine (toTab_keeps hm).bind fun column hcol => ?_
    exact (ih hcol.inv).mono fun _ h' => hcol.trans h'

theorem putTab_keeps (h : t.Inv) (count : ℕ) : Returns (t.putTab tables count) (Keeps t) :=
  .ite (fun _ => (wrapline_keeps h).mono fun _ h' => h'.1) fun _ => putTabs_keeps h count

theorem backwardTabs_keeps (h : t.Inv) (count : ℕ) : Returns (backwardTabs count t) (Keeps t) := by
  induction count generalizing t with
  | zero => exact .some h.keeps
  | succ count ih =>
    have hcol : t.cursor.point.column < t.columns := h.onScreen.column_lt
    refine .ite (fun _ => .some h.keeps) fun _ => ?_
    refine (previousTab_returns hcol h.tabs hcol.le).bind fun column hcolumn => ?_
    have htab := toColumn_keeps h hcolumn
    exact (ih htab.inv).mono fun _ h' => htab.trans h'

theorem forwardTabs_keeps (h : t.Inv) (count : ℕ) : Returns (forwardTabs count t) (Keeps t) := by
  induction count generalizing t with
  | zero => exact .some h.keeps
  | succ count ih =>
    refine .ite (fun _ => .some h.keeps) fun _ => (toTab_keeps h).bind fun column hcol => ?_
    exact (ih hcol.inv).mono fun _ h' => hcol.trans h'

theorem moveBackwardTabs_keeps (h : t.Inv) (count : ℕ) :
    Returns (t.moveBackwardTabs count) (Keeps t) :=
  Keeps.bind (backwardTabs_keeps h count) fun _ hm =>
    (damageLine_holds hm hm.line_toNat_lt _ _).mono fun _ h' => h'.toKeeps

theorem moveForwardTabs_keeps (h : t.Inv) (count : ℕ) :
    Returns (t.moveForwardTabs count) (Keeps t) :=
  Keeps.bind (forwardTabs_keeps h count) fun _ hm =>
    (damageLine_holds hm hm.line_toNat_lt _ _).mono fun _ h' => h'.toKeeps

/-- The tab stops are replaced by as many. -/
theorem withTabs_keeps (h : t.Inv) {tabs : List Bool} (htabs : tabs.length = t.columns) :
    t.Keeps { t with tabs } :=
  ⟨{ h with tabs := htabs }, rfl, rfl, rfl, rfl, rfl⟩

theorem setTab_keeps (h : t.Inv) {column : ℕ} (hcol : column < t.columns) (stop : Bool) :
    Returns (t.setTab column stop) (Keeps t) := by
  have hget := List.getElem?_eq_getElem (show column < t.tabs.length by rw [h.tabs]; exact hcol)
  unfold setTab
  rw [Ring.updateAt_eq_some (f := fun _ => some stop) hget rfl]
  exact .some (withTabs_keeps h ((List.length_set ..).trans h.tabs))

theorem clearTabs_keeps (h : t.Inv) : ∀ mode, Returns (t.clearTabs mode) (Keeps t)
  | .current => setTab_keeps h h.onScreen.column_lt false
  | .all => .some (withTabs_keeps h ((List.length_map ..).trans h.tabs))

end Termua.Term
