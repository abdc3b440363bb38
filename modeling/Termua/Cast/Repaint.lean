import Mathlib
import Termua.Cast.Actions

/-!
# What a serialised screen paints

`Printed` follows the printing of a row through its cells (`printed_cells`); from it, painting a row
makes the terminal show it and touches no other row (`paintRow`), and so does painting some of the
rows (`paintRows`).

* `shows_full`: the full repaint makes any terminal of the screen's dimensions show the screen.
* `shows_update`: so does an update when the rows it skips are shown already.

`interpret_update_eq_full` joins them: updating what shows the previous screen and painting the
current one end in the same screen.
-/

namespace Termua.Cast

open Vt (Action Glyph Parses Pen Printed Screen Slot Terminal Whole)

variable {width : Char → ℕ}

/-! ## Styles -/

theorem foldl_codes (p : Pen) (color : TermColor) (background : Bool) :
    (color.codes background).foldl Pen.sgrStep (p, .none) =
      (p.setColor background color.color, .none) := by
  cases color with
  | named color => cases color <;> cases background <;> rfl
  | indexed index => cases background <;> rfl
  | rgb r g b => cases background <;> rfl

theorem foldl_underlineCodes (p : Pen) (hp : p.underline = .none) (flags : CellFlags) :
    flags.underlineCodes.flatten.foldl Pen.sgrStep (p, .none) =
      ({ p with underline := flags.underlineKind }, .none) := by
  rw [CellFlags.underlineCodes, CellFlags.underlineKind]
  split_ifs <;> first | rfl | (cases p; cases hp; rfl)

theorem foldl_flagCode (p : Pen) (flag : Bool) {n : ℕ} (h₁ : n ≠ 38) (h₂ : n ≠ 48) :
    (if flag then [[[n]]] else []).flatten.foldl Pen.sgrStep (p, .none) =
      (if flag then p.code n else p, .none) := by
  cases flag
  · rfl
  · simp [Pen.sgrStep, h₁, h₂]

/-- The SGR sequence of a style sets the pen of the style, whatever the pen was. -/
theorem sgr_codes (p : Pen) (style : CellStyle) : p.sgr style.codes.flatten = style.pen := by
  obtain ⟨fg, bg, flags⟩ := style
  have hreset : [[[0]]].flatten.foldl Pen.sgrStep (p, .none) = ({}, .none) := rfl
  simp only [Pen.sgr, CellStyle.codes, List.flatten_append, List.foldl_append, hreset]
  rw [foldl_flagCode _ _ (by decide) (by decide), foldl_flagCode _ _ (by decide) (by decide),
    foldl_flagCode _ _ (by decide) (by decide), foldl_underlineCodes _ (by split_ifs <;> rfl),
    foldl_flagCode _ _ (by decide) (by decide), foldl_flagCode _ _ (by decide) (by decide)]
  simp only [List.flatten_cons, List.flatten_nil, List.append_nil, List.foldl_append, foldl_codes]
  cases h₁ : flags.bold <;> cases h₂ : flags.dim <;> cases h₃ : flags.italic <;>
    cases h₄ : flags.inverse <;> cases h₅ : flags.strikeout <;>
    simp [CellStyle.pen, Pen.code, Pen.setColor, h₁, h₂, h₃, h₄, h₅]

/-! ## Rows -/

/-- The style that the serialiser holds active, if any, is in the pen. -/
def Active (s : Screen) (activeStyle : Option CellStyle) : Prop :=
  ∀ style, activeStyle = some style → s.pen = style.pen

theorem Active.none (s : Screen) : Active s none := by
  rintro _ ⟨⟩

theorem Active.some {s : Screen} {style : CellStyle} (h : s.pen = style.pen) :
    Active s (some style) := by
  rintro _ ⟨⟩
  exact h

/-- The style of a cell is written where it is not active, and then the pen is that of the cell. -/
theorem perform_style {s : Screen} {activeStyle : Option CellStyle} (style : CellStyle)
    (hactive : Active s activeStyle) :
    (if activeStyle ≠ some style then [styleAction style] else []).foldl (Screen.perform width) s =
      { s with pen := style.pen } := by
  split
  · simp [Screen.perform, styleAction, Screen.csi, sgr_codes]
  · next h =>
    rw [← hactive style (by simpa using h)]
    rfl

theorem Cell.Prints.fits {cell : Cell} {columns : ℕ} (hcell : cell.Prints width columns)
    (hcolumns : columns = 1 ∨ columns = 2) : (cell.glyph width).Fits width where
  char := by
    have := hcell.columns
    rcases hcolumns with rfl | rfl <;> simp [Cell.glyph, this]
  marks c hc := (hcell.marks c hc).2

theorem Cell.Prints.length_slots {cell : Cell} {columns : ℕ} (hcell : cell.Prints width columns)
    (hcolumns : columns = 1 ∨ columns = 2) : (cell.glyph width).slots.length = columns := by
  have := hcell.columns
  rcases hcolumns with rfl | rfl <;> simp [Cell.glyph, Glyph.slots, this]

section Row

variable {s₀ s : Screen} {shown : List Slot} {activeStyle : Option CellStyle}

/-- Printing one cell: its style, its character and its zero-width characters. -/
theorem printed_cell {cell : Cell} {columns : ℕ}
    (hactive : Active s activeStyle)
    (hprinted : Printed s₀ s shown) (hwhole : Whole shown) (hcell : cell.Prints width columns)
    (hcolumns : columns = 1 ∨ columns = 2) (hfit : shown.length + columns ≤ s₀.columns) :
    ∃ s', ((if activeStyle ≠ some (CellStyle.ofCell cell) then
        [styleAction (CellStyle.ofCell cell)] else []) ++ (cell.glyph width).actions).foldl
          (Screen.perform width) s = s' ∧
      Active s' (some (CellStyle.ofCell cell)) ∧
      Printed s₀ s' (shown ++ (cell.glyph width).slots) := by
  refine ⟨_, rfl, .some ?_, ?_⟩ <;> rw [List.foldl_append, perform_style _ hactive]
  · rw [Screen.pen_glyph]
  · refine (hprinted.setPen _).glyph hwhole rfl (hcell.fits hcolumns) ?_
    rw [hcell.length_slots hcolumns]
    exact hprinted.columns ▸ hfit

/-- Printing the cells of a row from left to right. -/
theorem printed_cells {cells : List Cell} (hcells : RowPrintable width cells)
    (hactive : Active s activeStyle)
    (hprinted : Printed s₀ s shown) (hwhole : Whole shown)
    (hfit : shown.length + cells.length ≤ s₀.columns) :
    Printed s₀ ((cellsActions width activeStyle cells).foldl (Screen.perform width) s)
      (shown ++ rowSlots width cells) := by
  induction hcells generalizing s shown activeStyle with
  | nil => simpa [cellsActions, rowSlots] using hprinted
  | narrow hcell _ ih =>
    rw [List.length_cons] at hfit
    obtain ⟨s', hs', hactive', hprinted'⟩ :=
      printed_cell hactive hprinted hwhole hcell (.inl rfl) (by omega)
    have hlen := hcell.length_slots (.inl rfl)
    have hrest := ih hactive' hprinted' (.append_glyph _ _) (by rw [List.length_append, hlen]; omega)
    simpa [cellsActions, rowSlots, hcell.notSpacer, ← hs'] using hrest
  | wide hcell hspacer _ ih =>
    rw [List.length_cons, List.length_cons] at hfit
    obtain ⟨s', hs', hactive', hprinted'⟩ :=
      printed_cell hactive hprinted hwhole hcell (.inr rfl) (by omega)
    have hlen := hcell.length_slots (.inr rfl)
    have hrest := ih hactive' hprinted' (.append_glyph _ _) (by rw [List.length_append, hlen]; omega)
    simpa [cellsActions, rowSlots, hcell.notSpacer, hspacer, ← hs'] using hrest

/-- A printable row shows one slot for each cell. -/
theorem length_rowSlots {cells : List Cell} (hcells : RowPrintable width cells) :
    (rowSlots width cells).length = cells.length := by
  induction hcells with
  | nil => rfl
  | narrow hcell _ ih =>
    rw [rowSlots] at ih ⊢
    simp only [List.flatMap_cons, hcell.notSpacer, Bool.false_eq_true, if_false,
      List.length_append, hcell.length_slots (.inl rfl), ih, List.length_cons]
    omega
  | wide hcell hspacer _ ih =>
    rw [rowSlots] at ih ⊢
    simp only [List.flatMap_cons, hcell.notSpacer, hspacer, Bool.false_eq_true, if_false, if_true,
      List.length_append, hcell.length_slots (.inr rfl), ih, List.length_cons, List.length_nil]
    omega

end Row

/-! ## Painting rows -/

section Paint

variable {screen : TerminalScreen} {s : Screen}

theorem perform_moveAction (s : Screen) (row column : ℕ) :
    s.perform width (moveAction row column) = s.moveTo row column := rfl

/-- Painting a row: the screen shows it, and no other row changed. -/
theorem paintRow (hscreen : screen.Printable width) (hsize : s.size = (screen.columns, screen.rows))
    {row : ℕ} (hrow : row < screen.rows) :
    ∃ s', (moveAction (row + 1) 1 :: cellsActions width none (screen.row row)).foldl
        (Screen.perform width) s = s' ∧
      s'.line row = rowSlots width (screen.row row) ∧ ∀ r, r ≠ row → s'.cell r = s.cell r := by
  obtain ⟨hcolumns, hrows⟩ := Prod.mk.inj hsize
  have hstart : Printed (s.moveTo (row + 1) 1) (s.moveTo (row + 1) 1) [] :=
    .start (by simp [Screen.moveTo])
  have hy : (s.moveTo (row + 1) 1).y = row := by
    simp only [Screen.moveTo, Nat.add_sub_cancel, hrows]
    omega
  have hlength := screen.length_row hrow
  have hprinted := printed_cells (hscreen row hrow) (.none _) hstart .nil (by
    rw [List.length_nil, hlength]
    exact (Nat.zero_add _).trans_le hcolumns.ge)
  rw [List.nil_append] at hprinted
  refine ⟨_, rfl, ?_, ?_⟩
  · have hshown : (rowSlots width (screen.row row)).length = screen.columns :=
      (length_rowSlots (hscreen row hrow)).trans hlength
    refine List.ext_getElem ?_ fun i hi hi' => ?_
    · rw [Screen.line, List.length_map, List.length_range, hshown]
      exact hprinted.columns.trans hcolumns
    · have hslot := hprinted.slots i hi'
      rw [hprinted.y, hy] at hslot
      simpa [Screen.line, perform_moveAction] using hslot
  · intro r hr
    exact hprinted.frame r (by rw [hprinted.y, hy]; exact hr)

/-- Painting the first rows except those that are skipped. -/
theorem paintRows (hscreen : screen.Printable width)
    (hsize : s.size = (screen.columns, screen.rows)) (skip : ℕ → Bool) {rows : ℕ}
    (hrows : rows ≤ screen.rows) :
    ∃ s', (rowsActions width screen skip rows).foldl (Screen.perform width) s = s' ∧
      (∀ row < rows, skip row = false → s'.line row = rowSlots width (screen.row row)) ∧
      ∀ row, skip row = true ∨ rows ≤ row → s'.cell row = s.cell row := by
  induction rows with
  | zero => exact ⟨s, rfl, by simp, fun _ _ => rfl⟩
  | succ n ih =>
    obtain ⟨s₁, hs₁, hshown, hkept⟩ := ih (by omega)
    have hsize₁ : s₁.size = (screen.columns, screen.rows) := by
      rw [← hs₁, Screen.size_foldl_perform, hsize]
    simp only [rowsActions, List.range_succ, List.flatMap_append, List.foldl_append,
      List.flatMap_cons, List.flatMap_nil, List.append_nil]
    rw [← rowsActions, hs₁]
    -- a row that is skipped leaves the screen as it is, and a painted one the other rows
    cases hskip : skip n with
    | true =>
      refine ⟨s₁, rfl, fun row hrow hrowskip => ?_, fun row hrow => hkept row (hrow.imp_right (by omega))⟩
      rcases Nat.lt_succ_iff_lt_or_eq.mp hrow with hlt | rfl
      · exact hshown row hlt hrowskip
      · simp [hskip] at hrowskip
    | false =>
      have hrow : n < screen.rows := by omega
      obtain ⟨s₂, hs₂, hline, hframe⟩ := paintRow hscreen hsize₁ hrow
      have hcolumns : s₂.columns = s₁.columns := by
        have : s₂.size = s₁.size := by rw [← hs₂, Screen.size_foldl_perform]
        exact (Prod.mk.inj this).1
      refine ⟨s₂, by simpa using hs₂, fun row hrow hrowskip => ?_, fun row hrow => ?_⟩
      · rcases Nat.lt_succ_iff_lt_or_eq.mp hrow with hlt | rfl
        · rw [← hshown row hlt hrowskip, Screen.line, Screen.line, hframe row hlt.ne, hcolumns]
        · exact hline
      · have hne : row ≠ n := by
          rintro rfl
          rcases hrow with hrow | hrow
          · simp [hskip] at hrow
          · omega
        rw [hframe row hne, hkept row (hrow.imp_right (by omega))]

/-- Placing the cursor, when the rows are shown. -/
theorem shows_cursor (hsize : s.size = (screen.columns, screen.rows))
    (hlines : ∀ row < screen.rows, s.line row = rowSlots width (screen.row row)) :
    Shows width ((cursorActions screen).foldl (Screen.perform width) s) screen := by
  obtain ⟨hcolumns, hrows⟩ := Prod.mk.inj hsize
  have hcursor : (cursorActions screen).foldl (Screen.perform width) s =
      { s with
        cursorVisible := decide (screen.cursor.shape ≠ .hidden)
        y := min screen.cursorRow.toNat (s.rows - 1)
        x := min screen.cursor.point.column (s.columns - 1) } := by
    by_cases hshape : screen.cursor.shape = .hidden <;>
      simp [cursorActions, moveAction, Screen.perform, Screen.csi, Screen.arg, Screen.moveTo,
        hshape]
  rw [hcursor]
  exact
    { columns := hcolumns
      rows := hrows
      lines := hlines
      cursorVisible := rfl
      y := by rw [hrows]
      x := by rw [hcolumns] }

/-- The full repaint makes a terminal of the screen's dimensions show the screen. -/
theorem shows_full (hscreen : screen.Printable width)
    (hsize : s.size = (screen.columns, screen.rows)) :
    Shows width ((fullActions width screen).foldl (Screen.perform width) s) screen := by
  rw [fullActions, List.foldl_append, List.foldl_append]
  obtain ⟨s', hs', hlines, -⟩ := paintRows hscreen
    (s := [.csi false [[2]] 'J', .csi false [[0]] 'H'].foldl (Screen.perform width) s)
    (by rw [Screen.size_foldl_perform, hsize]) (fun _ => false) le_rfl
  rw [hs']
  refine shows_cursor ?_ fun row hrow => hlines row hrow rfl
  rw [← hs', Screen.size_foldl_perform, Screen.size_foldl_perform, hsize]

end Paint

/-! ## Updates -/

/-- `cells_equal` compares all of a cell. -/
theorem cellsEqual_iff {left right : Cell} : cellsEqual left right = true ↔ left = right := by
  cases left
  cases right
  simp [cellsEqual, and_assoc]

/-- The rows that an update skips hold the same cells. -/
theorem rowsEqual_iff {previous current : TerminalScreen}
    (hcolumns : previous.columns = current.columns) (hrows : previous.rows = current.rows) {row : ℕ}
    (hrow : row < current.rows) :
    rowsEqual previous current row = true ↔ previous.row row = current.row row := by
  have hlen : (previous.row row).length = (current.row row).length := by
    rw [previous.length_row (hrows ▸ hrow), current.length_row hrow, hcolumns]
  rw [rowsEqual]
  generalize previous.row row = left at hlen
  generalize current.row row = right at hlen
  induction left generalizing right with
  | nil => simp [List.length_eq_zero_iff.mp hlen.symm]
  | cons cell left ih =>
    cases right with
    | nil => simp at hlen
    | cons cell' right => 
      have hrest := ih right (by simpa using hlen)
      simpa [cellsEqual_iff] using fun _ => hrest

/-- An update makes a terminal of the current screen's dimensions show the current screen, when the
terminal shows the rows that the update skips. -/
theorem shows_update {previous current : TerminalScreen} {s : Screen}
    (hcurrent : current.Printable width) (hsize : s.size = (current.columns, current.rows))
    (hbase : previous.columns = current.columns → previous.rows = current.rows →
      ∀ row < current.rows, previous.row row = current.row row →
        s.line row = rowSlots width (current.row row)) :
    Shows width ((updateActions width previous current).foldl (Screen.perform width) s) current := by
  rw [updateActions]
  split
  · exact shows_full hcurrent hsize
  · next hdims =>
    obtain ⟨hcolumns, hrows⟩ : previous.columns = current.columns ∧ previous.rows = current.rows := by
      simpa using hdims
    rw [List.foldl_append]
    obtain ⟨s', hs', hlines, hkept⟩ :=
      paintRows hcurrent hsize (rowsEqual previous current) le_rfl
    rw [hs']
    have hsize' : s'.size = s.size := by rw [← hs', Screen.size_foldl_perform]
    refine shows_cursor (hsize'.trans hsize) fun row hrow => ?_
    cases hskip : rowsEqual previous current row with
    | false => exact hlines row hrow hskip
    | true =>
      have hcells := (rowsEqual_iff hcolumns hrows hrow).mp hskip
      rw [← hbase hcolumns hrows row hrow hcells, Screen.line, Screen.line, hkept row (.inl hskip),
        (Prod.mk.inj hsize').1]

/-! ## Update and repaint agree -/

/-- Two screens with the same dimensions, grid, cursor position and cursor visibility. -/
structure SameView (s t : Screen) : Prop where
  size : s.size = t.size
  lines : s.lines = t.lines
  position : (s.x, s.y) = (t.x, t.y)
  cursorVisible : s.cursorVisible = t.cursorVisible

/-- Screens that show the same captured screen look the same. -/
theorem Shows.sameView {s t : Screen} {screen : TerminalScreen} (hs : Shows width s screen)
    (ht : Shows width t screen) : SameView s t where
  size := by simp [Screen.size, hs.columns, hs.rows, ht.columns, ht.rows]
  lines := by
    rw [Screen.lines, Screen.lines, hs.rows, ht.rows]
    refine List.map_congr_left fun row hrow => ?_
    rw [hs.lines row (List.mem_range.mp hrow), ht.lines row (List.mem_range.mp hrow)]
  position := by rw [hs.x, hs.y, ht.x, ht.y]
  cursorVisible := by rw [hs.cursorVisible, ht.cursorVisible]

/-- Painting the previous screen and updating it to the current one looks the same as painting the
current one, in a terminal of the current screen's dimensions. -/
theorem update_eq_full (width : Char → ℕ) (previous current : TerminalScreen)
    (hprevious : previous.Printable width) (hcurrent : current.Printable width) :
    let terminal := Terminal.new current.columns current.rows
    SameView
      (terminal.interpret width (serializeTerminalScreenAnsi previous ++
        serializeTerminalScreenUpdateAnsi previous current)).screen
      (terminal.interpret width (serializeTerminalScreenAnsi current)).screen := by
  intro terminal
  let blank := Screen.new current.columns current.rows
  have hsize : blank.size = (current.columns, current.rows) := rfl
  have hprev : terminal.interpret width (serializeTerminalScreenAnsi previous) = _ :=
    Terminal.interpret_of_parses width (parses_serializeTerminalScreenAnsi width hprevious) blank
  have hfull : terminal.interpret width (serializeTerminalScreenAnsi current) = _ :=
    Terminal.interpret_of_parses width (parses_serializeTerminalScreenAnsi width hcurrent) blank
  have hupdate := parses_serializeTerminalScreenUpdateAnsi width previous hcurrent
  rw [Terminal.interpret_append, hprev, Terminal.interpret_of_parses width hupdate, hfull]
  refine (shows_update hcurrent ?_ fun hcolumns hrows row hrow hcells => ?_).sameView
    (shows_full hcurrent hsize)
  · rw [Screen.size_foldl_perform, hsize]
  · have hshows := shows_full (s := blank) hprevious (by rw [hsize, hcolumns, hrows])
    rw [hshows.lines row (hrows ▸ hrow), hcells]

/-- The widths of the characters of the screens below. -/
def sampleWidth (c : Char) : ℕ :=
  if c = '世' then 2 else if c = '\u0301' then 0 else 1

/-- A row of two cells with the cursor on the second. -/
def sampleScreen (left right : Cell) (shape : CursorRenderShape) : TerminalScreen where
  columns := 2
  rows := 1
  cells := [left, right]
  lineNumbers := [none]
  selection := none
  cursor := ⟨shape, ⟨0, 1⟩⟩
  cursorRow := 0
  columns_pos := Nat.two_pos
  rows_pos := Nat.one_pos
  cells_length := rfl
  lineNumbers_length := length_oneLineNumber
  cursorRow_nonneg := firstRow_nonneg

/-- Two narrow characters, the first with an accent. -/
def narrowSample : TerminalScreen :=
  sampleScreen { c := 'e', zerowidth := ['\u0301'], bg := .rgb 1 2 3 } { c := 'x' } .block

/-- A wide character in bold. -/
def wideSample : TerminalScreen :=
  sampleScreen { c := '世', flags := { bold := true } } { flags := { wideCharSpacer := true } } .hidden

/-- A wide character that replaces two narrow ones. -/
theorem update_eq_full_wideSample :
    let terminal := Terminal.new wideSample.columns wideSample.rows
    SameView
      (terminal.interpret sampleWidth (serializeTerminalScreenAnsi narrowSample ++
        serializeTerminalScreenUpdateAnsi narrowSample wideSample)).screen
      (terminal.interpret sampleWidth (serializeTerminalScreenAnsi wideSample)).screen := by
  refine update_eq_full sampleWidth narrowSample wideSample (fun row hrow => ?_) fun row hrow => ?_
  · obtain rfl : row = 0 := Nat.lt_one_iff.mp hrow
    exact .narrow ⟨by decide, by decide, by simp [sampleWidth, Vt.isControl], rfl⟩
      (.narrow ⟨by decide, by decide, by simp [sampleWidth, Vt.isControl], rfl⟩ .nil)
  · obtain rfl : row = 0 := Nat.lt_one_iff.mp hrow
    exact .wide ⟨by decide, by decide, by simp [sampleWidth, Vt.isControl], rfl⟩ rfl .nil

end Termua.Cast
