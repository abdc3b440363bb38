import Mathlib
import Termua.Lib.Vt.Screen
import Termua.Cast.Serialize

/-!
# What a serialised screen stands for

A captured screen stands for what a terminal should show: `rowSlots` gives the slots of a row, and
`Shows` compares the screen of a terminal with a captured one. A row is `RowPrintable` when it
holds characters of one or two columns, a spacer cell behind each wide one and no other spacer.

The texts of the serialisers parse: `fullActions` and `updateActions` are the actions that
`serializeTerminalScreenAnsi` and `serializeTerminalScreenUpdateAnsi` stand for.
-/

namespace Termua.Cast

open Vt (Action Glyph Parses Pen Screen Slot Terminal)

/-! ## What a screen shows -/

/-- The colour that a cell's colour is painted in. -/
def TermColor.color : TermColor → Vt.Color
  | .rgb r g b => .rgb r.toNat g.toNat b.toNat
  | .indexed index => .indexed index.toNat
  | .named .black => .indexed 0
  | .named .red => .indexed 1
  | .named .green => .indexed 2
  | .named .yellow => .indexed 3
  | .named .blue => .indexed 4
  | .named .magenta => .indexed 5
  | .named .cyan => .indexed 6
  | .named .white => .indexed 7
  | .named .brightBlack => .indexed 8
  | .named .brightRed => .indexed 9
  | .named .brightGreen => .indexed 10
  | .named .brightYellow => .indexed 11
  | .named .brightBlue => .indexed 12
  | .named .brightMagenta => .indexed 13
  | .named .brightCyan => .indexed 14
  | .named .brightWhite => .indexed 15
  | .named .foreground | .named .background | .named .cursor => .default

/-- The underline that the flags ask for. -/
def CellFlags.underlineKind (flags : CellFlags) : Vt.Underline :=
  if flags.doubleUnderline then .double
  else if flags.curlyUnderline then .curly
  else if flags.dottedUnderline then .dotted
  else if flags.dashedUnderline then .dashed
  else if flags.underline then .single
  else .none

/-- The pen of a style. -/
def CellStyle.pen (style : CellStyle) : Pen where
  fg := style.fg.color
  bg := style.bg.color
  bold := style.flags.bold
  dim := style.flags.dim
  italic := style.flags.italic
  underline := style.flags.underlineKind
  inverse := style.flags.inverse
  strikeout := style.flags.strikeout

variable (width : Char → ℕ)

/-- What a cell that is no spacer shows. -/
def Cell.glyph (cell : Cell) : Glyph where
  char := cell.c
  marks := cell.zerowidth
  pen := (CellStyle.ofCell cell).pen
  wide := width cell.c = 2

/-- What a row shows, column by column. -/
def rowSlots (cells : List Cell) : List Slot :=
  cells.flatMap fun cell => if cell.flags.wideCharSpacer then [] else (cell.glyph width).slots

/-- A cell with a printable character of `columns` columns and its zero-width characters. -/
structure Cell.Prints (columns : ℕ) (cell : Cell) : Prop where
  char : Vt.isControl cell.c = false
  columns : width cell.c = columns
  marks : ∀ c ∈ cell.zerowidth, Vt.isControl c = false ∧ width c = 0
  notSpacer : cell.flags.wideCharSpacer = false

/-- A row of printable cells in which every wide character is followed by its spacer cell, and
there is no other spacer. -/
inductive RowPrintable : List Cell → Prop
  | nil : RowPrintable []
  | narrow {cell : Cell} {cells : List Cell} (hcell : cell.Prints width 1)
      (hcells : RowPrintable cells) : RowPrintable (cell :: cells)
  | wide {cell spacer : Cell} {cells : List Cell} (hcell : cell.Prints width 2)
      (hspacer : spacer.flags.wideCharSpacer = true) (hcells : RowPrintable cells) :
      RowPrintable (cell :: spacer :: cells)

/-- A screen all of whose rows are printable. -/
def TerminalScreen.Printable (screen : TerminalScreen) : Prop :=
  ∀ row < screen.rows, RowPrintable width (screen.row row)

/-- `s` shows the captured screen: its dimensions, its grid, and its cursor, which a terminal keeps
inside the grid. -/
structure Shows (s : Screen) (screen : TerminalScreen) : Prop where
  columns : s.columns = screen.columns
  rows : s.rows = screen.rows
  lines : ∀ row < screen.rows, s.line row = rowSlots width (screen.row row)
  cursorVisible : s.cursorVisible = decide (screen.cursor.shape ≠ .hidden)
  y : s.y = min screen.cursorRow.toNat (screen.rows - 1)
  x : s.x = min screen.cursor.point.column (screen.columns - 1)

/-! ## The actions of the texts -/

/-- The codes that `pushColor` prints. -/
def TermColor.codes (color : TermColor) (background : Bool) : List (List ℕ) :=
  let base := if background then 48 else 38
  match color with
  | .rgb r g b => [[base], [2], [r.toNat], [g.toNat], [b.toNat]]
  | .indexed index => [[base], [5], [index.toNat]]
  | .named color => [[namedColorCode color background]]

/-- The codes that `underlineParams` prints. -/
def CellFlags.underlineCodes (flags : CellFlags) : List (List (List ℕ)) :=
  if flags.doubleUnderline then [[[4, 2]]]
  else if flags.curlyUnderline then [[[4, 3]]]
  else if flags.dottedUnderline then [[[4, 4]]]
  else if flags.dashedUnderline then [[[4, 5]]]
  else if flags.underline then [[[4]]]
  else []

/-- The codes that `writeStyle` prints, one group for each parameter it pushes. -/
def CellStyle.codes (style : CellStyle) : List (List (List ℕ)) :=
  [[[0]]] ++
  (if style.flags.bold then [[[1]]] else []) ++
  (if style.flags.dim then [[[2]]] else []) ++
  (if style.flags.italic then [[[3]]] else []) ++
  style.flags.underlineCodes ++
  (if style.flags.inverse then [[[7]]] else []) ++
  (if style.flags.strikeout then [[[9]]] else []) ++
  [style.fg.codes false, style.bg.codes true]

/-- The action of `writeStyle`. -/
def styleAction (style : CellStyle) : Action := .csi false style.codes.flatten 'm'

/-- The actions of `serializeCells`. -/
def cellsActions (activeStyle : Option CellStyle) : List Cell → List Action
  | [] => []
  | cell :: cells =>
    if cell.flags.wideCharSpacer then cellsActions activeStyle cells
    else
      let style := CellStyle.ofCell cell
      (if activeStyle ≠ some style then [styleAction style] else []) ++
        ((cell.glyph width).actions ++ cellsActions (some style) cells)

/-- The action of `moveCursor`. -/
def moveAction (row column : ℕ) : Action := .csi false [[row], [column]] 'H'

/-- The actions of the rows that are not skipped. -/
def rowsActions (screen : TerminalScreen) (skip : ℕ → Bool) (rows : ℕ) : List Action :=
  (List.range rows).flatMap fun row =>
    if skip row then [] else moveAction (row + 1) 1 :: cellsActions width none (screen.row row)

/-- The actions of `serializeScreenCursor`. -/
def cursorActions (screen : TerminalScreen) : List Action :=
  [.csi true [[25]] (if screen.cursor.shape = .hidden then 'l' else 'h'),
    moveAction (screen.cursorRow.toNat + 1) (screen.cursor.point.column + 1)]

/-- The actions of `serializeTerminalScreenAnsi`. -/
def fullActions (screen : TerminalScreen) : List Action :=
  [.csi false [[2]] 'J', .csi false [[0]] 'H'] ++
    rowsActions width screen (fun _ => false) screen.rows ++ cursorActions screen

/-- The actions of `serializeTerminalScreenUpdateAnsi`. -/
def updateActions (previous current : TerminalScreen) : List Action :=
  if previous.columns ≠ current.columns ∨ previous.rows ≠ current.rows then
    fullActions width current
  else
    rowsActions width current (rowsEqual previous current) current.rows ++ cursorActions current

/-! ### The texts parse -/

theorem paramsText_codes (color : TermColor) (background : Bool) :
    Vt.paramsText (color.codes background) = pushColor color background := by
  cases color <;> cases background <;>
    simp [TermColor.codes, pushColor, decimal, Vt.paramsText_cons_cons, Nat.toDigits_of_lt_base]

theorem underlineParams_eq (flags : CellFlags) :
    underlineParams flags = flags.underlineCodes.map Vt.paramsText := by
  rw [underlineParams, CellFlags.underlineCodes]
  split_ifs <;> rfl

/-- The parameters that `writeStyle` joins are the texts of the groups of codes. -/
theorem styleParams_eq (style : CellStyle) :
    styleParams style = style.codes.map Vt.paramsText := by
  simp only [styleParams, CellStyle.codes, List.map_append, List.map_cons, List.map_nil,
    apply_ite (List.map Vt.paramsText), underlineParams_eq, paramsText_codes]
  rfl

theorem TermColor.codes_ne_nil (color : TermColor) (background : Bool) :
    color.codes background ≠ [] ∧ ∀ p ∈ color.codes background, p ≠ [] := by
  cases color <;> simp [TermColor.codes]

/-- No group of codes and no code in it is empty. -/
theorem CellStyle.codes_ne_nil (style : CellStyle) :
    ∀ g ∈ style.codes, g ≠ [] ∧ ∀ p ∈ g, p ≠ [] := by
  have hflag : ∀ (flag : Bool) (n : ℕ), ∀ g ∈ (if flag then [[[n]]] else []),
      g ≠ [] ∧ ∀ p ∈ g, p ≠ [] := by
    intro flag n
    cases flag <;> simp
  have hunderline : ∀ g ∈ style.flags.underlineCodes, g ≠ [] ∧ ∀ p ∈ g, p ≠ [] := by
    rw [CellFlags.underlineCodes]
    split_ifs <;> simp
  simp only [CellStyle.codes, List.forall_mem_append]
  refine ⟨⟨⟨⟨⟨⟨⟨?_, hflag _ _⟩, hflag _ _⟩, hflag _ _⟩, hunderline⟩, hflag _ _⟩, hflag _ _⟩, ?_⟩
  · simp
  · simpa using ⟨style.fg.codes_ne_nil false, style.bg.codes_ne_nil true⟩

/-- A style parses as its SGR sequence. -/
theorem parses_writeStyle (style : CellStyle) : Parses (writeStyle style) [styleAction style] := by
  have htext : writeStyle style = Vt.csiText false style.codes.flatten 'm' := by
    rw [writeStyle, styleParams_eq,
      Vt.intercalate_paramsText fun g hg => (style.codes_ne_nil g hg).1]
    simp [Vt.csiText]
  rw [htext]
  refine Vt.parses_csiText false ?_ ?_ (by decide)
  · simp [CellStyle.codes]
  · intro p hp
    obtain ⟨g, hg, hp⟩ := List.mem_flatten.mp hp
    exact (style.codes_ne_nil g hg).2 p hp

theorem parses_moveCursor (row column : ℕ) :
    Parses (moveCursor row column) [moveAction row column] := by
  have htext : moveCursor row column = Vt.csiText false [[row], [column]] 'H' := by
    simp [moveCursor, Vt.csiText, Vt.paramsText_cons_cons, decimal]
  rw [htext]
  exact Vt.parses_csiText false (by simp) (by simp) (by decide)

theorem parses_serializeScreenCursor (screen : TerminalScreen) :
    Parses (serializeScreenCursor screen) (cursorActions screen) := by
  have hmode : Parses (if screen.cursor.shape = .hidden then ['\x1b', '[', '?', '2', '5', 'l']
        else ['\x1b', '[', '?', '2', '5', 'h'])
      [.csi true [[25]] (if screen.cursor.shape = .hidden then 'l' else 'h')] := by
    split <;> rfl
  exact hmode.append (parses_moveCursor _ _)

/-- The cells of a printable row hold no control characters. -/
theorem parses_serializeCells {cells : List Cell} (h : RowPrintable width cells) :
    ∀ activeStyle, Parses (serializeCells activeStyle cells)
      (cellsActions width activeStyle cells) := by
  have hstyle : ∀ (activeStyle : Option CellStyle) (style : CellStyle),
      Parses (if activeStyle ≠ some style then writeStyle style else [])
        (if activeStyle ≠ some style then [styleAction style] else []) := by
    intro activeStyle style
    split
    · exact parses_writeStyle style
    · exact .nil
  have hglyph : ∀ {cell : Cell} {columns : ℕ}, cell.Prints width columns →
      Parses (cell.c :: cell.zerowidth) (cell.glyph width).actions := by
    intro cell columns hcell
    have hprintable : ∀ c ∈ cell.c :: cell.zerowidth, Vt.isControl c = false := by
      simpa using ⟨hcell.char, fun c hc => (hcell.marks c hc).1⟩
    exact Vt.parses_map_print hprintable
  induction h with
  | nil => intro activeStyle; exact .nil
  | narrow hcell _ ih =>
    intro activeStyle
    simp only [serializeCells, cellsActions, hcell.notSpacer, Bool.false_eq_true, if_false,
      List.append_assoc]
    exact (hstyle _ _).append ((hglyph hcell).append (ih _))
  | wide hcell hspacer _ ih =>
    intro activeStyle
    simp only [serializeCells, cellsActions, hcell.notSpacer, hspacer, Bool.false_eq_true, if_false,
      if_true, List.append_assoc]
    exact (hstyle _ _).append ((hglyph hcell).append (ih _))

/-- The rows that are painted parse. -/
theorem parses_rows {screen : TerminalScreen} (h : screen.Printable width) (skip : ℕ → Bool)
    {rows : ℕ} (hrows : rows ≤ screen.rows) :
    Parses
      ((List.range rows).flatMap fun row =>
        if skip row then [] else moveCursor (row + 1) 1 ++ serializeScreenRow screen row)
      (rowsActions width screen skip rows) := by
  induction rows with
  | zero => exact .nil
  | succ row ih =>
    rw [rowsActions, List.range_succ, List.flatMap_append, List.flatMap_append]
    refine (ih (by omega)).append ?_
    simp only [List.flatMap_cons, List.flatMap_nil, List.append_nil]
    split
    · exact .nil
    · exact (parses_moveCursor _ _).append (parses_serializeCells width (h row (by omega)) none)

/-- The full repaint parses. -/
theorem parses_serializeTerminalScreenAnsi {screen : TerminalScreen} (h : screen.Printable width) :
    Parses (serializeTerminalScreenAnsi screen) (fullActions width screen) := by
  have hrows := parses_rows width h (fun _ => false) le_rfl
  simp only [Bool.false_eq_true, if_false] at hrows
  have herase : Parses ['\x1b', '[', '2', 'J', '\x1b', '[', 'H']
      [.csi false [[2]] 'J', .csi false [[0]] 'H'] := rfl
  exact (herase.append hrows).append (parses_serializeScreenCursor screen)

/-- The update parses. -/
theorem parses_serializeTerminalScreenUpdateAnsi (previous : TerminalScreen)
    {current : TerminalScreen} (h : current.Printable width) :
    Parses (serializeTerminalScreenUpdateAnsi previous current)
      (updateActions width previous current) := by
  rw [serializeTerminalScreenUpdateAnsi, updateActions]
  split
  · exact parses_serializeTerminalScreenAnsi width h
  · exact (parses_rows width h _ le_rfl).append (parses_serializeScreenCursor current)

end Termua.Cast
