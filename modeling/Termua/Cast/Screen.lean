import Mathlib

/-!
# Captured terminal screens

The cells, colours and cursor of `gpui_term/src/lib.rs` and the `TerminalScreen` of
`gpui_term/src/cast.rs`, with the function that captures one from a terminal's content.
-/

namespace Termua.Cast

/-- `NamedColor`. -/
inductive NamedColor
  | black
  | red
  | green
  | yellow
  | blue
  | magenta
  | cyan
  | white
  | brightBlack
  | brightRed
  | brightGreen
  | brightYellow
  | brightBlue
  | brightMagenta
  | brightCyan
  | brightWhite
  | foreground
  | background
  | cursor
  deriving DecidableEq, Repr

/-- `TermColor`. -/
inductive TermColor
  | named (color : NamedColor)
  | indexed (index : UInt8)
  | rgb (r g b : UInt8)
  deriving DecidableEq, Repr

/-- `CellFlags`, one field for each bit. -/
structure CellFlags where
  inverse : Bool := false
  wrapline : Bool := false
  wideCharSpacer : Bool := false
  bold : Bool := false
  dim : Bool := false
  italic : Bool := false
  underline : Bool := false
  doubleUnderline : Bool := false
  curlyUnderline : Bool := false
  dottedUnderline : Bool := false
  dashedUnderline : Bool := false
  strikeout : Bool := false
  deriving DecidableEq, Repr

/-- `Cell`; the default values are those of `Cell::default`. -/
structure Cell where
  c : Char := ' '
  fg : TermColor := .named .foreground
  bg : TermColor := .named .background
  flags : CellFlags := {}
  hyperlink : Option String := none
  zerowidth : List Char := []
  deriving DecidableEq, Repr

/-- `GridPoint`. -/
structure GridPoint where
  line : ℤ
  column : ℕ
  deriving DecidableEq, Repr

/-- The order of `GridPoint`: by line, then by column. -/
def GridPoint.le (p q : GridPoint) : Bool :=
  p.line < q.line || (p.line = q.line && p.column ≤ q.column)

/-- `CursorRenderShape`. -/
inductive CursorRenderShape
  | hidden
  | block
  | underline
  | bar
  | hollow
  deriving DecidableEq, Repr

/-- `Cursor`. -/
structure Cursor where
  shape : CursorRenderShape
  point : GridPoint
  deriving DecidableEq, Repr

/-- `SelectionRange`. -/
structure SelectionRange where
  start : GridPoint
  stop : GridPoint
  deriving DecidableEq, Repr

/-- `IndexedCell`. -/
structure IndexedCell where
  point : GridPoint
  cell : Cell
  deriving DecidableEq, Repr

/-- `TerminalContent`, as far as a capture reads it. `numColumns` and `numLines` are what
`terminal_bounds` computes. -/
structure TerminalContent where
  cells : List IndexedCell
  displayOffset : ℕ
  selection : Option SelectionRange
  cursor : Cursor
  numColumns : ℕ
  numLines : ℕ
  /-- Both backends place the cursor in the live view, which the display offset moves down. -/
  cursor_nonneg : 0 ≤ cursor.point.line + displayOffset
  deriving DecidableEq

/-- `TerminalScreen`. -/
structure TerminalScreen where
  columns : ℕ
  rows : ℕ
  cells : List Cell
  lineNumbers : List (Option ℕ)
  selection : Option (ℕ × ℕ × ℕ)
  cursor : Cursor
  cursorRow : ℤ
  columns_pos : 0 < columns
  rows_pos : 0 < rows
  cells_length : cells.length = columns * rows
  lineNumbers_length : lineNumbers.length = rows
  cursorRow_nonneg : 0 ≤ cursorRow
  deriving DecidableEq

/-- `visible_selection`. -/
def visibleSelection (selection : Option SelectionRange) (displayOffset columns rows : ℕ) :
    Option (ℕ × ℕ × ℕ) := do
  let selection ← selection
  let start := if selection.start.le selection.stop then selection.start else selection.stop
  let stop := if selection.start.le selection.stop then selection.stop else selection.start
  let startRow : ℤ := start.line + displayOffset
  let endRow : ℤ := stop.line + displayOffset
  if endRow < 0 ∨ (rows : ℤ) ≤ startRow then none
  else
    let visibleStartRow := (max startRow 0).toNat
    let visibleEndRow := (min endRow (rows - 1 : ℕ)).toNat
    let visibleStartColumn := if startRow < 0 then 0 else min start.column (columns - 1)
    let visibleEndColumn := if (rows : ℤ) ≤ endRow then columns - 1 else min stop.column (columns - 1)
    let startIndex := visibleStartRow * columns + visibleStartColumn
    let endIndex := visibleEndRow * columns + visibleEndColumn
    if endIndex < startIndex then none
    else some (visibleStartColumn, visibleStartRow, endIndex - startIndex + 1)

/-- The loop body of `capture_terminal_screen`: a cell inside the viewport replaces what is
there. -/
def captureCell (displayOffset columns rows : ℕ) (captured : List Cell) (cell : IndexedCell) :
    List Cell :=
  let row : ℤ := cell.point.line + displayOffset
  if 0 ≤ row ∧ row.toNat < rows ∧ cell.point.column < columns then
    captured.set (row.toNat * columns + cell.point.column) cell.cell
  else captured

/-- The cells of `capture_terminal_screen`, blank where the content has none. -/
def captureCells (displayOffset columns rows : ℕ) (cells : List IndexedCell) : List Cell :=
  cells.foldl (captureCell displayOffset columns rows) (List.replicate (columns * rows) {})

theorem length_captureCell (displayOffset columns rows : ℕ) (captured : List Cell)
    (cell : IndexedCell) :
    (captureCell displayOffset columns rows captured cell).length = captured.length := by
  rw [captureCell]
  split <;> simp

theorem length_captureCells (displayOffset columns rows : ℕ) (cells : List IndexedCell) :
    (captureCells displayOffset columns rows cells).length = columns * rows := by
  rw [captureCells]
  induction cells using List.reverseRecOn with
  | nil => simp
  | append_singleton cells cell ih =>
    rw [List.foldl_append, List.foldl_cons, List.foldl_nil, length_captureCell, ih]

/-- `capture_terminal_screen`. -/
def captureTerminalScreen (content : TerminalContent) : TerminalScreen where
  columns := max content.numColumns 1
  rows := max content.numLines 1
  cells := captureCells content.displayOffset (max content.numColumns 1) (max content.numLines 1)
    content.cells
  lineNumbers := List.replicate (max content.numLines 1) none
  selection := visibleSelection content.selection content.displayOffset (max content.numColumns 1)
    (max content.numLines 1)
  cursor := content.cursor
  cursorRow := content.cursor.point.line + content.displayOffset
  columns_pos := by omega
  rows_pos := by omega
  cells_length := length_captureCells _ _ _ _
  lineNumbers_length := List.length_replicate
  cursorRow_nonneg := content.cursor_nonneg

namespace TerminalScreen

/-- The cells of a row: `cells[row * columns..(row + 1) * columns]`. -/
def row (screen : TerminalScreen) (row : ℕ) : List Cell :=
  (screen.cells.drop (row * screen.columns)).take screen.columns

/-- A row has one cell for each column. -/
theorem length_row (screen : TerminalScreen) {row : ℕ} (h : row < screen.rows) :
    (screen.row row).length = screen.columns := by
  have hle : (row + 1) * screen.columns ≤ screen.cells.length := by
    rw [screen.cells_length, Nat.mul_comm]
    exact Nat.mul_le_mul_left _ h
  rw [Nat.add_mul, Nat.one_mul] at hle
  rw [TerminalScreen.row, List.length_take, List.length_drop]
  omega

end TerminalScreen

/-- The gutter of a screen of one row. -/
theorem length_oneLineNumber : ([none] : List (Option ℕ)).length = 1 := rfl

/-- The first row is a row of the screen. -/
theorem firstRow_nonneg : (0 : ℤ) ≤ 0 := le_rfl

/-- A screen of one cell, which the cursor is on. -/
def letterScreen (c : Char) : TerminalScreen where
  columns := 1
  rows := 1
  cells := [{ c := c }]
  lineNumbers := [none]
  selection := none
  cursor := ⟨.block, ⟨0, 0⟩⟩
  cursorRow := 0
  columns_pos := Nat.one_pos
  rows_pos := Nat.one_pos
  cells_length := rfl
  lineNumbers_length := length_oneLineNumber
  cursorRow_nonneg := firstRow_nonneg

end Termua.Cast
