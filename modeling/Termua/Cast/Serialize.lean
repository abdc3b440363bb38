import Mathlib
import Termua.Cast.Screen

/-!
# Serialising a screen

The serialisation functions of `gpui_term/src/cast.rs`. The source appends to a byte vector; every
piece it appends is the UTF-8 encoding of a text, and the functions here return the texts.
-/

namespace Termua.Cast

/-- `CellStyle`. -/
structure CellStyle where
  fg : TermColor
  bg : TermColor
  flags : CellFlags
  deriving DecidableEq, Repr

/-- `CellStyle::from`. -/
def CellStyle.ofCell (cell : Cell) : CellStyle := ⟨cell.fg, cell.bg, cell.flags⟩

/-- `named_color_code`. -/
def namedColorCode (color : NamedColor) (background : Bool) : ℕ :=
  let offset := if background then 10 else 0
  match color with
  | .black => 30 + offset
  | .red => 31 + offset
  | .green => 32 + offset
  | .yellow => 33 + offset
  | .blue => 34 + offset
  | .magenta => 35 + offset
  | .cyan => 36 + offset
  | .white => 37 + offset
  | .brightBlack => 90 + offset
  | .brightRed => 91 + offset
  | .brightGreen => 92 + offset
  | .brightYellow => 93 + offset
  | .brightBlue => 94 + offset
  | .brightMagenta => 95 + offset
  | .brightCyan => 96 + offset
  | .brightWhite => 97 + offset
  | .foreground | .background | .cursor => 39 + offset

/-- The decimal digits of a number, as `format!` prints it. -/
def decimal (n : ℕ) : List Char := Nat.toDigits 10 n

/-- `push_color`: the parameter it pushes. -/
def pushColor (color : TermColor) (background : Bool) : List Char :=
  let base := if background then 48 else 38
  match color with
  | .rgb r g b =>
    decimal base ++ [';', '2', ';'] ++ decimal r.toNat ++ [';'] ++ decimal g.toNat ++ [';'] ++
      decimal b.toNat
  | .indexed index => decimal base ++ [';', '5', ';'] ++ decimal index.toNat
  | .named color => decimal (namedColorCode color background)

/-- The underline parameter of `write_style`: the first of the underline flags that is set. -/
def underlineParams (flags : CellFlags) : List (List Char) :=
  if flags.doubleUnderline then [['4', ':', '2']]
  else if flags.curlyUnderline then [['4', ':', '3']]
  else if flags.dottedUnderline then [['4', ':', '4']]
  else if flags.dashedUnderline then [['4', ':', '5']]
  else if flags.underline then [['4']]
  else []

/-- The parameters that `write_style` collects. -/
def styleParams (style : CellStyle) : List (List Char) :=
  [['0']] ++
  (if style.flags.bold then [['1']] else []) ++
  (if style.flags.dim then [['2']] else []) ++
  (if style.flags.italic then [['3']] else []) ++
  underlineParams style.flags ++
  (if style.flags.inverse then [['7']] else []) ++
  (if style.flags.strikeout then [['9']] else []) ++
  [pushColor style.fg false, pushColor style.bg true]

/-- `write_style`. -/
def writeStyle (style : CellStyle) : List Char :=
  ['\x1b', '['] ++ [';'].intercalate (styleParams style) ++ ['m']

/-- The loop of `serialize_screen_row`, from the style that is active. -/
def serializeCells (activeStyle : Option CellStyle) : List Cell → List Char
  | [] => []
  | cell :: cells =>
    if cell.flags.wideCharSpacer then serializeCells activeStyle cells
    else
      let style := CellStyle.ofCell cell
      (if activeStyle ≠ some style then writeStyle style else []) ++
        cell.c :: cell.zerowidth ++ serializeCells (some style) cells

/-- `serialize_screen_row`. -/
def serializeScreenRow (screen : TerminalScreen) (row : ℕ) : List Char :=
  serializeCells none (screen.row row)

/-- The text that moves the cursor: `format!("\x1b[{};{}H", row, column)`. -/
def moveCursor (row column : ℕ) : List Char :=
  ['\x1b', '['] ++ decimal row ++ [';'] ++ decimal column ++ ['H']

/-- `serialize_screen_cursor`. -/
def serializeScreenCursor (screen : TerminalScreen) : List Char :=
  (if screen.cursor.shape = .hidden then ['\x1b', '[', '?', '2', '5', 'l']
    else ['\x1b', '[', '?', '2', '5', 'h']) ++
    moveCursor (screen.cursorRow.toNat + 1) (screen.cursor.point.column + 1)

/-- `serialize_terminal_screen_ansi`. -/
def serializeTerminalScreenAnsi (screen : TerminalScreen) : List Char :=
  ['\x1b', '[', '2', 'J', '\x1b', '[', 'H'] ++
    (List.range screen.rows).flatMap
      (fun row => moveCursor (row + 1) 1 ++ serializeScreenRow screen row) ++
    serializeScreenCursor screen

/-- `cells_equal`. -/
def cellsEqual (left right : Cell) : Bool :=
  left.c == right.c && left.fg == right.fg && left.bg == right.bg && left.flags == right.flags &&
    left.hyperlink == right.hyperlink && left.zerowidth == right.zerowidth

/-- Whether a row holds the same cells in both screens, as the loop of
`serialize_terminal_screen_update_ansi` compares them. -/
def rowsEqual (previous current : TerminalScreen) (row : ℕ) : Bool :=
  ((previous.row row).zip (current.row row)).all fun cells => cellsEqual cells.1 cells.2

/-- `serialize_terminal_screen_update_ansi`. -/
def serializeTerminalScreenUpdateAnsi (previous current : TerminalScreen) : List Char :=
  if previous.columns ≠ current.columns ∨ previous.rows ≠ current.rows then
    serializeTerminalScreenAnsi current
  else
    (List.range current.rows).flatMap
      (fun row =>
        if rowsEqual previous current row then []
        else moveCursor (row + 1) 1 ++ serializeScreenRow current row) ++
    serializeScreenCursor current

end Termua.Cast
