import Mathlib
import Termua.Grid.Row

/-!
# The cell of the terminal

`Cell` of `alacritty_terminal/src/term/cell.rs`, as the cell type of the grid. A reset keeps nothing but
the background of the template, which is the discriminant of a cell.
-/

namespace Termua.Grid

/-- `NamedColor`. -/
inductive NamedColor where
  | black | red | green | yellow | blue | magenta | cyan | white
  | brightBlack | brightRed | brightGreen | brightYellow | brightBlue | brightMagenta | brightCyan
  | brightWhite
  | foreground | background | cursor
  | dimBlack | dimRed | dimGreen | dimYellow | dimBlue | dimMagenta | dimCyan | dimWhite
  | brightForeground | dimForeground
  deriving DecidableEq, Repr

/-- `Color`. -/
inductive Color where
  | named (color : NamedColor)
  | spec (r g b : UInt8)
  | indexed (index : UInt8)
  deriving DecidableEq, Repr

/-- `Hyperlink`. -/
structure Hyperlink where
  id : String
  uri : String
  deriving DecidableEq, Repr

/-- `CellExtra`. -/
structure CellExtra where
  zerowidth : List Char := []
  underlineColor : Option Color := none
  hyperlink : Option Hyperlink := none
  deriving DecidableEq, Repr

/-- `Cell`; the default values are those of `Cell::default`. -/
structure Cell where
  c : Char := ' '
  fg : Color := .named .foreground
  bg : Color := .named .background
  flags : Flags := {}
  extra : Option CellExtra := none
  deriving DecidableEq, Repr

/-- `Flags::ALL_UNDERLINES`. -/
def Flags.anyUnderline (f : Flags) : Bool :=
  f.underline || f.doubleUnderline || f.undercurl || f.dottedUnderline || f.dashedUnderline

namespace Cell

/-- `zerowidth`. -/
def zerowidth (cell : Cell) : Option (List Char) := cell.extra.map (·.zerowidth)

/-- `push_zerowidth`. -/
def pushZerowidth (cell : Cell) (character : Char) : Cell :=
  let extra := cell.extra.getD {}
  { cell with extra := some { extra with zerowidth := extra.zerowidth ++ [character] } }

/-- `clear_wide`. -/
def clearWide (cell : Cell) : Cell :=
  { cell with flags := { cell.flags with wideChar := false }
              extra := cell.extra.map fun extra => { extra with zerowidth := [] }
              c := ' ' }

/-- `set_underline_color`. -/
def setUnderlineColor (cell : Cell) (color : Option Color) : Cell :=
  if color.isNone ∧ cell.extra.all fun extra => extra.zerowidth.isEmpty && extra.hyperlink.isNone then
    { cell with extra := none }
  else { cell with extra := some { cell.extra.getD {} with underlineColor := color } }

/-- `set_hyperlink`. -/
def setHyperlink (cell : Cell) (hyperlink : Option Hyperlink) : Cell :=
  if hyperlink.isNone ∧
      cell.extra.all fun extra => extra.zerowidth.isEmpty && extra.underlineColor.isNone then
    { cell with extra := none }
  else { cell with extra := some { cell.extra.getD {} with hyperlink } }

/-- `GridCell::is_empty`. -/
def isEmpty (cell : Cell) : Bool :=
  (cell.c == ' ' || cell.c == '\t') && cell.bg == .named .background &&
    cell.fg == .named .foreground &&
    !(cell.flags.inverse || cell.flags.anyUnderline || cell.flags.strikeout || cell.flags.wrapline ||
      cell.flags.wideCharSpacer || cell.flags.leadingWideCharSpacer) &&
    cell.extra.all fun extra => extra.zerowidth.isEmpty

end Cell

instance : GridCell Cell Color where
  default := {}
  isEmpty := Cell.isEmpty
  reset _ template := { bg := template.bg }
  flags := Cell.flags
  setFlags c flags := { c with flags }
  discriminant := Cell.bg
  cleared bg := { bg }
  reset_eq _ _ := rfl
  discriminant_cleared _ := rfl
  cleared_default := rfl
  flags_setFlags _ _ := rfl

end Termua.Grid
