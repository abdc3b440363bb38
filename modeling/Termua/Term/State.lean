import Mathlib
import Termua.Grid.Cell
import Termua.Grid.Scroll
import Termua.Lib.Ring

/-!
# The state of the terminal

`Term` of `alacritty_terminal/src/term/mod.rs`, with what its handlers change: the two grids, the modes,
the scrolling region, the tab stops, the colours, the style of the cursor, the titles, the keyboard mode
stacks and the damage. The selection, the cursor of the vi mode and the events that a handler sends are
not part of it.
-/

namespace Termua.Term

open Termua.Grid (Cell Point Cursor Charsets StandardCharset)

/-- `KeyboardModes`, as the bits of `TermMode`. -/
structure KeyboardModes where
  disambiguateEscCodes : Bool := false
  reportEventTypes : Bool := false
  reportAlternateKeys : Bool := false
  reportAllKeysAsEsc : Bool := false
  reportAssociatedText : Bool := false
  deriving DecidableEq, Repr

/-- `KeyboardModesApplyBehavior`. -/
inductive KeyboardModesApplyBehavior where
  | replace
  | union
  | difference
  deriving DecidableEq, Repr

/-- `TermMode`; the default values are those of `TermMode::default`. -/
structure TermMode where
  showCursor : Bool := true
  appCursor : Bool := false
  appKeypad : Bool := false
  mouseReportClick : Bool := false
  bracketedPaste : Bool := false
  sgrMouse : Bool := false
  mouseMotion : Bool := false
  lineWrap : Bool := true
  lineFeedNewLine : Bool := false
  origin : Bool := false
  insert : Bool := false
  focusInOut : Bool := false
  altScreen : Bool := false
  mouseDrag : Bool := false
  utf8Mouse : Bool := false
  alternateScroll : Bool := true
  vi : Bool := false
  urgencyHints : Bool := true
  keyboard : KeyboardModes := {}
  deriving DecidableEq, Repr

/-- `LineDamageBounds`, without the number of its line. -/
structure LineDamageBounds where
  left : ℕ
  right : ℕ
  deriving DecidableEq, Repr

/-- `expand`. -/
def LineDamageBounds.expand (b : LineDamageBounds) (left right : ℕ) : LineDamageBounds :=
  ⟨min b.left left, max b.right right⟩

/-- `TermDamageState`. -/
structure Damage where
  full : Bool
  lines : List LineDamageBounds
  lastCursor : Point
  deriving DecidableEq, Repr

/-- `TermDamageState::new`. -/
def Damage.new (columns lines : ℕ) : Damage where
  full := true
  lines := List.replicate lines ⟨columns, 0⟩
  lastCursor := ⟨0, 0⟩

/-- `Rgb`. -/
structure Rgb where
  r : UInt8
  g : UInt8
  b : UInt8
  deriving DecidableEq, Repr

/-- `color::COUNT`. -/
def colorCount : ℕ := 269

/-- `NamedColor::Cursor as usize`. -/
def cursorColor : ℕ := 258

/-- `CursorShape`. -/
inductive CursorShape where
  | block
  | underline
  | beam
  | hollowBlock
  | hidden
  deriving DecidableEq, Repr

/-- `CursorStyle`; the default values are those of `CursorStyle::default`. -/
structure CursorStyle where
  shape : CursorShape := .block
  blinking : Bool := false
  deriving DecidableEq, Repr

/-- `Config`, as far as a handler reads it. -/
structure Config where
  scrollingHistory : ℕ
  kittyKeyboard : Bool
  defaultCursorStyle : CursorStyle
  deriving DecidableEq, Repr

/-- `CharsetIndex`. -/
inductive CharsetIndex where
  | g0
  | g1
  | g2
  | g3
  deriving DecidableEq, Repr

/-- What the terminal takes from tables: the width of a character, `none` for a control character, and what
a character is in a character set. -/
structure Tables where
  width : Char → Option ℕ
  map : StandardCharset → Char → Char

/-- `TITLE_STACK_MAX_DEPTH`. -/
def titleStackMaxDepth : ℕ := 4096

/-- `KEYBOARD_MODE_STACK_MAX_DEPTH`. -/
def keyboardModeStackMaxDepth : ℕ := titleStackMaxDepth

/-- `INITIAL_TABSTOPS`. -/
def initialTabstops : ℕ := 8

/-- `TabStops::new`. -/
def tabStops (columns : ℕ) : List Bool := (List.range columns).map (· % initialTabstops == 0)

end Termua.Term

namespace Termua

open Termua.Grid (Cell)
open Termua.Term

/-- `Term`; the scrolling region is the range from `regionStart` up to `regionEnd`. -/
structure Term where
  grid : Grid Cell
  inactiveGrid : Grid Cell
  activeCharset : CharsetIndex := .g0
  tabs : List Bool
  mode : TermMode := {}
  regionStart : ℤ
  regionEnd : ℤ
  colors : List (Option Rgb) := List.replicate colorCount none
  cursorStyle : Option CursorStyle := none
  title : Option String := none
  titleStack : List (Option String) := []
  keyboardModeStack : List KeyboardModes := []
  inactiveKeyboardModeStack : List KeyboardModes := []
  damage : Damage
  config : Config
  deriving DecidableEq, Repr

end Termua

namespace Termua.Term

open Termua.Grid (Cell Point Cursor Charsets StandardCharset)

/-- `Charsets::index`. -/
def charset (charsets : Charsets) : CharsetIndex → StandardCharset
  | .g0 => charsets.g0
  | .g1 => charsets.g1
  | .g2 => charsets.g2
  | .g3 => charsets.g3

/-- `Charsets::index_mut`. -/
def setCharset (charsets : Charsets) (charset : StandardCharset) : CharsetIndex → Charsets
  | .g0 => { charsets with g0 := charset }
  | .g1 => { charsets with g1 := charset }
  | .g2 => { charsets with g2 := charset }
  | .g3 => { charsets with g3 := charset }

/-- `Term::new`. -/
def new (config : Config) (columns lines : ℕ) : Option Term := do
  let grid ← Grid.new lines columns config.scrollingHistory
  let inactiveGrid ← Grid.new lines columns 0
  return { grid, inactiveGrid, tabs := tabStops grid.columns, regionStart := 0,
           regionEnd := grid.lines, damage := Damage.new columns lines, config }

variable (t : Term)

/-- `columns`. -/
def columns : ℕ := t.grid.columns

/-- `screen_lines`. -/
def screenLines : ℕ := t.grid.lines

/-- `last_column`. -/
def lastColumn : ℕ := t.grid.dimensions.lastColumn

/-- `bottommost_line`. -/
def bottommostLine : ℤ := t.grid.dimensions.bottommostLine

/-- `topmost_line`. -/
def topmostLine : ℤ := t.grid.dimensions.topmostLine

/-- `self.grid.cursor`. -/
def cursor : Cursor Cell := t.grid.cursor

/-- Something is done to the cursor. -/
def withCursor (f : Cursor Cell → Cursor Cell) : Term :=
  { t with grid := { t.grid with cursor := f t.grid.cursor } }

/-- Something is done to the template of the cursor. -/
def withTemplate (f : Cell → Cell) : Term :=
  t.withCursor fun cursor => { cursor with template := f cursor.template }

/-- Something is done to the flags of the template of the cursor. -/
def withTemplateFlags (f : Grid.Flags → Grid.Flags) : Term :=
  t.withTemplate fun template => { template with flags := f template.flags }

/-- The cursor is moved to a column. -/
def toColumn (column : ℕ) : Term :=
  t.withCursor fun cursor => { cursor with point := { cursor.point with column } }

/-- The cursor is moved to a line. -/
def toLine (line : ℤ) : Term :=
  t.withCursor fun cursor => { cursor with point := { cursor.point with line } }

/-- `self.grid.cursor.input_needs_wrap = …`. -/
def needsWrap (inputNeedsWrap : Bool) : Term :=
  t.withCursor fun cursor => { cursor with inputNeedsWrap }

/-- Something that may panic is done to the grid. -/
def onGrid (f : Grid Cell → Option (Grid Cell)) : Option Term := do
  let grid ← f t.grid
  return { t with grid }

/-- Something is done to the modes. -/
def withMode (f : TermMode → TermMode) : Term := { t with mode := f t.mode }

/-- `mark_fully_damaged`. -/
def markFullyDamaged : Term := { t with damage := { t.damage with full := true } }

/-- `damage_line`, `none` where it panics. -/
def damageLine (line left right : ℕ) : Option Term := do
  let lines ← Ring.updateAt (fun b => some (b.expand left right)) t.damage.lines line
  return { t with damage := { t.damage with lines } }

/-- `damage_cursor`. -/
def damageCursor : Option Term :=
  t.damageLine t.cursor.point.line.toNat t.cursor.point.column t.cursor.point.column

end Termua.Term
