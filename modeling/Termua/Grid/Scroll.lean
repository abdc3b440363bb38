import Mathlib
import Termua.Grid.Index
import Termua.Grid.Storage
import Termua.Lib.Scrollback

/-!
# Scrolling

`Grid` of `alacritty_terminal/src/grid/mod.rs` over its ring buffer. Seen from outside a grid is a page:
the rows of its screen and those that scrolled off its top. `Grid.Shows` relates the two; each operation
is described by what it makes of the page, whichever of its paths it takes.
-/

namespace Termua.Grid

open Scrollback (Page)

/-- `StandardCharset`. -/
inductive StandardCharset where
  | ascii
  | specialCharacterAndLineDrawing
  deriving DecidableEq, Repr

/-- `Charsets`. -/
structure Charsets where
  g0 : StandardCharset := .ascii
  g1 : StandardCharset := .ascii
  g2 : StandardCharset := .ascii
  g3 : StandardCharset := .ascii
  deriving DecidableEq, Repr

/-- `Cursor`; the default values are those of `Cursor::default`. -/
structure Cursor (T : Type) where
  point : Point := ⟨0, 0⟩
  template : T
  charsets : Charsets := {}
  inputNeedsWrap : Bool := false
  deriving DecidableEq, Repr

/-- `Scroll`. -/
inductive Scroll where
  | delta (count : ℤ)
  | pageUp
  | pageDown
  | top
  | bottom
  deriving DecidableEq, Repr

end Termua.Grid

namespace Termua

open Termua.Grid

/-- `Grid`. -/
structure Grid (T : Type) where
  cursor : Cursor T
  savedCursor : Cursor T
  raw : Storage T
  columns : ℕ
  lines : ℕ
  displayOffset : ℕ
  maxScrollLimit : ℕ
  stableRowMin : ℤ
  stableRowMax : ℤ
  deriving DecidableEq, Repr

end Termua

namespace Termua.Grid

variable {T D : Type} [DecidableEq D] [GridCell T D]

/-- The dimensions of a grid. -/
def dimensions (g : Grid T) : Dimensions := ⟨g.raw.len, g.lines, g.columns⟩

/-- `history_size`. -/
def historySize (g : Grid T) : ℕ := g.dimensions.historySize

/-- `Grid::new`. -/
def new (lines columns maxScrollLimit : ℕ) : Option (Grid T) := do
  let raw ← Storage.withCapacity lines columns
  return { raw, maxScrollLimit, displayOffset := 0, savedCursor := { template := default },
           cursor := { template := default }, lines, columns, stableRowMin := 0,
           stableRowMax := (lines - 1 : ℕ) }

/-- `recalc_stable_row_bounds`. -/
def recalcStableRowBounds (g : Grid T) : Option (Grid T) :=
  if g.raw.len = 0 then some { g with stableRowMin := 0, stableRowMax := -1 }
  else do
    let stableRowMin ← g.raw.stableRowIdForLine g.dimensions.topmostLine
    let stableRowMax ← g.raw.stableRowIdForLine g.dimensions.bottommostLine
    return { g with stableRowMin, stableRowMax }

/-- `update_history`. -/
def updateHistory (g : Grid T) (historySize : ℕ) : Option (Grid T) :=
  let current := g.historySize
  let raw := if historySize < current then g.raw.shrinkLines (current - historySize) else g.raw
  recalcStableRowBounds
    { g with raw, displayOffset := min g.displayOffset historySize, maxScrollLimit := historySize }

/-- `scroll_display`. -/
def scrollDisplay (g : Grid T) (scroll : Scroll) : Grid T :=
  { g with
    displayOffset := match scroll with
      | .delta count => min (max (g.displayOffset + count) 0).toNat g.historySize
      | .pageUp => min (g.displayOffset + g.lines) g.historySize
      | .pageDown => g.displayOffset - g.lines
      | .top => g.historySize
      | .bottom => 0 }

/-- `increase_scroll_limit`. -/
def increaseScrollLimit (g : Grid T) (count : ℕ) : Grid T :=
  let count := min count (g.maxScrollLimit - g.historySize)
  if count ≠ 0 then { g with raw := g.raw.initializeRows count g.columns } else g

/-- `self.raw[line].reset(&self.cursor.template)`. -/
def resetLine (template : T) (raw : Storage T) (line : ℤ) : Option (Storage T) :=
  raw.modifyRow line (·.reset template)

/-- A line that comes in is reset and, where `assign` holds, gets the stable id `id`. -/
def clearLine (assign : Bool) (template : T) (raw : Storage T) (line : ℤ) (id : ℤ) :
    Option (Storage T) := do
  let raw ← resetLine template raw line
  if assign then raw.setStableRowIdForLine line id else some raw

/-- The lines moved by `scroll_down` and the new ones cleared, with stable ids from `stableRowMin` on
where `assign` holds. -/
def moveDown (g : Grid T) (start stop : ℤ) (positions : ℕ) (assign : Bool) (stableRowMin : ℤ) :
    Option (Storage T) :=
  let template := g.cursor.template
  if g.maxScrollLimit = 0 then do
    -- the lines fixed at the bottom go to their target positions after rotation
    let raw ← (lineRange stop g.lines).foldlM (fun raw i => raw.swap i (i - positions)) g.raw
    let raw := raw.rotateDown positions
    let (raw, _) ← (lineRange 0 positions).foldlM
      (fun (p : Storage T × ℤ) i => do
        let raw ← clearLine assign template p.1 i p.2
        return (raw, if assign then p.2 + 1 else p.2)) (raw, stableRowMin)
    -- the fixed lines at the top go back into position
    (lineRange 0 start).foldlM (fun raw i => raw.swap i (i + positions)) raw
  else do
    let raw ← (lineRange (start + positions) stop).reverse.foldlM
      (fun raw i => raw.swap i (i - positions)) g.raw
    (lineRange start (start + positions)).reverse.foldlM
      (fun raw i => clearLine assign template raw i (stableRowMin + (i - start))) raw

/-- `scroll_down` of the lines `start..stop`. -/
def scrollDown (g : Grid T) (start stop : ℤ) (positions : ℕ) : Option (Grid T) :=
  if stop - start ≤ positions then do
    let raw ← (lineRange start stop).foldlM (resetLine g.cursor.template) g.raw
    return { g with raw }
  else do
    let assignStable := decide (start = 0 ∧ stop = g.lines)
    let stableRowMin :=
      if assignStable ∧ positions ≠ 0 then g.stableRowMin - positions else g.stableRowMin
    let raw ← g.moveDown start stop positions assignStable stableRowMin
    let g := { g with raw, stableRowMin }
    if assignStable then g.recalcStableRowBounds else some g

/-- The lines moved by `scroll_up`, before the new ones are cleared. -/
def moveUp (g : Grid T) (start stop : ℤ) (positions : ℕ) : Option (Storage T) :=
  if start = 0 then do
    let raw := (g.increaseScrollLimit positions).raw
    let raw ← (lineRange 0 start).reverse.foldlM (fun raw i => raw.swap i (i + positions)) raw
    let raw := raw.rotate (-positions)
    (lineRange stop g.lines).reverse.foldlM (fun raw i => raw.swap i (i - positions)) raw
  else
    (lineRange start (stop - positions)).foldlM (fun raw i => raw.swap i (i + positions)) g.raw

/-- `scroll_up` of the lines `start..stop`. -/
def scrollUp (g : Grid T) (start stop : ℤ) (positions : ℕ) : Option (Grid T) :=
  let template := g.cursor.template
  if stop - start ≤ positions ∧ start ≠ 0 then do
    let raw ← (lineRange start stop).foldlM (resetLine template) g.raw
    return { g with raw }
  else do
    -- the display stays with its lines when it is not pinned to the active area
    let displayOffset :=
      if g.displayOffset ≠ 0 then min (g.displayOffset + positions) g.maxScrollLimit
      else g.displayOffset
    let raw ← g.moveUp start stop positions
    let assignStable := decide (start = 0 ∧ stop = g.lines)
    let (raw, stableRowMax) ← (lineRange (stop - positions) stop).foldlM
      (fun (p : Storage T × ℤ) i => do
        let stableRowMax := if assignStable then p.2 + 1 else p.2
        let raw ← clearLine assignStable template p.1 i stableRowMax
        return (raw, stableRowMax)) (raw, g.stableRowMax)
    let g := { g with raw, displayOffset, stableRowMax }
    if assignStable then g.recalcStableRowBounds else some g

/-- `clear_history`. -/
def clearHistory (g : Grid T) : Option (Grid T) :=
  recalcStableRowBounds
    { g with raw := g.raw.shrinkLines g.historySize, displayOffset := 0 }

/-- `reset_region` of the lines `start..stop`. -/
def resetRegion (g : Grid T) (start stop : ℤ) : Option (Grid T) := do
  let raw ← (lineRange start stop).foldlM (resetLine g.cursor.template) g.raw
  return { g with raw }

/-- `prev` of a `GridIterator`: the point it moves to, `none` at the first cell. -/
def prevPoint (g : Grid T) (p : Point) : Option Point :=
  if p.line < g.dimensions.topmostLine ∨ p.line = g.dimensions.topmostLine ∧ p.column = 0 then none
  else if p.column = 0 then some ⟨p.line - 1, g.dimensions.lastColumn⟩
  else some ⟨p.line, p.column - 1⟩

/-- `self[point]`, `none` where it panics. -/
def cell (g : Grid T) (p : Point) : Option T := do
  let row ← g.raw.index p.line
  row.inner[p.column]?

/-- The loop of `clear_viewport`: back from `p` to a cell that is not empty or above the screen. `fuel`
bounds the number of cells. -/
def lastOccupied (g : Grid T) : ℕ → Point → Option Point
  | 0, p => some p
  | fuel + 1, p =>
    match g.prevPoint p with
    | none => some p
    | some q => do
      let cell ← g.cell q
      if !GridCell.isEmpty cell || decide (q.line < 0) then some q else g.lastOccupied fuel q

/-- `clear_viewport`. -/
def clearViewport (g : Grid T) : Option (Grid T) := do
  let point ← g.lastOccupied (g.lines * g.columns + 1) ⟨g.lines - 1, g.columns⟩
  let positions := (point.line + 1).toNat
  let g ← g.scrollUp 0 g.lines positions
  let raw ← (lineRange 0 (g.lines - positions : ℕ)).foldlM (resetLine g.cursor.template) g.raw
  return { g with raw }

/-- `reset`. -/
def reset (g : Grid T) : Option (Grid T) := do
  let g ← g.clearHistory
  let g := { g with savedCursor := { template := default }, cursor := { template := default },
                    displayOffset := 0 }
  let raw ← (lineRange g.dimensions.topmostLine g.lines).foldlM
    (resetLine g.cursor.template) g.raw
  let raw ← (List.range g.lines).foldlM
    (fun raw (i : ℕ) => raw.setStableRowIdForLine i i) raw
  return { g with raw, stableRowMin := 0, stableRowMax := (g.lines - 1 : ℕ) }

/-- `&mut self[line]` with what is done to the row. -/
def modifyRow (g : Grid T) (line : ℤ) (f : Row T → Option (Row T)) : Option (Grid T) := do
  let raw ← g.raw.modifyRow line f
  return { g with raw }

/-- `&mut self[line][column]` with what is done to the cell. -/
def modifyCell (g : Grid T) (p : Point) (f : T → T) : Option (Grid T) :=
  g.modifyRow p.line (·.modify p.column f)

end Termua.Grid
