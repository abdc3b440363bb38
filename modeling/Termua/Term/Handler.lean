import Mathlib
import Termua.Grid.Clearing
import Termua.Term.State

/-!
# The handlers of the terminal

The functions of `Handler for Term` of `alacritty_terminal/src/term/mod.rs` that change its state, and
those of `Term` that they call. Each is `none` where it panics: at an index outside the grid, the tab
stops or the lines of the damage, and at the removal of a title that is not there.
-/

namespace Termua.Term

open Termua.Grid (Cell Color Point Cursor Flags StandardCharset Hyperlink)

variable (tables : Tables) (t : Term)

/-! ## Scrolling and moving -/

/-- `scroll_down_relative`. -/
def scrollDownRelative (origin : ℤ) (lines : ℕ) : Option Term := do
  let lines := min lines (t.regionEnd - t.regionStart).toNat
  let lines := min lines (t.regionEnd - origin).toNat
  let t ← t.onGrid (·.scrollDown origin t.regionEnd lines)
  return t.markFullyDamaged

/-- `scroll_up_relative`. -/
def scrollUpRelative (origin : ℤ) (lines : ℕ) : Option Term := do
  let lines := min lines (t.regionEnd - t.regionStart).toNat
  let t ← t.onGrid (·.scrollUp origin t.regionEnd lines)
  return t.markFullyDamaged

/-- `scroll_up`. -/
def scrollUp (lines : ℕ) : Option Term := t.scrollUpRelative t.regionStart lines

/-- `scroll_down`. -/
def scrollDown (lines : ℕ) : Option Term := t.scrollDownRelative t.regionStart lines

/-- The cursor moves to a line between two lines that are damaged. -/
def moveLine (line : ℤ) : Option Term := do
  let t ← t.damageCursor
  (t.toLine line).damageCursor

/-- `linefeed`. -/
def linefeed : Option Term :=
  let next := t.cursor.point.line + 1
  if next = t.regionEnd then t.scrollUp 1
  else if next < t.screenLines then t.moveLine next
  else some t

/-- The line change of `wrapline`. -/
def wrapDown : Option Term :=
  if t.regionEnd ≤ t.cursor.point.line + 1 then t.linefeed
  else do
    let t ← t.damageCursor
    return t.toLine (t.cursor.point.line + 1)

/-- `self.grid.cursor_cell()` with what is done to it. -/
def modifyCursorCell (f : Cell → Cell) : Option Term := t.onGrid (·.modifyCell t.cursor.point f)

/-- `wrapline`. -/
def wrapline : Option Term :=
  if !t.mode.lineWrap then some t
  else do
    let t ← t.modifyCursorCell fun cell => { cell with flags := { cell.flags with wrapline := true } }
    let t ← t.wrapDown
    ((t.toColumn 0).needsWrap false).damageCursor

/-- `goto`. -/
def goto (line : ℤ) (column : ℕ) : Option Term := do
  let (yOffset, maxY) :=
    if t.mode.origin then (t.regionStart, t.regionEnd - 1) else (0, t.bottommostLine)
  let t ← t.damageCursor
  let t := (t.toLine (max (min (line + yOffset) maxY) 0)).toColumn (min column t.lastColumn)
  let t ← t.damageCursor
  return t.needsWrap false

/-- `goto_line`. -/
def gotoLine (line : ℤ) : Option Term := t.goto line t.cursor.point.column

/-- `goto_col`. -/
def gotoCol (column : ℕ) : Option Term := t.goto t.cursor.point.line column

/-- `move_up`. -/
def moveUp (lines : ℕ) : Option Term := t.goto (t.cursor.point.line - lines) t.cursor.point.column

/-- `move_down`. -/
def moveDown (lines : ℕ) : Option Term := t.goto (t.cursor.point.line + lines) t.cursor.point.column

/-- `move_down_and_cr`. -/
def moveDownAndCr (lines : ℕ) : Option Term := t.goto (t.cursor.point.line + lines) 0

/-- `move_up_and_cr`. -/
def moveUpAndCr (lines : ℕ) : Option Term := t.goto (t.cursor.point.line - lines) 0

/-- `move_forward`. -/
def moveForward (columns : ℕ) : Option Term := do
  let lastColumn := min (t.cursor.point.column + columns) t.lastColumn
  let t ← t.damageLine t.cursor.point.line.toNat t.cursor.point.column lastColumn
  return (t.toColumn lastColumn).needsWrap false

/-- `move_backward`. -/
def moveBackward (columns : ℕ) : Option Term := do
  let column := t.cursor.point.column - columns
  let t ← t.damageLine t.cursor.point.line.toNat column t.cursor.point.column
  return (t.toColumn column).needsWrap false

/-- `backspace`. -/
def backspace : Option Term :=
  let column := t.cursor.point.column
  if 0 < column then
    ((t.toColumn (column - 1)).needsWrap false).damageLine t.cursor.point.line.toNat (column - 1) column
  else some t

/-- `carriage_return`. -/
def carriageReturn : Option Term := do
  let t ← t.damageLine t.cursor.point.line.toNat 0 t.cursor.point.column
  return (t.toColumn 0).needsWrap false

/-- `newline`. -/
def newline : Option Term := do
  let t ← t.linefeed
  if t.mode.lineFeedNewLine then t.carriageReturn else some t

/-- `reverse_index`. -/
def reverseIndex : Option Term :=
  if t.cursor.point.line = t.regionStart then t.scrollDown 1
  else t.moveLine (max (t.cursor.point.line - 1) 0)

/-- `insert_blank_lines`. -/
def insertBlankLines (lines : ℕ) : Option Term :=
  let origin := t.cursor.point.line
  if t.regionStart ≤ origin ∧ origin < t.regionEnd then t.scrollDownRelative origin lines else some t

/-- `delete_lines`. -/
def deleteLines (lines : ℕ) : Option Term :=
  let origin := t.cursor.point.line
  let lines := min (t.screenLines - origin.toNat) lines
  if 0 < lines ∧ t.regionStart ≤ origin ∧ origin < t.regionEnd then t.scrollUpRelative origin lines
  else some t

/-! ## Tab stops -/

/-- The column of the next tab stop, the last column where there is none; `none` where the search runs out
of its fuel. -/
def nextTab (tabs : List Bool) (columns : ℕ) : ℕ → ℕ → Option ℕ
  | 0, _ => none
  | fuel + 1, column =>
    if column + 1 = columns then some column
    else do
      let stop ← tabs[column + 1]?
      if stop then some (column + 1) else nextTab tabs columns fuel (column + 1)

/-- The column of the last tab stop before a column, `start` where there is none. -/
def previousTab (tabs : List Bool) (start : ℕ) : ℕ → Option ℕ
  | 0 => some start
  | column + 1 => do
    let stop ← tabs[column]?
    if stop then some column else previousTab tabs start column

/-- The loop of `put_tab`. -/
def putTabs : ℕ → Term → Option Term
  | 0, t => some t
  | count + 1, t =>
    if t.cursor.point.column < t.columns then do
      let c := tables.map (charset t.cursor.charsets t.activeCharset) '\t'
      let t ← t.modifyCursorCell fun cell => if cell.c = ' ' then { cell with c } else cell
      let column ← nextTab t.tabs t.columns t.columns t.cursor.point.column
      putTabs count (t.toColumn column)
    else some t

/-- `put_tab`. -/
def putTab (count : ℕ) : Option Term :=
  if t.cursor.inputNeedsWrap then t.wrapline else putTabs tables count t

/-- The loop of `move_backward_tabs`. -/
def backwardTabs : ℕ → Term → Option Term
  | 0, t => some t
  | count + 1, t =>
    if t.cursor.point.column = 0 then some t
    else do
      let column ← previousTab t.tabs t.cursor.point.column t.cursor.point.column
      backwardTabs count (t.toColumn column)

/-- `move_backward_tabs`. -/
def moveBackwardTabs (count : ℕ) : Option Term := do
  let old := t.cursor.point.column
  let t ← backwardTabs count t
  t.damageLine t.cursor.point.line.toNat t.cursor.point.column old

/-- The loop of `move_forward_tabs`. -/
def forwardTabs : ℕ → Term → Option Term
  | 0, t => some t
  | count + 1, t =>
    if t.cursor.point.column = t.columns - 1 then some t
    else do
      let column ← nextTab t.tabs t.columns t.columns t.cursor.point.column
      forwardTabs count (t.toColumn column)

/-- `move_forward_tabs`. -/
def moveForwardTabs (count : ℕ) : Option Term := do
  let old := t.cursor.point.column
  let t ← forwardTabs count t
  t.damageLine t.cursor.point.line.toNat old t.cursor.point.column

/-- The tab stop at a column is set. -/
def setTab (column : ℕ) (stop : Bool) : Option Term := do
  let tabs ← Ring.updateAt (fun _ => some stop) t.tabs column
  return { t with tabs }

/-- `set_horizontal_tabstop`. -/
def setHorizontalTabstop : Option Term := t.setTab t.cursor.point.column true

/-- `TabulationClearMode`. -/
inductive TabulationClearMode where
  | current
  | all
  deriving DecidableEq, Repr

/-- `clear_tabs`. -/
def clearTabs : TabulationClearMode → Option Term
  | .current => t.setTab t.cursor.point.column false
  | .all => some { t with tabs := t.tabs.map fun _ => false }

/-! ## Writing -/

/-- What `write_at_cursor` does to the cells that belong to a wide character it overwrites. -/
def clearWideAround (flags : Flags) : Option Term := do
  let point := t.cursor.point
  let t ← (
    if flags.wideChar ∧ point.column < t.lastColumn then
      t.onGrid (·.modifyCell ⟨point.line, point.column + 1⟩ fun cell =>
        { cell with flags := { cell.flags with wideCharSpacer := false } })
    else if 0 < point.column then
      t.onGrid (·.modifyCell ⟨point.line, point.column - 1⟩ Cell.clearWide)
    else some t)
  if point.column ≤ 1 ∧ point.line ≠ t.topmostLine then
    t.onGrid (·.modifyCell ⟨point.line - 1, t.lastColumn⟩ fun cell =>
      { cell with flags := { cell.flags with leadingWideCharSpacer := false } })
  else some t

/-- `write_at_cursor`. -/
def writeAtCursor (c : Char) : Option Term := do
  let c := tables.map (charset t.cursor.charsets t.activeCharset) c
  let template := t.cursor.template
  let cell ← t.grid.cell t.cursor.point
  let t ← (
    if cell.flags.wideChar || cell.flags.wideCharSpacer then t.clearWideAround cell.flags else some t)
  t.modifyCursorCell fun _ => { template with c }

/-- The swaps of the cells of a row, in this order. -/
def swapCells (row : List Cell) (pairs : List (ℕ × ℕ)) : Option (List Cell) :=
  pairs.foldlM (fun row p => Ring.swapAt row p.1 p.2) row

/-- The shift of insert mode. -/
def shiftRight (width : ℕ) : Option Term :=
  let column := t.cursor.point.column
  if t.mode.insert ∧ column + width < t.columns then
    t.onGrid (·.modifyRow t.cursor.point.line (·.modifyRange 0 none fun row =>
      swapCells row ((List.range' column (t.columns - width - column)).reverse.map fun i =>
        (i + width, i))))
  else some t

/-- A wide character and its spacer are written. -/
def writeWide (c : Char) : Option Term := do
  let t ← (t.withTemplateFlags ({ · with wideChar := true })).writeAtCursor tables c
  let t := t.withTemplateFlags ({ · with wideChar := false })
  let t := t.toColumn (t.cursor.point.column + 1)
  let t ← (t.withTemplateFlags ({ · with wideCharSpacer := true })).writeAtCursor tables ' '
  return t.withTemplateFlags ({ · with wideCharSpacer := false })

/-- A placeholder is written before a wide character that does not fit in the line. -/
def wrapWide : Option Term := do
  let t ← (t.withTemplateFlags ({ · with leadingWideCharSpacer := true })).writeAtCursor tables ' '
  (t.withTemplateFlags ({ · with leadingWideCharSpacer := false })).wrapline

/-- The cursor moves on after a character. -/
def advance : Term :=
  let column := t.cursor.point.column
  if column + 1 < t.columns then t.toColumn (column + 1) else t.needsWrap true

/-- The part of `input` that writes a character of a width, not zero, at the cursor. -/
def inputGlyph (c : Char) (width : ℕ) : Option Term :=
  if width = 1 then do
    let t ← t.writeAtCursor tables c
    return t.advance
  else if t.columns ≤ t.cursor.point.column + 1 then
    if t.mode.lineWrap then do
      let t ← t.wrapWide tables
      let t ← t.writeWide tables c
      return t.advance
    else some (t.needsWrap true)
  else do
    let t ← t.writeWide tables c
    return t.advance

/-- The part of `input` for a zero-width character: it is added to the character before the cursor. -/
def inputZerowidth (c : Char) : Option Term := do
  let point := t.cursor.point
  let column := if t.cursor.inputNeedsWrap then point.column else point.column - 1
  let cell ← t.grid.cell ⟨point.line, column⟩
  let column := if cell.flags.wideCharSpacer then column - 1 else column
  t.onGrid (·.modifyCell ⟨point.line, column⟩ (·.pushZerowidth c))

/-- `input`. -/
def input (c : Char) : Option Term :=
  match tables.width c with
  | none => some t
  | some 0 => t.inputZerowidth c
  | some width => do
    let t ← (if t.cursor.inputNeedsWrap then t.wrapline else some t)
    let t ← t.shiftRight width
    t.inputGlyph tables c width

/-- `decaln`. -/
def decaln : Option Term := do
  let t ← t.onGrid fun grid =>
    (Grid.lineRange 0 t.screenLines).foldlM (fun grid line =>
      (List.range t.columns).foldlM (fun grid column =>
        grid.modifyCell ⟨line, column⟩ fun _ => { c := 'E' }) grid) grid
  return t.markFullyDamaged

/-! ## Erasing -/

/-- Cells of a range are cleared with a background. -/
def clearCells (line : ℤ) (start : ℕ) (stop : Option ℕ) (bg : Color) : Option Term :=
  t.onGrid (·.modifyRow line (·.modifyRange start stop fun cells =>
    some (List.replicate cells.length { bg := bg })))

/-- `for cell in &mut row[start..stop]`, each cleared with a background. -/
def fill (row : List Cell) (start stop : ℕ) (bg : Color) : Option (List Cell) :=
  if start ≤ stop ∧ stop ≤ row.length then
    some (row.take start ++ (List.replicate (stop - start) { bg := bg } ++ row.drop stop))
  else none

/-- `insert_blank`. -/
def insertBlank (count : ℕ) : Option Term := do
  let bg := t.cursor.template.bg
  let source := t.cursor.point.column
  let count := min count (t.columns - source)
  let destination := source + count
  let numCells := t.columns - destination
  let line := t.cursor.point.line
  let t ← t.damageLine line.toNat 0 (t.columns - 1)
  t.onGrid (·.modifyRow line (·.modifyRange 0 none fun row => do
    let row ← swapCells row ((List.range numCells).reverse.map fun offset =>
      (destination + offset, source + offset))
    fill row source destination bg))

/-- `delete_chars`. -/
def deleteChars (count : ℕ) : Option Term := do
  let columns := t.columns
  let bg := t.cursor.template.bg
  let count := min count columns
  let start := t.cursor.point.column
  let stop := min (start + count) (columns - 1)
  let line := t.cursor.point.line
  let t ← t.damageLine line.toNat 0 (columns - 1)
  t.onGrid (·.modifyRow line (·.modifyRange 0 none fun row => do
    let row ← swapCells row ((List.range (columns - stop)).map fun offset =>
      (start + offset, stop + offset))
    fill row (columns - count) row.length bg))

/-- `erase_chars`. -/
def eraseChars (count : ℕ) : Option Term := do
  let start := t.cursor.point.column
  let stop := min (start + count) t.columns
  let line := t.cursor.point.line
  let t ← t.damageLine line.toNat start stop
  t.clearCells line start (some stop) t.cursor.template.bg

/-- `LineClearMode`. -/
inductive LineClearMode where
  | right
  | left
  | all
  deriving DecidableEq, Repr

/-- The columns `left..right` of a line are damaged and cleared. -/
def clearColumns (left right : ℕ) : Option Term := do
  let line := t.cursor.point.line
  let t ← t.damageLine line.toNat left (right - 1)
  t.clearCells line left (some right) t.cursor.template.bg

/-- `clear_line`. -/
def clearLine : LineClearMode → Option Term
  | .right =>
    if t.cursor.inputNeedsWrap then some t else t.clearColumns t.cursor.point.column t.columns
  | .left => t.clearColumns 0 (t.cursor.point.column + 1)
  | .all => t.clearColumns 0 t.columns

/-- `ClearMode`. -/
inductive ClearMode where
  | below
  | above
  | all
  | saved
  deriving DecidableEq, Repr

/-- The part of `clear_screen` that depends on the mode. -/
def clearPart : ClearMode → Option Term
  | .above => do
    let point := t.cursor.point
    let t ← (if 1 < point.line then t.onGrid (·.resetRegion 0 point.line) else some t)
    t.clearCells point.line 0 (some (min (point.column + 1) t.columns)) t.cursor.template.bg
  | .below => do
    let point := t.cursor.point
    let t ← t.clearCells point.line point.column none t.cursor.template.bg
    if point.line.toNat < t.screenLines - 1 then
      t.onGrid (·.resetRegion (point.line + 1) t.screenLines)
    else some t
  | .all =>
    if t.mode.altScreen then t.onGrid (·.resetRegion 0 t.screenLines) else t.onGrid (·.clearViewport)
  | .saved => if 0 < t.grid.historySize then t.onGrid (·.clearHistory) else some t

/-- `clear_screen`. -/
def clearScreen (mode : ClearMode) : Option Term := do
  let t ← t.clearPart mode
  return t.markFullyDamaged

/-! ## Modes -/

/-- `From<KeyboardModes>` and the bits of `set_keyboard_mode`. -/
def applyKeyboardMode (active mode : KeyboardModes) : KeyboardModesApplyBehavior → KeyboardModes
  | .replace => mode
  | .union =>
    ⟨active.disambiguateEscCodes || mode.disambiguateEscCodes,
      active.reportEventTypes || mode.reportEventTypes,
      active.reportAlternateKeys || mode.reportAlternateKeys,
      active.reportAllKeysAsEsc || mode.reportAllKeysAsEsc,
      active.reportAssociatedText || mode.reportAssociatedText⟩
  | .difference =>
    ⟨active.disambiguateEscCodes && !mode.disambiguateEscCodes,
      active.reportEventTypes && !mode.reportEventTypes,
      active.reportAlternateKeys && !mode.reportAlternateKeys,
      active.reportAllKeysAsEsc && !mode.reportAllKeysAsEsc,
      active.reportAssociatedText && !mode.reportAssociatedText⟩

/-- `Term::set_keyboard_mode`. -/
def applyKeyboard (mode : KeyboardModes) (apply : KeyboardModesApplyBehavior) : Term :=
  t.withMode fun m => { m with keyboard := applyKeyboardMode m.keyboard mode apply }

/-- The keyboard mode of the top of the stack becomes the active one. -/
def reloadKeyboard : Term := t.applyKeyboard (t.keyboardModeStack.getLast?.getD {}) .replace

/-- `push_keyboard_mode`. -/
def pushKeyboardMode (mode : KeyboardModes) : Option Term :=
  if !t.config.kittyKeyboard then some t
  else do
    let t ← (
      if keyboardModeStackMaxDepth ≤ t.keyboardModeStack.length then
        -- the removal is from the titles
        if t.titleStack.isEmpty then none else some { t with titleStack := t.titleStack.tail }
      else some t)
    let t := { t with keyboardModeStack := t.keyboardModeStack ++ [mode] }
    return t.applyKeyboard mode .replace

/-- `pop_keyboard_modes`. -/
def popKeyboardModes (toPop : ℕ) : Term :=
  if !t.config.kittyKeyboard then t
  else
    let t := { t with
      keyboardModeStack := t.keyboardModeStack.take (t.keyboardModeStack.length - toPop) }
    t.reloadKeyboard

/-- `Handler::set_keyboard_mode`. -/
def setKeyboardMode (mode : KeyboardModes) (apply : KeyboardModesApplyBehavior) : Term :=
  if !t.config.kittyKeyboard then t else t.applyKeyboard mode apply

/-- What `swap_alt` does on the way to the alternate screen. -/
def enterAlt : Option Term := do
  let inactiveGrid := { t.inactiveGrid with cursor := t.grid.cursor }
  let grid := { t.grid with savedCursor := t.grid.cursor }
  let inactiveGrid ← inactiveGrid.resetRegion 0 inactiveGrid.lines
  return { t with grid, inactiveGrid }

/-- What `swap_alt` does on the way to either screen. -/
def exchange : Term :=
  let t := { t with keyboardModeStack := t.inactiveKeyboardModeStack
                    inactiveKeyboardModeStack := t.keyboardModeStack }
  let t := t.reloadKeyboard
  let t := { t with grid := t.inactiveGrid, inactiveGrid := t.grid }
  let t := t.withMode fun m => { m with altScreen := !m.altScreen }
  t.markFullyDamaged

/-- `swap_alt`. -/
def swapAlt : Option Term := do
  let t ← (if !t.mode.altScreen then t.enterAlt else some t)
  return t.exchange

/-- `set_scrolling_region`. -/
def setScrollingRegion (top : ℕ) (bottom : Option ℕ) : Option Term :=
  let bottom := bottom.getD t.screenLines
  if bottom ≤ top then some t
  else
    let t := { t with regionStart := min ((top : ℤ) - 1) t.screenLines
                      regionEnd := min (bottom : ℤ) t.screenLines }
    t.goto 0 0

/-- `deccolm`. -/
def deccolm : Option Term := do
  let t ← t.setScrollingRegion 1 none
  let t ← t.onGrid fun grid => grid.resetRegion 0 grid.lines
  return t.markFullyDamaged

/-! ## Colours and the style of the cursor -/

/-- `self.colors[index] = color`, which damages the terminal when the colour is another one and not that
of the cursor, `none` where it panics. -/
def putColor (index : ℕ) (color : Option Rgb) : Option Term := do
  let t ← (
    if index ≠ cursorColor then do
      let current ← t.colors[index]?
      return if current ≠ color then t.markFullyDamaged else t
    else some t)
  let colors ← Ring.updateAt (fun _ => some color) t.colors index
  return { t with colors }

/-- `set_color`. -/
def setColor (index : ℕ) (color : Rgb) : Option Term := t.putColor index (some color)

/-- `reset_color`. -/
def resetColor (index : ℕ) : Option Term := t.putColor index none

/-- `self.cursor_style.get_or_insert(self.config.default_cursor_style)`, with what is done to it. -/
def withCursorStyle (f : CursorStyle → CursorStyle) : Term :=
  { t with cursorStyle := some (f (t.cursorStyle.getD t.config.defaultCursorStyle)) }

/-- `set_cursor_shape`. -/
def setCursorShape (shape : CursorShape) : Term := t.withCursorStyle ({ · with shape })

/-! ## Private modes -/

/-- `PrivateMode`; `SyncUpdate` and the unknown modes, which change nothing, are one. -/
inductive PrivateMode where
  | cursorKeys
  | columnMode
  | origin
  | lineWrap
  | blinkingCursor
  | other
  | showCursor
  | reportMouseClicks
  | reportCellMouseMotion
  | reportAllMouseMotion
  | reportFocusInOut
  | utf8Mouse
  | sgrMouse
  | alternateScroll
  | urgencyHints
  | swapScreenAndSetRestoreCursor
  | bracketedPaste
  deriving DecidableEq, Repr

/-- `self.mode.remove(TermMode::MOUSE_MODE)`. -/
def removeMouseMode (m : TermMode) : TermMode :=
  { m with mouseReportClick := false, mouseMotion := false, mouseDrag := false }

/-- `set_private_mode`. -/
def setPrivateMode : PrivateMode → Option Term
  | .urgencyHints => some (t.withMode ({ · with urgencyHints := true }))
  | .swapScreenAndSetRestoreCursor => if !t.mode.altScreen then t.swapAlt else some t
  | .showCursor => some (t.withMode ({ · with showCursor := true }))
  | .cursorKeys => some (t.withMode ({ · with appCursor := true }))
  | .reportMouseClicks => some (t.withMode fun m => { removeMouseMode m with mouseReportClick := true })
  | .reportCellMouseMotion => some (t.withMode fun m => { removeMouseMode m with mouseDrag := true })
  | .reportAllMouseMotion => some (t.withMode fun m => { removeMouseMode m with mouseMotion := true })
  | .reportFocusInOut => some (t.withMode ({ · with focusInOut := true }))
  | .bracketedPaste => some (t.withMode ({ · with bracketedPaste := true }))
  | .sgrMouse => some (t.withMode ({ · with utf8Mouse := false, sgrMouse := true }))
  | .utf8Mouse => some (t.withMode ({ · with sgrMouse := false, utf8Mouse := true }))
  | .alternateScroll => some (t.withMode ({ · with alternateScroll := true }))
  | .lineWrap => some (t.withMode ({ · with lineWrap := true }))
  | .origin => (t.withMode ({ · with origin := true })).goto 0 0
  | .columnMode => t.deccolm
  | .blinkingCursor => some (t.withCursorStyle ({ · with blinking := true }))
  | .other => some t

/-- `unset_private_mode`. -/
def unsetPrivateMode : PrivateMode → Option Term
  | .urgencyHints => some (t.withMode ({ · with urgencyHints := false }))
  | .swapScreenAndSetRestoreCursor => if t.mode.altScreen then t.swapAlt else some t
  | .showCursor => some (t.withMode ({ · with showCursor := false }))
  | .cursorKeys => some (t.withMode ({ · with appCursor := false }))
  | .reportMouseClicks => some (t.withMode ({ · with mouseReportClick := false }))
  | .reportCellMouseMotion => some (t.withMode ({ · with mouseDrag := false }))
  | .reportAllMouseMotion => some (t.withMode ({ · with mouseMotion := false }))
  | .reportFocusInOut => some (t.withMode ({ · with focusInOut := false }))
  | .bracketedPaste => some (t.withMode ({ · with bracketedPaste := false }))
  | .sgrMouse => some (t.withMode ({ · with sgrMouse := false }))
  | .utf8Mouse => some (t.withMode ({ · with utf8Mouse := false }))
  | .alternateScroll => some (t.withMode ({ · with alternateScroll := false }))
  | .lineWrap => some (t.withMode ({ · with lineWrap := false }))
  | .origin => some (t.withMode ({ · with origin := false }))
  | .columnMode => t.deccolm
  | .blinkingCursor => some (t.withCursorStyle ({ · with blinking := false }))
  | .other => some t

/-- `report_private_mode`, with what it leaves of the terminal: asked whether the cursor blinks, it sets
the style of the cursor. -/
def reportPrivateMode : PrivateMode → Term
  | .blinkingCursor => t.withCursorStyle id
  | _ => t

/-- `NamedMode`. -/
inductive Mode where
  | insert
  | lineFeedNewLine
  deriving DecidableEq, Repr

/-- `set_mode`. -/
def setMode : Mode → Term
  | .insert => t.withMode ({ · with insert := true })
  | .lineFeedNewLine => t.withMode ({ · with lineFeedNewLine := true })

/-- `unset_mode`. -/
def unsetMode : Mode → Term
  | .insert => (t.withMode ({ · with insert := false })).markFullyDamaged
  | .lineFeedNewLine => t.withMode ({ · with lineFeedNewLine := false })

/-- `Attr`; those that are not handled are one. -/
inductive Attr where
  | foreground (color : Color)
  | background (color : Color)
  | underlineColor (color : Option Color)
  | reset
  | reverse
  | cancelReverse
  | bold
  | cancelBold
  | dim
  | cancelBoldDim
  | italic
  | cancelItalic
  | underline
  | doubleUnderline
  | undercurl
  | dottedUnderline
  | dashedUnderline
  | cancelUnderline
  | hidden
  | cancelHidden
  | strike
  | cancelStrike
  | other
  deriving DecidableEq, Repr

/-- `flags.remove(Flags::ALL_UNDERLINES)`. -/
def removeUnderlines (f : Flags) : Flags :=
  { f with underline := false, doubleUnderline := false, undercurl := false, dottedUnderline := false
           dashedUnderline := false }

/-- What `terminal_attribute` does to the template. -/
def applyAttr (template : Cell) : Attr → Cell
  | .foreground color => { template with fg := color }
  | .background color => { template with bg := color }
  | .underlineColor color => template.setUnderlineColor color
  | .reset =>
    Cell.setUnderlineColor
      { template with fg := .named .foreground, bg := .named .background, flags := {} } none
  | .reverse => { template with flags := { template.flags with inverse := true } }
  | .cancelReverse => { template with flags := { template.flags with inverse := false } }
  | .bold => { template with flags := { template.flags with bold := true } }
  | .cancelBold => { template with flags := { template.flags with bold := false } }
  | .dim => { template with flags := { template.flags with dim := true } }
  | .cancelBoldDim => { template with flags := { template.flags with bold := false, dim := false } }
  | .italic => { template with flags := { template.flags with italic := true } }
  | .cancelItalic => { template with flags := { template.flags with italic := false } }
  | .underline => { template with flags := { removeUnderlines template.flags with underline := true } }
  | .doubleUnderline =>
    { template with flags := { removeUnderlines template.flags with doubleUnderline := true } }
  | .undercurl => { template with flags := { removeUnderlines template.flags with undercurl := true } }
  | .dottedUnderline =>
    { template with flags := { removeUnderlines template.flags with dottedUnderline := true } }
  | .dashedUnderline =>
    { template with flags := { removeUnderlines template.flags with dashedUnderline := true } }
  | .cancelUnderline => { template with flags := removeUnderlines template.flags }
  | .hidden => { template with flags := { template.flags with hidden := true } }
  | .cancelHidden => { template with flags := { template.flags with hidden := false } }
  | .strike => { template with flags := { template.flags with strikeout := true } }
  | .cancelStrike => { template with flags := { template.flags with strikeout := false } }
  | .other => template

/-- `configure_charset`. -/
def configureCharset (index : CharsetIndex) (charset : StandardCharset) : Term :=
  t.withCursor fun cursor => { cursor with charsets := setCharset cursor.charsets charset index }

/-! ## Titles, cursors and resets -/

/-- `push_title`. -/
def pushTitle : Term :=
  let stack := if titleStackMaxDepth ≤ t.titleStack.length then t.titleStack.tail else t.titleStack
  { t with titleStack := stack ++ [t.title] }

/-- `pop_title`. -/
def popTitle : Term :=
  match t.titleStack.getLast? with
  | some title => { t with titleStack := t.titleStack.dropLast, title }
  | none => t

/-- `save_cursor_position`. -/
def saveCursorPosition : Term := { t with grid := { t.grid with savedCursor := t.grid.cursor } }

/-- `restore_cursor_position`. -/
def restoreCursorPosition : Option Term := do
  let t ← t.damageCursor
  let t := t.withCursor fun _ => t.grid.savedCursor
  t.damageCursor

/-- `mem::swap(&mut self.grid, &mut self.inactive_grid)` of `reset_state`. -/
def toPrimary : Term :=
  if t.mode.altScreen then { t with grid := t.inactiveGrid, inactiveGrid := t.grid } else t

/-- `reset_state`. -/
def resetState : Option Term := do
  let t := t.toPrimary
  let grid ← t.grid.reset
  let inactiveGrid ← t.inactiveGrid.reset
  let t := { t with
    grid, inactiveGrid, activeCharset := .g0, cursorStyle := none, regionStart := 0
    regionEnd := grid.lines
    tabs := tabStops grid.columns, titleStack := [], title := none, keyboardModeStack := []
    inactiveKeyboardModeStack := [], mode := { vi := t.mode.vi } }
  return t.markFullyDamaged

/-- `set_options`. -/
def setOptions (config : Config) : Option Term := do
  let old := t.config
  let t := { t with config }
  let t ← (
    if t.mode.altScreen then do
      let inactiveGrid ← t.inactiveGrid.updateHistory config.scrollingHistory
      return { t with inactiveGrid }
    else t.onGrid (·.updateHistory config.scrollingHistory))
  let t :=
    if config.kittyKeyboard ≠ old.kittyKeyboard then
      { t with keyboardModeStack := [], inactiveKeyboardModeStack := []
               mode := { t.mode with keyboard := {} } }
    else t
  return t.markFullyDamaged

/-- `damage`, with what it leaves of the damage. -/
def takeDamage : Option Term :=
  let t := if t.mode.insert then t.markFullyDamaged else t
  let previous := t.damage.lastCursor
  let t := { t with damage := { t.damage with lastCursor := t.cursor.point } }
  if t.damage.full then some t
  else do
    let t ← (
      if t.damage.lastCursor ≠ previous then
        t.damageLine previous.line.toNat previous.column previous.column
      else some t)
    t.damageCursor

/-- `reset_damage`. -/
def resetDamage : Term :=
  { t with damage := { t.damage with full := false, lines := t.damage.lines.map fun _ => ⟨t.columns, 0⟩ } }

/-- `scroll_display`. -/
def scrollDisplay (scroll : Grid.Scroll) : Term :=
  let old := t.grid.displayOffset
  let t := { t with grid := t.grid.scrollDisplay scroll }
  if old ≠ t.grid.displayOffset then t.markFullyDamaged else t

/-! ## Actions -/

/-- What a terminal is asked to do: by the parser, by its view and by the user. The handlers that only
send an event are one: `identify_terminal`, `report_keyboard_mode`, `device_status`, `bell`,
`dynamic_color_sequence`, `clipboard_store`, `clipboard_load`, `report_mode`, `text_area_size_pixels` and
`text_area_size_chars`, and with them `substitute`, which does nothing. -/
inductive Action where
  | input (c : Char)
  | decaln
  | goto (line : ℤ) (column : ℕ)
  | gotoLine (line : ℤ)
  | gotoCol (column : ℕ)
  | insertBlank (count : ℕ)
  | moveUp (lines : ℕ)
  | moveDown (lines : ℕ)
  | moveForward (columns : ℕ)
  | moveBackward (columns : ℕ)
  | moveDownAndCr (lines : ℕ)
  | moveUpAndCr (lines : ℕ)
  | putTab (count : ℕ)
  | backspace
  | carriageReturn
  | linefeed
  | newline
  | setHorizontalTabstop
  | scrollUp (lines : ℕ)
  | scrollDown (lines : ℕ)
  | insertBlankLines (lines : ℕ)
  | deleteLines (lines : ℕ)
  | eraseChars (count : ℕ)
  | deleteChars (count : ℕ)
  | moveBackwardTabs (count : ℕ)
  | moveForwardTabs (count : ℕ)
  | saveCursorPosition
  | restoreCursorPosition
  | clearLine (mode : LineClearMode)
  | clearScreen (mode : ClearMode)
  | clearTabs (mode : TabulationClearMode)
  | resetState
  | reverseIndex
  | setHyperlink (hyperlink : Option Hyperlink)
  | terminalAttribute (attr : Attr)
  | setPrivateMode (mode : PrivateMode)
  | unsetPrivateMode (mode : PrivateMode)
  | setMode (mode : Mode)
  | unsetMode (mode : Mode)
  | setScrollingRegion (top : ℕ) (bottom : Option ℕ)
  | setKeypadApplicationMode (active : Bool)
  | configureCharset (index : CharsetIndex) (charset : StandardCharset)
  | setActiveCharset (index : CharsetIndex)
  | setColor (index : ℕ) (color : Rgb)
  | resetColor (index : ℕ)
  | setCursorStyle (style : Option CursorStyle)
  | setCursorShape (shape : CursorShape)
  | reportPrivateMode (mode : PrivateMode)
  | sendEvent
  | setTitle (title : Option String)
  | pushTitle
  | popTitle
  | pushKeyboardMode (mode : KeyboardModes)
  | popKeyboardModes (count : ℕ)
  | setKeyboardMode (mode : KeyboardModes) (apply : KeyboardModesApplyBehavior)
  | setOptions (config : Config)
  | takeDamage
  | resetDamage
  | scrollDisplay (scroll : Grid.Scroll)

/-- The terminal does what it is asked to, `none` where it panics. -/
def handle : Action → Option Term
  | .input c => t.input tables c
  | .decaln => t.decaln
  | .goto line column => t.goto line column
  | .gotoLine line => t.gotoLine line
  | .gotoCol column => t.gotoCol column
  | .insertBlank count => t.insertBlank count
  | .moveUp lines => t.moveUp lines
  | .moveDown lines => t.moveDown lines
  | .moveForward columns => t.moveForward columns
  | .moveBackward columns => t.moveBackward columns
  | .moveDownAndCr lines => t.moveDownAndCr lines
  | .moveUpAndCr lines => t.moveUpAndCr lines
  | .putTab count => t.putTab tables count
  | .backspace => t.backspace
  | .carriageReturn => t.carriageReturn
  | .linefeed => t.linefeed
  | .newline => t.newline
  | .setHorizontalTabstop => t.setHorizontalTabstop
  | .scrollUp lines => t.scrollUp lines
  | .scrollDown lines => t.scrollDown lines
  | .insertBlankLines lines => t.insertBlankLines lines
  | .deleteLines lines => t.deleteLines lines
  | .eraseChars count => t.eraseChars count
  | .deleteChars count => t.deleteChars count
  | .moveBackwardTabs count => t.moveBackwardTabs count
  | .moveForwardTabs count => t.moveForwardTabs count
  | .saveCursorPosition => some t.saveCursorPosition
  | .restoreCursorPosition => t.restoreCursorPosition
  | .clearLine mode => t.clearLine mode
  | .clearScreen mode => t.clearScreen mode
  | .clearTabs mode => t.clearTabs mode
  | .resetState => t.resetState
  | .reverseIndex => t.reverseIndex
  | .setHyperlink hyperlink => some (t.withTemplate (·.setHyperlink hyperlink))
  | .terminalAttribute attr => some (t.withTemplate (applyAttr · attr))
  | .setPrivateMode mode => t.setPrivateMode mode
  | .unsetPrivateMode mode => t.unsetPrivateMode mode
  | .setMode mode => some (t.setMode mode)
  | .unsetMode mode => some (t.unsetMode mode)
  | .setScrollingRegion top bottom => t.setScrollingRegion top bottom
  | .setKeypadApplicationMode active => some (t.withMode ({ · with appKeypad := active }))
  | .configureCharset index charset => some (t.configureCharset index charset)
  | .setActiveCharset index => some { t with activeCharset := index }
  | .setColor index color => t.setColor index color
  | .resetColor index => t.resetColor index
  | .setCursorStyle style => some { t with cursorStyle := style }
  | .setCursorShape shape => some (t.setCursorShape shape)
  | .reportPrivateMode mode => some (t.reportPrivateMode mode)
  | .sendEvent => some t
  | .setTitle title => some { t with title }
  | .pushTitle => some t.pushTitle
  | .popTitle => some t.popTitle
  | .pushKeyboardMode mode => t.pushKeyboardMode mode
  | .popKeyboardModes count => some (t.popKeyboardModes count)
  | .setKeyboardMode mode apply => some (t.setKeyboardMode mode apply)
  | .setOptions config => t.setOptions config
  | .takeDamage => t.takeDamage
  | .resetDamage => some t.resetDamage
  | .scrollDisplay scroll => some (t.scrollDisplay scroll)

end Termua.Term
