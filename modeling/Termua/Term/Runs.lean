import Mathlib
import Termua.Term.Writing

/-!
# Runs of the terminal

What the parser, the view and the user make of a terminal, action by action. A terminal of two columns or
more stays in order and does not panic (`panics_iff`, `stays_in_order`), except where a program pushes more
keyboard modes than the stack holds: making room, `push_keyboard_mode` takes a title off, and there may be
none. What a program does on the alternate screen is not seen on the primary one (`alt_screen_isolated`).
-/

namespace Termua.Grid

variable {T D : Type} [DecidableEq D] [GridCell T D] {g g' : Grid T}

/-- `update_history` changes the lines and the limit only. -/
theorem updateHistory_frame {n : ℕ} (h : g.updateHistory n = some g') :
    SameFrame { g with maxScrollLimit := n } g' := by
  unfold updateHistory at h
  obtain ⟨hcursor, hsaved, hcols, hlines, hlimit⟩ := recalcStableRowBounds_frame h
  exact ⟨hcursor, hsaved, hcols, hlines, hlimit⟩

/-- After a reset both cursors are at the origin. -/
theorem reset_cursors (h : g.reset = some g') :
    g'.cursor = { template := default } ∧ g'.savedCursor = { template := default } := by
  unfold reset at h
  simp only [Option.bind_eq_bind, Option.bind_eq_some_iff] at h
  obtain ⟨m, -, raw, -, raw', -, h⟩ := h
  obtain rfl := Option.some.inj h
  exact ⟨rfl, rfl⟩

omit [DecidableEq D] in
/-- The cursors of a new grid are at the origin. -/
theorem new_cursors {lines columns limit : ℕ} {g : Grid T} (h : new lines columns limit = some g) :
    g.cursor = { template := default } ∧ g.savedCursor = { template := default } := by
  unfold new at h
  simp only [Option.bind_eq_bind, Option.bind_eq_some_iff] at h
  obtain ⟨raw, -, h⟩ := h
  obtain rfl := Option.some.inj h
  exact ⟨rfl, rfl⟩

end Termua.Grid

namespace Termua.Term

open Termua.Grid (Cell Point Flags)

variable {tables : Tables} {t m t' : Term} {a : Action} {actions : List Action}

/-! ## Modes, titles and cursors -/

/-- A push of a keyboard mode on a full stack, with no title to take off. -/
def Overflows (t : Term) : Action → Prop
  | .pushKeyboardMode _ => t.config.kittyKeyboard = true ∧
    keyboardModeStackMaxDepth ≤ t.keyboardModeStack.length ∧ t.titleStack = []
  | _ => False

theorem pushKeyboardMode_of_overflows {mode : KeyboardModes}
    (hover : t.Overflows (.pushKeyboardMode mode)) : t.pushKeyboardMode mode = none := by
  obtain ⟨hkitty, hfull, hnone⟩ := hover
  unfold pushKeyboardMode
  rw [hkitty, hnone, if_pos hfull]
  rfl

theorem pushKeyboardMode_keeps (h : t.Inv) {mode : KeyboardModes}
    (hroom : ¬t.Overflows (.pushKeyboardMode mode)) :
    Returns (t.pushKeyboardMode mode) (Keeps t) := by
  refine .ite (fun _ => .some h.keeps) fun hkitty => ?_
  have hkitty' : t.config.kittyKeyboard = true := by simpa using hkitty
  refine Returns.bind (Q := Keeps t) ?_ fun m hm => ?_
  · refine .ite (fun hfull => .ite (fun hempty => ?_) fun _ => ?_) fun _ => .some h.keeps
    · exact absurd ⟨hkitty', hfull, List.isEmpty_iff.mp hempty⟩ hroom
    · exact .some ⟨{ h with }, rfl, rfl, rfl, rfl, rfl⟩
  · have hinv := hm.inv
    exact .pure (hm.trans ⟨{ hinv with }, rfl, rfl, rfl, rfl, rfl⟩)

theorem popKeyboardModes_keeps (h : t.Inv) (toPop : ℕ) : t.Keeps (t.popKeyboardModes toPop) := by
  unfold popKeyboardModes
  split
  · exact h.keeps
  · exact ⟨{ h with }, rfl, rfl, rfl, rfl, rfl⟩

theorem setKeyboardMode_keeps (h : t.Inv) (mode : KeyboardModes)
    (apply : KeyboardModesApplyBehavior) : t.Keeps (t.setKeyboardMode mode apply) := by
  unfold setKeyboardMode
  split
  · exact h.keeps
  · exact withMode_keeps h rfl

theorem setMode_keeps (h : t.Inv) : ∀ mode, t.Keeps (t.setMode mode)
  | .insert => withMode_keeps h (f := ({ · with insert := true })) rfl
  | .lineFeedNewLine => withMode_keeps h (f := ({ · with lineFeedNewLine := true })) rfl

theorem unsetMode_keeps (h : t.Inv) : ∀ mode, t.Keeps (t.unsetMode mode)
  | .insert =>
    have hmode := withMode_keeps h (f := ({ · with insert := false })) rfl
    hmode.trans (markFullyDamaged_holds hmode.inv).toKeeps
  | .lineFeedNewLine => withMode_keeps h (f := ({ · with lineFeedNewLine := false })) rfl

theorem popTitle_keeps (h : t.Inv) : t.Keeps t.popTitle := by
  unfold popTitle
  split
  · exact ⟨{ h with }, rfl, rfl, rfl, rfl, rfl⟩
  · exact h.keeps

theorem saveCursorPosition_keeps (h : t.Inv) : t.Keeps t.saveCursorPosition := by
  have hwf := h.grid.wf
  have hcursor := h.grid.cursor
  have hholds : t.saveCursorPosition.grid.Holds t.grid.active :=
    ⟨hwf.raw, hwf.columns_pos, hwf.lines_pos, hwf.lines_le, hwf.length_le⟩
  have hpoint : OnScreen t.saveCursorPosition.grid t.grid.cursor.point :=
    ⟨hcursor.line_nonneg, hcursor.line_lt, hcursor.column_lt⟩
  exact ⟨h.withGrid ⟨hholds.wf, rfl, rfl, hpoint, hpoint⟩, rfl, rfl, rfl, rfl, rfl⟩

theorem restoreCursorPosition_keeps (h : t.Inv) : Returns t.restoreCursorPosition (Keeps t) := by
  refine (damageCursor_holds h).bind fun m hm => ?_
  have hsaved := hm.inv.grid.savedCursor
  have hcursor := withCursor_keeps hm.inv (f := fun _ => m.grid.savedCursor)
    ⟨hsaved.line_nonneg, hsaved.line_lt, hsaved.column_lt⟩
  exact (damageCursor_holds hcursor.inv).mono fun _ h' =>
    hm.toKeeps.trans (hcursor.trans h'.toKeeps)

theorem setScrollingRegion_keeps (h : t.Inv) {top : ℕ} (htop : 1 ≤ top) (bottom : Option ℕ) :
    Returns (t.setScrollingRegion top bottom) (Keeps t) := by
  have hpos := h.lines_pos
  refine .ite (fun _ => .some h.keeps) fun hlt => ?_
  have hregion : t.Keeps { t with
      regionStart := min ((top : ℤ) - 1) t.screenLines
      regionEnd := min ((bottom.getD t.screenLines : ℕ) : ℤ) t.screenLines } := by
    refine ⟨{ h with region_nonneg := ?_, region_le := ?_, region_pos := ?_, region_end := ?_ },
      rfl, rfl, rfl, rfl, rfl⟩
    · show 0 ≤ min ((top : ℤ) - 1) t.screenLines
      omega
    · show min ((top : ℤ) - 1) t.screenLines ≤ min ((bottom.getD t.screenLines : ℕ) : ℤ) t.screenLines
      omega
    · show 0 < min ((bottom.getD t.screenLines : ℕ) : ℤ) t.screenLines
      omega
    · exact min_le_right ..
  exact (goto_keeps hregion.inv 0 0).mono fun _ h' => hregion.trans h'

theorem deccolm_keeps (h : t.Inv) : Returns t.deccolm (Keeps t) := by
  refine Keeps.bind (setScrollingRegion_keeps h (le_refl 1) none) fun m hm => ?_
  refine (resetRegion_holds hm (le_refl 0) (Int.natCast_nonneg _) (le_refl _)).bind fun d hd => ?_
  exact .pure (hd.toKeeps.trans (markFullyDamaged_holds hd.inv).toKeeps)

/-! ## Damage and display -/

theorem takeDamage_keeps (h : t.Inv) : Returns t.takeDamage (Keeps t) := by
  have hfull : t.Keeps (if t.mode.insert then t.markFullyDamaged else t) := by
    split
    · exact (markFullyDamaged_holds h).toKeeps
    · exact h.keeps
  unfold takeDamage
  generalize (if t.mode.insert then t.markFullyDamaged else t) = m at hfull
  have hm := hfull.inv
  have hlast : m.Keeps { m with damage := { m.damage with lastCursor := m.cursor.point } } :=
    ⟨{ hm with
        lastCursor_nonneg := hm.onScreen.line_nonneg
        lastCursor_lt := hm.onScreen.line_lt }, rfl, rfl, rfl, rfl, rfl⟩
  refine .ite (fun _ => .some (hfull.trans hlast)) fun _ => ?_
  refine Keeps.bind (.ite (fun _ => ?_) fun _ => .some (hfull.trans hlast)) fun d hd =>
    (damageCursor_holds hd).mono fun _ h' => h'.toKeeps
  have hline : m.damage.lastCursor.line.toNat < m.screenLines := by
    have hnonneg := hm.lastCursor_nonneg
    have hlt := hm.lastCursor_lt
    omega
  exact (damageLine_holds hlast.inv hline _ _).mono fun _ h' =>
    hfull.trans (hlast.trans h'.toKeeps)

theorem resetDamage_keeps (h : t.Inv) : t.Keeps t.resetDamage :=
  ⟨{ h with damage := (List.length_map ..).trans h.damage }, rfl, rfl, rfl, rfl, rfl⟩

theorem scrollDisplay_keeps (h : t.Inv) (scroll : Grid.Scroll) : t.Keeps (t.scrollDisplay scroll) := by
  obtain ⟨g, hg, hinv, hframe⟩ := GridInv.step h.grid (.scrollDisplay scroll) trivial trivial
  obtain rfl := Option.some.inj hg
  have hscrolled : t.Keeps { t with grid := t.grid.scrollDisplay scroll } :=
    ⟨h.withGrid hinv, rfl, rfl, rfl, rfl, rfl⟩
  unfold scrollDisplay
  simp only
  split
  · exact hscrolled.trans (markFullyDamaged_holds hscrolled.inv).toKeeps
  · exact hscrolled

/-! ## Steps that reach both screens -/

/-- The terminal stays in order and of its size. -/
structure Stays (t t' : Term) : Prop where
  inv : t'.Inv
  columns : t'.columns = t.columns
  screenLines : t'.screenLines = t.screenLines

theorem Keeps.stays (h : t.Keeps t') : t.Stays t' := ⟨h.inv, h.columns, h.screenLines⟩

theorem Stays.trans (h : t.Stays m) (h' : m.Stays t') : t.Stays t' :=
  ⟨h'.inv, h'.columns.trans h.columns, h'.screenLines.trans h.screenLines⟩

/-- The screens are exchanged. -/
theorem Inv.swapped (h : t.Inv) :
    t.Stays { t with grid := t.inactiveGrid, inactiveGrid := t.grid } := by
  have hlines : t.inactiveGrid.lines = t.screenLines := h.inactiveGrid.lines
  have hcols : t.inactiveGrid.columns = t.columns := h.inactiveGrid.columns
  have hinv := h.withGrid h.inactiveGrid
  have hgrid := h.grid
  rw [← hlines, ← hcols] at hgrid
  exact ⟨{ hinv with inactiveGrid := hgrid }, hcols, hlines⟩

/-- The cursors of a grid are set to points on its screen. -/
theorem GridInv.withCursors {lines columns : ℕ} {g : Grid Cell} (h : GridInv lines columns g)
    (cursor savedCursor : Grid.Cursor Cell) (hcursor : OnScreen g cursor.point)
    (hsaved : OnScreen g savedCursor.point) :
    GridInv lines columns { g with cursor, savedCursor } := by
  have hwf := h.wf
  have hholds : ({ g with cursor, savedCursor } : Grid Cell).Holds g.active :=
    ⟨hwf.raw, hwf.columns_pos, hwf.lines_pos, hwf.lines_le, hwf.length_le⟩
  refine ⟨hholds.wf, h.lines, h.columns, ?_, ?_⟩
  · exact ⟨hcursor.line_nonneg, hcursor.line_lt, hcursor.column_lt⟩
  · exact ⟨hsaved.line_nonneg, hsaved.line_lt, hsaved.column_lt⟩

/-- On the way to the alternate screen its grid is cleared and gets the cursor. -/
theorem enterAlt_eq (h : t.Inv) : ∃ g, t.enterAlt =
      some { t with grid := { t.grid with savedCursor := t.grid.cursor }, inactiveGrid := g } ∧
    GridInv t.screenLines t.columns g := by
  have hinactive := h.inactiveGrid
  have hcursor := h.grid.cursor
  have hsaved := hinactive.savedCursor
  have hinv := hinactive.withCursors t.grid.cursor t.inactiveGrid.savedCursor
    ⟨hcursor.line_nonneg, hinactive.lines ▸ hcursor.line_lt, hinactive.columns ▸ hcursor.column_lt⟩
    hsaved
  obtain ⟨g, hg, hinv', -⟩ := GridInv.step hinv
    (.resetRegion 0 t.inactiveGrid.lines) ⟨Nat.zero_le _, le_refl _⟩ trivial
  refine ⟨g, ?_, hinv'⟩
  have hreset : Grid.resetRegion { t.inactiveGrid with cursor := t.grid.cursor } 0
      t.inactiveGrid.lines = some g := hg
  unfold enterAlt
  simp only [hreset, Option.bind_eq_bind, Option.bind_some, Option.pure_def]

theorem exchange_stays (h : t.Inv) : t.Stays t.exchange := by
  have hswap := h.swapped
  have hinv := hswap.inv
  exact ⟨{ hinv with }, hswap.columns, hswap.screenLines⟩

/-- The alternate screen is shown; the primary one is kept, with its cursor saved. -/
theorem swapAlt_enter (h : t.Inv) (hmain : t.mode.altScreen = false) :
    Returns t.swapAlt fun t' => t.Stays t' ∧ t'.mode.altScreen = true ∧
      t'.inactiveGrid = { t.grid with savedCursor := t.grid.cursor } := by
  obtain ⟨g, hg, hinv⟩ := enterAlt_eq h
  have hsave := saveCursorPosition_keeps h
  have hsaved := hsave.inv
  have hboth : t.Stays { t.saveCursorPosition with inactiveGrid := g } :=
    ⟨{ hsaved with inactiveGrid := hinv }, hsave.columns, hsave.screenLines⟩
  unfold swapAlt
  rw [hmain]
  simp only [Bool.not_false, if_true, hg, Option.bind_eq_bind, Option.bind_some]
  refine .pure ⟨hboth.trans (exchange_stays hboth.inv), ?_, rfl⟩
  show (!t.mode.altScreen) = true
  rw [hmain]
  rfl

/-- The primary screen is shown again. -/
theorem swapAlt_leave (h : t.Inv) (halt : t.mode.altScreen = true) :
    Returns t.swapAlt fun t' => t.Stays t' ∧ t'.mode.altScreen = false ∧
      t'.grid = t.inactiveGrid := by
  unfold swapAlt
  rw [halt]
  refine .pure ⟨exchange_stays h, ?_, rfl⟩
  show (!t.mode.altScreen) = false
  rw [halt]
  rfl

theorem swapAlt_stays (h : t.Inv) : Returns t.swapAlt (Stays t) := by
  rcases hmode : t.mode.altScreen
  · exact (swapAlt_enter h hmode).mono fun _ h' => h'.1
  · exact (swapAlt_leave h hmode).mono fun _ h' => h'.1

theorem GridInv.updateHistory {lines columns : ℕ} {g : Grid Cell} (h : GridInv lines columns g)
    (n : ℕ) : Returns (g.updateHistory n) (GridInv lines columns) := by
  obtain ⟨g', hg', hwf, -⟩ := Grid.updateHistory_view h.wf n
  have hframe := Grid.updateHistory_frame hg'
  have hcursor := h.cursor
  have hsaved := h.savedCursor
  refine ⟨g', hg', hwf, hframe.lines.trans h.lines, hframe.columns.trans h.columns, ?_, ?_⟩
  · rw [hframe.cursor]
    exact ⟨hcursor.line_nonneg, hframe.lines ▸ hcursor.line_lt, hframe.columns ▸ hcursor.column_lt⟩
  · rw [hframe.savedCursor]
    exact ⟨hsaved.line_nonneg, hframe.lines ▸ hsaved.line_lt, hframe.columns ▸ hsaved.column_lt⟩

theorem GridInv.reset {lines columns : ℕ} {g : Grid Cell} (h : GridInv lines columns g) :
    Returns g.reset (GridInv lines columns) := by
  obtain ⟨g', rows, hg', hholds, -, -, hlines, hcols, -⟩ := Grid.reset_holds h.wf
  obtain ⟨hcursor, hsaved⟩ := Grid.reset_cursors hg'
  have hcolumns := hholds.wf.columns_pos
  have hpos := hholds.wf.lines_pos
  have horigin : OnScreen g' ⟨0, 0⟩ := ⟨le_refl _, Int.natCast_pos.mpr hpos, hcolumns⟩
  exact ⟨g', hg', hholds.wf, hlines.trans h.lines, hcols.trans h.columns, hcursor ▸ horigin,
    hsaved ▸ horigin⟩

theorem toPrimary_stays (h : t.Inv) : t.Stays t.toPrimary := by
  unfold toPrimary
  split
  · exact h.swapped
  · exact h.keeps.stays

theorem length_tabStops (columns : ℕ) : (tabStops columns).length = columns := by
  unfold tabStops
  rw [List.length_map, List.length_range]

theorem resetState_stays (h : t.Inv) : Returns t.resetState (Stays t) := by
  have hmain := toPrimary_stays h
  have hinv := hmain.inv
  refine (GridInv.reset hinv.grid).bind fun g hg => ?_
  refine (GridInv.reset hinv.inactiveGrid).bind fun g' hg' => .pure ?_
  have hlines := hg.lines
  have hcols := hg.columns
  have hpos := hinv.lines_pos
  have htwo := hinv.two_columns
  have hgrid : GridInv g.lines g.columns g := ⟨hg.wf, rfl, rfl, hg.cursor, hg.savedCursor⟩
  have hinactive : GridInv g.lines g.columns g' := by
    rw [hlines, hcols]
    exact hg'
  refine ⟨⟨hgrid, hinactive, ?_, le_refl 0, Int.natCast_nonneg _, ?_, le_refl _, length_tabStops _, ?_,
    hinv.lastCursor_nonneg, ?_, hinv.colors⟩, hcols.trans hmain.columns, hlines.trans hmain.screenLines⟩
  · show 2 ≤ g.columns
    omega
  · show (0 : ℤ) < g.lines
    omega
  · exact hinv.damage.trans hlines.symm
  · show t.toPrimary.damage.lastCursor.line < (g.lines : ℤ)
    rw [hlines]
    exact hinv.lastCursor_lt

theorem setOptions_stays (h : t.Inv) (config : Config) : Returns (t.setOptions config) (Stays t) := by
  have hconfig : t.Stays { t with config } := ⟨{ h with }, rfl, rfl⟩
  refine Returns.bind (Q := Stays t) ?_ fun m hm => .pure ?_
  · refine .ite (fun _ => ?_) fun _ => ?_
    · refine (GridInv.updateHistory h.inactiveGrid _).bind fun g hg => .pure ?_
      exact ⟨{ h with inactiveGrid := hg }, rfl, rfl⟩
    · refine (GridInv.updateHistory h.grid _).bind fun g hg => .pure ?_
      exact ⟨hconfig.inv.withGrid hg, hg.columns, hg.lines⟩
  · have hinv := hm.inv
    split
    · exact ⟨{ hinv with }, hm.columns, hm.screenLines⟩
    · exact ⟨{ hinv with }, hm.columns, hm.screenLines⟩

/-! ## Any action -/

/-- What the parser promises: it counts the lines of a scrolling region from one, and of the colours it
names only those that there are. -/
def Action.FromParser : Action → Prop
  | .setScrollingRegion top _ => 1 ≤ top
  | .setColor index _ | .resetColor index => index < colorCount
  | _ => True

/-- An action that does not reach the screen that is not shown. -/
def Action.Local : Action → Prop
  | .setPrivateMode .swapScreenAndSetRestoreCursor | .unsetPrivateMode .swapScreenAndSetRestoreCursor
  | .resetState | .setOptions _ => False
  | _ => True

/-- The colours are replaced by as many. -/
theorem withColors_keeps (h : t.Inv) {colors : List (Option Rgb)}
    (hcolors : colors.length = colorCount) : t.Keeps { t with colors } :=
  ⟨{ h with colors := hcolors }, rfl, rfl, rfl, rfl, rfl⟩

theorem putColor_keeps (h : t.Inv) {index : ℕ} (hindex : index < colorCount)
    (color : Option Rgb) : Returns (t.putColor index color) (Keeps t) := by
  have hget (m : Term) (hm : m.Inv) : ∃ current, m.colors[index]? = some current :=
    ⟨_, List.getElem?_eq_getElem (by rw [hm.colors]; exact hindex)⟩
  refine Keeps.bind (.ite (fun _ => ?_) fun _ => .some h.keeps) fun m hm => ?_
  · obtain ⟨current, hcurrent⟩ := hget t h
    rw [hcurrent]
    refine .pure ?_
    split
    · exact (markFullyDamaged_holds h).toKeeps
    · exact h.keeps
  · obtain ⟨current, hcurrent⟩ := hget m hm
    rw [Ring.updateAt_eq_some (f := fun _ => some color) hcurrent rfl]
    exact .pure (withColors_keeps hm ((List.length_set ..).trans hm.colors))

theorem withCursorStyle_keeps (h : t.Inv) (f : CursorStyle → CursorStyle) :
    t.Keeps (t.withCursorStyle f) :=
  ⟨{ h with }, rfl, rfl, rfl, rfl, rfl⟩

theorem reportPrivateMode_keeps (h : t.Inv) (mode : PrivateMode) :
    t.Keeps (t.reportPrivateMode mode) := by
  unfold reportPrivateMode
  split
  · exact withCursorStyle_keeps h id
  · exact h.keeps

theorem setPrivateMode_keeps (h : t.Inv) {mode : PrivateMode}
    (hlocal : (Action.setPrivateMode mode).Local) : Returns (t.setPrivateMode mode) (Keeps t) := by
  cases mode with
  | swapScreenAndSetRestoreCursor => exact hlocal.elim
  | origin =>
    have horigin := withMode_keeps h (f := ({ · with origin := true })) rfl
    exact (goto_keeps horigin.inv 0 0).mono fun _ h' => horigin.trans h'
  | columnMode => exact deccolm_keeps h
  | other => exact .some h.keeps
  | _ => exact .some ⟨{ h with }, rfl, rfl, rfl, rfl, rfl⟩

theorem unsetPrivateMode_keeps (h : t.Inv) {mode : PrivateMode}
    (hlocal : (Action.unsetPrivateMode mode).Local) :
    Returns (t.unsetPrivateMode mode) (Keeps t) := by
  cases mode with
  | swapScreenAndSetRestoreCursor => exact hlocal.elim
  | columnMode => exact deccolm_keeps h
  | other => exact .some h.keeps
  | _ => exact .some ⟨{ h with }, rfl, rfl, rfl, rfl, rfl⟩

/-- An action on the screen that is shown returns, keeps the terminal in order and leaves the other screen
as it is. -/
theorem handle_keeps (h : t.Inv) (hone : a.FromParser) (hroom : ¬t.Overflows a) (hlocal : a.Local) :
    Returns (t.handle tables a) (Keeps t) := by
  cases a with
  -- in the order of the actions: writing and moving
  | input c => exact input_keeps h c
  | decaln => exact decaln_keeps h
  | goto line column => exact goto_keeps h line column
  | gotoLine line => exact goto_keeps h _ _
  | gotoCol column => exact goto_keeps h _ _
  | insertBlank count => exact insertBlank_keeps h count
  | moveUp lines => exact goto_keeps h _ _
  | moveDown lines => exact goto_keeps h _ _
  | moveForward columns => exact moveForward_keeps h columns
  | moveBackward columns => exact moveBackward_keeps h columns
  | moveDownAndCr lines => exact goto_keeps h _ _
  | moveUpAndCr lines => exact goto_keeps h _ _
  | putTab count => exact putTab_keeps h count
  | backspace => exact backspace_keeps h
  | carriageReturn => exact carriageReturn_keeps h
  | linefeed => exact (linefeed_keeps h).mono fun _ h' => h'.1
  | newline => exact newline_keeps h
  | setHorizontalTabstop => exact setTab_keeps h h.onScreen.column_lt true
  -- scrolling, inside the region
  | scrollUp lines =>
    exact (scrollUpRelative_holds h (le_refl _) h.region_le lines).mono fun _ h' => h'.toKeeps
  | scrollDown lines =>
    exact (scrollDownRelative_holds h (le_refl _) h.region_le lines).mono fun _ h' => h'.toKeeps
  | insertBlankLines lines => exact insertBlankLines_keeps h lines
  | deleteLines lines => exact deleteLines_keeps h lines
  -- clearing and the saved cursor
  | eraseChars count => exact eraseChars_keeps h count
  | deleteChars count => exact deleteChars_keeps h count
  | moveBackwardTabs count => exact moveBackwardTabs_keeps h count
  | moveForwardTabs count => exact moveForwardTabs_keeps h count
  | saveCursorPosition => exact .some (saveCursorPosition_keeps h)
  | restoreCursorPosition => exact restoreCursorPosition_keeps h
  | clearLine mode => exact clearLine_keeps h mode
  | clearScreen mode => exact clearScreen_keeps h mode
  | clearTabs mode => exact clearTabs_keeps h mode
  -- a reset clears both screens
  | resetState => exact hlocal.elim
  | reverseIndex => exact reverseIndex_keeps h
  | setHyperlink hyperlink => exact .some (withTemplate_keeps h _)
  | terminalAttribute attr => exact .some (withTemplate_keeps h _)
  -- the modes, of which the swap of the screens is left out
  | setPrivateMode mode => exact setPrivateMode_keeps h hlocal
  | unsetPrivateMode mode => exact unsetPrivateMode_keeps h hlocal
  | setMode mode => exact .some (setMode_keeps h mode)
  | unsetMode mode => exact .some (unsetMode_keeps h mode)
  | setScrollingRegion top bottom => exact setScrollingRegion_keeps h hone bottom
  | setKeypadApplicationMode active =>
    exact .some (withMode_keeps h (f := ({ · with appKeypad := active })) rfl)
  -- what touches neither the lines nor the region
  | configureCharset index charset =>
    exact .some (withCursor_keeps h
      ⟨h.onScreen.line_nonneg, h.onScreen.line_lt, h.onScreen.column_lt⟩)
  | pushKeyboardMode mode => exact pushKeyboardMode_keeps h hroom
  | popKeyboardModes count => exact .some (popKeyboardModes_keeps h count)
  | setKeyboardMode mode apply => exact .some (setKeyboardMode_keeps h mode apply)
  -- new options change the scrollback of either screen
  | setOptions config => exact hlocal.elim
  | popTitle => exact .some (popTitle_keeps h)
  | takeDamage => exact takeDamage_keeps h
  | resetDamage => exact .some (resetDamage_keeps h)
  | scrollDisplay scroll => exact .some (scrollDisplay_keeps h scroll)
  | setActiveCharset index => exact .some ⟨{ h with }, rfl, rfl, rfl, rfl, rfl⟩
  | setColor index color => exact putColor_keeps h hone _
  | resetColor index => exact putColor_keeps h hone _
  | setCursorStyle style => exact .some ⟨{ h with }, rfl, rfl, rfl, rfl, rfl⟩
  | setCursorShape shape => exact .some (withCursorStyle_keeps h _)
  | reportPrivateMode mode => exact .some (reportPrivateMode_keeps h mode)
  | sendEvent => exact .some h.keeps
  | setTitle title => exact .some ⟨{ h with }, rfl, rfl, rfl, rfl, rfl⟩
  | pushTitle => exact .some ⟨{ h with }, rfl, rfl, rfl, rfl, rfl⟩

/-- An action returns and keeps the terminal in order. -/
theorem handle_stays (h : t.Inv) (hone : a.FromParser) (hroom : ¬t.Overflows a) :
    Returns (t.handle tables a) (Stays t) := by
  by_cases hlocal : a.Local
  · exact (handle_keeps h hone hroom hlocal).mono fun _ h' => h'.stays
  · -- what is left reaches both screens
    cases a with
    | resetState => exact resetState_stays h
    | setOptions config => exact setOptions_stays h config
    | setPrivateMode mode =>
      cases mode with
      | swapScreenAndSetRestoreCursor =>
        exact .ite (fun _ => swapAlt_stays h) fun _ => .some h.keeps.stays
      | _ => exact absurd trivial hlocal
    | unsetPrivateMode mode =>
      cases mode with
      | swapScreenAndSetRestoreCursor =>
        exact .ite (fun _ => swapAlt_stays h) fun _ => .some h.keeps.stays
      | _ => exact absurd trivial hlocal
    | _ => exact absurd trivial hlocal

/-! ## Runs -/

/-- A new terminal is in order. -/
theorem new_inv (config : Config) {columns lines : ℕ} (hcols : 2 ≤ columns) (hlines : 0 < lines) :
    Returns (new config columns lines) fun t =>
      t.Inv ∧ t.columns = columns ∧ t.screenLines = lines := by
  have hnew (limit : ℕ) : Returns (Grid.new lines columns limit) (GridInv lines columns) := by
    obtain ⟨g, hg, hwf, hview⟩ :=
      Grid.new_view (T := Cell) limit hlines (show 0 < columns by omega)
    have hlines' : g.lines = lines := congrArg Grid.View.lines hview
    have hcols' : g.columns = columns := congrArg Grid.View.columns hview
    have horigin : OnScreen g ⟨0, 0⟩ := by
      refine ⟨le_refl _, ?_, ?_⟩
      · show (0 : ℤ) < g.lines
        omega
      · show 0 < g.columns
        omega
    refine ⟨g, hg, hwf, hlines', hcols', ?_, ?_⟩
    · rw [Grid.new_cursors hg |>.1]
      exact horigin
    · rw [Grid.new_cursors hg |>.2]
      exact horigin
  refine (hnew config.scrollingHistory).bind fun g hg => (hnew 0).bind fun g' hg' => .pure ?_
  have hlines' := hg.lines
  have hcols' := hg.columns
  subst hlines' hcols'
  refine ⟨⟨⟨hg.wf, rfl, rfl, hg.cursor, hg.savedCursor⟩, hg', hcols, le_refl 0, ?_, ?_, le_refl _, ?_, ?_,
    le_refl 0, ?_, List.length_replicate⟩, rfl, rfl⟩
  · exact Int.natCast_nonneg _
  · exact Int.natCast_pos.mpr hlines
  · exact length_tabStops _
  · exact List.length_replicate
  · exact Int.natCast_pos.mpr hlines

theorem handle_of_overflows (hover : t.Overflows a) : t.handle tables a = none := by
  cases a with
  | pushKeyboardMode mode => exact pushKeyboardMode_of_overflows hover
  | _ => exact hover.elim

/-- A run stops at a push that overflows, or nowhere. -/
theorem run_cases (tables : Tables) (h : t.Inv) (hone : ∀ a ∈ actions, a.FromParser) :
    (∃ t', actions.foldlM (handle tables) t = some t' ∧ t.Stays t') ∨
      actions.foldlM (handle tables) t = none ∧ ∃ before a after m,
        actions = before ++ a :: after ∧ before.foldlM (handle tables) t = some m ∧ m.Overflows a := by
  induction actions generalizing t with
  | nil => exact .inl ⟨t, rfl, h.keeps.stays⟩
  | cons a rest ih =>
    rw [List.foldlM_cons]
    -- a push that overflows stops the run here; any other action returns
    by_cases hover : t.Overflows a
    · rw [handle_of_overflows hover]
      exact .inr ⟨rfl, [], a, rest, t, rfl, rfl, hover⟩
    · obtain ⟨m, hm, hstays⟩ : Returns (t.handle tables a) (Stays t) :=
        handle_stays h (hone a List.mem_cons_self) hover
      rw [hm, Option.bind_eq_bind, Option.bind_some]
      obtain ⟨t', ht', hstays'⟩ | ⟨hnone, before, b, after, d, rfl, hd, hover'⟩ :=
        ih hstays.inv fun b hb => hone b (List.mem_cons_of_mem _ hb)
      · exact .inl ⟨t', ht', hstays.trans hstays'⟩
      · refine .inr ⟨hnone, a :: before, b, after, d, rfl, ?_, hover'⟩
        rw [List.foldlM_cons, hm]
        exact hd

/-- Of all that can be asked of a terminal of two columns or more, only a push of a keyboard mode can make
it panic, and only on a full stack when there is no title to take off. -/
theorem panics_iff (config : Config) {columns lines : ℕ} (hcols : 2 ≤ columns) (hlines : 0 < lines)
    (hone : ∀ a ∈ actions, a.FromParser) :
    ∃ t, new config columns lines = some t ∧
      (actions.foldlM (handle tables) t = none ↔ ∃ before a after m,
        actions = before ++ a :: after ∧ before.foldlM (handle tables) t = some m ∧ m.Overflows a) := by
  obtain ⟨t, ht, hinv, -⟩ := new_inv config hcols hlines
  refine ⟨t, ht, fun hnone => ?_, ?_⟩
  · obtain ⟨t', ht', -⟩ | ⟨-, hstop⟩ := run_cases tables hinv hone
    · rw [ht'] at hnone
      cases hnone
    · exact hstop
  · rintro ⟨before, a, after, m, rfl, hm, hover⟩
    rw [List.foldlM_append, hm, Option.bind_eq_bind, Option.bind_some, List.foldlM_cons,
      handle_of_overflows hover]
    rfl

/-- A push on a stack that is not full adds a mode and leaves the titles. -/
theorem pushKeyboardMode_room {mode : KeyboardModes} (hkitty : t.config.kittyKeyboard = true)
    (hroom : t.keyboardModeStack.length < keyboardModeStackMaxDepth) :
    ∃ m, t.pushKeyboardMode mode = some m ∧ m.config = t.config ∧ m.titleStack = t.titleStack ∧
      m.keyboardModeStack.length = t.keyboardModeStack.length + 1 := by
  unfold pushKeyboardMode
  rw [hkitty, if_neg hroom.not_ge]
  refine ⟨_, rfl, rfl, rfl, ?_⟩
  exact List.length_append

/-- Pushes fill the stack one by one. -/
theorem pushes_room {mode : KeyboardModes} {n : ℕ} (hkitty : t.config.kittyKeyboard = true)
    (hroom : t.keyboardModeStack.length + n ≤ keyboardModeStackMaxDepth) :
    ∃ m, (List.replicate n (.pushKeyboardMode mode)).foldlM (handle tables) t = some m ∧
      m.config = t.config ∧ m.titleStack = t.titleStack ∧
      m.keyboardModeStack.length = t.keyboardModeStack.length + n := by
  induction n generalizing t with
  | zero => exact ⟨t, rfl, rfl, rfl, rfl⟩
  | succ n ih =>
    obtain ⟨m, hm, hconfig, htitles, hlength⟩ :=
      pushKeyboardMode_room (t := t) hkitty (by omega)
    obtain ⟨m', hm', hconfig', htitles', hlength'⟩ :=
      ih (t := m) (hconfig ▸ hkitty) (by omega)
    refine ⟨m', ?_, hconfig'.trans hconfig, htitles'.trans htitles, by omega⟩
    rw [List.replicate_succ, List.foldlM_cons,
      show t.handle tables (.pushKeyboardMode mode) = some m from hm]
    exact hm'

/-- Pushes of a keyboard mode, one more than the stack holds. -/
def manyPushes : List Action :=
  List.replicate keyboardModeStackMaxDepth (.pushKeyboardMode {}) ++ [.pushKeyboardMode {}]

/-- A program pushes one keyboard mode more than the stack holds, and no title. -/
theorem panics_iff_push :
    ∃ t, new ⟨0, true, {}⟩ 2 1 = some t ∧
      manyPushes.foldlM (handle ⟨fun _ => some 1, fun _ c => c⟩) t = none := by
  let tables : Tables := ⟨fun _ => some 1, fun _ c => c⟩
  have hone : ∀ a ∈ manyPushes, Action.FromParser a := by
    intro a ha
    rcases List.mem_append.mp ha with ha | ha
    · rw [List.eq_of_mem_replicate ha]
      trivial
    · rw [List.mem_singleton.mp ha]
      trivial
  obtain ⟨t, hnew, hiff⟩ := @panics_iff tables _ ⟨0, true, {}⟩ 2 1 (by decide) (by decide) hone
  obtain ⟨hconfig, htitles, hstack⟩ : t.config.kittyKeyboard = true ∧ t.titleStack = [] ∧
      t.keyboardModeStack = [] := by
    have hempty : ((new ⟨0, true, {}⟩ 2 1).map fun t =>
        (t.config.kittyKeyboard, t.titleStack, t.keyboardModeStack)) = some (true, [], []) := rfl
    rw [hnew, Option.map_some, Option.some.injEq, Prod.mk.injEq, Prod.mk.injEq] at hempty
    exact hempty
  -- the last push finds the stack full and no title to take off
  have hroom : t.keyboardModeStack.length + keyboardModeStackMaxDepth ≤ keyboardModeStackMaxDepth := by
    rw [hstack, List.length_nil, Nat.zero_add]
  obtain ⟨m, hm, hconfig', htitles', hlength⟩ := @pushes_room tables t {} _ hconfig hroom
  refine ⟨t, hnew, hiff.mpr ⟨_, _, [], m, rfl, hm, ?_⟩⟩
  rw [hstack, List.length_nil, Nat.zero_add] at hlength
  exact ⟨hconfig' ▸ hconfig, hlength.ge, htitles'.trans htitles⟩

/-- A run that does not panic keeps the terminal in order. -/
theorem run_stays (h : t.Inv) (hone : ∀ a ∈ actions, a.FromParser)
    (hrun : actions.foldlM (handle tables) t = some t') : t.Stays t' := by
  obtain ⟨u, hu, hstays⟩ | ⟨hnone, -⟩ := run_cases tables h hone
  · obtain rfl := Option.some.inj (hu.symm.trans hrun)
    exact hstays
  · rw [hrun] at hnone
    cases hnone

/-- Whatever is asked of a terminal, as long as it does not panic it stays in order: the cursors are on the
screen, the scrolling region is a range of its lines, and its size is that of both grids. -/
theorem stays_in_order (config : Config) {columns lines : ℕ} (hcols : 2 ≤ columns) (hlines : 0 < lines)
    (hone : ∀ a ∈ actions, a.FromParser) (hnew : new config columns lines = some t)
    (hrun : actions.foldlM (handle tables) t = some t') :
    t'.Inv ∧ t'.columns = columns ∧ t'.screenLines = lines := by
  obtain ⟨t, ht, hinv, rfl, rfl⟩ := new_inv config hcols hlines
  obtain rfl := Option.some.inj (ht.symm.trans hnew)
  have hstays := run_stays hinv hone hrun
  exact ⟨hstays.inv, hstays.columns, hstays.screenLines⟩

/-- A line is filled and wraps, in a region set from the first line on. -/
theorem stays_in_order_wrap :
    ∃ t t' : Term, new ⟨0, false, {}⟩ 2 2 = some t ∧
      [.setScrollingRegion 1 none, .input 'a', .input 'b', .input 'c'].foldlM
        (handle ⟨fun _ => some 1, fun _ c => c⟩) t = some t' ∧
      t'.Inv ∧ t'.columns = 2 ∧ t'.screenLines = 2 := by
  have hone : ∀ a ∈ [.setScrollingRegion 1 none, .input 'a', .input 'b', .input 'c'],
      Action.FromParser a := by
    simp [Action.FromParser]
  have hsome : ((new ⟨0, false, {}⟩ 2 2).bind
      ([.setScrollingRegion 1 none, .input 'a', .input 'b', .input 'c'].foldlM
        (handle ⟨fun _ => some 1, fun _ c => c⟩))).isSome := by
    decide
  obtain ⟨t', ht'⟩ := Option.isSome_iff_exists.mp hsome
  obtain ⟨t, hnew, hrun⟩ := Option.bind_eq_some_iff.mp ht'
  exact ⟨t, t', hnew, hrun, stays_in_order _ (by decide) (by decide) hone hnew hrun⟩

/-- A run on the screen that is shown leaves the other. -/
theorem run_keeps (h : t.Inv) (hone : ∀ a ∈ actions, a.FromParser) (hlocal : ∀ a ∈ actions, a.Local)
    (hrun : actions.foldlM (handle tables) t = some t') : t.Keeps t' := by
  induction actions generalizing t with
  | nil =>
    obtain rfl := Option.some.inj hrun
    exact h.keeps
  | cons a rest ih =>
    rw [List.foldlM_cons, Option.bind_eq_bind, Option.bind_eq_some_iff] at hrun
    obtain ⟨m, hm, hrest⟩ := hrun
    -- an action that returned did not overflow
    have hroom : ¬t.Overflows a := fun hover => by
      rw [handle_of_overflows hover] at hm
      cases hm
    obtain ⟨m', hm', hkeeps⟩ : Returns (t.handle tables a) (Keeps t) :=
      handle_keeps h (hone a List.mem_cons_self) hroom (hlocal a List.mem_cons_self)
    obtain rfl := Option.some.inj (hm.symm.trans hm')
    exact hkeeps.trans (ih hkeeps.inv (fun b hb => hone b (List.mem_cons_of_mem _ hb))
      (fun b hb => hlocal b (List.mem_cons_of_mem _ hb)) hrest)

/-- What a program does between entering the alternate screen and leaving it is not seen on the primary
screen: its lines, its history, its place in the history and its cursor are as they were. -/
theorem alt_screen_isolated (config : Config) {columns lines : ℕ} (hcols : 2 ≤ columns)
    (hlines : 0 < lines) {before during : List Action} (hone : ∀ a ∈ before ++ during, a.FromParser)
    (hlocal : ∀ a ∈ during, a.Local) {u : Term} (hnew : new config columns lines = some t)
    (hbefore : before.foldlM (handle tables) t = some m) (hmain : m.mode.altScreen = false)
    (hduring : (.setPrivateMode .swapScreenAndSetRestoreCursor :: during).foldlM (handle tables) m =
      some u) :
    Returns (u.handle tables (.unsetPrivateMode .swapScreenAndSetRestoreCursor)) fun t' =>
      t'.mode.altScreen = false ∧ t'.grid = { m.grid with savedCursor := m.grid.cursor } := by
  obtain ⟨t₀, hnew', hinv₀, -⟩ := new_inv config hcols hlines
  obtain rfl := Option.some.inj (hnew'.symm.trans hnew)
  have hinv := (run_stays hinv₀ (fun a ha => hone a (List.mem_append_left _ ha)) hbefore).inv
  obtain ⟨d, hd, hstays, halt, hkept⟩ := swapAlt_enter hinv hmain
  have henter : m.handle tables (.setPrivateMode .swapScreenAndSetRestoreCursor) = some d := by
    show (if !m.mode.altScreen then m.swapAlt else some m) = some d
    rw [hmain]
    exact hd
  rw [List.foldlM_cons, henter, Option.bind_eq_bind, Option.bind_some] at hduring
  have hkeeps := run_keeps hstays.inv (fun a ha => hone a (List.mem_append_right _ ha)) hlocal hduring
  have halt' := hkeeps.altScreen.trans halt
  show Returns (if u.mode.altScreen then u.swapAlt else some u) _
  rw [if_pos halt']
  refine (swapAlt_leave hkeeps.inv halt').mono fun t' h' => ⟨h'.2.1, ?_⟩
  rw [h'.2.2, hkeeps.inactiveGrid, hkept]

/-- A character on the primary screen is there after a program has cleared the alternate one and written
to it. -/
theorem alt_screen_isolated_clear :
    ∃ t m u : Term, new ⟨0, false, {}⟩ 2 1 = some t ∧
      [.input 'a'].foldlM (handle ⟨fun _ => some 1, fun _ c => c⟩) t = some m ∧
      [.setPrivateMode .swapScreenAndSetRestoreCursor, .clearScreen .all, .input 'b'].foldlM
        (handle ⟨fun _ => some 1, fun _ c => c⟩) m = some u ∧
      Returns (u.handle ⟨fun _ => some 1, fun _ c => c⟩
        (.unsetPrivateMode .swapScreenAndSetRestoreCursor)) fun t' =>
          t'.mode.altScreen = false ∧ t'.grid = { m.grid with savedCursor := m.grid.cursor } := by
  have hone : ∀ a ∈ [.input 'a'] ++ [.clearScreen .all, .input 'b'], Action.FromParser a := by
    simp [Action.FromParser]
  have hlocal : ∀ a ∈ [.clearScreen .all, .input 'b'], Action.Local a := by
    simp [Action.Local]
  have hmain : ((new ⟨0, false, {}⟩ 2 1).bind ([.input 'a'].foldlM
      (handle ⟨fun _ => some 1, fun _ c => c⟩))).map (·.mode.altScreen) = some false := by
    decide
  have hsome : (((new ⟨0, false, {}⟩ 2 1).bind ([.input 'a'].foldlM
      (handle ⟨fun _ => some 1, fun _ c => c⟩))).bind
      ([.setPrivateMode .swapScreenAndSetRestoreCursor, .clearScreen .all, .input 'b'].foldlM
        (handle ⟨fun _ => some 1, fun _ c => c⟩))).isSome := by
    decide
  obtain ⟨u, hu⟩ := Option.isSome_iff_exists.mp hsome
  obtain ⟨m, hm, hduring⟩ := Option.bind_eq_some_iff.mp hu
  obtain ⟨t, hnew, hbefore⟩ := Option.bind_eq_some_iff.mp hm
  rw [hm, Option.map_some, Option.some.injEq] at hmain
  exact ⟨t, m, u, hnew, hbefore, hduring,
    alt_screen_isolated _ (by decide) (by decide) hone hlocal hnew hbefore hmain hduring⟩

end Termua.Term
