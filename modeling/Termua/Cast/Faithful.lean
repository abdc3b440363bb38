import Mathlib
import Termua.Lib.Vt.Sound
import Termua.Cast.Repaint

/-!
# Which screens a repaint reproduces

`serialize_terminal_screen_ansi` prints the character of every cell and trusts that this moves the cursor
over the columns of the cell. The grid of alacritty also holds what moves the cursor otherwise: `put_tab`
of `alacritty_terminal/src/term/mod.rs` leaves a tab in the cell it starts from, which `map_cell` of
`backends/alacritty/mod.rs` passes on, and edits can cut a wide character from its spacer. A blank
terminal shows the screen exactly when its rows hold neither (`faithful_iff`).
-/

namespace Termua.Cast

open Vt (Action Parses Screen Slot Terminal)

variable {width : Char → ℕ} {screen : TerminalScreen}

/-! ## What the grid holds -/

/-- `put_tab` for one tab: the row and the column of the cursor. -/
def putTab (stops : ℕ → Bool) (row : List Cell) (column : ℕ) : List Cell × ℕ :=
  (row.modify column fun cell => if cell.c = ' ' then { cell with c := '\t' } else cell,
    ((List.range' (column + 1) (row.length - 1 - column)).find? stops).getD (row.length - 1))

/-- `map_cell`, between cells of one type. -/
def mapCell (cell : Cell) : Cell := if cell.c = '\x00' then { cell with c := ' ' } else cell

/-- What a cell can hold: a character of one or two columns, or a tab, with zero-width characters. -/
structure Cell.Storable (width : Char → ℕ) (cell : Cell) : Prop where
  char : cell.c = '\t' ∨ Vt.isControl cell.c = false ∧ (width cell.c = 1 ∨ width cell.c = 2)
  marks : ∀ c ∈ cell.zerowidth, Vt.isControl c = false ∧ width c = 0

/-- The cells of a screen are what the grid can hold, and one column has no room for a wide
character. -/
structure TerminalScreen.Storable (width : Char → ℕ) (screen : TerminalScreen) : Prop where
  cells : ∀ cell ∈ screen.cells, cell.Storable width
  room : ∀ cell ∈ screen.cells, cell.c ≠ '\t' → width cell.c = 2 → 2 ≤ screen.columns

/-- A tab leaves what the grid can hold. -/
theorem putTab_storable {stops : ℕ → Bool} {row : List Cell} (column : ℕ)
    (hrow : ∀ cell ∈ row, cell.Storable width) :
    ∀ cell ∈ (putTab stops row column).1, cell.Storable width := by
  intro cell hcell
  obtain ⟨i, hi⟩ := List.mem_iff_getElem?.mp hcell
  unfold putTab at hi
  rw [List.getElem?_modify, Option.map_eq_map, Option.map_eq_some_iff] at hi
  obtain ⟨old, hold, rfl⟩ := hi
  have hstorable := hrow old (List.mem_of_getElem? hold)
  split_ifs with hcolumn hblank
  · exact ⟨.inl rfl, hstorable.marks⟩
  · exact hstorable
  · exact hstorable

/-- `map_cell` makes a blank of the character of an empty cell. -/
theorem mapCell_storable {cell : Cell} (hblank : width ' ' = 1)
    (hcell : cell.c ≠ '\x00' → cell.Storable width)
    (hmarks : ∀ c ∈ cell.zerowidth, Vt.isControl c = false ∧ width c = 0) :
    (mapCell cell).Storable width := by
  unfold mapCell
  split_ifs with hempty
  · exact ⟨.inr ⟨Screen.isControl_space, .inl hblank⟩, hmarks⟩
  · exact hcell hempty

/-- A captured screen has cells of the content and blanks. -/
theorem mem_captureCells {displayOffset columns rows : ℕ} {cells : List IndexedCell} {cell : Cell}
    (h : cell ∈ captureCells displayOffset columns rows cells) :
    cell = {} ∨ ∃ indexed ∈ cells, indexed.cell = cell := by
  unfold captureCells at h
  induction cells using List.reverseRecOn generalizing cell with
  | nil => exact .inl (List.eq_of_mem_replicate h)
  | append_singleton cells last ih =>
    rw [List.foldl_append, List.foldl_cons, List.foldl_nil, captureCell] at h
    have hold : ∀ {other : Cell}, other ∈ cells.foldl (captureCell displayOffset columns rows)
        (List.replicate (columns * rows) {}) →
          other = {} ∨ ∃ indexed ∈ cells ++ [last], indexed.cell = other := by
      intro other hother
      refine (ih hother).imp_right ?_
      rintro ⟨indexed, hindexed, rfl⟩
      exact ⟨indexed, List.mem_append_left _ hindexed, rfl⟩
    split at h
    · rcases List.mem_or_eq_of_mem_set h with hmem | rfl
      · exact hold hmem
      · exact .inr ⟨last, List.mem_append_right _ (List.mem_singleton_self last), rfl⟩
    · exact hold h

/-- What is captured of cells that the grid can hold is what the grid can hold. -/
theorem captureTerminalScreen_storable {content : TerminalContent} (hblank : width ' ' = 1)
    (hcells : ∀ indexed ∈ content.cells, indexed.cell.Storable width) :
    ∀ cell ∈ (captureTerminalScreen content).cells, cell.Storable width := by
  intro cell hcell
  rcases mem_captureCells hcell with rfl | ⟨indexed, hindexed, rfl⟩
  · exact ⟨.inr ⟨Screen.isControl_space, .inl hblank⟩, nofun⟩
  · exact hcells indexed hindexed

/-! ## What a blank terminal shows -/

/-- A slot shows a cell: its character, zero-width characters, colours and styles, or the right half of a
wide character in the colours and styles of the cell. -/
def CellShown (width : Char → ℕ) (slot : Slot) (cell : Cell) : Prop :=
  if cell.flags.wideCharSpacer then slot = .spacer (CellStyle.ofCell cell).pen
  else slot = .glyph (cell.glyph width)

/-- A blank terminal of the screen's dimensions shows every cell in its column. -/
def Faithful (width : Char → ℕ) (screen : TerminalScreen) : Prop :=
  ∀ row < screen.rows, ∀ (column : ℕ) (cell : Cell), (screen.row row)[column]? = some cell →
    CellShown width
      (((Terminal.new screen.columns screen.rows).interpret width
        (serializeTerminalScreenAnsi screen)).screen.cell row column) cell

/-- A row without tabs, in which every wide character is followed by its spacer, in the same colours and
styles, and there is no other spacer. -/
inductive RowWhole (width : Char → ℕ) : List Cell → Prop
  | nil : RowWhole width []
  | narrow {cell : Cell} {cells : List Cell} (htab : cell.c ≠ '\t') (hwidth : width cell.c ≠ 2)
      (hcell : cell.flags.wideCharSpacer = false) (hcells : RowWhole width cells) :
      RowWhole width (cell :: cells)
  | wide {cell spacer : Cell} {cells : List Cell} (htab : cell.c ≠ '\t') (hwidth : width cell.c = 2)
      (hcell : cell.flags.wideCharSpacer = false) (hspacer : spacer.flags.wideCharSpacer = true)
      (hstyle : (CellStyle.ofCell spacer).pen = (CellStyle.ofCell cell).pen)
      (hcells : RowWhole width cells) : RowWhole width (cell :: spacer :: cells)

/-! ## Whole rows are shown -/

theorem RowWhole.printable {cells : List Cell} (h : RowWhole width cells)
    (hcells : ∀ cell ∈ cells, cell.Storable width) : RowPrintable width cells := by
  have hprints : ∀ (cell : Cell), cell.Storable width → cell.c ≠ '\t' →
      cell.flags.wideCharSpacer = false →
        Vt.isControl cell.c = false ∧ (width cell.c = 1 ∨ width cell.c = 2) :=
    fun cell hstorable htab _ => hstorable.char.resolve_left htab
  induction h with
  | nil => exact .nil
  | @narrow cell cells htab hwidth hcell _ ih =>
    obtain ⟨hstorable, hrest⟩ := List.forall_mem_cons.mp hcells
    obtain ⟨hchar, hcolumns⟩ := hprints cell hstorable htab hcell
    exact .narrow ⟨hchar, hcolumns.resolve_right hwidth, hstorable.marks, hcell⟩ (ih hrest)
  | @wide cell spacer cells htab hwidth hcell hspacer _ _ ih =>
    obtain ⟨hstorable, hrest⟩ := List.forall_mem_cons.mp hcells
    obtain ⟨hchar, -⟩ := hprints cell hstorable htab hcell
    exact .wide ⟨hchar, hwidth, hstorable.marks, hcell⟩ hspacer
      (ih (List.forall_mem_cons.mp hrest).2)

/-- The slots of a whole row show its cells. -/
theorem RowWhole.shown {cells : List Cell} (h : RowWhole width cells) :
    ∀ (column : ℕ) (cell : Cell), cells[column]? = some cell →
      ∃ slot, (rowSlots width cells)[column]? = some slot ∧ CellShown width slot cell := by
  induction h with
  | nil => intro column cell hcell; cases hcell
  | @narrow first cells _ hwidth hfirst _ ih =>
    have hslots : rowSlots width (first :: cells) =
        .glyph (first.glyph width) :: rowSlots width cells := by
      simp [rowSlots, hfirst, Vt.Glyph.slots, Cell.glyph, hwidth]
    rw [hslots]
    intro column cell hcell
    cases column with
    | zero =>
      cases hcell
      exact ⟨_, rfl, by rw [CellShown, hfirst]; rfl⟩
    | succ column => exact ih column cell hcell
  | @wide first spacer cells _ hwidth hfirst hspacer hstyle _ ih =>
    have hslots : rowSlots width (first :: spacer :: cells) =
        .glyph (first.glyph width) :: .spacer (CellStyle.ofCell spacer).pen ::
          rowSlots width cells := by
      simp [rowSlots, hfirst, hspacer, hstyle, Vt.Glyph.slots, Cell.glyph, hwidth]
    rw [hslots]
    intro column cell hcell
    rcases column with _ | _ | column
    · cases hcell
      exact ⟨_, rfl, by rw [CellShown, hfirst]; rfl⟩
    · cases hcell
      exact ⟨_, rfl, by rw [CellShown, hspacer]; rfl⟩
    · exact ih column cell hcell

/-! ## The text of a storable screen -/

/-- A text of mild actions. -/
def MildText (width : Char → ℕ) (columns : ℕ) (text : List Char) : Prop :=
  ∃ actions, Parses text actions ∧ ∀ a ∈ actions, Screen.Mild width columns a

variable {columns : ℕ} {text text' : List Char}

theorem MildText.nil : MildText width columns [] := ⟨[], .nil, by simp⟩

theorem MildText.append (h : MildText width columns text) (h' : MildText width columns text') :
    MildText width columns (text ++ text') := by
  obtain ⟨actions, hparses, hmild⟩ := h
  obtain ⟨actions', hparses', hmild'⟩ := h'
  refine ⟨actions ++ actions', hparses.append hparses', fun a ha => ?_⟩
  exact (List.mem_append.mp ha).elim (hmild a) (hmild' a)

theorem MildText.single {a : Action} (hparses : Parses text [a])
    (hmild : Screen.Mild width columns a) : MildText width columns text :=
  ⟨[a], hparses, fun _ hb => List.mem_singleton.mp hb ▸ hmild⟩

theorem mildText_marks {marks : List Char}
    (h : ∀ c ∈ marks, Vt.isControl c = false ∧ width c = 0) : MildText width columns marks := by
  refine ⟨marks.map .print, Vt.parses_map_print fun c hc => (h c hc).1, fun a ha => ?_⟩
  obtain ⟨c, hc, rfl⟩ := List.mem_map.mp ha
  obtain ⟨hcontrol, hwidth⟩ := h c hc
  exact ⟨hcontrol, fun hwide => by omega⟩

/-- The character of a cell is printed, and a tab moves the cursor. -/
theorem mildText_char {cell : Cell} (h : cell.Storable width)
    (hroom : cell.c ≠ '\t' → width cell.c = 2 → 2 ≤ columns) : MildText width columns [cell.c] := by
  by_cases htab : cell.c = '\t'
  · rw [htab]
    exact .single (a := .execute '\t') rfl trivial
  · obtain ⟨hcontrol, hwidth⟩ := h.char.resolve_left htab
    refine .single (Vt.parses_print hcontrol) ⟨hcontrol, fun hwide => hroom htab ?_⟩
    omega

theorem mildText_serializeCells {cells : List Cell} (h : ∀ cell ∈ cells, cell.Storable width)
    (hroom : ∀ cell ∈ cells, cell.c ≠ '\t' → width cell.c = 2 → 2 ≤ columns) :
    ∀ activeStyle, MildText width columns (serializeCells activeStyle cells) := by
  induction cells with
  | nil => exact fun _ => .nil
  | cons cell cells ih =>
    intro activeStyle
    obtain ⟨hcell, hrest⟩ := List.forall_mem_cons.mp h
    obtain ⟨hroomCell, hroomRest⟩ := List.forall_mem_cons.mp hroom
    unfold serializeCells
    split
    · exact ih hrest hroomRest _
    · have hstyle : MildText width columns
          (if activeStyle ≠ some (CellStyle.ofCell cell) then writeStyle (CellStyle.ofCell cell)
            else []) := by
        split
        · exact .single (parses_writeStyle _) fun hfinal => absurd hfinal (by decide)
        · exact .nil
      refine (hstyle.append ?_).append (ih hrest hroomRest _)
      exact (mildText_char hcell hroomCell).append (mildText_marks hcell.marks)

theorem mildText_moveCursor (row column : ℕ) : MildText width columns (moveCursor row column) :=
  .single (parses_moveCursor row column) fun hfinal => absurd hfinal (by decide)

theorem mildText_serializeScreenCursor (screen : TerminalScreen) :
    MildText width columns (serializeScreenCursor screen) := by
  refine ⟨_, parses_serializeScreenCursor screen, ?_⟩
  unfold cursorActions
  rw [List.forall_mem_cons, List.forall_mem_singleton]
  refine ⟨fun hfinal => ?_, fun hfinal => absurd hfinal (by decide)⟩
  split_ifs at hfinal
  · exact absurd hfinal (by decide)
  · exact absurd hfinal (by decide)

/-- The cells of a row are cells of the screen. -/
theorem TerminalScreen.mem_of_mem_row {row : ℕ} {cell : Cell} (h : cell ∈ screen.row row) :
    cell ∈ screen.cells :=
  List.mem_of_mem_drop (List.mem_of_mem_take h)

theorem mildText_serializeTerminalScreenAnsi (h : screen.Storable width) :
    MildText width screen.columns (serializeTerminalScreenAnsi screen) := by
  have herase : MildText width screen.columns ['\x1b', '[', '2', 'J', '\x1b', '[', 'H'] := by
    refine ⟨[.csi false [[2]] 'J', .csi false [[0]] 'H'], rfl, ?_⟩
    rw [List.forall_mem_cons, List.forall_mem_singleton]
    exact ⟨fun _ => rfl, fun hfinal => absurd hfinal (by decide)⟩
  have hrows : ∀ rows : List ℕ, MildText width screen.columns
      (rows.flatMap fun row => moveCursor (row + 1) 1 ++ serializeScreenRow screen row) := by
    intro rows
    induction rows with
    | nil => exact .nil
    | cons row rows ih =>
      rw [List.flatMap_cons]
      refine ((mildText_moveCursor _ _).append ?_).append ih
      exact mildText_serializeCells (fun cell hcell => h.cells cell (screen.mem_of_mem_row hcell))
        (fun cell hcell => h.room cell (screen.mem_of_mem_row hcell)) none
  exact (herase.append (hrows _)).append (mildText_serializeScreenCursor screen)

/-- What a blank terminal shows of a storable screen holds no control character and no half of a wide
character. -/
theorem sound_interpret (h : screen.Storable width) :
    (((Terminal.new screen.columns screen.rows).interpret width
      (serializeTerminalScreenAnsi screen)).screen).Sound := by
  obtain ⟨actions, hparses, hmild⟩ := mildText_serializeTerminalScreenAnsi h
  have hrun : (Terminal.new screen.columns screen.rows).interpret width
      (serializeTerminalScreenAnsi screen) = _ := Terminal.interpret_of_parses width hparses _
  rw [hrun]
  exact (Screen.Sound.new screen.columns screen.rows).foldl_perform screen.columns_pos hmild

/-! ## Only whole rows are shown -/

/-- A sound row that shows cells from a column on that is no right half shows a whole row. -/
theorem rowWhole_of_shown {s : Screen} (hs : s.Sound) (row : ℕ) : ∀ (cells : List Cell) (offset : ℕ),
    offset + cells.length = s.columns →
    (∀ (i : ℕ) (cell : Cell), cells[i]? = some cell → CellShown width (s.cell row (offset + i)) cell) →
    (∀ pen, s.cell row offset ≠ .spacer pen) → RowWhole width cells
  | [], _, _, _, _ => .nil
  | cell :: rest, offset, hlength, hshown, hstart => by
    have hcell : cell.flags.wideCharSpacer = false := by
      by_contra hspacer
      have hslot := hshown 0 cell rfl
      rw [CellShown, if_pos (by simpa using hspacer)] at hslot
      exact hstart _ hslot
    have hslot : s.cell row offset = .glyph (cell.glyph width) := by
      have hslot := hshown 0 cell rfl
      rwa [CellShown, hcell] at hslot
    -- a tab is a control character, which no cell of a sound screen holds
    have htab : cell.c ≠ '\t' := by
      intro htab
      have hcontrol : Vt.isControl cell.c = false := hs.char row offset _ hslot
      rw [htab] at hcontrol
      exact absurd hcontrol (by decide)
    by_cases hwidth : width cell.c = 2
    · -- the slot behind is the right half, so the next cell is its spacer
      obtain ⟨hright, hinside⟩ := hs.wide row offset _ hslot (decide_eq_true hwidth)
      match rest, hlength, hshown with
      | [], hlength, _ =>
        rw [List.length_singleton] at hlength
        omega
      | next :: rest, hlength, hshown =>
        have hnext := hshown 1 next rfl
        rw [CellShown, hright] at hnext
        split_ifs at hnext with hspacer
        refine .wide htab hwidth hcell hspacer (Slot.spacer.inj hnext).symm
          (rowWhole_of_shown hs row rest (offset + 2) ?_ ?_ ?_)
        · rw [← hlength, List.length_cons, List.length_cons]
          omega
        · intro i other hother
          rw [show offset + 2 + i = offset + (i + 2) by omega]
          exact hshown (i + 2) other hother
        -- a right half behind the spacer would have its left half there
        · intro pen hpen
          obtain ⟨before, g, hbefore, hglyph, -⟩ := hs.spacer _ _ _ hpen
          obtain rfl : offset + 1 = before := by omega
          rw [hright] at hglyph
          cases hglyph
    · refine .narrow htab hwidth hcell (rowWhole_of_shown hs row rest (offset + 1) ?_ ?_ ?_)
      · rw [← hlength, List.length_cons]
        omega
      · intro i other hother
        rw [show offset + 1 + i = offset + (i + 1) by omega]
        exact hshown (i + 1) other hother
      -- and behind a narrow cell there is no right half
      · intro pen hpen
        obtain ⟨before, g, hbefore, hglyph, hwide⟩ := hs.spacer _ _ _ hpen
        obtain rfl : offset = before := by omega
        obtain rfl : cell.glyph width = g := Slot.glyph.inj (hslot.symm.trans hglyph)
        exact hwidth (of_decide_eq_true hwide)

/-! ## The repaint of a screen -/

/-- A blank terminal of the screen's dimensions shows every cell of a storable screen in its column exactly
when no cell holds a tab and every wide character stands before its spacer. -/
theorem faithful_iff (width : Char → ℕ) (screen : TerminalScreen) (hscreen : screen.Storable width) :
    Faithful width screen ↔ ∀ row < screen.rows, RowWhole width (screen.row row) := by
  have hstorable : ∀ row, ∀ cell ∈ screen.row row, cell.Storable width :=
    fun row cell hcell => hscreen.cells cell (screen.mem_of_mem_row hcell)
  constructor
  -- what is interpreted is sound, so what it shows is whole
  · intro hfaithful row hrow
    have hsound := sound_interpret hscreen
    refine rowWhole_of_shown hsound row (screen.row row) 0 ?_ ?_ ?_
    · rw [screen.length_row hrow, Nat.zero_add]
      have hsize : ((Terminal.new screen.columns screen.rows).interpret width
          (serializeTerminalScreenAnsi screen)).screen.size = (screen.columns, screen.rows) :=
        Screen.size_foldl_perform _ _
      exact (congrArg Prod.fst hsize).symm
    · intro column cell hcell
      rw [Nat.zero_add]
      exact hfaithful row hrow column cell hcell
    · intro pen hpen
      obtain ⟨before, g, hbefore, -⟩ := hsound.spacer _ _ _ hpen
      omega
  -- whole rows are printable, and the full serialization shows them
  · intro hwhole row hrow column cell hcell
    have hprintable : screen.Printable width :=
      fun row hrow => (hwhole row hrow).printable (hstorable row)
    have hshows : Shows width ((Terminal.new screen.columns screen.rows).interpret width
        (serializeTerminalScreenAnsi screen)).screen screen := by
      have hrun : (Terminal.new screen.columns screen.rows).interpret width
          (serializeTerminalScreenAnsi screen) = _ :=
        Terminal.interpret_of_parses width (parses_serializeTerminalScreenAnsi width hprintable) _
      rw [hrun]
      exact shows_full hprintable rfl
    obtain ⟨slot, hslot, hshown⟩ := (hwhole row hrow).shown column cell hcell
    rw [← hshows.lines row hrow, Screen.line, List.getElem?_map, Option.map_eq_some_iff] at hslot
    obtain ⟨column', hcolumn, rfl⟩ := hslot
    obtain ⟨_, rfl⟩ := List.getElem?_eq_some_iff.mp hcolumn
    rwa [List.getElem_range] at hshown

/-- Two rows of ten columns after a tab and the letter `x` were printed. -/
def tabCells : List Cell :=
  ((putTab (fun column => column % 8 = 0) (List.replicate 10 ({} : Cell)) 0).1.modify 8 fun cell =>
    { cell with c := 'x' }).map mapCell ++ List.replicate 10 ({} : Cell)

theorem length_tabCells : tabCells.length = 10 * 2 := rfl

theorem length_twoLineNumbers : ([none, none] : List (Option ℕ)).length = 2 := rfl

/-- The screen that is captured from these rows. -/
def tabScreen : TerminalScreen where
  columns := 10
  rows := 2
  cells := tabCells
  lineNumbers := [none, none]
  selection := none
  cursor := ⟨.block, ⟨0, 9⟩⟩
  cursorRow := 0
  columns_pos := Nat.succ_pos 9
  rows_pos := Nat.two_pos
  cells_length := length_tabCells
  lineNumbers_length := length_twoLineNumbers
  cursorRow_nonneg := firstRow_nonneg

theorem tabScreen_storable : tabScreen.Storable sampleWidth := by
  have hcells : ∀ cell ∈ tabScreen.cells, cell = { c := '\t' } ∨ cell = { c := 'x' } ∨ cell = {} := by
    decide
  refine ⟨fun cell hcell => ?_, fun cell hcell _ _ => by decide⟩
  rcases hcells cell hcell with rfl | rfl | rfl
  · exact ⟨.inl rfl, nofun⟩
  · exact ⟨.inr (by decide), nofun⟩
  · exact ⟨.inr (by decide), nofun⟩

theorem faithful_iff_tabScreen : Faithful sampleWidth tabScreen ↔
    ∀ row < tabScreen.rows, RowWhole sampleWidth (tabScreen.row row) :=
  faithful_iff sampleWidth tabScreen tabScreen_storable

/-- The repaint prints the tab, the seven blanks behind it and then the letter, which ends in the next row
and is painted over. -/
theorem not_faithful_tabScreen :
    tabScreen.Storable sampleWidth ∧ ¬ Faithful sampleWidth tabScreen := by
  refine ⟨tabScreen_storable, fun h => ?_⟩
  have hletter : ((Terminal.new tabScreen.columns tabScreen.rows).interpret sampleWidth
      (serializeTerminalScreenAnsi tabScreen)).screen.cell 0 8 =
        .glyph (Cell.glyph sampleWidth { c := 'x' }) := h 0 Nat.two_pos 8 { c := 'x' } rfl
  exact absurd hletter (by decide +kernel)

end Termua.Cast
