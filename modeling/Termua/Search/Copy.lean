import Mathlib
import Termua.Scroll.Viewport
import Termua.Search.Tokens
import Termua.Cast.Selection

/-!
# Copied text of the WezTerm backend

`selection_to_string` of `gpui_term/src/backends/wezterm/mod.rs` and the tokens that
`compute_search_matches` makes of a line there. A line of the terminal library lists its visible
cells, and the second column of a wide cell is not one of them. The table of columns that the copy is
read from does not tell such a column from an empty one.
-/

namespace Termua.Search

open Cast (GridPoint SelectionRange)
open Scroll (Screen WezTermBackend)
open Text (trimEnd)

/-- A visible cell of a line of the terminal library. -/
structure CellRef where
  cellIndex : ℕ
  width : ℕ
  text : List Char
  deriving DecidableEq, Repr

/-- The tokens that `compute_search_matches` pushes for a line. -/
def lineTokens (cols : ℕ) (line : List CellRef) : List SearchToken :=
  line.foldl
    (fun tokens cellref =>
      if cols ≤ cellref.cellIndex then tokens
      else pushSearchToken tokens cellref.cellIndex cellref.width cols cellref.text)
    []

/-- `cols_text`: the texts of the visible cells by their columns. -/
def colsText (cols : ℕ) (line : List CellRef) : List (Option (List Char)) :=
  line.foldl
    (fun table cellref =>
      if cellref.cellIndex < cols then table.set cellref.cellIndex (some cellref.text) else table)
    (List.replicate cols none)

/-- The text of a selected column: a blank where no visible cell begins. -/
def columnText (cell : Option (List Char)) : List Char := cell.getD [' ']

/-- What `selection_to_string` appends for a row of the ordered selection. The row has the coordinate
`line`, which no scrollback brings near the bounds of `i32`. -/
def rowToString (selection : SelectionRange) (cols : ℕ) (cells : List CellRef) (line : ℤ) :
    List Char :=
  let colEnd := cols - 1
  let colStart := if line = selection.start.line then min selection.start.column colEnd else 0
  let colEnd := if line = selection.stop.line then min selection.stop.column colEnd else colEnd
  trimEnd ((((colsText cols cells).take (colEnd + 1)).drop colStart).flatMap columnText)

/-- `selection_to_string`. -/
def selectionToString (b : WezTermBackend (List CellRef)) (selection : SelectionRange) : List Char :=
  let selection := selection.ordered
  let plan := b.plan
  let rows := max plan.rows 1
  let cols := max plan.cols 1
  let maxStable := plan.baseStable + (rows - 1 : ℕ)
  let stableFromLine (line : ℤ) : ℤ := plan.baseStable + line
  let startStable := stableFromLine selection.start.line
  let endStable := stableFromLine selection.stop.line
  let (startStable, endStable) :=
    if endStable < startStable then (endStable, startStable) else (startStable, endStable)
  let startStable := max startStable plan.topStable
  let endStable := min endStable maxStable
  (List.range (endStable + 1 - startStable).toNat).flatMap fun (i : ℕ) =>
    let stableRow := startStable + i
    let physRange := b.screen.stableRange (stableRow, stableRow + 1)
    match (b.screen.linesInPhysRange physRange).head? with
    | none => []
    | some line =>
      rowToString selection cols line (stableRow - plan.baseStable) ++
        if stableRow ≠ endStable then ['\n'] else []

/-! ## Printed lines -/

/-- What a program prints into a cell. -/
structure Glyph where
  text : List Char
  wide : Bool := false
  deriving DecidableEq, Repr

/-- The columns that a glyph takes. -/
def Glyph.width (g : Glyph) : ℕ := if g.wide then 2 else 1

/-- The columns that the glyphs take. -/
def totalWidth (glyphs : List Glyph) : ℕ := (glyphs.map Glyph.width).sum

/-- The cells of glyphs printed side by side from a column on. -/
def printedFrom (col : ℕ) : List Glyph → List CellRef
  | [] => []
  | g :: glyphs =>
    { cellIndex := col, width := g.width, text := g.text } :: printedFrom (col + g.width) glyphs

/-- The selection covers the glyphs `selected` of a row on which `before`, these and `after` are
printed, from the first column of the first to the last column of the last. -/
structure CoversCells (b : WezTermBackend (List CellRef)) (selection : SelectionRange)
    (before selected after : List Glyph) : Prop where
  lawful : b.screen.Lawful
  fits : totalWidth (before ++ selected ++ after) ≤ b.screen.physicalCols
  ne_nil : selected ≠ []
  row : ∃ row < b.screen.scrollbackRows,
    b.screen.linesInPhysRange (row, row + 1) = [printedFrom 0 (before ++ selected ++ after)] ∧
      selection.ordered =
        ⟨⟨(row : ℤ) - b.screen.physRow 0, totalWidth before⟩,
          ⟨(row : ℤ) - b.screen.physRow 0, totalWidth (before ++ selected) - 1⟩⟩

/-- The tokens that stand inside the columns of a selection of one row. -/
def selectedTokens (selection : SelectionRange) (tokens : List SearchToken) : List SearchToken :=
  tokens.filter fun token =>
    selection.ordered.start.column ≤ token.startCol ∧ token.endCol ≤ selection.ordered.stop.column

/-- The copy has the selected characters one after the other, without the trailing blanks, as the
search tokens have them. -/
def Reproduces (b : WezTermBackend (List CellRef)) (selection : SelectionRange)
    (before selected after : List Glyph) : Prop :=
  selectionToString b selection = trimEnd (selected.flatMap Glyph.text) ∧
    selectionToString b selection = trimEnd ((selectedTokens selection
      (lineTokens b.plan.cols (printedFrom 0 (before ++ selected ++ after)))).flatMap SearchToken.text)

/-! ## The table of columns -/

/-- The columns of a glyph in the table: its text, and nothing in the second one. -/
def Glyph.columns (g : Glyph) : List (Option (List Char)) :=
  some g.text :: List.replicate (g.width - 1) none

/-- What a copy reads in the columns of a glyph. -/
def Glyph.copied (g : Glyph) : List Char := g.text ++ List.replicate (g.width - 1) ' '

section Columns

variable {g : Glyph} {glyphs before selected after : List Glyph} {cols col : ℕ}

theorem Glyph.width_pos : 0 < g.width := by
  unfold Glyph.width
  split <;> decide

@[simp]
theorem totalWidth_cons : totalWidth (g :: glyphs) = g.width + totalWidth glyphs := by
  rw [totalWidth, List.map_cons, List.sum_cons, totalWidth]

@[simp]
theorem totalWidth_append (before after : List Glyph) :
    totalWidth (before ++ after) = totalWidth before + totalWidth after := by
  rw [totalWidth, List.map_append, List.sum_append, totalWidth, totalWidth]

theorem totalWidth_pos (h : glyphs ≠ []) : 0 < totalWidth glyphs := by
  obtain ⟨g, rest, rfl⟩ := List.exists_cons_of_ne_nil h
  rw [totalWidth_cons]
  exact Nat.add_pos_left Glyph.width_pos _

theorem Glyph.length_columns : g.columns.length = g.width := by
  rw [Glyph.columns, List.length_cons, List.length_replicate, Nat.sub_add_cancel Glyph.width_pos]

theorem length_columns (glyphs : List Glyph) :
    (glyphs.flatMap Glyph.columns).length = totalWidth glyphs := by
  induction glyphs with
  | nil => rfl
  | cons g glyphs ih =>
    rw [List.flatMap_cons, List.length_append, ih, totalWidth_cons, Glyph.length_columns]

theorem Glyph.flatMap_columnText : g.columns.flatMap columnText = g.copied := by
  rw [Glyph.columns, List.flatMap_cons, Glyph.copied]
  congr 1
  induction g.width - 1 with
  | zero => rfl
  | succ n ih =>
    rw [List.replicate_succ, List.flatMap_cons, ih]
    rfl

theorem flatMap_columnText : (glyphs.flatMap Glyph.columns).flatMap columnText =
    glyphs.flatMap Glyph.copied := by
  rw [List.flatMap_assoc]
  exact List.flatMap_congr fun g _ => Glyph.flatMap_columnText

/-- Glyphs fill the table from the column on where they are printed. -/
theorem foldl_printedFrom (table : List (Option (List Char))) (free : ℕ)
    (hcols : cols = table.length + free) (hfree : totalWidth glyphs ≤ free) :
    (printedFrom table.length glyphs).foldl
        (fun table cellref =>
          if cellref.cellIndex < cols then table.set cellref.cellIndex (some cellref.text) else table)
        (table ++ List.replicate free none) =
      table ++ glyphs.flatMap Glyph.columns ++ List.replicate (free - totalWidth glyphs) none := by
  induction glyphs generalizing table free with
  | nil => simp [printedFrom, totalWidth]
  | cons g glyphs ih =>
    rw [totalWidth_cons] at hfree
    have hwidth := g.width_pos
    obtain ⟨rest, rfl⟩ := Nat.exists_eq_add_of_le (Nat.le_of_add_right_le hfree)
    have hfill : List.replicate (g.width + rest) (none : Option (List Char)) =
        none :: (List.replicate (g.width - 1) none ++ List.replicate rest none) := by
      rw [← List.replicate_add, ← List.replicate_succ]
      congr 1
      omega
    have hset : (table ++ List.replicate (g.width + rest) none).set table.length (some g.text) =
        table ++ g.columns ++ List.replicate rest none := by
      rw [hfill, List.set_append_right _ _ le_rfl, Nat.sub_self, List.set_cons_zero,
        List.append_assoc]
      rfl
    have hlength : table.length + g.width = (table ++ g.columns).length := by
      rw [List.length_append, Glyph.length_columns]
    rw [printedFrom, List.foldl_cons, if_pos (by dsimp only; omega), hset, hlength,
      ih (table ++ g.columns) rest (by omega) (by omega), totalWidth_cons, List.flatMap_cons,
      List.append_assoc table, Nat.add_sub_add_left]

theorem colsText_printed (hfits : totalWidth glyphs ≤ cols) :
    colsText cols (printedFrom 0 glyphs) =
      glyphs.flatMap Glyph.columns ++ List.replicate (cols - totalWidth glyphs) none :=
  foldl_printedFrom [] cols (Nat.zero_add cols).symm hfits

/-- Between the first column of the first selected glyph and the last column of the last the table
has the columns of the selected glyphs. -/
theorem drop_take_colsText (hfits : totalWidth (before ++ selected ++ after) ≤ cols) :
    ((colsText cols (printedFrom 0 (before ++ selected ++ after))).take
        (totalWidth (before ++ selected))).drop (totalWidth before) =
      selected.flatMap Glyph.columns := by
  rw [colsText_printed hfits, List.flatMap_append, List.append_assoc,
    ← length_columns (before ++ selected), List.take_left, List.flatMap_append,
    ← length_columns before, List.drop_left]

end Columns

/-! ## Trailing blanks -/

section Trim

variable {g : Glyph} {glyphs : List Glyph}

/-- The glyph has nothing but whitespace. -/
def Glyph.IsBlank (g : Glyph) : Prop := g.text.all Text.isWhitespace = true

instance : DecidablePred Glyph.IsBlank := fun g =>
  inferInstanceAs (Decidable (g.text.all Text.isWhitespace = true))

theorem Glyph.blank_copied : g.copied.all Text.isWhitespace = g.text.all Text.isWhitespace := by
  have hpad : (List.replicate (g.width - 1) ' ').all Text.isWhitespace = true :=
    List.all_eq_true.mpr fun c hc => by
      rw [List.eq_of_mem_replicate hc]
      decide
  rw [Glyph.copied, List.all_append, hpad, Bool.and_true]

theorem blank_flatMap_copied : (glyphs.flatMap Glyph.copied).all Text.isWhitespace =
    (glyphs.flatMap Glyph.text).all Text.isWhitespace := by
  rw [List.all_flatMap, List.all_flatMap]
  exact congrArg _ (funext fun _ => Glyph.blank_copied)

theorem Glyph.trimEnd_copied : trimEnd g.copied = trimEnd g.text :=
  Text.trimEnd_append_of_blank (List.all_eq_true.mpr fun c hc => by
    rw [List.eq_of_mem_replicate hc]
    decide)

theorem length_trimEnd_le (glyphs : List Glyph) :
    (trimEnd (glyphs.flatMap Glyph.text)).length ≤ (trimEnd (glyphs.flatMap Glyph.copied)).length := by
  induction glyphs with
  | nil => exact le_rfl
  | cons g glyphs ih =>
    rw [List.flatMap_cons, List.flatMap_cons]
    cases hblank : (glyphs.flatMap Glyph.text).all Text.isWhitespace with
    | true =>
      rw [Text.trimEnd_append_of_blank hblank,
        Text.trimEnd_append_of_blank (blank_flatMap_copied.trans hblank), Glyph.trimEnd_copied]
    | false =>
      rw [Text.trimEnd_append_of_not_blank hblank,
        Text.trimEnd_append_of_not_blank (blank_flatMap_copied.trans hblank), List.length_append,
        List.length_append, Glyph.copied, List.length_append]
      omega

/-- A copy differs from the characters by the blanks behind wide glyphs, unless these are trimmed. -/
theorem trimEnd_flatMap_copied_iff :
    trimEnd (glyphs.flatMap Glyph.copied) = trimEnd (glyphs.flatMap Glyph.text) ↔
      glyphs.Pairwise fun g g' => g.wide = true → g'.IsBlank := by
  induction glyphs with
  | nil => exact iff_of_true rfl List.Pairwise.nil
  | cons g glyphs ih =>
    rw [List.flatMap_cons, List.flatMap_cons, List.pairwise_cons]
    cases hblank : (glyphs.flatMap Glyph.text).all Text.isWhitespace with
    -- only blanks follow, which are trimmed in both
    | true =>
      have hblank' := blank_flatMap_copied.trans hblank
      have hrest : trimEnd (glyphs.flatMap Glyph.copied) = trimEnd (glyphs.flatMap Glyph.text) :=
        (Text.trimEnd_append_of_blank (x := []) hblank').trans
          (Text.trimEnd_append_of_blank (x := []) hblank).symm
      refine iff_of_true ?_ ⟨fun g' hg' _ => ?_, ih.mp hrest⟩
      · rw [Text.trimEnd_append_of_blank hblank, Text.trimEnd_append_of_blank hblank',
          Glyph.trimEnd_copied]
      · rw [List.all_flatMap] at hblank
        exact List.all_eq_true.mp hblank g' hg'
    | false =>
      rw [Text.trimEnd_append_of_not_blank hblank,
        Text.trimEnd_append_of_not_blank (blank_flatMap_copied.trans hblank)]
      cases hwide : g.wide with
      | false =>
        have hcopied : g.copied = g.text := by
          rw [Glyph.copied, Glyph.width, hwide]
          exact List.append_nil _
        rw [hcopied, List.append_cancel_left_eq, ih]
        exact (and_iff_right fun _ _ h => absurd h Bool.false_ne_true).symm
      -- a wide glyph with text behind it: its blank stays in the copy
      | true =>
        refine iff_of_false (fun heq => ?_) fun hall => ?_
        · have hlength := congrArg List.length heq
          have hle := length_trimEnd_le glyphs
          rw [List.length_append, List.length_append, Glyph.copied, List.length_append,
            List.length_replicate, Glyph.width, hwide, if_pos rfl] at hlength
          omega
        · refine Bool.eq_false_iff.mp hblank ?_
          rw [List.all_flatMap]
          exact List.all_eq_true.mpr fun g' hg' => hall.1 g' hg' rfl

end Trim

/-! ## The tokens -/

section Tokens

variable {g : Glyph} {glyphs before selected after : List Glyph} {cols col : ℕ}

/-- The tokens of glyphs printed side by side from a column on. -/
def tokensFrom (col : ℕ) : List Glyph → List SearchToken
  | [] => []
  | g :: glyphs =>
    { startCol := col, width := g.width, text := g.text } :: tokensFrom (col + g.width) glyphs

theorem foldl_tokensFrom (tokens : List SearchToken) (hfits : col + totalWidth glyphs ≤ cols) :
    (printedFrom col glyphs).foldl
        (fun tokens cellref =>
          if cols ≤ cellref.cellIndex then tokens
          else pushSearchToken tokens cellref.cellIndex cellref.width cols cellref.text)
        tokens =
      tokens ++ tokensFrom col glyphs := by
  induction glyphs generalizing col tokens with
  | nil => exact (List.append_nil _).symm
  | cons g glyphs ih =>
    have hwidth := g.width_pos
    rw [totalWidth_cons] at hfits
    have hpush : pushSearchToken tokens col g.width cols g.text =
        tokens ++ [{ startCol := col, width := g.width, text := g.text }] := by
      rw [pushSearchToken, if_neg (by omega), max_eq_left hwidth, min_eq_left (by omega)]
    rw [printedFrom, List.foldl_cons, if_neg (by dsimp only; omega), hpush, ih _ (by omega),
      tokensFrom, List.append_assoc, List.singleton_append]

/-- The tokens of a line are its glyphs. -/
theorem lineTokens_printed (hfits : totalWidth glyphs ≤ cols) :
    lineTokens cols (printedFrom 0 glyphs) = tokensFrom 0 glyphs :=
  foldl_tokensFrom [] ((Nat.zero_add _).trans_le hfits)

theorem tokensFrom_append :
    tokensFrom col (before ++ after) =
      tokensFrom col before ++ tokensFrom (col + totalWidth before) after := by
  induction before generalizing col with
  | nil => rfl
  | cons g before ih =>
    rw [List.cons_append, tokensFrom, ih, tokensFrom, totalWidth_cons, List.cons_append, add_assoc]

theorem map_text_tokensFrom : (tokensFrom col glyphs).map SearchToken.text = glyphs.map Glyph.text := by
  induction glyphs generalizing col with
  | nil => rfl
  | cons g glyphs ih => rw [tokensFrom, List.map_cons, ih, List.map_cons]

/-- The tokens of glyphs stand in the columns of the glyphs. -/
theorem bounds_of_mem_tokensFrom {token : SearchToken} (h : token ∈ tokensFrom col glyphs) :
    col ≤ token.startCol ∧ token.startCol ≤ token.endCol ∧
      token.endCol < col + totalWidth glyphs := by
  induction glyphs generalizing col with
  | nil => cases h
  | cons g glyphs ih =>
    rw [totalWidth_cons]
    rcases List.mem_cons.mp h with rfl | h
    · have hwidth := g.width_pos
      refine ⟨le_rfl, Nat.le_add_right _ _, ?_⟩
      rw [SearchToken.endCol, max_eq_left hwidth]
      dsimp only
      omega
    · have hbounds := ih h
      omega

end Tokens

/-! ## A selection of whole cells -/

section Selection

variable {b : WezTermBackend (List CellRef)} {selection : SelectionRange}
  {before selected after : List Glyph} {line : ℤ} {cols : ℕ}

theorem rowToString_printed (hfits : totalWidth (before ++ selected ++ after) ≤ cols)
    (hne : selected ≠ []) :
    rowToString ⟨⟨line, totalWidth before⟩, ⟨line, totalWidth (before ++ selected) - 1⟩⟩ cols
        (printedFrom 0 (before ++ selected ++ after)) line =
      trimEnd (selected.flatMap Glyph.copied) := by
  have hpos := totalWidth_pos hne
  have hsum : totalWidth (before ++ selected ++ after) =
      totalWidth before + totalWidth selected + totalWidth after := by
    rw [totalWidth_append, totalWidth_append]
  have hstart : min (totalWidth before) (cols - 1) = totalWidth before := by omega
  have hend : min (totalWidth (before ++ selected) - 1) (cols - 1) + 1 =
      totalWidth (before ++ selected) := by
    rw [totalWidth_append]
    omega
  unfold rowToString
  dsimp only
  rw [if_pos rfl, if_pos rfl, hstart, hend, drop_take_colsText hfits, flatMap_columnText]

/-- The row of the selection is read from the first column of the first glyph to the last column of
the last. -/
theorem selectionToString_eq (h : CoversCells b selection before selected after) :
    selectionToString b selection = trimEnd (selected.flatMap Glyph.copied) := by
  obtain ⟨row, hrow, hline, hordered⟩ := h.row
  have hlawful := h.lawful
  have hrows := hlawful.rows_pos
  have hlive := hlawful.live
  have hbase : b.plan.baseStable = b.screen.topStable + b.screen.physRow 0 := hlawful.baseStable
  have htop : b.plan.topStable = b.screen.topStable := rfl
  have hplanRows : b.plan.rows = max b.screen.physicalRows 1 := rfl
  have hcols : max b.plan.cols 1 = max b.screen.physicalCols 1 := max_eq_left (le_max_right _ _)
  have hstable : b.plan.baseStable + ((row : ℤ) - b.screen.physRow 0) = b.screen.topStable + row := by
    omega
  have hrange := hlawful.stableRange row (row + 1) (Nat.lt_succ_self row) hrow
  have hstop : min (b.screen.topStable + row)
      (b.plan.baseStable + (max b.plan.rows 1 - 1 : ℕ)) = b.screen.topStable + row := by
    refine min_eq_left ?_
    rw [hbase, hplanRows]
    omega
  have hcount : (b.screen.topStable + (row : ℤ) + 1 - (b.screen.topStable + row)).toNat = 1 := by
    omega
  unfold selectionToString
  simp only [hordered, hstable, lt_irrefl, if_false, htop, hstop,
    max_eq_left (Int.le_add_of_nonneg_right (Int.natCast_nonneg row)), hcount]
  rw [List.range_one, List.flatMap_singleton, Nat.cast_zero, add_zero, add_assoc,
    ← Nat.cast_add_one, hrange, hline]
  have hcoord : b.screen.topStable + (row : ℤ) - b.plan.baseStable = row - b.screen.physRow 0 := by
    omega
  simp only [hcoord, ne_eq, not_true_eq_false, if_false, List.append_nil, hcols]
  exact rowToString_printed (h.fits.trans (le_max_left _ _)) h.ne_nil

/-- The search tokens of a selection are the selected glyphs. -/
theorem map_text_selectedTokens (h : CoversCells b selection before selected after) :
    (selectedTokens selection (lineTokens b.plan.cols
        (printedFrom 0 (before ++ selected ++ after)))).map SearchToken.text =
      selected.map Glyph.text := by
  obtain ⟨row, -, -, hordered⟩ := h.row
  have hpos := totalWidth_pos h.ne_nil
  have hsum := totalWidth_append before selected
  have hcols : b.plan.cols = max b.screen.physicalCols 1 := rfl
  unfold selectedTokens
  rw [hcols, lineTokens_printed (h.fits.trans (le_max_left _ _)), hordered, tokensFrom_append,
    tokensFrom_append, Nat.zero_add, Nat.zero_add, List.filter_append, List.filter_append,
    List.filter_eq_nil_iff.mpr, List.filter_eq_self.mpr, List.filter_eq_nil_iff.mpr, List.nil_append,
    List.append_nil, map_text_tokensFrom]
  · intro token htoken
    have hbounds := bounds_of_mem_tokensFrom htoken
    simp only [decide_eq_true_eq, not_and]
    omega
  · intro token htoken
    have hbounds := bounds_of_mem_tokensFrom htoken
    simp only [decide_eq_true_eq]
    omega
  · intro token htoken
    have hbounds := bounds_of_mem_tokensFrom htoken
    simp only [decide_eq_true_eq, not_and]
    omega

/-- A copy of whole cells reproduces what was printed exactly when only blanks follow the wide cells
that are selected. -/
theorem reproduces_iff (b : WezTermBackend (List CellRef)) (selection : SelectionRange)
    (before selected after : List Glyph) (h : CoversCells b selection before selected after) :
    Reproduces b selection before selected after ↔
      selected.Pairwise fun g g' => g.wide = true → g'.IsBlank := by
  have htokens : (selectedTokens selection (lineTokens b.plan.cols
      (printedFrom 0 (before ++ selected ++ after)))).flatMap SearchToken.text =
        selected.flatMap Glyph.text := by
    rw [List.flatMap_def, map_text_selectedTokens h, List.flatMap_def]
  unfold Reproduces
  rw [htokens, and_self, selectionToString_eq h, trimEnd_flatMap_copied_iff]

/-- A screen of one row without a scrollback. -/
def oneRow (cols : ℕ) (line : List CellRef) : WezTermBackend (List CellRef) where
  screen :=
    { physicalRows := 1
      physicalCols := cols
      scrollbackRows := 1
      physToStableRowIndex := fun row => row
      physRow := fun row => row
      stableRange := fun range => (range.1.toNat, range.2.toNat)
      linesInPhysRange := fun range => ([line].drop range.1).take (range.2 - range.1) }
  numLines := 1

theorem lawful_oneRow (cols : ℕ) (line : List CellRef) : (oneRow cols line).screen.Lawful where
  topStable_nonneg := le_rfl
  rows_pos := Nat.one_pos
  live := rfl
  physToStable row := (zero_add (row : ℤ)).symm
  stableRange first last _ _ := by
    show ((((0 : ℕ) : ℤ) + first).toNat, (((0 : ℕ) : ℤ) + last).toNat) = (first, last)
    rw [Nat.cast_zero, zero_add, zero_add, Int.toNat_natCast, Int.toNat_natCast]

theorem coversCells_oneRow (hfits : totalWidth (before ++ selected ++ after) ≤ cols)
    (hne : selected ≠ []) :
    CoversCells (oneRow cols (printedFrom 0 (before ++ selected ++ after)))
      ⟨⟨0, totalWidth before⟩, ⟨0, totalWidth (before ++ selected) - 1⟩⟩ before selected after := by
  refine ⟨lawful_oneRow _ _, hfits, hne, 0, Nat.one_pos, rfl, ?_⟩
  have hpos := totalWidth_pos hne
  have hle : (⟨0, totalWidth before⟩ : GridPoint).le ⟨0, totalWidth (before ++ selected) - 1⟩ := by
    rw [Cast.GridPoint.le_iff, totalWidth_append]
    exact .inr ⟨rfl, by dsimp only; omega⟩
  rw [SelectionRange.ordered, if_pos hle]
  rfl

/-- The columns of `b文` and of the blank behind it in the line `中b文 x`. -/
theorem reproduces_beforeBlank :
    Reproduces
      (oneRow 8 (printedFrom 0 ([⟨['中'], true⟩] ++ [⟨['b'], false⟩, ⟨['文'], true⟩, ⟨[' '], false⟩] ++
        [⟨['x'], false⟩])))
      ⟨⟨0, 2⟩, ⟨0, 5⟩⟩ [⟨['中'], true⟩] [⟨['b'], false⟩, ⟨['文'], true⟩, ⟨[' '], false⟩]
      [⟨['x'], false⟩] :=
  (reproduces_iff _ _ _ _ _ (coversCells_oneRow (by decide) (by decide))).mpr (by decide)

/-- The copy of `中文` has a blank in the middle. -/
theorem not_reproduces_wide :
    CoversCells (oneRow 8 (printedFrom 0 ([] ++ [⟨['中'], true⟩, ⟨['文'], true⟩] ++ [])))
        ⟨⟨0, 0⟩, ⟨0, 3⟩⟩ [] [⟨['中'], true⟩, ⟨['文'], true⟩] [] ∧
      ¬ Reproduces (oneRow 8 (printedFrom 0 ([] ++ [⟨['中'], true⟩, ⟨['文'], true⟩] ++ [])))
        ⟨⟨0, 0⟩, ⟨0, 3⟩⟩ [] [⟨['中'], true⟩, ⟨['文'], true⟩] [] := by
  refine ⟨coversCells_oneRow (by decide) (by decide), fun h => ?_⟩
  have hcopy : selectionToString
      (oneRow 8 (printedFrom 0 ([] ++ [⟨['中'], true⟩, ⟨['文'], true⟩] ++ []))) ⟨⟨0, 0⟩, ⟨0, 3⟩⟩ =
        ['中', ' ', '文'] := by decide +kernel
  exact absurd (hcopy.symm.trans h.1) (by decide)

end Selection

end Termua.Search
