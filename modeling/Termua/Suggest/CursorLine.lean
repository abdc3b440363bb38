import Mathlib
import Termua.Lib.Bisect
import Termua.Lib.Sparse
import Termua.Cast.Screen

/-!
# The text around the cursor

`extract_cursor_line_prefix` and `extract_cursor_line_suffix` of `gpui_term/src/suggestions.rs` look
up the line of the cursor by binary search and stream over its cells; their slow versions fill a
table from all the cells. Cells in display order have both give the dense row of the line
(`extractCursorLinePrefix_eq`, `extractCursorLineSuffix_eq`).
-/

namespace Termua.Suggest

open Cast (Cell GridPoint IndexedCell)
open Bisect Sparse

/-- `usize::MAX`. -/
def usizeMax : ℕ := 2 ^ 64 - 1

/-- `saturating_add(1)`. -/
def saturatingSucc (n : ℕ) : ℕ := min (n + 1) usizeMax

/-- `cells_for_line`. -/
def cellsForLine (cells : List IndexedCell) (line : ℤ) : Option (List IndexedCell) :=
  if cells.isEmpty then none
  else
    let start := partitionPoint (fun c => c.point.line < line) cells
    if cells[start]?.any (·.point.line = line) then
      let stop := partitionPoint (fun c => c.point.line ≤ line) cells
      some ((cells.take stop).drop start)
    else none

/-! ## The slow versions -/

/-- What the table has for a cell. -/
def entry (ic : IndexedCell) : ℕ × (Char × List Char) :=
  (ic.point.column, (ic.cell.c, ic.cell.zerowidth))

/-- The text of a column; a column without a cell is blank. -/
def columnText : Option (Char × List Char) → List Char
  | some (ch, zw) => ch :: zw
  | none => [' ']

/-- `extract_cursor_line_prefix_slow`, of the cells and the cursor of a content. -/
def extractCursorLinePrefixSlow (cells : List IndexedCell) (cursor : GridPoint) :
    Option (List Char) := do
  let byCol ← cells.foldlM (fun byCol ic =>
    if ic.point.line ≠ cursor.line then some byCol
    else if cursor.column ≤ ic.point.column then some byCol
    else store byCol ic.point.column (ic.cell.c, ic.cell.zerowidth))
    (List.replicate cursor.column none)
  return byCol.flatMap columnText

/-- The columns of the cells of a line. -/
def lineColumns (cells : List IndexedCell) (line : ℤ) : List ℕ :=
  (cells.filter (·.point.line = line)).map (·.point.column)

/-- The number of columns that `extract_cursor_line_suffix_slow` counts. -/
def maxCol (cells : List IndexedCell) (cursor : GridPoint) : ℕ :=
  ((lineColumns cells cursor.line).max?.map saturatingSucc).getD cursor.column

/-- `extract_cursor_line_suffix_slow`. -/
def extractCursorLineSuffixSlow (cells : List IndexedCell) (cursor : GridPoint) :
    Option (List Char) := do
  let byCol ← cells.foldlM (fun byCol ic =>
    if ic.point.line ≠ cursor.line ∨ ic.point.column < cursor.column then some byCol
    else store byCol (ic.point.column - cursor.column) (ic.cell.c, ic.cell.zerowidth))
    (List.replicate (maxCol cells cursor - cursor.column) none)
  return byCol.flatMap columnText

/-! ## The fast versions -/

/-- `Cell::zerowidth`. -/
def zerowidth (cell : Cell) : Option (List Char) :=
  if cell.zerowidth = [] then none else some cell.zerowidth

/-- A cell behind the text so far. -/
def pushCell (out : List Char) (cell : Cell) : List Char :=
  let out := out ++ [cell.c]
  match zerowidth cell with
  | some zw => out ++ zw
  | none => out

/-- A blank for each column from the one that is expected up to `col`. -/
def fillGap (out : List Char) (expectedCol col : ℕ) : List Char :=
  out ++ List.replicate (col - expectedCol) ' '

/-- The loop over the cells before the cursor, with the column that it expects at the end. -/
def prefixLoop (cursorCol : ℕ) (out : List Char) (expectedCol : ℕ) :
    List IndexedCell → List Char × ℕ
  | [] => (out, expectedCol)
  | ic :: cells =>
    let col := ic.point.column
    if cursorCol ≤ col then (out, expectedCol)
    else
      let out := fillGap out expectedCol (min col cursorCol)
      let expectedCol := max expectedCol (min col cursorCol)
      if cursorCol ≤ expectedCol then (out, expectedCol)
      else prefixLoop cursorCol (pushCell out ic.cell) (expectedCol + 1) cells

/-- `extract_cursor_line_prefix`. -/
def extractCursorLinePrefix (cells : List IndexedCell) (cursor : GridPoint) :
    Option (List Char) :=
  if cursor.column = 0 then some []
  else
    match cellsForLine cells cursor.line with
    | none => extractCursorLinePrefixSlow cells cursor
    | some lineCells =>
      let (out, expectedCol) := prefixLoop cursor.column [] 0 lineCells
      some (fillGap out expectedCol cursor.column)

/-- The loop over the cells from the cursor on. -/
def suffixLoop (cursorCol : ℕ) (out : List Char) (expectedCol : ℕ) :
    List IndexedCell → List Char
  | [] => out
  | ic :: cells =>
    let col := ic.point.column
    if col < cursorCol then suffixLoop cursorCol out expectedCol cells
    else
      suffixLoop cursorCol (pushCell (fillGap out expectedCol col) ic.cell) (saturatingSucc col) cells

/-- `extract_cursor_line_suffix`. -/
def extractCursorLineSuffix (cells : List IndexedCell) (cursor : GridPoint) :
    Option (List Char) :=
  match cellsForLine cells cursor.line with
  | none => extractCursorLineSuffixSlow cells cursor
  | some lineCells => some (suffixLoop cursor.column [] cursor.column lineCells)

/-! ## Display order -/

/-- The lines do not decrease, and within a line the columns increase. -/
def InDisplayOrder (cells : List IndexedCell) : Prop :=
  cells.Pairwise fun a b =>
    a.point.line < b.point.line ∨
      (a.point.line = b.point.line ∧ a.point.column < b.point.column)

/-- The cells of a line as a sparse row. -/
def lineRow (cells : List IndexedCell) (line : ℤ) : List (ℕ × (Char × List Char)) :=
  (cells.filter (·.point.line = line)).map entry

variable {cells : List IndexedCell} {cursor : GridPoint} {line : ℤ} {out : List Char}
  {expectedCol cursorCol a b : ℕ}

theorem increasing_lineRow (h : InDisplayOrder cells) (line : ℤ) :
    Increasing (lineRow cells line) := by
  have hfilter := List.Pairwise.filter (fun ic : IndexedCell => decide (ic.point.line = line)) h
  refine List.pairwise_map.mpr (hfilter.imp_of_mem fun {x y} hx hy hxy => ?_)
  have hxline : x.point.line = line := by simpa using (List.mem_filter.mp hx).2
  have hyline : y.point.line = line := by simpa using (List.mem_filter.mp hy).2
  rcases hxy with hlt | ⟨-, hlt⟩
  · omega
  · exact hlt

/-- In display order the lines up to a bound come first. -/
theorem InDisplayOrder.partitioned (h : InDisplayOrder cells) {p : ℤ → Bool}
    (hp : ∀ k l, k ≤ l → p l = true → p k = true) :
    Partitioned (fun c : IndexedCell => p c.point.line) cells := by
  refine List.Pairwise.imp (fun {x y} hxy => hp x.point.line y.point.line ?_) h
  rcases hxy with hlt | ⟨heq, -⟩
  · exact hlt.le
  · exact heq.le

/-- The binary search finds the cells of the line. -/
theorem cellsForLine_eq (h : InDisplayOrder cells) {lineCells : List IndexedCell}
    (hcells : cellsForLine cells line = some lineCells) :
    lineCells = cells.filter (·.point.line = line) := by
  unfold cellsForLine at hcells
  split at hcells
  · cases hcells
  · simp only at hcells
    split at hcells
    · rw [← Option.some.inj hcells, slice_partitionPoint
        (h.partitioned (p := fun l => l < line) fun k l hkl hl => by
          simp only [decide_eq_true_eq] at hl ⊢; omega)
        (h.partitioned (p := fun l => l ≤ line) fun k l hkl hl => by
          simp only [decide_eq_true_eq] at hl ⊢; omega)
        fun x hx => by simp only [decide_eq_true_eq] at hx ⊢; omega]
      refine List.filter_congr fun x _ => ?_
      by_cases hx : x.point.line = line
      · simp [hx]
      · have : x.point.line < line ∨ ¬x.point.line ≤ line := by omega
        rcases this with hlt | hgt
        · simp [hlt, hx]
        · simp [hgt, hx]
    · cases hcells

/-! ## Streams -/

/-- The text of the columns of a row. -/
def rowText (row : List (ℕ × (Char × List Char))) (a b : ℕ) : List Char :=
  (dense row a b).flatMap columnText

theorem pushCell_eq (out : List Char) (cell : Cell) :
    pushCell out cell = out ++ columnText (some (cell.c, cell.zerowidth)) := by
  unfold pushCell zerowidth
  by_cases hnil : cell.zerowidth = []
  · simp [hnil, columnText]
  · simp [hnil, columnText]

theorem flatMap_replicate_none (n : ℕ) :
    (List.replicate n none).flatMap columnText = List.replicate n ' ' := by
  induction n with
  | zero => rfl
  | succ n ih =>
    rw [List.replicate_succ, List.flatMap_cons, ih]
    rfl

/-- A cell of the row behind its gap, and the rest of the row. -/
theorem rowText_cons {ic : IndexedCell} {row : List (ℕ × (Char × List Char))}
    (h : Increasing (entry ic :: row)) (ha : a ≤ ic.point.column) (hb : ic.point.column < b) :
    out ++ rowText (entry ic :: row) a b =
      pushCell (fillGap out a ic.point.column) ic.cell ++ rowText row (ic.point.column + 1) b := by
  unfold rowText
  rw [entry, dense_cons h ha hb, List.flatMap_append, flatMap_replicate_none, List.flatMap_cons,
    pushCell_eq, fillGap]
  simp only [List.append_assoc]

/-- Where a row has nothing its text is blank. -/
theorem rowText_eq_fillGap {row : List (ℕ × (Char × List Char))}
    (h : ∀ e ∈ row, e.1 < a ∨ b ≤ e.1) : out ++ rowText row a b = fillGap out a b := by
  unfold rowText fillGap
  rw [dense_eq_replicate h, flatMap_replicate_none]

/-- The loop before the cursor, and the blanks behind it, write the row up to the cursor. -/
theorem prefixLoop_eq (h : Increasing (cells.map entry))
    (hexpected : ∀ ic ∈ cells, expectedCol ≤ ic.point.column) (hcursor : expectedCol ≤ cursorCol) :
    fillGap (prefixLoop cursorCol out expectedCol cells).1
        (prefixLoop cursorCol out expectedCol cells).2 cursorCol =
      out ++ rowText (cells.map entry) expectedCol cursorCol := by
  induction cells generalizing out expectedCol with
  | nil => exact (rowText_eq_fillGap fun e he => absurd he List.not_mem_nil).symm
  | cons ic cells ih =>
    have hcol := hexpected ic List.mem_cons_self
    have hlt : ∀ e ∈ cells.map entry, ic.point.column < e.1 := (List.pairwise_cons.mp h).1
    unfold prefixLoop
    simp only
    split
    · next hge =>
      refine (rowText_eq_fillGap fun e he => .inr ?_).symm
      rcases List.mem_cons.mp he with rfl | he
      · exact hge
      · exact hge.trans (hlt e he).le
    · next hlt' =>
      have hmin : min ic.point.column cursorCol = ic.point.column := by omega
      have hmax : max expectedCol ic.point.column = ic.point.column := by omega
      rw [hmin, hmax, if_neg hlt', List.map_cons, rowText_cons h hcol (by omega)]
      exact ih (List.pairwise_cons.mp h).2
        (fun x hx => hlt (entry x) (List.mem_map_of_mem hx)) (by omega)

/-- The loop from the cursor on writes the row up to its last column. -/
theorem suffixLoop_eq (h : Increasing (cells.map entry))
    (hexpected : ∀ ic ∈ cells, ic.point.column < cursorCol ∨ expectedCol ≤ ic.point.column)
    (hcursor : cursorCol ≤ expectedCol)
    (hmax : ∀ ic ∈ cells, ic.point.column < usizeMax ∧ ic.point.column < b)
    (hlast : b ≤ expectedCol ∨ ∃ ic ∈ cells, b = ic.point.column + 1) :
    suffixLoop cursorCol out expectedCol cells =
      out ++ rowText (cells.map entry) expectedCol b := by
  induction cells generalizing out expectedCol with
  | nil =>
    rcases hlast with hle | ⟨ic, hic, -⟩
    · rw [List.map_nil, rowText_eq_fillGap fun e he => absurd he List.not_mem_nil, fillGap,
        Nat.sub_eq_zero_of_le hle, List.replicate_zero, List.append_nil]
      rfl
    · cases hic
  | cons ic cells ih =>
    have hincreasing := (List.pairwise_cons.mp h).2
    have hlt : ∀ x ∈ cells, ic.point.column < x.point.column := fun x hx =>
      (List.pairwise_cons.mp h).1 (entry x) (List.mem_map_of_mem hx)
    obtain ⟨hcolMax, hcolb⟩ := hmax ic List.mem_cons_self
    have hmaxTail : ∀ x ∈ cells, x.point.column < usizeMax ∧ x.point.column < b := fun x hx =>
      hmax x (List.mem_cons_of_mem _ hx)
    unfold suffixLoop
    simp only
    split
    -- left of the cursor the loop skips the cell, and the row text does not have it
    · next hbefore =>
      rw [ih hincreasing (fun x hx => hexpected x (List.mem_cons_of_mem _ hx)) hcursor hmaxTail]
      · unfold rowText
        rw [List.map_cons, entry, dense_cons_of_lt (hbefore.trans_le hcursor)]
      · rcases hlast with hle | ⟨x, hx, rfl⟩
        · exact .inl hle
        · rcases List.mem_cons.mp hx with rfl | hx
          · exact .inl (by omega)
          · exact .inr ⟨x, hx, rfl⟩
    · next hfrom =>
      have hcol := (hexpected ic List.mem_cons_self).resolve_left hfrom
      -- the addition does not saturate, as the columns end before
      have hsucc : saturatingSucc ic.point.column = ic.point.column + 1 :=
        Nat.min_eq_left hcolMax
      rw [hsucc, List.map_cons, rowText_cons h hcol hcolb]
      refine ih hincreasing (fun x hx => .inr (hlt x hx)) (by omega) hmaxTail ?_
      rcases hlast with hle | ⟨x, hx, rfl⟩
      · exact .inl (by omega)
      · rcases List.mem_cons.mp hx with rfl | hx
        · exact .inl le_rfl
        · exact .inr ⟨x, hx, rfl⟩

/-! ## Tables -/

/-- The cells of a line whose columns satisfy `p`, written into a table, are the columns of the
line. -/
theorem foldlM_store_cells (h : InDisplayOrder cells) (p : ℕ → Bool) (line : ℤ)
    (hp : ∀ i, a ≤ i → i < b → p i = true)
    (hrange : ∀ ic ∈ cells, ic.point.line = line → p ic.point.column = true →
      a ≤ ic.point.column ∧ ic.point.column < b) :
    cells.foldlM (fun byCol ic =>
        if ic.point.line = line ∧ p ic.point.column = true then
          store byCol (ic.point.column - a) (ic.cell.c, ic.cell.zerowidth)
        else some byCol) (List.replicate (b - a) none) =
      some (dense (lineRow cells line) a b) := by
  have hrow : ((lineRow cells line).filter fun e => p e.1) =
      (cells.filter fun ic => ic.point.line = line ∧ p ic.point.column = true).map entry := by
    unfold lineRow
    rw [List.filter_map, List.filter_filter]
    refine congrArg (List.map entry) (List.filter_congr fun ic _ => ?_)
    simp [entry, Bool.and_comm]
  have hstore := foldlM_store_eq_dense (a := a) (b := b)
    (List.Pairwise.filter (fun e => p e.1) (increasing_lineRow h line)) fun e he => by
      rw [hrow] at he
      obtain ⟨ic, hic, rfl⟩ := List.mem_map.mp he
      obtain ⟨hmem, hcond⟩ := List.mem_filter.mp hic
      obtain ⟨hline, hcol⟩ := of_decide_eq_true hcond
      exact hrange ic hmem hline hcol
  rw [dense_filter hp, hrow, List.foldlM_map, List.foldlM_filter] at hstore
  rw [← hstore]
  congr 1
  funext byCol ic
  simp only [decide_eq_true_eq]
  rfl

/-- The table before the cursor has the row of the line up to the cursor. -/
theorem extractCursorLinePrefixSlow_eq (h : InDisplayOrder cells) :
    extractCursorLinePrefixSlow cells cursor =
      some (rowText (lineRow cells cursor.line) 0 cursor.column) := by
  have htable := foldlM_store_cells (a := 0) (b := cursor.column) h
    (fun col => col < cursor.column) cursor.line (fun i _ hi => decide_eq_true hi)
    fun ic _ _ hcol => ⟨Nat.zero_le _, of_decide_eq_true hcol⟩
  have hstep : (fun byCol (ic : IndexedCell) =>
      if ic.point.line ≠ cursor.line then some byCol
      else if cursor.column ≤ ic.point.column then some byCol
      else store byCol ic.point.column (ic.cell.c, ic.cell.zerowidth)) =
      fun byCol ic =>
        if ic.point.line = cursor.line ∧ decide (ic.point.column < cursor.column) = true then
          store byCol (ic.point.column - 0) (ic.cell.c, ic.cell.zerowidth)
        else some byCol := by
    funext byCol ic
    by_cases hline : ic.point.line = cursor.line
    · by_cases hcol : ic.point.column < cursor.column
      · simp [hline, hcol]
      · simp [hline, hcol]
    · simp [hline]
  rw [← hstep, Nat.sub_zero] at htable
  unfold extractCursorLinePrefixSlow
  rw [htable]
  rfl

/-- A column that the slow version counts. -/
theorem lt_maxCol {ic : IndexedCell} (hic : ic ∈ cells) (hline : ic.point.line = cursor.line)
    (hmax : ic.point.column < usizeMax) : ic.point.column < maxCol cells cursor := by
  have hcol : ic.point.column ∈ lineColumns cells cursor.line :=
    List.mem_map_of_mem (List.mem_filter.mpr ⟨hic, decide_eq_true hline⟩)
  unfold maxCol
  rcases hm : (lineColumns cells cursor.line).max? with _ | v
  · rw [List.max?_eq_none_iff.mp hm] at hcol
    cases hcol
  · have hle := (List.max?_eq_some_iff.mp hm).2 _ hcol
    show ic.point.column < min (v + 1) usizeMax
    omega

/-- The columns that the slow version counts end with a cell, if there is one behind the cursor. -/
theorem maxCol_cases
    (hmax : ∀ ic ∈ cells, ic.point.line = cursor.line → ic.point.column < usizeMax) :
    maxCol cells cursor ≤ cursor.column ∨
      ∃ ic ∈ cells.filter (·.point.line = cursor.line),
        maxCol cells cursor = ic.point.column + 1 := by
  unfold maxCol
  rcases hm : (lineColumns cells cursor.line).max? with _ | v
  · exact .inl le_rfl
  · obtain ⟨ic, hic, rfl⟩ := List.mem_map.mp (List.max?_eq_some_iff.mp hm).1
    obtain ⟨hmem, hline⟩ := List.mem_filter.mp hic
    exact .inr ⟨ic, hic, Nat.min_eq_left (hmax ic hmem (of_decide_eq_true hline))⟩

/-- The table from the cursor on has the row of the line up to its last column. -/
theorem extractCursorLineSuffixSlow_eq (h : InDisplayOrder cells)
    (hmax : ∀ ic ∈ cells, ic.point.line = cursor.line → ic.point.column < usizeMax) :
    extractCursorLineSuffixSlow cells cursor =
      some (rowText (lineRow cells cursor.line) cursor.column (maxCol cells cursor)) := by
  have htable := foldlM_store_cells (a := cursor.column) (b := maxCol cells cursor) h
    (fun col => cursor.column ≤ col) cursor.line (fun i hi _ => decide_eq_true hi)
    fun ic hic hline hcol => ⟨of_decide_eq_true hcol, lt_maxCol hic hline (hmax ic hic hline)⟩
  have hstep : (fun byCol (ic : IndexedCell) =>
      if ic.point.line ≠ cursor.line ∨ ic.point.column < cursor.column then some byCol
      else store byCol (ic.point.column - cursor.column) (ic.cell.c, ic.cell.zerowidth)) =
      fun byCol ic =>
        if ic.point.line = cursor.line ∧ decide (cursor.column ≤ ic.point.column) = true then
          store byCol (ic.point.column - cursor.column) (ic.cell.c, ic.cell.zerowidth)
        else some byCol := by
    funext byCol ic
    by_cases hline : ic.point.line = cursor.line
    · by_cases hcol : ic.point.column < cursor.column
      · simp [hline, hcol]
      · simp [hline, hcol, Nat.not_lt.mp hcol]
    · simp [hline]
  rw [← hstep] at htable
  unfold extractCursorLineSuffixSlow
  rw [htable]
  rfl

/-! ## Fast and slow -/

theorem extractCursorLinePrefix_eq (h : InDisplayOrder cells) :
    extractCursorLinePrefix cells cursor =
      some (rowText (lineRow cells cursor.line) 0 cursor.column) := by
  unfold extractCursorLinePrefix
  split
  · next hzero =>
    rw [hzero]
    rfl
  · split
    · exact extractCursorLinePrefixSlow_eq h
    · next lineCells hcells =>
      have hrow : lineCells.map entry = lineRow cells cursor.line := by
        rw [cellsForLine_eq h hcells]
        rfl
      have hincreasing := increasing_lineRow h cursor.line
      rw [← hrow] at hincreasing ⊢
      exact congrArg some (@prefixLoop_eq _ [] _ _ hincreasing (fun _ _ => Nat.zero_le _)
        (Nat.zero_le _))

theorem extractCursorLineSuffix_eq (h : InDisplayOrder cells)
    (hmax : ∀ ic ∈ cells, ic.point.line = cursor.line → ic.point.column < usizeMax) :
    extractCursorLineSuffix cells cursor =
      some (rowText (lineRow cells cursor.line) cursor.column (maxCol cells cursor)) := by
  unfold extractCursorLineSuffix
  split
  · exact extractCursorLineSuffixSlow_eq h hmax
  · next lineCells hcells =>
    have hfilter := cellsForLine_eq h hcells
    have hrow : lineCells.map entry = lineRow cells cursor.line := by
      rw [hfilter]
      rfl
    have hincreasing := increasing_lineRow h cursor.line
    have hlast := maxCol_cases hmax
    rw [← hrow] at hincreasing ⊢
    rw [← hfilter] at hlast
    refine congrArg some (@suffixLoop_eq _ [] _ _ _ hincreasing (fun ic _ => lt_or_ge _ _) le_rfl
      (fun ic hic => ?_) hlast)
    rw [hfilter] at hic
    obtain ⟨hmem, hline⟩ := List.mem_filter.mp hic
    have hline := of_decide_eq_true hline
    exact ⟨hmax ic hmem hline, lt_maxCol hmem hline (hmax ic hmem hline)⟩

/-- Of cells in display order the fast and the slow versions give the same texts, as long as the
line of the cursor has no cell in the column `usize::MAX`. -/
theorem extract_eq_slow {cells : List IndexedCell} (h : InDisplayOrder cells)
    (cursor : GridPoint) :
    (∃ text, extractCursorLinePrefix cells cursor = some text ∧
        extractCursorLinePrefixSlow cells cursor = some text) ∧
      ((∀ ic ∈ cells, ic.point.line = cursor.line → ic.point.column < usizeMax) →
        ∃ text, extractCursorLineSuffix cells cursor = some text ∧
          extractCursorLineSuffixSlow cells cursor = some text) :=
  ⟨⟨_, extractCursorLinePrefix_eq h, extractCursorLinePrefixSlow_eq h⟩, fun hmax =>
    ⟨_, extractCursorLineSuffix_eq h hmax, extractCursorLineSuffixSlow_eq h hmax⟩⟩

/-- A line with a gap before its second cell. -/
def gapCells : List IndexedCell :=
  [⟨⟨0, 1⟩, { c := 'a' }⟩, ⟨⟨0, 3⟩, { c := 'b', zerowidth := [Char.ofNat 0x301] }⟩]

theorem extract_eq_slow_gap :
    (∃ text, extractCursorLinePrefix gapCells ⟨0, 2⟩ = some text ∧
        extractCursorLinePrefixSlow gapCells ⟨0, 2⟩ = some text) ∧
      ∃ text, extractCursorLineSuffix gapCells ⟨0, 2⟩ = some text ∧
        extractCursorLineSuffixSlow gapCells ⟨0, 2⟩ = some text :=
  have hboth := extract_eq_slow (by unfold InDisplayOrder gapCells; decide) ⟨0, 2⟩
  ⟨hboth.1, hboth.2 (by decide)⟩

/-- In the column `usize::MAX` the slow version has no room for the cell. -/
theorem extract_ne_slow_usizeMax :
    ¬∀ (cells : List IndexedCell) (cursor : GridPoint), InDisplayOrder cells →
      (∃ text, extractCursorLinePrefix cells cursor = some text ∧
        extractCursorLinePrefixSlow cells cursor = some text) ∧
      ∃ text, extractCursorLineSuffix cells cursor = some text ∧
        extractCursorLineSuffixSlow cells cursor = some text := by
  intro hall
  obtain ⟨-, text, -, hslow⟩ := hall [⟨⟨0, usizeMax⟩, { c := 'a' }⟩] ⟨0, usizeMax⟩
    (List.pairwise_singleton ..)
  have hnone : extractCursorLineSuffixSlow [⟨⟨0, usizeMax⟩, { c := 'a' }⟩] ⟨0, usizeMax⟩ =
      none := by decide +kernel
  rw [hnone] at hslow
  cases hslow

end Termua.Suggest
