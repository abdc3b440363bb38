import Mathlib
import Termua.Lib.Graphemes
import Termua.Lib.Text
import Termua.Lib.Windows
import Termua.Cast.Screen

/-!
# Search in the scrollback

`gpui_term/src/backends/search.rs` and `compute_search_matches` of
`gpui_term/src/backends/alacritty/mod.rs`. The visible cells of a line are its tokens; a match is a
window of tokens with the query's grapheme clusters as their texts. What a user sees is a run of
visible cells whose texts join to the query, however the query is cut.
-/

namespace Termua.Search

open Cast (GridPoint)
open Graphemes (Segmentation)

/-- `MAX_SEARCH_MATCHES`. -/
def maxSearchMatches : ℕ := 10000

/-- `SearchToken`: a visible glyph on a terminal line. -/
structure SearchToken where
  startCol : ℕ
  width : ℕ
  text : List Char
  deriving DecidableEq, Repr

/-- `push_search_token`. -/
def pushSearchToken (tokens : List SearchToken) (startCol width cols : ℕ) (text : List Char) :
    List SearchToken :=
  if cols ≤ startCol then tokens
  else tokens ++ [{ startCol, width := min (max width 1) (cols - startCol), text }]

/-- The last column of a token. -/
def SearchToken.endCol (token : SearchToken) : ℕ := token.startCol + (max token.width 1 - 1)

/-- The first column of the first token and the last column of the last. -/
def tokenSpan (run : List SearchToken) : ℕ × ℕ :=
  ((run.head?.map SearchToken.startCol).getD 0, (run.getLast?.map SearchToken.endCol).getD 0)

/-- The query is empty or has nothing but whitespace. -/
def IsBlank (query : List Char) : Prop := query = [] ∨ query.all Text.isWhitespace

instance : DecidablePred IsBlank := fun query =>
  inferInstanceAs (Decidable (query = [] ∨ query.all Text.isWhitespace))

/-- `find_search_matches_in_tokens`. The loop compares the tokens from `i` on with the clusters, one
by one, and stops at the maximum. -/
def findSearchMatchesInTokens (s : Segmentation) (tokens : List SearchToken) (query : List Char)
    (maxMatches : ℕ) : List (ℕ × ℕ) :=
  if IsBlank query then []
  else
    let qGraphemes := s.graphemes query
    if qGraphemes = [] ∨ tokens = [] ∨ tokens.length < qGraphemes.length then []
    else
      let maxStart := tokens.length - qGraphemes.length
      (List.range (maxStart + 1)).foldl
        (fun out i =>
          if maxMatches ≤ out.length then out
          else
            match Windows.window SearchToken.text qGraphemes (tokens.drop i) with
            | none => out
            | some run => out ++ [tokenSpan run])
        []

/-- `append_search_matches_for_line`. -/
def appendSearchMatchesForLine (s : Segmentation) (found : List (GridPoint × GridPoint))
    (tokens : List SearchToken) (query : List Char) (maxMatches : ℕ) (line : ℤ) :
    List (GridPoint × GridPoint) :=
  let remaining := maxMatches - found.length
  if remaining = 0 then found
  else
    found ++ (findSearchMatchesInTokens s tokens query remaining).map
      fun cols => (⟨line, cols.1⟩, ⟨line, cols.2⟩)

/-- `collect_search_matches_for_lines`; `tokensForLine` fills the cleared tokens and names the
line. -/
def collectSearchMatchesForLines {T : Type*} (s : Segmentation) (query : List Char) (lines : List T)
    (tokensForLine : T → List SearchToken × Option ℤ) : List (GridPoint × GridPoint) :=
  lines.foldl
    (fun found line =>
      if maxSearchMatches ≤ found.length then found
      else
        match tokensForLine line with
        | (_, none) => found
        | (tokens, some lineCoord) =>
          appendSearchMatchesForLine s found tokens query maxSearchMatches lineCoord)
    []

/-! ## The alacritty backend -/

/-- A cell of the alacritty grid, with the flags that the search reads. -/
structure AlacCell where
  c : Char
  zerowidth : List Char := []
  wideChar : Bool := false
  wideCharSpacer : Bool := false
  leadingWideCharSpacer : Bool := false
  deriving DecidableEq, Repr

/-- The cell's character with the zero-width characters attached to it. -/
def AlacCell.text (cell : AlacCell) : List Char := cell.c :: cell.zerowidth

def AlacCell.isSpacer (cell : AlacCell) : Bool := cell.wideCharSpacer || cell.leadingWideCharSpacer

/-- A grid and its scrollback: the lines from the topmost one down, each as wide as the grid. -/
structure AlacGrid where
  columns : ℕ
  topmostLine : ℤ
  rows : List (List AlacCell)
  length_row : ∀ row ∈ rows, row.length = columns

namespace AlacGrid

variable (grid : AlacGrid)

/-- The lines with their cells, from the topmost to the bottommost. -/
def lines : List (ℤ × List AlacCell) :=
  grid.rows.zipIdx.map fun (row, i) => (grid.topmostLine + i, row)

/-- The tokens that `compute_search_matches` pushes for a line. -/
def rowTokens (cols : ℕ) (row : List AlacCell) : List SearchToken :=
  row.zipIdx.foldl
    (fun tokens (cell, col) =>
      if cell.isSpacer then tokens
      else pushSearchToken tokens col (if cell.wideChar then 2 else 1) cols cell.text)
    []

/-- `compute_search_matches`. -/
def computeSearchMatches (s : Segmentation) (query : List Char) : List (GridPoint × GridPoint) :=
  if grid.columns = 0 then []
  else
    collectSearchMatchesForLines s query grid.lines fun (line, row) =>
      (rowTokens grid.columns row, some line)

end AlacGrid

/-! ## What is displayed -/

/-- The visible cells of a line with their columns. -/
def visibleCells (row : List AlacCell) : List (AlacCell × ℕ) :=
  row.zipIdx.filter fun (cell, _) => !cell.isSpacer

/-- The last column that a visible cell covers. -/
def lastColumn (columns : ℕ) (cell : AlacCell × ℕ) : ℕ :=
  if cell.1.wideChar ∧ cell.2 + 1 < columns then cell.2 + 1 else cell.2

/-- The texts of the cells of a run. -/
def cellTexts (run : List (AlacCell × ℕ)) : List (List Char) := run.map fun cell => cell.1.text

/-- Where a run of visible cells stands: from the first column of its first cell to the last column of
its last cell. -/
def displayedSpan (columns : ℕ) (line : ℤ) (run : List (AlacCell × ℕ)) : GridPoint × GridPoint :=
  (⟨line, (run.head?.map Prod.snd).getD 0⟩, ⟨line, (run.getLast?.map (lastColumn columns)).getD 0⟩)

/-- The runs of neighbouring visible cells whose texts join to the query, with their lines. -/
def AlacGrid.displayedRuns (grid : AlacGrid) (query : List Char) :
    List (ℤ × List (AlacCell × ℕ)) :=
  grid.lines.flatMap fun (line, row) =>
    (Windows.runs (fun cell => cell.1.text) query (visibleCells row)).map fun run => (line, run)

/-- Where the query is displayed. -/
def AlacGrid.displayedMatches (grid : AlacGrid) (query : List Char) : List (GridPoint × GridPoint) :=
  (grid.displayedRuns query).map fun (line, run) => displayedSpan grid.columns line run

/-! ## A line -/

section Line

variable {s : Segmentation} {tokens : List SearchToken} {query : List Char} {maxMatches cols : ℕ}
  {row : List AlacCell}

theorem graphemes_ne_nil (hquery : ¬ IsBlank query) : s.graphemes query ≠ [] := by
  intro hnil
  have hflatten := s.flatten_graphemes query
  rw [hnil, List.flatten_nil] at hflatten
  exact hquery (.inl hflatten.symm)

/-- The scan finds the runs that read as the query cluster by cluster. -/
theorem findSearchMatchesInTokens_eq (hquery : ¬ IsBlank query) :
    findSearchMatchesInTokens s tokens query maxMatches =
      (((Windows.runs SearchToken.text query tokens).filter fun run =>
        run.map SearchToken.text = s.graphemes query).map tokenSpan).take maxMatches := by
  have hgraphemes := graphemes_ne_nil (s := s) hquery
  unfold findSearchMatchesInTokens
  rw [if_neg hquery]
  dsimp only
  split
  -- fewer tokens than clusters: the loop does not start, and no window is long enough
  · next hshort =>
    have hlt : tokens.length < (s.graphemes query).length := by
      have hpos := List.length_pos_of_ne_nil hgraphemes
      rcases hshort with hnil | rfl | hlt
      · exact absurd hnil hgraphemes
      · exact hpos
      · exact hlt
    rw [Windows.filter_runs (s.flatten_graphemes query), List.flatMap_eq_nil_iff.mpr]
    · rw [List.map_nil, List.take_nil]
    · intro rest hrest
      have hle := ((List.mem_tails _ _).mp hrest).length_le
      rw [Windows.window_eq_none_of_length_lt (hle.trans_lt hlt), Option.toList_none]
  · next hlong =>
    have hlen : (s.graphemes query).length ≤ tokens.length := by
      rw [not_or, not_or] at hlong
      exact Nat.not_lt.mp hlong.2.2
    -- the loop that stops at the limit takes the first of what it would collect
    have hscan := @Windows.foldl_take _ _ maxMatches
      (fun out i =>
        if maxMatches ≤ out.length then out
        else
          match Windows.window SearchToken.text (s.graphemes query) (tokens.drop i) with
          | none => out
          | some run => out ++ [tokenSpan run])
      (fun i => ((Windows.window SearchToken.text (s.graphemes query) (tokens.drop i)).map
        tokenSpan).toList)
      (List.range (tokens.length - (s.graphemes query).length + 1))
      (fun out i hfull => if_pos hfull) ?_ [] (Nat.zero_le _)
    · rw [hscan, List.nil_append, List.length_nil, Nat.sub_zero,
        ← List.filterMap_eq_flatMap_toList, ← List.map_filterMap,
        Windows.filterMap_window (s.flatten_graphemes query) hgraphemes hlen]
    · intro i _ out hlt
      obtain ⟨k, hk⟩ := Nat.exists_eq_succ_of_ne_zero (Nat.sub_ne_zero_of_lt hlt)
      rw [if_neg (Nat.not_le.mpr hlt), hk]
      cases Windows.window SearchToken.text (s.graphemes query) (tokens.drop i) with
      | none => simp
      | some run => simp

/-- The token of a visible cell. -/
def cellToken (cols : ℕ) (cell : AlacCell × ℕ) : SearchToken :=
  { startCol := cell.2
    width := min (if cell.1.wideChar then 2 else 1) (cols - cell.2)
    text := cell.1.text }

theorem foldl_tokens {cells : List (AlacCell × ℕ)} (h : ∀ cell ∈ cells, cell.2 < cols)
    (tokens : List SearchToken) :
    cells.foldl
        (fun tokens (cell, col) =>
          if cell.isSpacer then tokens
          else pushSearchToken tokens col (if cell.wideChar then 2 else 1) cols cell.text)
        tokens =
      tokens ++ (cells.filter fun (cell, _) => !cell.isSpacer).map (cellToken cols) := by
  induction cells generalizing tokens with
  | nil => rw [List.foldl_nil, List.filter_nil, List.map_nil, List.append_nil]
  | cons cell cells ih =>
    obtain ⟨cell, col⟩ := cell
    have hcol : col < cols := h (cell, col) List.mem_cons_self
    rw [List.foldl_cons, ih fun cell hcell => h cell (List.mem_cons_of_mem _ hcell)]
    by_cases hspacer : cell.isSpacer = true
    · simp [hspacer]
    · have hwidth : max (if cell.wideChar then 2 else 1) 1 = if cell.wideChar then 2 else 1 := by
        split <;> rfl
      simp [hspacer, pushSearchToken, Nat.not_le.mpr hcol, cellToken, hwidth]

/-- The tokens of a line are its visible cells. -/
theorem rowTokens_eq (hrow : row.length ≤ cols) :
    AlacGrid.rowTokens cols row = (visibleCells row).map (cellToken cols) := by
  unfold AlacGrid.rowTokens visibleCells
  rw [foldl_tokens, List.nil_append]
  intro cell hcell
  have hlt := List.snd_lt_of_mem_zipIdx hcell
  omega

theorem endCol_cellToken {cell : AlacCell × ℕ} (h : cell.2 < cols) :
    (cellToken cols cell).endCol = lastColumn cols cell := by
  unfold cellToken SearchToken.endCol lastColumn
  split <;> split <;> grind

theorem tokenSpan_map {run : List (AlacCell × ℕ)} (h : ∀ cell ∈ run, cell.2 < cols) :
    tokenSpan (run.map (cellToken cols)) =
      ((run.head?.map Prod.snd).getD 0, (run.getLast?.map (lastColumn cols)).getD 0) := by
  unfold tokenSpan
  rw [List.head?_map, List.getLast?_map, Option.map_map, Option.map_map]
  congr 2
  cases hlast : run.getLast? with
  | none => rfl
  | some cell =>
    exact congrArg some (endCol_cellToken (h cell (List.mem_of_mem_getLast? hlast)))

/-- The cells of the run are cut as the grapheme clusters of the query are. -/
def readAsQuery (s : Segmentation) (query : List Char) (run : List (AlacCell × ℕ)) : Bool :=
  cellTexts run = s.graphemes query

/-- The visible cells of a line stand in the order of their columns. -/
theorem pairwise_visibleCells : (visibleCells row).Pairwise fun a b => a.2 < b.2 := by
  refine List.Pairwise.filter _ ?_
  rw [← List.pairwise_map (f := Prod.snd), List.zipIdx_map_snd]
  exact List.pairwise_lt_range'

theorem mem_visibleCells (hrow : row.length ≤ cols) {cell : AlacCell × ℕ}
    (h : cell ∈ visibleCells row) : cell.2 < cols := by
  have hlt := List.snd_lt_of_mem_zipIdx (List.mem_of_mem_filter h)
  omega

theorem findSearchMatchesInTokens_row (hquery : ¬ IsBlank query) (hrow : row.length ≤ cols)
    (line : ℤ) :
    (findSearchMatchesInTokens s (AlacGrid.rowTokens cols row) query maxMatches).map
        (fun span => ((⟨line, span.1⟩, ⟨line, span.2⟩) : GridPoint × GridPoint)) =
      (((Windows.runs (fun cell => cell.1.text) query (visibleCells row)).filter
        (readAsQuery s query)).map (displayedSpan cols line)).take maxMatches := by
  have hfilter : ((fun run => decide (run.map SearchToken.text = s.graphemes query)) ∘
      List.map (cellToken cols)) = readAsQuery s query := by
    funext run
    refine decide_eq_decide.mpr ?_
    rw [List.map_map]
    rfl
  have htext : SearchToken.text ∘ cellToken cols = fun cell => cell.1.text := rfl
  rw [findSearchMatchesInTokens_eq hquery, rowTokens_eq hrow, Windows.runs_map, htext,
    List.filter_map, hfilter, List.map_take, List.map_map, List.map_map]
  congr 1
  refine List.map_congr_left fun run hrun => ?_
  have hwithin := (Windows.mem_runs (fun hnil => hquery (.inl hnil))
    (List.mem_of_mem_filter hrun)).2
  have hcol : ∀ cell ∈ run, cell.2 < cols := fun cell hcell =>
    mem_visibleCells hrow (hwithin.subset hcell)
  have hspan := tokenSpan_map hcol
  rw [Function.comp_apply, Function.comp_apply, hspan]
  rfl

/-- No two runs of a line begin in the same column. -/
theorem nodup_displayedSpan (hquery : ¬ IsBlank query) (line : ℤ) :
    ((Windows.runs (fun cell => cell.1.text) query (visibleCells row)).map
      (displayedSpan cols line)).Nodup := by
  have hquery : query ≠ [] := fun hnil => hquery (.inl hnil)
  have hruns : (Windows.runs (fun cell : AlacCell × ℕ => cell.1.text) query (visibleCells row)).Pairwise
      fun run run' => ∀ x ∈ run.head?, ∀ y ∈ run'.head?, x.2 < y.2 :=
    Windows.pairwise_runs hquery (fun cell _ => List.cons_ne_nil _ _) pairwise_visibleCells
  refine List.pairwise_map.mpr (hruns.imp_of_mem ?_)
  intro run run' hrun hrun' hlt heq
  obtain ⟨cell, rest, rfl⟩ := List.exists_cons_of_ne_nil (Windows.mem_runs hquery hrun).1
  obtain ⟨cell', rest', rfl⟩ := List.exists_cons_of_ne_nil (Windows.mem_runs hquery hrun').1
  have hcol : cell.2 = cell'.2 := congrArg (fun span => span.1.column) heq
  exact (hlt cell rfl cell' rfl).ne hcol

end Line

/-! ## The grid -/

section Grid

variable {s : Segmentation} {grid : AlacGrid} {query : List Char}

theorem length_of_mem_lines {line : ℤ × List AlacCell} (h : line ∈ grid.lines) :
    line.2.length = grid.columns := by
  obtain ⟨⟨row, i⟩, hmem, rfl⟩ := List.mem_map.mp h
  exact grid.length_row row (List.fst_mem_of_mem_zipIdx hmem)

theorem pairwise_lines : grid.lines.Pairwise fun a b => a.1 < b.1 := by
  have hindex : grid.rows.zipIdx.Pairwise fun a b => a.2 < b.2 := by
    rw [← List.pairwise_map (f := Prod.snd), List.zipIdx_map_snd]
    exact List.pairwise_lt_range'
  refine List.Pairwise.map _ (fun a b hab => ?_) hindex
  have hlt : (a.2 : ℤ) < b.2 := Int.ofNat_lt.mpr hab
  exact Int.add_lt_add_left hlt _

/-- The matches are the displayed runs that read as the query cluster by cluster. -/
theorem computeSearchMatches_eq (hquery : ¬ IsBlank query) :
    grid.computeSearchMatches s query =
      (((grid.displayedRuns query).filter fun run => readAsQuery s query run.2).map
        fun run => displayedSpan grid.columns run.1 run.2).take maxSearchMatches := by
  unfold AlacGrid.computeSearchMatches
  split
  · next hzero =>
    have hnil : grid.displayedRuns query = [] := by
      refine List.flatMap_eq_nil_iff.mpr fun line hline => ?_
      obtain ⟨line, row⟩ := line
      have hrow : row = [] := List.length_eq_zero_iff.mp ((length_of_mem_lines hline).trans hzero)
      have hcells : visibleCells row = [] := by
        rw [hrow]
        rfl
      dsimp only
      rw [hcells, Windows.runs_nil fun hnil => hquery (.inl hnil), List.map_nil]
    rw [hnil, List.filter_nil, List.map_nil, List.take_nil]
  -- line by line, as the scan of one line: the limit is that of all lines together
  · have hscan := @Windows.foldl_take _ _ maxSearchMatches
      (fun found line =>
        if maxSearchMatches ≤ found.length then found
        else appendSearchMatchesForLine s found (AlacGrid.rowTokens grid.columns line.2) query
          maxSearchMatches line.1)
      (fun line => ((Windows.runs (fun cell => cell.1.text) query
        (visibleCells line.2)).filter (readAsQuery s query)).map
          (displayedSpan grid.columns line.1))
      grid.lines
      (fun found line hfull => if_pos hfull) ?_ [] (Nat.zero_le _)
    · refine hscan.trans ?_
      rw [List.nil_append, List.length_nil, Nat.sub_zero, AlacGrid.displayedRuns,
        List.filter_flatMap, List.map_flatMap]
      congr 1
      refine List.flatMap_congr fun line _ => ?_
      rw [List.filter_map, List.map_map]
      rfl
    · intro line hline found hlt
      rw [if_neg (Nat.not_le.mpr hlt), appendSearchMatchesForLine,
        if_neg (Nat.sub_ne_zero_of_lt hlt),
        findSearchMatchesInTokens_row hquery (length_of_mem_lines hline).le]

/-- No two displayed runs stand at the same place. -/
theorem nodup_displayedMatches (hquery : ¬ IsBlank query) :
    (grid.displayedMatches query).Nodup := by
  unfold AlacGrid.displayedMatches AlacGrid.displayedRuns
  rw [List.map_flatMap]
  refine List.nodup_flatMap.mpr ⟨fun line hline => ?_, ?_⟩
  · rw [List.map_map]
    exact nodup_displayedSpan hquery line.1
  · refine pairwise_lines.imp fun hlt => ?_
    rw [Function.onFun, List.disjoint_left]
    intro span hspan hspan'
    rw [List.map_map] at hspan hspan'
    obtain ⟨run, _, rfl⟩ := List.mem_map.mp hspan
    obtain ⟨run', _, heq⟩ := List.mem_map.mp hspan'
    exact hlt.ne' (congrArg (fun span => span.1.line) heq)

/-- The search finds what is displayed exactly when the cells of each run that it should find, up to
the maximum, are cut as the grapheme clusters of the query are. -/
theorem computeSearchMatches_eq_displayed_iff (s : Segmentation) (grid : AlacGrid)
    (query : List Char) (hquery : ¬ IsBlank query) :
    grid.computeSearchMatches s query = (grid.displayedMatches query).take maxSearchMatches ↔
      ∀ run ∈ (grid.displayedRuns query).take maxSearchMatches,
        cellTexts run.2 = s.graphemes query := by
  rw [computeSearchMatches_eq hquery, AlacGrid.displayedMatches,
    Windows.take_filter_eq_iff (nodup_displayedMatches hquery)]
  simp [readAsQuery]

/-- A grid of one line. -/
def AlacGrid.ofRow (row : List AlacCell) : AlacGrid where
  columns := row.length
  topmostLine := 0
  rows := [row]
  length_row _ h := by rw [List.mem_singleton.mp h]

/-- A wide glyph and the column that it leaves behind. -/
def wideCells (c : Char) : List AlacCell :=
  [{ c, wideChar := true }, { c := ' ', wideCharSpacer := true }]

/-- Wide glyphs that are clusters of their own are found. -/
theorem computeSearchMatches_wide :
    (AlacGrid.ofRow (wideCells '中' ++ wideCells '文')).computeSearchMatches .basic
        ['中', '文'] =
      ((AlacGrid.ofRow (wideCells '中' ++ wideCells '文')).displayedMatches
        ['中', '文']).take maxSearchMatches :=
  (computeSearchMatches_eq_displayed_iff .basic _ _ (by decide)).mpr (by decide +kernel)

/-- A modified emoji takes two cells of the grid and is one cluster of the query: the search does not
find it. -/
theorem computeSearchMatches_modifier :
    Text.Trimmed ['👍', '🏽'] ∧
      (AlacGrid.ofRow (wideCells '👍' ++ wideCells '🏽')).computeSearchMatches .basic
          ['👍', '🏽'] ≠
        ((AlacGrid.ofRow (wideCells '👍' ++ wideCells '🏽')).displayedMatches
          ['👍', '🏽']).take maxSearchMatches :=
  ⟨⟨by decide +kernel, by decide⟩, by decide +kernel⟩

end Grid

end Termua.Search
