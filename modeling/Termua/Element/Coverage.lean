import Mathlib
import Termua.Element.Plan

/-!
# The paint plan covers the grid

The text of a plan leaves out the spacers of wide characters, trivial blanks and the padding behind an
emoji. Between cells `build_plan` knows the line, where the open background run ends and whether the next
blank is padding (`Plan.Inv`), and that suffices for the plan of a grid given row by row to cover the grid
(`buildPlan_covers`).
-/

namespace Termua.Element

open Termua.Cast

variable {Hsla : Type} {args : PlanArgs Hsla} {plan : Plan Hsla} {cell : IndexedCell}
  {before : List IndexedCell}

/-! ## The cells of a plan -/

/-- The nearest cell before in this line that is not a spacer has zero-width characters and is not itself
the padding behind such a cell. The cells before are given backwards. -/
def afterZerowidth : List IndexedCell → ℤ → Bool
  | [], _ => false
  | prev :: before, line =>
    prev.point.line = line &&
      if prev.cell.flags.wideCharSpacer then afterZerowidth before line
      else !(prev.cell.c = ' ' && afterZerowidth before line) && !prev.cell.zerowidth.isEmpty

/-- The blank that pads an emoji sequence. -/
def emojiPadding (before : List IndexedCell) (cell : IndexedCell) : Bool :=
  cell.cell.c = ' ' && afterZerowidth before cell.point.line

/-- The cells of a grid, given backwards, whose text is painted: those that are not spacers, not trivial
and not left out. -/
def paintedCells (leftOut : List IndexedCell → IndexedCell → Bool) :
    List IndexedCell → List IndexedCell
  | [] => []
  | cell :: before =>
    paintedCells leftOut before ++
      if cell.cell.flags.wideCharSpacer || cellIsTrivial cell.cell || leftOut before cell then []
      else [cell]

/-- The cells with a background of their own. -/
def colouredCells (grid : List IndexedCell) : List IndexedCell :=
  grid.filter fun cell => effectiveBg cell.cell ≠ .named .background

/-- A cell is the next one of its line, or the first one of a line further down. -/
def Follows (last cell : IndexedCell) : Prop :=
  cell.point.line = last.point.line ∧ cell.point.column = last.point.column + 1 ∨
    last.point.line < cell.point.line

/-- A grid is given row by row with consecutive columns. -/
def RowByRow (grid : List IndexedCell) : Prop := grid.IsChain Follows

/-- A quad is painted over a point. -/
def BgQuad.Contains (quad : BgQuad Hsla) (p : GridPoint) : Prop :=
  p.line = quad.point.line ∧ quad.point.column ≤ p.column ∧
    p.column < quad.point.column + quad.cells

/-- The plan covers the grid: its quads do not overlap and paint exactly the cells with a background of
their own, each in its colour, and its spans are the text of the painted cells, in order and each cell at
its column. -/
structure Covers (leftOut : List IndexedCell → IndexedCell → Bool) (args : PlanArgs Hsla)
    (grid : List IndexedCell) (plan : List (BgQuad Hsla) × List (TextSpan Hsla)) : Prop where
  disjoint : plan.1.Pairwise fun quad quad' => ∀ p, ¬ (quad.Contains p ∧ quad'.Contains p)
  coloured : ∀ p color, (∃ quad ∈ plan.1, quad.Contains p ∧ quad.color = color) ↔
    ∃ cell ∈ grid, paintedAt args cell = p ∧ effectiveBg cell.cell ≠ .named .background ∧
      args.theme.convertColor (effectiveBg cell.cell) = color
  text : ∃ runs, List.Forall₂ (TextSpan.Denotes args) plan.2 runs ∧
    runs.flatten = paintedCells leftOut grid.reverse
  len : ∀ span ∈ plan.2, span.style.len = byteLength span.text

/-- The plan after the cells before, which are given backwards. -/
structure Plan.Inv (args : PlanArgs Hsla) (before : List IndexedCell) (plan : Plan Hsla) : Prop where
  bg : plan.BgLog args (colouredCells before.reverse)
  span : plan.SpanLog args (paintedCells emojiPadding before)
  lastLine : plan.lastLine = before.head?.map fun last => args.startLineOffset + last.point.line
  next : ∀ bg, plan.activeBg = some bg → ∃ last, before.head? = some last ∧
    bg.line = args.startLineOffset + last.point.line ∧ bg.startCol + bg.cells = last.point.column + 1
  prev : plan.prevCellHadZw = before.head?.any fun last => afterZerowidth before last.point.line

/-- The plan in the line of the cell that comes next. -/
structure Plan.Ready (args : PlanArgs Hsla) (before : List IndexedCell) (cell : IndexedCell)
    (plan : Plan Hsla) : Prop where
  bg : plan.BgLog args (colouredCells before.reverse)
  span : plan.SpanLog args (paintedCells emojiPadding before)
  lastLine : plan.lastLine = some (args.startLineOffset + cell.point.line)
  next : ∀ bg, plan.activeBg = some bg → bg.line = args.startLineOffset + cell.point.line →
    bg.startCol + bg.cells = cell.point.column
  prev : plan.prevCellHadZw = afterZerowidth before cell.point.line

namespace Plan

theorem Inv.nil : Inv args [] {} where
  bg := RunLog.nil
  span := RunLog.nil
  lastLine := rfl
  next := fun _ h => nomatch h
  prev := rfl

theorem afterZerowidth_of_ne {last : IndexedCell} {line : ℤ} (hhead : before.head? = some last)
    (hline : last.point.line ≠ line) : afterZerowidth before line = false := by
  obtain ⟨rest, rfl⟩ : ∃ rest, before = last :: rest := List.head?_eq_some_iff.mp hhead
  unfold afterZerowidth
  rw [decide_eq_false hline, Bool.false_and]

/-- At a new line both runs are closed, and in the line of the cell before the open background run ends
just before the cell. -/
theorem Inv.enterLine (h : Inv args before plan) (hfollows : ∀ last ∈ before.head?, Follows last cell) :
    Ready args before cell (plan.enterLine (args.startLineOffset + cell.point.line)) := by
  unfold Plan.enterLine
  by_cases hnew : plan.lastLine ≠ some (args.startLineOffset + cell.point.line)
  · rw [if_pos hnew]
    refine ⟨h.bg.flush, h.span.flush, rfl, ?_, ?_⟩
    · intro bg hbg
      exact absurd (flush_activeBg.symm.trans hbg) (by simp)
    · cases hhead : before.head? with
      | none => rw [List.head?_eq_none_iff.mp hhead]; rfl
      | some last =>
        refine (afterZerowidth_of_ne hhead fun hline => hnew ?_).symm
        rw [h.lastLine, hhead, ← hline]
        rfl
  · rw [if_neg hnew]
    have hsame := not_not.mp hnew
    obtain ⟨last, hhead, hline⟩ : ∃ last, before.head? = some last ∧
        last.point.line = cell.point.line := by
      rw [h.lastLine, Option.map_eq_some_iff] at hsame
      obtain ⟨last, hhead, hline⟩ := hsame
      exact ⟨last, hhead, by omega⟩
    have hcol : cell.point.column = last.point.column + 1 := by
      rcases hfollows last hhead with ⟨-, hcol⟩ | hlt
      · exact hcol
      · omega
    refine ⟨h.bg, h.span, hsame, ?_, ?_⟩
    · intro bg hbg _
      obtain ⟨last', hhead', -, hend⟩ := h.next bg hbg
      obtain rfl : last = last' := Option.some.inj (hhead.symm.trans hhead')
      rw [hend, hcol]
    · rw [h.prev, hhead, Option.any_some, hline]

variable [DecidableEq Hsla] {items : List IndexedCell} {line : ℤ}

omit [DecidableEq Hsla] in
/-- Flushing the text leaves the line and the mark of the cell before as they are. -/
theorem flushSpan_line : plan.flushSpan.lastLine = plan.lastLine ∧
    plan.flushSpan.prevCellHadZw = plan.prevCellHadZw := by
  cases h : plan.activeSpan with
  | none => rw [flushSpan_eq_of_none h]; exact ⟨rfl, rfl⟩
  | some span => rw [flushSpan_eq_of_some h]; exact ⟨rfl, rfl⟩

/-- The text of a cell leaves everything but the spans as it is. -/
theorem pushCell_frame {style : TextRun Hsla} {point : GridPoint} {c : Cell} {fontSize : ℚ} :
    (plan.pushCell style point c fontSize).bgQuads = plan.bgQuads ∧
    (plan.pushCell style point c fontSize).activeBg = plan.activeBg ∧
    (plan.pushCell style point c fontSize).lastLine = plan.lastLine ∧
    (plan.pushCell style point c fontSize).prevCellHadZw = plan.prevCellHadZw := by
  unfold Plan.pushCell
  cases plan.activeSpan with
  | none => exact ⟨rfl, rfl, rfl, rfl⟩
  | some span =>
    by_cases hcompat : span.compatibleWith style point
    · simp only [if_pos hcompat, and_self]
    · simp only [if_neg hcompat]
      exact ⟨flushSpan_bg.1, flushSpan_bg.2, flushSpan_line.1, flushSpan_line.2⟩

/-- The loop on a text leaves the background as it is. -/
theorem visitText_bg {fg bg : TermColor} :
    (plan.visitText args line cell fg bg).bgQuads = plan.bgQuads ∧
    (plan.visitText args line cell fg bg).activeBg = plan.activeBg ∧
    (plan.visitText args line cell fg bg).lastLine = plan.lastLine := by
  unfold Plan.visitText
  by_cases hspacer : cell.cell.flags.wideCharSpacer
  · rw [if_pos hspacer]
    exact ⟨rfl, rfl, rfl⟩
  rw [if_neg hspacer]
  by_cases hpad : cell.cell.c = ' ' ∧ plan.prevCellHadZw
  · rw [if_pos hpad]
    exact ⟨rfl, rfl, rfl⟩
  rw [if_neg hpad]
  by_cases htrivial : cellIsTrivial cell.cell
  · simp only [if_pos htrivial, and_self]
  · simp only [if_neg htrivial]
    exact ⟨pushCell_frame.1, pushCell_frame.2.1, pushCell_frame.2.2.1⟩

/-- The mark of the cell before says whether a blank that comes next is padding. -/
theorem visitText_prev {fg bg : TermColor}
    (hprev : plan.prevCellHadZw = afterZerowidth before cell.point.line) :
    (plan.visitText args line cell fg bg).prevCellHadZw =
      afterZerowidth (cell :: before) cell.point.line := by
  unfold Plan.visitText afterZerowidth
  rw [decide_eq_true rfl, Bool.true_and, ← hprev]
  by_cases hspacer : cell.cell.flags.wideCharSpacer
  · rw [if_pos hspacer, if_pos hspacer]
  rw [if_neg hspacer, if_neg hspacer]
  by_cases hpad : cell.cell.c = ' ' ∧ plan.prevCellHadZw
  · rw [if_pos hpad, decide_eq_true hpad.1, hpad.2]
    rfl
  have hpad' : (decide (cell.cell.c = ' ') && plan.prevCellHadZw) = false := by
    simpa using hpad
  rw [if_neg hpad, hpad', Bool.not_false, Bool.true_and]
  by_cases htrivial : cellIsTrivial cell.cell
  · simp only [if_pos htrivial]
  · simp only [if_neg htrivial]
    exact pushCell_frame.2.2.2

/-- The loop on a text paints the cell, or leaves it out where the grid says so. -/
theorem SpanLog.visitText (h : plan.SpanLog args (paintedCells emojiPadding before))
    (hline : line = args.startLineOffset + cell.point.line)
    (hprev : plan.prevCellHadZw = afterZerowidth before cell.point.line) :
    (plan.visitText args line cell (effectiveFg cell.cell) (effectiveBg cell.cell)).SpanLog args
      (paintedCells emojiPadding (cell :: before)) := by
  have hpadding : emojiPadding before cell = true ↔ cell.cell.c = ' ' ∧ plan.prevCellHadZw := by
    unfold emojiPadding
    rw [hprev, Bool.and_eq_true, decide_eq_true_eq]
  unfold Plan.visitText paintedCells
  by_cases hspacer : cell.cell.flags.wideCharSpacer
  · rw [if_pos hspacer, if_pos (by simp [hspacer]), List.append_nil]
    exact h
  rw [if_neg hspacer]
  by_cases hpad : cell.cell.c = ' ' ∧ plan.prevCellHadZw
  · rw [if_pos hpad, if_pos (by simp [hpadding.mpr hpad]), List.append_nil]
    exact h.of_text rfl rfl
  rw [if_neg hpad]
  have hshown : emojiPadding before cell = false := by
    rw [Bool.eq_false_iff]
    exact fun hpadded => hpad (hpadding.mp hpadded)
  by_cases htrivial : cellIsTrivial cell.cell
  · simp only [if_pos htrivial]
    rw [if_pos (by simp [htrivial]), List.append_nil]
    exact h.of_text rfl rfl
  · simp only [if_neg htrivial]
    rw [if_neg (by simp [hspacer, htrivial, hshown])]
    have hkept : SpanLog args { plan with prevCellHadZw := !cell.cell.zerowidth.isEmpty }
        (paintedCells emojiPadding before) := h.of_text rfl rfl
    exact hkept.pushCell hline

omit [DecidableEq Hsla] in
theorem colouredCells_concat (cell : IndexedCell) (before : List IndexedCell) :
    colouredCells (cell :: before).reverse = colouredCells before.reverse ++
      if effectiveBg cell.cell ≠ .named .background then [cell] else [] := by
  unfold colouredCells
  rw [List.reverse_cons, List.filter_append]
  by_cases hbg : effectiveBg cell.cell ≠ .named .background
  · rw [if_pos hbg, List.filter_cons_of_pos (by simpa using hbg), List.filter_nil]
  · rw [if_neg hbg, List.filter_cons_of_neg (by simpa using hbg), List.filter_nil]

/-- Every cell that follows the cells before keeps the invariant. -/
theorem Inv.visit (h : Inv args before plan) (hfollows : ∀ last ∈ before.head?, Follows last cell) :
    Inv args (cell :: before) (plan.visit args cell) := by
  have hready := h.enterLine hfollows
  have hbg := hready.bg.visitBg rfl hready.next
  obtain ⟨hspans, hactive, hlast, hprev⟩ := visitBg_text
    (plan.enterLine (args.startLineOffset + cell.point.line)) args.theme
    (args.startLineOffset + cell.point.line) cell.point.column (effectiveBg cell.cell)
  refine ⟨?_, ?_, ?_, ?_, ?_⟩
  · rw [colouredCells_concat]
    exact hbg.of_bg visitText_bg.1 visitText_bg.2.1
  · exact (hready.span.of_text hspans hactive).visitText rfl (hprev.trans hready.prev)
  · exact visitText_bg.2.2.trans (hlast.trans hready.lastLine)
  · intro bg hopen
    obtain ⟨hline, hend⟩ := visitBg_next hready.next (visitText_bg.2.1.symm.trans hopen)
    exact ⟨cell, rfl, hline, hend⟩
  · exact visitText_prev (hprev.trans hready.prev)

/-- The invariant holds after every beginning of the grid. -/
theorem Inv.foldl (args : PlanArgs Hsla) (hgrid : before.IsChain fun cell last => Follows last cell) :
    Inv args before (before.reverse.foldl (Plan.visit args) {}) := by
  induction before with
  | nil => exact .nil
  | cons cell before ih =>
    obtain ⟨hfollows, hbefore⟩ := List.isChain_cons.mp hgrid
    rw [List.reverse_cons, List.foldl_append]
    exact (ih hbefore).visit hfollows

end Plan

/-! ## The plan covers the grid -/

theorem Follows.lt {last cell : IndexedCell} (h : Follows last cell) :
    last.point.line < cell.point.line ∨
      last.point.line = cell.point.line ∧ last.point.column < cell.point.column := by
  rcases h with ⟨hline, hcol⟩ | hlt
  · exact .inr ⟨hline.symm, by omega⟩
  · exact .inl hlt

/-- No two cells of a grid given row by row are painted at one point. -/
theorem RowByRow.nodup {grid : List IndexedCell} (h : RowByRow grid) (args : PlanArgs Hsla) :
    (grid.map (paintedAt args)).Nodup := by
  have hlt : grid.Pairwise fun last cell => last.point.line < cell.point.line ∨
      last.point.line = cell.point.line ∧ last.point.column < cell.point.column := by
    have : IsTrans IndexedCell fun last cell => last.point.line < cell.point.line ∨
        last.point.line = cell.point.line ∧ last.point.column < cell.point.column :=
      ⟨fun _ _ _ hab hbc => by omega⟩
    exact (h.imp fun _ _ => Follows.lt).pairwise
  refine List.pairwise_map.mpr (hlt.imp fun {last cell} hcells heq => ?_)
  obtain ⟨hline, hcol⟩ := GridPoint.mk.inj heq
  omega

/-- Quads that stand for runs of cells at different points do not overlap. -/
theorem disjoint_of_forall₂ {quads : List (BgQuad Hsla)} {runs : List (List IndexedCell)}
    (hquads : List.Forall₂ (BgQuad.Denotes args) quads runs)
    (hnodup : (runs.flatten.map (paintedAt args)).Nodup) :
    quads.Pairwise fun quad quad' => ∀ p, ¬ (quad.Contains p ∧ quad'.Contains p) := by
  have hpoints : runs.flatten.map (paintedAt args) =
      quads.flatMap fun quad => rowPoints quad.point quad.cells := by
    rw [RunLog.flatMap_eq (g := fun run => run.map (paintedAt args)) hquads
      fun quad run h => h.points.symm, List.map_flatten, List.flatMap_def]
  rw [hpoints, List.nodup_flatMap] at hnodup
  refine hnodup.2.imp fun hdisjoint p hp => ?_
  exact hdisjoint (mem_rowPoints.mpr hp.1) (mem_rowPoints.mpr hp.2)

/-- Quads that stand for runs paint the cells of the runs, each in its colour. -/
theorem coloured_of_forall₂ {quads : List (BgQuad Hsla)} {runs : List (List IndexedCell)}
    (hquads : List.Forall₂ (BgQuad.Denotes args) quads runs) (p : GridPoint) (color : Hsla) :
    (∃ quad ∈ quads, quad.Contains p ∧ quad.color = color) ↔
      ∃ cell ∈ runs.flatten, paintedAt args cell = p ∧
        args.theme.convertColor (effectiveBg cell.cell) = color := by
  induction hquads with
  | nil => simp
  | @cons quad run quads runs h _ ih =>
    rw [List.flatten_cons]
    simp only [List.mem_cons, List.mem_append, or_and_right, exists_or, ih]
    refine or_congr ?_ Iff.rfl
    have hcontains : ∀ q, quad.Contains q ↔ q ∈ run.map (paintedAt args) := by
      intro q
      rw [h.points]
      exact mem_rowPoints.symm
    constructor
    · rintro ⟨_, rfl, hp, rfl⟩
      obtain ⟨cell, hcell, rfl⟩ := List.mem_map.mp ((hcontains p).mp hp)
      exact ⟨cell, hcell, rfl, h.color cell hcell⟩
    · rintro ⟨cell, hcell, rfl, rfl⟩
      exact ⟨quad, rfl, (hcontains _).mpr (List.mem_map_of_mem hcell), (h.color cell hcell).symm⟩

/-- The plan of a grid given row by row covers it: text leaves out only spacers, trivial blanks and the
padding behind an emoji. -/
theorem buildPlan_covers [DecidableEq Hsla] (args : PlanArgs Hsla) (grid : List IndexedCell)
    (hgrid : RowByRow grid) : Covers emojiPadding args grid (buildPlan grid args) := by
  have hinv : Plan.Inv args grid.reverse (grid.foldl (Plan.visit args) {}) := by
    have hback : grid.reverse.IsChain fun cell last => Follows last cell :=
      List.isChain_reverse.mpr hgrid
    simpa only [List.reverse_reverse] using Plan.Inv.foldl args hback
  have hbg := hinv.bg.flush
  have hspan := hinv.span.flush
  unfold Plan.BgLog at hbg
  unfold Plan.SpanLog at hspan
  rw [Plan.flush_activeBg, List.reverse_reverse] at hbg
  rw [Plan.flushSpan_activeSpan] at hspan
  obtain ⟨bgRuns, hquads, hcells⟩ := hbg.forall₂
  obtain ⟨runs, hspans, htext⟩ := hspan.forall₂
  refine ⟨?_, ?_, ⟨runs, hspans, htext⟩, ?_⟩
  · refine disjoint_of_forall₂ hquads ((hgrid.nodup args).sublist ?_)
    rw [hcells]
    exact List.filter_sublist.map _
  · intro p color
    refine (coloured_of_forall₂ hquads p color).trans ?_
    rw [hcells]
    unfold colouredCells
    simp only [List.mem_filter, decide_eq_true_eq, and_assoc]
    exact exists_congr fun cell => and_congr_right fun _ => and_left_comm
  · exact ((List.forall₂_and_left _ _).mp (hspans.imp fun span run h => ⟨h.len, h⟩)).1

/-- Arguments that leave every colour as it is. -/
def plainArgs : PlanArgs TermColor where
  startLineOffset := 0
  theme := { convertColor := id, ensureMinimumContrast := fun fg _ => fg, dimmed := id }
  base := { font := ⟨"monospace", [], none, 400, .normal⟩, fontSize := 14 }
  hyperlink := none

/-- A cell of the first line. -/
def cellAt (column : ℕ) (c : Char) (zerowidth : List Char) (flags : CellFlags) : IndexedCell where
  point := ⟨0, column⟩
  cell := { c := c, zerowidth := zerowidth, flags := flags }

/-- A wide emoji that a joiner follows, its spacer and an underlined blank. -/
def emojiLine : List IndexedCell :=
  [cellAt 0 '👩' ['\u200d'] {}, cellAt 1 ' ' [] { wideCharSpacer := true },
    cellAt 2 ' ' [] { underline := true }]

/-- A letter and a blank that both carry an accent, and an underlined blank. -/
def accentLine : List IndexedCell :=
  [cellAt 0 'e' ['\u0301'] {}, cellAt 1 ' ' ['\u0301'] {}, cellAt 2 ' ' [] { underline := true }]

theorem buildPlan_covers_emojiLine :
    Covers emojiPadding plainArgs emojiLine (buildPlan emojiLine plainArgs) :=
  buildPlan_covers plainArgs emojiLine (by unfold RowByRow Follows emojiLine; decide)

/-- A blank directly behind a cell with zero-width characters. -/
def directlyBehind (before : List IndexedCell) (cell : IndexedCell) : Bool :=
  cell.cell.c = ' ' && before.head?.any fun prev =>
    prev.point.line = cell.point.line && !prev.cell.zerowidth.isEmpty

/-- The spans of a plan that covers a grid have the text of its painted cells. -/
theorem Covers.flatMap_text {leftOut : List IndexedCell → IndexedCell → Bool}
    {grid : List IndexedCell} {plan : List (BgQuad Hsla) × List (TextSpan Hsla)}
    (h : Covers leftOut args grid plan) :
    plan.2.flatMap TextSpan.text = (paintedCells leftOut grid.reverse).flatMap cellText := by
  obtain ⟨runs, hspans, hflat⟩ := h.text
  rw [← hflat, RunLog.flatMap_eq hspans fun span run h => h.text, List.flatMap_def,
    List.flatMap_def, List.map_flatten, List.flatten_flatten, List.map_map]
  rfl

/-- Not only a blank directly behind a cell with zero-width characters is left out: the underlined blank
behind the spacer of the emoji is, and the one behind the blank with an accent is not. -/
theorem not_covers_directlyBehind :
    RowByRow emojiLine ∧ RowByRow accentLine ∧
      ¬ Covers directlyBehind plainArgs emojiLine (buildPlan emojiLine plainArgs) ∧
      ¬ Covers directlyBehind plainArgs accentLine (buildPlan accentLine plainArgs) := by
  refine ⟨by unfold RowByRow Follows emojiLine; decide, by unfold RowByRow Follows accentLine; decide,
    fun h => ?_, fun h => ?_⟩
  · exact absurd h.flatMap_text (by decide +kernel)
  · exact absurd h.flatMap_text (by decide +kernel)

end Termua.Element
