import Mathlib
import Termua.Cast.Screen
import Termua.Lib.RunLog

/-!
# The paint plan

`build_plan` of `gpui_term/src/element.rs` goes once over the cells of a grid and merges them into
background quads and text spans. Both are runs of neighbours in one line, with different reasons to
break: `BgLog.visitBg` and `SpanLog.pushCell` say that what is merged stands next to each other.

Colours are floating point numbers in the source; here they are a type of their own, and what the theme
computes of them is a parameter.
-/

namespace Termua.Element

open Termua.Cast

/-! ## Styles -/

/-- `UnderlineStyle`. -/
structure UnderlineStyle (Hsla : Type) where
  color : Option Hsla
  thickness : ℚ
  wavy : Bool
  deriving DecidableEq

/-- `StrikethroughStyle`. -/
structure StrikethroughStyle (Hsla : Type) where
  color : Option Hsla
  thickness : ℚ
  deriving DecidableEq

/-- `FontStyle`. -/
inductive FontStyle
  | normal
  | italic
  | oblique
  deriving DecidableEq

/-- `Font`. -/
structure Font where
  family : String
  features : List (String × ℕ)
  fallbacks : Option (List String)
  weight : ℚ
  style : FontStyle
  deriving DecidableEq

/-- `TextRun`. -/
structure TextRun (Hsla : Type) where
  len : ℕ
  font : Font
  color : Hsla
  backgroundColor : Option Hsla
  underline : Option (UnderlineStyle Hsla)
  strikethrough : Option (StrikethroughStyle Hsla)
  deriving DecidableEq

/-- `HighlightStyle`, as far as `cell_style` reads it. -/
structure HighlightStyle (Hsla : Type) where
  color : Option Hsla
  underline : Option (UnderlineStyle Hsla)

/-- `TextStyle`, as far as `build_plan` reads it: its font and its font size. -/
structure TextStyle where
  font : Font
  fontSize : ℚ

/-- What the theme and the minimum contrast make of colours. -/
structure Theme (Hsla : Type) where
  convertColor : TermColor → Hsla
  ensureMinimumContrast : Hsla → Hsla → Hsla
  /-- The colour with its alpha times 0.7. -/
  dimmed : Hsla → Hsla

/-- The arguments of `build_plan` besides the grid. -/
structure PlanArgs (Hsla : Type) where
  startLineOffset : ℤ
  theme : Theme Hsla
  base : TextStyle
  hyperlink : Option (HighlightStyle Hsla × SelectionRange)

variable {Hsla : Type}

/-- `cell_is_trivial`. -/
def cellIsTrivial (cell : Cell) : Bool :=
  if cell.c ≠ ' ' then false
  else if cell.bg ≠ .named .background then false
  else if cell.hyperlink.isSome then false
  else !(cell.flags.inverse || cell.flags.underline || cell.flags.doubleUnderline ||
    cell.flags.curlyUnderline || cell.flags.dottedUnderline || cell.flags.dashedUnderline ||
    cell.flags.strikeout)

/-- `preserve_exact_colors`: box drawing, geometric shapes and the glyphs of prompts. -/
def preserveExactColors (ch : Char) : Bool :=
  (0x2500 ≤ ch.toNat && ch.toNat ≤ 0x259F) || (0x25A0 ≤ ch.toNat && ch.toNat ≤ 0x25FF) ||
    (0xE0B0 ≤ ch.toNat && ch.toNat ≤ 0xE0D4)

/-- `cell_style`. -/
def cellStyle (args : PlanArgs Hsla) (cell : IndexedCell) (fg bg : TermColor) : TextRun Hsla :=
  let flags := cell.cell.flags
  let plain := args.theme.convertColor fg
  let legible :=
    if preserveExactColors cell.cell.c then plain
    else args.theme.ensureMinimumContrast plain (args.theme.convertColor bg)
  let color := if flags.dim then args.theme.dimmed legible else legible
  let underlined := flags.underline || flags.doubleUnderline || flags.curlyUnderline ||
    flags.dottedUnderline || flags.dashedUnderline || cell.cell.hyperlink.isSome
  let run : TextRun Hsla :=
    { len := cell.cell.c.utf8Size
      color
      backgroundColor := none
      font := { args.base.font with
        weight := if flags.bold then 700 else args.base.font.weight
        style := if flags.italic then .italic else .normal }
      underline :=
        if underlined then some { color := some color, thickness := 1, wavy := flags.curlyUnderline }
        else none
      strikethrough :=
        if flags.strikeout then some { color := some color, thickness := 1 } else none }
  match args.hyperlink with
  | some (style, range) =>
    if range.start.le cell.point && cell.point.le range.stop then
      { run with
        underline := style.underline.or run.underline
        color := style.color.getD run.color }
    else run
  | none => run

/-! ## Quads and spans -/

/-- `BgQuad`. -/
structure BgQuad (Hsla : Type) where
  point : GridPoint
  cells : ℕ
  color : Hsla
  deriving DecidableEq

/-- `TextSpan`. -/
structure TextSpan (Hsla : Type) where
  start : GridPoint
  text : List Char
  style : TextRun Hsla
  fontSize : ℚ
  deriving DecidableEq

/-- `TextSpanBuilder`. -/
structure TextSpanBuilder (Hsla : Type) where
  start : GridPoint
  text : List Char
  cells : ℕ
  style : TextRun Hsla
  fontSize : ℚ

namespace TextSpanBuilder

/-- `TextSpanBuilder::new`. -/
def new (start : GridPoint) (ch : Char) (style : TextRun Hsla) (fontSize : ℚ) :
    TextSpanBuilder Hsla where
  start
  text := [ch]
  cells := 1
  style
  fontSize

/-- `compatible_with`. -/
def compatibleWith [DecidableEq Hsla] (span : TextSpanBuilder Hsla) (style : TextRun Hsla)
    (point : GridPoint) : Bool :=
  span.start.line = point.line && span.start.column + span.cells = point.column &&
    span.style.font = style.font && span.style.color = style.color &&
    span.style.backgroundColor = style.backgroundColor && span.style.underline = style.underline &&
    span.style.strikethrough = style.strikethrough

/-- `push_char`. -/
def pushChar (span : TextSpanBuilder Hsla) (ch : Char) : TextSpanBuilder Hsla :=
  { span with
    text := span.text ++ [ch]
    style := { span.style with len := span.style.len + ch.utf8Size }
    cells := span.cells + 1 }

/-- `push_zerowidth`. -/
def pushZerowidth (span : TextSpanBuilder Hsla) (chars : List Char) : TextSpanBuilder Hsla :=
  chars.foldl (fun span ch =>
    { span with
      text := span.text ++ [ch]
      style := { span.style with len := span.style.len + ch.utf8Size } }) span

/-- `finish`. -/
def finish (span : TextSpanBuilder Hsla) : TextSpan Hsla where
  start := span.start
  text := span.text
  style := span.style
  fontSize := span.fontSize

end TextSpanBuilder

/-! ## The pass -/

/-- The background run that is open. -/
structure ActiveBg (Hsla : Type) where
  line : ℤ
  startCol : ℕ
  color : Hsla
  cells : ℕ

/-- The variables of the loop in `build_plan`. -/
structure Plan (Hsla : Type) where
  bgQuads : List (BgQuad Hsla) := []
  spans : List (TextSpan Hsla) := []
  activeBg : Option (ActiveBg Hsla) := none
  activeSpan : Option (TextSpanBuilder Hsla) := none
  lastLine : Option ℤ := none
  prevCellHadZw : Bool := false

namespace Plan

/-- `flush_bg`. -/
def flushBg (plan : Plan Hsla) : Plan Hsla :=
  match plan.activeBg with
  | none => plan
  | some bg =>
    { plan with
      activeBg := none
      bgQuads := plan.bgQuads ++
        [{ point := ⟨bg.line, bg.startCol⟩, cells := bg.cells, color := bg.color }] }

/-- `flush_span`. -/
def flushSpan (plan : Plan Hsla) : Plan Hsla :=
  match plan.activeSpan with
  | none => plan
  | some span => { plan with activeSpan := none, spans := plan.spans ++ [span.finish] }

/-- The loop comes to a cell of another line. -/
def enterLine (plan : Plan Hsla) (line : ℤ) : Plan Hsla :=
  if plan.lastLine ≠ some line then
    { plan.flushBg.flushSpan with prevCellHadZw := false, lastLine := some line }
  else plan

/-- The loop on the background of a cell. -/
def visitBg [DecidableEq Hsla] (plan : Plan Hsla) (theme : Theme Hsla) (line : ℤ) (col : ℕ)
    (bg : TermColor) : Plan Hsla :=
  if bg ≠ .named .background then
    let color := theme.convertColor bg
    match plan.activeBg with
    | some active =>
      if active.line = line ∧ active.color = color then
        { plan with activeBg := some { active with cells := active.cells + 1 } }
      else { plan.flushBg with activeBg := some ⟨line, col, color, 1⟩ }
    | none => { plan with activeBg := some ⟨line, col, color, 1⟩ }
  else plan.flushBg

/-- The loop on the text of a cell that is painted. -/
def pushCell [DecidableEq Hsla] (plan : Plan Hsla) (style : TextRun Hsla) (point : GridPoint)
    (cell : Cell) (fontSize : ℚ) : Plan Hsla :=
  let fresh := (TextSpanBuilder.new point cell.c style fontSize).pushZerowidth cell.zerowidth
  match plan.activeSpan with
  | some span =>
    if span.compatibleWith style point then
      { plan with activeSpan := some ((span.pushChar cell.c).pushZerowidth cell.zerowidth) }
    else { plan.flushSpan with activeSpan := some fresh }
  | none => { plan with activeSpan := some fresh }

/-- The loop on the text of a cell. -/
def visitText [DecidableEq Hsla] (plan : Plan Hsla) (args : PlanArgs Hsla) (line : ℤ)
    (cell : IndexedCell) (fg bg : TermColor) : Plan Hsla :=
  if cell.cell.flags.wideCharSpacer then plan
  else if cell.cell.c = ' ' ∧ plan.prevCellHadZw then { plan with prevCellHadZw := false }
  else
    let plan := { plan with prevCellHadZw := !cell.cell.zerowidth.isEmpty }
    if cellIsTrivial cell.cell then plan
    else
      plan.pushCell (cellStyle args cell fg bg) ⟨line, cell.point.column⟩ cell.cell args.base.fontSize

/-- The body of the loop in `build_plan`. -/
def visit [DecidableEq Hsla] (args : PlanArgs Hsla) (plan : Plan Hsla) (cell : IndexedCell) :
    Plan Hsla :=
  let line := args.startLineOffset + cell.point.line
  let fg := if cell.cell.flags.inverse then cell.cell.bg else cell.cell.fg
  let bg := if cell.cell.flags.inverse then cell.cell.fg else cell.cell.bg
  ((plan.enterLine line).visitBg args.theme line cell.point.column bg).visitText args line cell fg bg

end Plan

/-- `build_plan`. -/
def buildPlan [DecidableEq Hsla] (grid : List IndexedCell) (args : PlanArgs Hsla) :
    List (BgQuad Hsla) × List (TextSpan Hsla) :=
  let plan := (grid.foldl (Plan.visit args) {}).flushBg.flushSpan
  (plan.bgQuads, plan.spans)

/-! ## What the outputs stand for -/

variable {args : PlanArgs Hsla} {plan : Plan Hsla} {cell : IndexedCell} {before run : List IndexedCell}

/-- The point at which a cell is painted. -/
def paintedAt (args : PlanArgs Hsla) (cell : IndexedCell) : GridPoint :=
  ⟨args.startLineOffset + cell.point.line, cell.point.column⟩

/-- The text colour of a cell after inverse video. -/
def effectiveFg (cell : Cell) : TermColor := if cell.flags.inverse then cell.bg else cell.fg

/-- The background of a cell after inverse video. -/
def effectiveBg (cell : Cell) : TermColor := if cell.flags.inverse then cell.fg else cell.bg

/-- The characters of a cell. -/
def cellText (cell : IndexedCell) : List Char := cell.cell.c :: cell.cell.zerowidth

/-- The length of a text in bytes. -/
def byteLength (text : List Char) : ℕ := (text.map Char.utf8Size).sum

/-- A style but for its length. -/
def TextRun.look (style : TextRun Hsla) : TextRun Hsla := { style with len := 0 }

/-- Points next to each other in one line. -/
def rowPoints (start : GridPoint) (cells : ℕ) : List GridPoint :=
  (List.range cells).map fun i => ⟨start.line, start.column + i⟩

/-- A quad is painted over the cells of the run, in the colour of their background. -/
structure BgQuad.Denotes (args : PlanArgs Hsla) (quad : BgQuad Hsla) (run : List IndexedCell) :
    Prop where
  points : run.map (paintedAt args) = rowPoints quad.point quad.cells
  color : ∀ cell ∈ run, args.theme.convertColor (effectiveBg cell.cell) = quad.color

/-- A span is the text of the run, whose cells stand next to each other from the start of the span on and
all look as the span does. -/
structure TextSpan.Denotes (args : PlanArgs Hsla) (span : TextSpan Hsla) (run : List IndexedCell) :
    Prop where
  points : run.map (paintedAt args) = rowPoints span.start run.length
  text : span.text = run.flatMap cellText
  look : ∀ cell ∈ run, (cellStyle args cell (effectiveFg cell.cell) (effectiveBg cell.cell)).look =
    span.style.look
  len : span.style.len = byteLength span.text

/-- The quad of an open background run. -/
def ActiveBg.Denotes (args : PlanArgs Hsla) (bg : ActiveBg Hsla) (run : List IndexedCell) : Prop :=
  BgQuad.Denotes args { point := ⟨bg.line, bg.startCol⟩, cells := bg.cells, color := bg.color } run

/-- The span of an open builder, which counts its cells. -/
structure TextSpanBuilder.Denotes (args : PlanArgs Hsla) (span : TextSpanBuilder Hsla)
    (run : List IndexedCell) : Prop where
  cells : span.cells = run.length
  span : span.finish.Denotes args run

theorem rowPoints_succ (start : GridPoint) (cells : ℕ) : rowPoints start (cells + 1) =
    rowPoints start cells ++ [⟨start.line, start.column + cells⟩] := by
  unfold rowPoints
  rw [List.range_succ, List.map_append, List.map_singleton]

theorem mem_rowPoints {start p : GridPoint} {cells : ℕ} : p ∈ rowPoints start cells ↔
    p.line = start.line ∧ start.column ≤ p.column ∧ p.column < start.column + cells := by
  obtain ⟨line, column⟩ := p
  unfold rowPoints
  simp only [List.mem_map, List.mem_range, GridPoint.mk.injEq]
  constructor
  · rintro ⟨i, hi, rfl, rfl⟩
    exact ⟨rfl, by omega, by omega⟩
  · rintro ⟨rfl, hle, hlt⟩
    exact ⟨column - start.column, by omega, rfl, by omega⟩

/-! ## The background runs -/

theorem ActiveBg.Denotes.single {line : ℤ} (hline : line = args.startLineOffset + cell.point.line) :
    ActiveBg.Denotes args
      ⟨line, cell.point.column, args.theme.convertColor (effectiveBg cell.cell), 1⟩ [cell] where
  points := by rw [hline]; rfl
  color := by
    intro other hother
    rw [List.mem_singleton.mp hother]

/-- An open run goes on with the next cell of its line. -/
theorem ActiveBg.Denotes.extend {bg : ActiveBg Hsla} (h : bg.Denotes args run)
    (hline : bg.line = args.startLineOffset + cell.point.line)
    (hcol : bg.startCol + bg.cells = cell.point.column)
    (hcolor : bg.color = args.theme.convertColor (effectiveBg cell.cell)) :
    ActiveBg.Denotes args { bg with cells := bg.cells + 1 } (run ++ [cell]) where
  points := by
    rw [List.map_append, h.points, rowPoints_succ, List.map_singleton]
    simp only [paintedAt, hline, hcol]
  color := by
    intro other hother
    rcases List.mem_append.mp hother with hrun | hlast
    · exact h.color other hrun
    · rw [List.mem_singleton.mp hlast]
      exact hcolor.symm

namespace Plan

variable {items : List IndexedCell} {line : ℤ}

/-- The background quads of the plan, with the run that is open, stand for these cells. -/
def BgLog (args : PlanArgs Hsla) (plan : Plan Hsla) (items : List IndexedCell) : Prop :=
  RunLog (BgQuad.Denotes args) (ActiveBg.Denotes args) plan.bgQuads plan.activeBg items

/-- The text spans of the plan, with the builder that is open, stand for these cells. -/
def SpanLog (args : PlanArgs Hsla) (plan : Plan Hsla) (items : List IndexedCell) : Prop :=
  RunLog (TextSpan.Denotes args) (TextSpanBuilder.Denotes args) plan.spans plan.activeSpan items

theorem flushBg_eq_of_none (h : plan.activeBg = none) : plan.flushBg = plan := by
  unfold flushBg
  rw [h]

theorem flushBg_eq_of_some {bg : ActiveBg Hsla} (h : plan.activeBg = some bg) :
    plan.flushBg = { plan with
      activeBg := none
      bgQuads := plan.bgQuads ++
        [{ point := ⟨bg.line, bg.startCol⟩, cells := bg.cells, color := bg.color }] } := by
  unfold flushBg
  rw [h]

@[simp] theorem flushBg_activeBg : plan.flushBg.activeBg = none := by
  cases h : plan.activeBg with
  | none => rw [flushBg_eq_of_none h, h]
  | some bg => rw [flushBg_eq_of_some h]

/-- Flushing the background leaves the text as it is. -/
theorem flushBg_text : plan.flushBg.spans = plan.spans ∧
    plan.flushBg.activeSpan = plan.activeSpan ∧ plan.flushBg.lastLine = plan.lastLine ∧
    plan.flushBg.prevCellHadZw = plan.prevCellHadZw := by
  cases h : plan.activeBg with
  | none => rw [flushBg_eq_of_none h]; exact ⟨rfl, rfl, rfl, rfl⟩
  | some bg => rw [flushBg_eq_of_some h]; exact ⟨rfl, rfl, rfl, rfl⟩

theorem BgLog.flushBg (h : plan.BgLog args items) : plan.flushBg.BgLog args items := by
  unfold BgLog at h ⊢
  rw [flushBg_activeBg]
  cases hactive : plan.activeBg with
  | none =>
    rw [flushBg_eq_of_none hactive]
    rwa [hactive] at h
  | some bg =>
    rw [flushBg_eq_of_some hactive]
    rw [hactive] at h
    exact h.close fun run hrun => hrun

theorem SpanLog.of_text {plan' : Plan Hsla} (h : plan.SpanLog args items)
    (hspans : plan'.spans = plan.spans) (hactive : plan'.activeSpan = plan.activeSpan) :
    plan'.SpanLog args items := by
  unfold SpanLog
  rwa [hspans, hactive]

theorem flushSpan_eq_of_none (h : plan.activeSpan = none) : plan.flushSpan = plan := by
  unfold flushSpan
  rw [h]

theorem flushSpan_eq_of_some {span : TextSpanBuilder Hsla} (h : plan.activeSpan = some span) :
    plan.flushSpan = { plan with activeSpan := none, spans := plan.spans ++ [span.finish] } := by
  unfold flushSpan
  rw [h]

@[simp] theorem flushSpan_activeSpan : plan.flushSpan.activeSpan = none := by
  cases h : plan.activeSpan with
  | none => rw [flushSpan_eq_of_none h, h]
  | some span => rw [flushSpan_eq_of_some h]

/-- Flushing the text leaves the background as it is. -/
theorem flushSpan_bg : plan.flushSpan.bgQuads = plan.bgQuads ∧
    plan.flushSpan.activeBg = plan.activeBg := by
  cases h : plan.activeSpan with
  | none => rw [flushSpan_eq_of_none h]; exact ⟨rfl, rfl⟩
  | some span => rw [flushSpan_eq_of_some h]; exact ⟨rfl, rfl⟩

theorem BgLog.of_bg {plan' : Plan Hsla} (h : plan.BgLog args items)
    (hquads : plan'.bgQuads = plan.bgQuads) (hactive : plan'.activeBg = plan.activeBg) :
    plan'.BgLog args items := by
  unfold BgLog
  rwa [hquads, hactive]

theorem SpanLog.flushSpan (h : plan.SpanLog args items) : plan.flushSpan.SpanLog args items := by
  unfold SpanLog at h ⊢
  rw [flushSpan_activeSpan]
  cases hactive : plan.activeSpan with
  | none =>
    rw [flushSpan_eq_of_none hactive]
    rwa [hactive] at h
  | some span =>
    rw [flushSpan_eq_of_some hactive]
    rw [hactive] at h
    exact h.close fun run hrun => hrun.span

/-- Flushing both leaves the logs as they are. -/
theorem BgLog.flush (h : plan.BgLog args items) : plan.flushBg.flushSpan.BgLog args items :=
  h.flushBg.of_bg flushSpan_bg.1 flushSpan_bg.2

theorem SpanLog.flush (h : plan.SpanLog args items) : plan.flushBg.flushSpan.SpanLog args items :=
  (h.of_text flushBg_text.1 flushBg_text.2.1).flushSpan

theorem flush_activeBg : plan.flushBg.flushSpan.activeBg = none :=
  flushSpan_bg.2.trans flushBg_activeBg

variable [DecidableEq Hsla]

/-- The loop on a background goes on with the run of the cell before only in its own column. -/
theorem BgLog.visitBg (h : plan.BgLog args items)
    (hline : line = args.startLineOffset + cell.point.line)
    (hnext : ∀ bg, plan.activeBg = some bg → bg.line = line →
      bg.startCol + bg.cells = cell.point.column) :
    (plan.visitBg args.theme line cell.point.column (effectiveBg cell.cell)).BgLog args
      (items ++ if effectiveBg cell.cell ≠ .named .background then [cell] else []) := by
  unfold Plan.visitBg
  by_cases hbg : effectiveBg cell.cell ≠ .named .background
  · rw [if_pos hbg, if_pos hbg]
    cases hactive : plan.activeBg with
    | none =>
      unfold BgLog at h ⊢
      rw [hactive] at h
      exact h.start (.single hline)
    | some active =>
      by_cases hsame : active.line = line ∧ active.color =
          args.theme.convertColor (effectiveBg cell.cell)
      · simp only [if_pos hsame]
        unfold BgLog at h ⊢
        rw [hactive] at h
        exact h.extend fun run hrun =>
          hrun.extend (hsame.1.trans hline) (hnext active hactive hsame.1) hsame.2
      · simp only [if_neg hsame]
        have hflush := h.flushBg
        unfold BgLog at hflush ⊢
        rw [flushBg_activeBg] at hflush
        exact hflush.start (.single hline)
  · rw [if_neg hbg, if_neg hbg, List.append_nil]
    exact h.flushBg

/-- After a cell the open background run ends with it. -/
theorem visitBg_next {col : ℕ} {bg : TermColor} {theme : Theme Hsla} {active : ActiveBg Hsla}
    (hnext : ∀ bg, plan.activeBg = some bg → bg.line = line → bg.startCol + bg.cells = col)
    (h : (plan.visitBg theme line col bg).activeBg = some active) :
    active.line = line ∧ active.startCol + active.cells = col + 1 := by
  unfold Plan.visitBg at h
  by_cases hbg : bg ≠ .named .background
  · rw [if_pos hbg] at h
    cases hactive : plan.activeBg with
    | none =>
      rw [hactive] at h
      cases h
      exact ⟨rfl, rfl⟩
    | some old =>
      rw [hactive] at h
      by_cases hsame : old.line = line ∧ old.color = theme.convertColor bg
      · simp only [if_pos hsame] at h
        cases h
        have := hnext old hactive hsame.1
        exact ⟨hsame.1, by simp only; omega⟩
      · simp only [if_neg hsame] at h
        cases h
        exact ⟨rfl, rfl⟩
  · rw [if_neg hbg, flushBg_activeBg] at h
    cases h

/-- The loop on a background leaves the text as it is. -/
theorem visitBg_text (plan : Plan Hsla) (theme : Theme Hsla) (line : ℤ) (col : ℕ) (bg : TermColor) :
    (plan.visitBg theme line col bg).spans = plan.spans ∧
    (plan.visitBg theme line col bg).activeSpan = plan.activeSpan ∧
    (plan.visitBg theme line col bg).lastLine = plan.lastLine ∧
    (plan.visitBg theme line col bg).prevCellHadZw = plan.prevCellHadZw := by
  unfold Plan.visitBg
  by_cases hbg : bg ≠ .named .background
  · rw [if_pos hbg]
    cases hactive : plan.activeBg with
    | none => exact ⟨rfl, rfl, rfl, rfl⟩
    | some old =>
      by_cases hsame : old.line = line ∧ old.color = theme.convertColor bg
      · simp only [if_pos hsame, and_self]
      · simp only [if_neg hsame]
        exact flushBg_text
  · rw [if_neg hbg]
    exact flushBg_text

end Plan

/-! ## The text runs -/

namespace TextSpanBuilder

variable {span : TextSpanBuilder Hsla}

/-- Zero-width characters make a span longer and take no cell. -/
theorem pushZerowidth_eq (chars : List Char) : span.pushZerowidth chars = { span with
    text := span.text ++ chars
    style := { span.style with len := span.style.len + byteLength chars } } := by
  unfold pushZerowidth
  induction chars generalizing span with
  | nil => simp [byteLength]
  | cons ch chars ih =>
    rw [List.foldl_cons, ih]
    simp [byteLength, Nat.add_assoc]

/-- A span begins with a cell. -/
theorem Denotes.single {fontSize : ℚ} :
    ((new (paintedAt args cell) cell.cell.c
      (cellStyle args cell (effectiveFg cell.cell) (effectiveBg cell.cell)) fontSize).pushZerowidth
        cell.cell.zerowidth).Denotes args [cell] := by
  rw [pushZerowidth_eq]
  refine ⟨rfl, rfl, ?_, ?_, ?_⟩
  · rw [List.flatMap_singleton]
    rfl
  · intro other hother
    rw [List.mem_singleton.mp hother]
    rfl
  · have hlen : (cellStyle args cell (effectiveFg cell.cell) (effectiveBg cell.cell)).len =
        cell.cell.c.utf8Size := by
      unfold cellStyle
      cases args.hyperlink with
      | none => rfl
      | some link => simp only; split <;> rfl
    simp [finish, new, hlen, byteLength]

variable [DecidableEq Hsla]

/-- Styles are compatible where they look the same and the point is the next one of the span. -/
theorem compatibleWith_iff {style : TextRun Hsla} {point : GridPoint} :
    span.compatibleWith style point = true ↔
      point = ⟨span.start.line, span.start.column + span.cells⟩ ∧ style.look = span.style.look := by
  obtain ⟨line, column⟩ := point
  unfold compatibleWith TextRun.look
  simp only [Bool.and_eq_true, decide_eq_true_eq, GridPoint.mk.injEq, TextRun.mk.injEq]
  constructor
  · rintro ⟨⟨⟨⟨⟨⟨hline, hcol⟩, hfont⟩, hcolor⟩, hbg⟩, hunder⟩, hstrike⟩
    exact ⟨⟨hline.symm, hcol.symm⟩, trivial, hfont.symm, hcolor.symm, hbg.symm, hunder.symm, hstrike.symm⟩
  · rintro ⟨⟨hline, hcol⟩, -, hfont, hcolor, hbg, hunder, hstrike⟩
    exact ⟨⟨⟨⟨⟨⟨hline.symm, hcol.symm⟩, hfont.symm⟩, hcolor.symm⟩, hbg.symm⟩, hunder.symm⟩,
      hstrike.symm⟩

/-- A span goes on with a cell that is compatible with it. -/
theorem Denotes.extend (h : span.Denotes args run)
    (hcompat : span.compatibleWith
      (cellStyle args cell (effectiveFg cell.cell) (effectiveBg cell.cell)) (paintedAt args cell)) :
    ((span.pushChar cell.cell.c).pushZerowidth cell.cell.zerowidth).Denotes args (run ++ [cell]) := by
  obtain ⟨hpoint, hlook⟩ := compatibleWith_iff.mp hcompat
  rw [pushZerowidth_eq]
  refine ⟨?_, ?_, ?_, ?_, ?_⟩
  · rw [List.length_append, ← h.cells]
    rfl
  · rw [List.map_append, h.span.points, List.length_append, List.length_singleton, rowPoints_succ,
      List.map_singleton, hpoint, h.cells]
    rfl
  · show span.text ++ [cell.cell.c] ++ cell.cell.zerowidth = _
    rw [List.flatMap_append, ← h.span.text, List.flatMap_singleton, List.append_assoc]
    rfl
  · intro other hother
    rcases List.mem_append.mp hother with hrun | hlast
    · exact h.span.look other hrun
    · rw [List.mem_singleton.mp hlast]
      exact hlook
  · have hlen : span.style.len = byteLength span.text := h.span.len
    simp [finish, pushChar, hlen, byteLength, Nat.add_assoc]

end TextSpanBuilder

namespace Plan

variable {items : List IndexedCell} {line : ℤ} [DecidableEq Hsla]

theorem SpanLog.pushCell {fontSize : ℚ} (h : plan.SpanLog args items)
    (hline : line = args.startLineOffset + cell.point.line) :
    (plan.pushCell (cellStyle args cell (effectiveFg cell.cell) (effectiveBg cell.cell))
      ⟨line, cell.point.column⟩ cell.cell fontSize).SpanLog args (items ++ [cell]) := by
  have hpoint : (⟨line, cell.point.column⟩ : GridPoint) = paintedAt args cell := by
    rw [hline]
    rfl
  rw [hpoint]
  unfold Plan.pushCell
  cases hactive : plan.activeSpan with
  | none =>
    unfold SpanLog at h ⊢
    rw [hactive] at h
    exact h.start .single
  | some span =>
    by_cases hcompat : span.compatibleWith
        (cellStyle args cell (effectiveFg cell.cell) (effectiveBg cell.cell)) (paintedAt args cell)
    · simp only [if_pos hcompat]
      unfold SpanLog at h ⊢
      rw [hactive] at h
      exact h.extend fun run hrun => hrun.extend hcompat
    · simp only [if_neg hcompat]
      have hflush := h.flushSpan
      unfold SpanLog at hflush ⊢
      rw [flushSpan_activeSpan] at hflush
      exact hflush.start .single

end Plan

end Termua.Element
