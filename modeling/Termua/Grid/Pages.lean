import Mathlib
import Termua.Grid.Scrolling
import Termua.Lib.Run

/-!
# The grid as a page

`Grid.view` is what a grid shows of its ring buffer: a page, the place of the display in it, and what
the operations depend on. `View.step` says what each operation does to it, in terms of the page only;
`step_view` says that the grid does just that and does not panic, on whichever path it takes.
-/

namespace Termua.Grid

open Scrollback (Page)

/-- What a grid shows, and the cursor's template. -/
structure View (T : Type) where
  page : Page (List T)
  lines : ℕ
  columns : ℕ
  limit : ℕ
  offset : ℕ
  template : T

/-- An operation of the grid. -/
inductive Op (T : Type) where
  | scrollUp (start stop positions : ℕ)
  | scrollDown (start stop positions : ℕ)
  | resetRegion (start stop : ℕ)
  | clearViewport
  | clearHistory
  | updateHistory (historySize : ℕ)
  | scrollDisplay (scroll : Scroll)
  | reset
  | modifyRow (line : ℤ) (edit : Row.Edit T)
  | setCursor (cursor : Cursor T)

variable {T D : Type} [DecidableEq D] [GridCell T D]

/-- The operations on a grid, `none` where one panics. -/
def step (g : Grid T) : Op T → Option (Grid T)
  | .scrollUp start stop positions => g.scrollUp start stop positions
  | .scrollDown start stop positions => g.scrollDown start stop positions
  | .resetRegion start stop => g.resetRegion start stop
  | .clearViewport => g.clearViewport
  | .clearHistory => g.clearHistory
  | .updateHistory historySize => g.updateHistory historySize
  | .scrollDisplay scroll => some (g.scrollDisplay scroll)
  | .reset => g.reset
  | .modifyRow line edit => g.modifyRow line edit.on
  | .setCursor cursor => some { g with cursor }

/-- The lines of a grid, the bottommost first. -/
def active (g : Grid T) : List (Row T × ℤ) := g.raw.ring.take g.raw.len

/-- The cells of rows with stable ids. -/
def cellsOf (r : List (Row T × ℤ)) : List (List T) := r.map fun x => x.1.inner

/-- What a grid shows. -/
def view (g : Grid T) : View T where
  page := Page.ofLines g.lines (cellsOf g.active)
  lines := g.lines
  columns := g.columns
  limit := g.maxScrollLimit
  offset := g.displayOffset
  template := g.cursor.template

/-- The ring buffer of the grid is in order. -/
def Wf (g : Grid T) : Prop := g.Holds g.active

namespace View

/-- The cells of a row reset with a template. -/
def blank (v : View T) : List T :=
  List.replicate v.columns (GridCell.cleared (GridCell.discriminant v.template))

/-- The offset of the display after a region scrolls up. -/
def offsetUp (v : View T) (start stop positions : ℕ) : ℕ :=
  if start ≠ 0 ∧ stop - start ≤ positions then v.offset
  else if v.offset ≠ 0 then min (v.offset + positions) v.limit
  else v.offset

/-- How many lines of a screen, given from the bottom, there are up to the last with a cell that is not
empty; a screen without any counts as one line when there is nothing above it. -/
def occupied (bare : Bool) : List (List T) → ℕ
  | [] => if bare then 1 else 0
  | row :: above => if row.all GridCell.isEmpty then occupied bare above else above.length + 1

/-- What an operation does to the view of a grid. -/
def step (v : View T) : Op T → View T
  | .scrollUp start stop positions =>
    { v with page := v.page.scrollUp v.limit v.blank start stop (min positions (stop - start))
             offset := v.offsetUp start stop positions }
  | .scrollDown start stop positions =>
    { v with page := v.page.scrollDown v.blank start stop (min positions (stop - start)) }
  | .resetRegion start stop => { v with page := v.page.clear v.blank start stop }
  | .clearViewport =>
    let n := occupied v.page.history.isEmpty v.page.screen.reverse
    { v with page := ⟨List.replicate v.lines v.blank,
                      ((v.page.screen.take n).reverse ++ v.page.history).take v.limit⟩
             offset := v.offsetUp 0 v.lines n }
  | .clearHistory => { v with page := { v.page with history := [] }, offset := 0 }
  | .updateHistory historySize =>
    { v with page := v.page.setLimit historySize, offset := min v.offset historySize
             limit := historySize }
  | .scrollDisplay scroll =>
    let size := v.page.history.length
    { v with
      offset := match scroll with
        | .delta count => min (max (v.offset + count) 0).toNat size
        | .pageUp => min (v.offset + v.lines) size
        | .pageDown => v.offset - v.lines
        | .top => size
        | .bottom => 0 }
  | .reset =>
    { v with page := ⟨List.replicate v.lines (List.replicate v.columns default), []⟩
             offset := 0, template := default }
  | .modifyRow line edit => { v with page := v.page.modify line edit.apply }
  | .setCursor cursor => { v with template := cursor.template }

/-- What the terminal promises of the arguments of an operation: regions of the screen, scrolled from
its top by no more than their height, and cells of the buffer. -/
def Valid (v : View T) : Op T → Prop
  | .scrollUp start stop positions =>
    start ≤ stop ∧ stop ≤ v.lines ∧ (start = 0 → positions ≤ stop)
  | .scrollDown start stop _ | .resetRegion start stop => start ≤ stop ∧ stop ≤ v.lines
  | .modifyRow line edit =>
    -(v.page.history.length : ℤ) ≤ line ∧ line < v.lines ∧ edit.Fits v.columns
  | _ => True

instance (v : View T) : (op : Op T) → Decidable (v.Valid op)
  | .scrollUp start stop positions =>
    inferInstanceAs (Decidable (start ≤ stop ∧ stop ≤ v.lines ∧ (start = 0 → positions ≤ stop)))
  | .scrollDown start stop _ | .resetRegion start stop =>
    inferInstanceAs (Decidable (start ≤ stop ∧ stop ≤ v.lines))
  | .modifyRow line edit =>
    inferInstanceAs (Decidable
      (-(v.page.history.length : ℤ) ≤ line ∧ line < v.lines ∧ edit.Fits v.columns))
  | .clearViewport | .clearHistory | .updateHistory _ | .scrollDisplay _ | .reset | .setCursor _ =>
    isTrue trivial

end View

/-! ## Views and what is held -/

section Views

variable {T D : Type} [GridCell T D] {g g' : Grid T} {r : List (Row T × ℤ)}

theorem Holds.active_eq (h : g.Holds r) : g.active = r := by
  unfold active
  rw [h.raw.len]
  exact (List.prefix_iff_eq_take.mp h.raw.prefix_ring).symm

theorem Holds.wf (h : g.Holds r) : g.Wf := by
  unfold Wf
  rw [h.active_eq]
  exact h

/-- The view of a grid that holds `r`. -/
theorem Holds.view_eq (h : g.Holds r) :
    g.view =
      { page := Page.ofLines g.lines (cellsOf r), lines := g.lines, columns := g.columns,
        limit := g.maxScrollLimit, offset := g.displayOffset, template := g.cursor.template } := by
  unfold view
  rw [h.active_eq]

theorem cellsOf_append (r r' : List (Row T × ℤ)) : cellsOf (r ++ r') = cellsOf r ++ cellsOf r' :=
  List.map_append

@[simp] theorem length_cellsOf (r : List (Row T × ℤ)) : (cellsOf r).length = r.length :=
  List.length_map _

theorem cellsOf_take (r : List (Row T × ℤ)) (n : ℕ) : cellsOf (r.take n) = (cellsOf r).take n :=
  List.map_take

theorem cellsOf_blank {fresh : List (Row T × ℤ)} {columns : ℕ} {template : T}
    (h : ∀ x ∈ fresh, x.1 = blankRow columns template) :
    cellsOf fresh = List.replicate fresh.length
      (List.replicate columns (GridCell.cleared (GridCell.discriminant template))) := by
  refine List.eq_replicate_iff.mpr ⟨length_cellsOf _, fun row hrow => ?_⟩
  obtain ⟨x, hx, rfl⟩ := List.mem_map.mp hrow
  rw [h x hx]
  rfl

/-- A list cut in two. -/
theorem exists_append {α : Type} (r : List α) {n : ℕ} (hn : n ≤ r.length) :
    ∃ a b, r = a ++ b ∧ a.length = n :=
  ⟨r.take n, r.drop n, (List.take_append_drop n r).symm, by rw [List.length_take]; omega⟩

/-- The lines of a grid around a region of the screen, with the `n` lowest lines of the region. -/
theorem exists_blocks {α : Type} (r : List α) (start stop n : ℕ) {lines : ℕ} (hlines : lines ≤ r.length)
    (hstop : stop ≤ lines) (hn : start + n ≤ stop) :
    ∃ below low high above history, r = below ++ ((low ++ high) ++ (above ++ history)) ∧
      below.length + stop = lines ∧ low.length = n ∧ start + (low.length + high.length) = stop ∧
      above.length = start := by
  obtain ⟨below, r₁, rfl, hbelow⟩ := exists_append r (n := lines - stop) (by omega)
  rw [List.length_append] at hlines
  obtain ⟨low, r₂, rfl, hlow⟩ := exists_append r₁ (n := n) (by omega)
  rw [List.length_append] at hlines
  obtain ⟨high, r₃, rfl, hhigh⟩ := exists_append r₂ (n := stop - start - n) (by omega)
  rw [List.length_append] at hlines
  obtain ⟨above, history, rfl, habove⟩ := exists_append r₃ (n := start) (by omega)
  exact ⟨below, low, high, above, history, by simp only [List.append_assoc], by omega, hlow,
    by omega, habove⟩

end Views

/-! ## The operations on the view -/

variable {g : Grid T}

/-- `scroll_up` on the view. -/
theorem scrollUp_view (h : g.Wf) {start stop positions : ℕ}
    (hv : g.view.Valid (.scrollUp start stop positions)) :
    ∃ g', g.scrollUp start stop positions = some g' ∧ g'.Wf ∧
      g'.view = g.view.step (.scrollUp start stop positions) := by
  obtain ⟨hle, hlines, htop⟩ := hv
  have hlines' : stop ≤ g.lines := hlines
  have hholds : g.Holds g.active := h
  -- the rows cut at the borders of the region and at the lines that leave it
  obtain ⟨below, region, gone, above, history, hr, hbelow, hlow, hstop, habove⟩ :=
    exists_blocks g.active start stop (stop - start - min positions (stop - start)) h.lines_le hlines
      (by omega)
  rw [hr] at hholds
  obtain ⟨g', fresh, r', hg', hfresh, hr', hholds', hup⟩ := scrollUp_holds hholds hbelow habove
    (by omega) (by omega) htop
  refine ⟨g', hg', hholds'.wf, ?_⟩
  rw [hholds'.view_eq, hr', hholds.view_eq]
  have hframe := hup.frame
  unfold View.step
  simp only [View.mk.injEq, hframe.columns, hframe.lines, hframe.maxScrollLimit, hframe.cursor,
    and_true, true_and]
  refine ⟨?_, hup.displayOffset⟩
  -- the same cut on the page, part by part
  have hscroll := Page.scrollUp_blocks g.maxScrollLimit g.lines start stop
    (min positions (stop - start)) g.view.blank (cellsOf below) (cellsOf region) (cellsOf gone)
    (cellsOf above) (cellsOf history)
    (by simp only [length_cellsOf]; omega) (by simp only [length_cellsOf]; omega)
    (by simp only [length_cellsOf]; omega) (by simp only [length_cellsOf]; omega)
  have hkept : cellsOf (if start = 0 then (gone ++ history).take g.maxScrollLimit else history) =
      if start = 0 then (cellsOf gone ++ cellsOf history).take g.maxScrollLimit
      else cellsOf history := by
    split
    · rw [cellsOf_take, cellsOf_append]
    · rfl
  have hblank : cellsOf fresh = List.replicate (min positions (stop - start)) g.view.blank := by
    rw [cellsOf_blank hup.blank, hfresh, show gone.length = min positions (stop - start) by omega]
    rfl
  rw [← hkept, ← hblank] at hscroll
  simp only [← cellsOf_append] at hscroll
  exact hscroll.symm

/-- `scroll_down` on the view, on each of its paths. -/
theorem scrollDown_view (h : g.Wf) {start stop positions : ℕ}
    (hv : g.view.Valid (.scrollDown start stop positions)) :
    ∃ g', g.scrollDown start stop positions = some g' ∧ g'.Wf ∧
      g'.view = g.view.step (.scrollDown start stop positions) := by
  obtain ⟨hle, hlines⟩ := hv
  have hlines' : stop ≤ g.lines := hlines
  have hholds : g.Holds g.active := h
  obtain ⟨below, gone, region, above, history, hr, hbelow, hlow, hstop, habove⟩ :=
    exists_blocks g.active start stop (min positions (stop - start)) h.lines_le hlines (by omega)
  rw [hr] at hholds
  obtain ⟨g', fresh, r', hg', hfresh, hr', hholds', hdown⟩ := scrollDown_holds hholds hbelow
    (by rw [List.length_append]; omega) hstop hlow
  refine ⟨g', hg', hholds'.wf, ?_⟩
  rw [hholds'.view_eq, hr', hholds.view_eq]
  have hframe := hdown.frame
  unfold View.step
  simp only [View.mk.injEq, hframe.columns, hframe.lines, hframe.maxScrollLimit, hframe.cursor,
    hdown.displayOffset, and_true]
  have hscroll := Page.scrollDown_blocks g.lines start stop (min positions (stop - start))
    g.view.blank (cellsOf below) (cellsOf region) (cellsOf gone) (cellsOf above) (cellsOf history)
    (by simp only [length_cellsOf]; omega) (by simp only [length_cellsOf]; omega)
    (by simp only [length_cellsOf]; omega) (by simp only [length_cellsOf]; omega)
  have hblank : cellsOf fresh = List.replicate (min positions (stop - start)) g.view.blank := by
    rw [cellsOf_blank hdown.blank, hfresh, hlow]
    rfl
  rw [← hblank] at hscroll
  simp only [← cellsOf_append] at hscroll
  exact hscroll.symm

/-- Lines reset one by one are a cleared region. -/
theorem resetLines_holds (offset : ℕ) (lowest highest : ℤ) (start stop : ℕ)
    {below region above : List (Row T × ℤ)} (h : g.Holds (below ++ (region ++ above)))
    (hbelow : below.length + stop = g.lines) (hregion : start + region.length = stop) :
    ∃ raw fresh, (lineRange start stop).foldlM (resetLine g.cursor.template) g.raw = some raw ∧
      fresh.length = region.length ∧
      cellsOf fresh = List.replicate region.length g.view.blank ∧
      fresh.map Prod.snd = region.map Prod.snd ∧
      ({ g with raw, displayOffset := offset, stableRowMin := lowest,
                stableRowMax := highest } : Grid T).Holds (below ++ (fresh ++ above)) := by
  obtain ⟨raw, fresh, hraw, hholds, hblank, hids⟩ :=
    resetBlock_holds start stop h (by omega) (by omega)
  have hfresh : fresh.length = region.length := by simpa using congrArg List.length hids
  have hlen := h.length_le
  have hle := h.lines_le
  simp only [List.length_append] at hlen hle
  refine ⟨raw, fresh, hraw, hfresh, ?_, hids, h.update hholds.raw ?_ ?_⟩
  · rw [cellsOf_blank hblank, hfresh]
    rfl
  · simp only [List.length_append, hfresh]
    omega
  · simp only [List.length_append, hfresh]
    omega

/-- `reset_region` on the view. -/
theorem resetRegion_view (h : g.Wf) {start stop : ℕ}
    (hv : g.view.Valid (.resetRegion start stop)) :
    ∃ g', g.resetRegion start stop = some g' ∧ g'.Wf ∧
      g'.view = g.view.step (.resetRegion start stop) := by
  obtain ⟨hle, hlines⟩ := hv
  have hholds : g.Holds g.active := h
  obtain ⟨below, region, none, above, history, hr, hbelow, hlow, hstop, habove⟩ :=
    exists_blocks g.active start stop (stop - start) h.lines_le hlines (by omega)
  obtain rfl : none = [] := List.length_eq_zero_iff.mp (by omega)
  rw [List.append_nil] at hr
  rw [hr] at hholds
  obtain ⟨raw, fresh, hraw, hlength, hblank, -, hholds'⟩ := resetLines_holds g.displayOffset
    g.stableRowMin g.stableRowMax start stop hholds hbelow (by omega)
  refine ⟨{ g with raw }, ?_, hholds'.wf, ?_⟩
  · unfold resetRegion
    rw [hraw]
    rfl
  · rw [hholds'.view_eq, hholds.view_eq]
    unfold View.step
    simp only [View.mk.injEq, and_true]
    have hclear := Page.clear_blocks g.lines start stop g.view.blank (cellsOf below)
      (cellsOf region) (cellsOf above) (cellsOf history) (by simp only [length_cellsOf]; omega)
      (by simp only [length_cellsOf]; omega) (by simp only [length_cellsOf]; omega)
    rw [length_cellsOf, ← hblank] at hclear
    simp only [← cellsOf_append] at hclear
    exact hclear.symm

section History

variable {T D : Type} [GridCell T D] {g : Grid T}

theorem Holds.length_history {r : List (Row T × ℤ)} (h : g.Holds r) :
    g.view.page.history.length = r.length - g.lines := by
  rw [h.view_eq]
  show ((cellsOf r).drop g.lines).length = _
  rw [List.length_drop, length_cellsOf]

/-- Of the lines of a grid only the first `n` are left, and the bounds of their ids are known. -/
structure Shrunk (g g' : Grid T) (n offset limit : ℕ) : Prop where
  holds : g'.Holds (g.active.take n)
  bounded : g'.Bounded (g.active.take n)
  lines : g'.lines = g.lines
  columns : g'.columns = g.columns
  cursor : g'.cursor = g.cursor
  maxScrollLimit : g'.maxScrollLimit = limit
  displayOffset : g'.displayOffset = offset

theorem shrink_holds (h : g.Wf) {n : ℕ} (offset limit : ℕ) (hle : g.lines ≤ n)
    (hn : n ≤ g.active.length) (hlimit : n ≤ g.lines + limit) {raw : Storage T}
    (hraw : raw = g.raw.shrinkLines (g.active.length - n) ∨ n = g.active.length ∧ raw = g.raw) :
    ∃ g', ({ g with raw, displayOffset := offset, maxScrollLimit := limit } :
        Grid T).recalcStableRowBounds = some g' ∧ g.Shrunk g' n offset limit := by
  have hpos := h.lines_pos
  have hshrunk : raw.Holds g.columns g.lines (g.active.take n) := by
    rcases hraw with rfl | ⟨rfl, rfl⟩
    · have := Storage.shrinkLines_holds h.raw (k := g.active.length - n) (by omega)
      rwa [show g.active.length - (g.active.length - n) = n by omega] at this
    · rw [List.take_length]
      exact h.raw
  have hlen : (g.active.take n).length = n := by
    rw [List.length_take]
    exact min_eq_left hn
  have hholds : ({ g with raw, displayOffset := offset, maxScrollLimit := limit } :
      Grid T).Holds (g.active.take n) :=
    ⟨hshrunk, h.columns_pos, h.lines_pos, hle.trans hlen.ge, hlen.le.trans hlimit⟩
  obtain ⟨lowest, highest, heq, hbounded⟩ := recalcStableRowBounds_eq hholds
  exact ⟨_, heq, hholds.update hholds.raw hholds.lines_le hholds.length_le, hbounded, rfl, rfl, rfl,
    rfl, rfl⟩

theorem ofLines_take {R : Type} (lines : List R) {n m : ℕ} (hn : n ≤ m) :
    Page.ofLines n (lines.take m) = ⟨(Page.ofLines n lines).screen,
      (Page.ofLines n lines).history.take (m - n)⟩ := by
  unfold Page.ofLines
  rw [List.take_take, min_eq_left hn, List.drop_take]

theorem clearHistory_shrunk (h : g.Wf) :
    ∃ g', g.clearHistory = some g' ∧ g.Shrunk g' g.lines 0 g.maxScrollLimit := by
  have hholds : g.Holds g.active := h
  unfold clearHistory
  rw [hholds.historySize]
  exact shrink_holds h 0 g.maxScrollLimit (le_refl _) h.lines_le (Nat.le_add_right _ _) (.inl rfl)

theorem updateHistory_shrunk (h : g.Wf) (n : ℕ) :
    ∃ g', g.updateHistory n = some g' ∧
      g.Shrunk g' (min g.active.length (g.lines + n)) (min g.displayOffset n) n := by
  have hholds : g.Holds g.active := h
  have hle := h.lines_le
  have hhistory := hholds.historySize
  refine shrink_holds h (min g.displayOffset n) n (by omega) (min_le_left _ _) (by omega) ?_
  split
  · left
    congr 1
    omega
  · right
    exact ⟨by omega, rfl⟩

/-- `clear_history` on the view. -/
theorem clearHistory_view (h : g.Wf) :
    ∃ g', g.clearHistory = some g' ∧ g'.Wf ∧ g'.view = g.view.step .clearHistory := by
  obtain ⟨g', hg', hs⟩ := clearHistory_shrunk h
  refine ⟨g', hg', hs.holds.wf, ?_⟩
  rw [hs.holds.view_eq, hs.lines, hs.columns, hs.cursor, hs.maxScrollLimit, hs.displayOffset,
    cellsOf_take, ofLines_take _ (le_refl _), Nat.sub_self, List.take_zero]
  rfl

/-- `update_history` on the view. -/
theorem updateHistory_view (h : g.Wf) (n : ℕ) :
    ∃ g', g.updateHistory n = some g' ∧ g'.Wf ∧ g'.view = g.view.step (.updateHistory n) := by
  obtain ⟨g', hg', hs⟩ := updateHistory_shrunk h n
  refine ⟨g', hg', hs.holds.wf, ?_⟩
  have htake : cellsOf (g.active.take (min g.active.length (g.lines + n))) =
      (cellsOf g.active).take (g.lines + n) := by
    rw [cellsOf_take]
    rcases le_total g.active.length (g.lines + n) with hl | hl
    · rw [min_eq_left hl, List.take_of_length_le (by rw [length_cellsOf]),
        List.take_of_length_le (by rw [length_cellsOf]; exact hl)]
    · rw [min_eq_right hl]
  rw [hs.holds.view_eq, hs.lines, hs.columns, hs.cursor, hs.maxScrollLimit, hs.displayOffset, htake,
    ofLines_take _ (Nat.le_add_right _ _), Nat.add_sub_cancel_left]
  rfl

/-- `scroll_display` on the view. -/
theorem scrollDisplay_view (h : g.Wf) (scroll : Scroll) :
    (g.scrollDisplay scroll).Wf ∧
      (g.scrollDisplay scroll).view = g.view.step (.scrollDisplay scroll) := by
  have hholds : g.Holds g.active := h
  have hholds' : (g.scrollDisplay scroll).Holds g.active :=
    hholds.update hholds.raw hholds.lines_le hholds.length_le
  refine ⟨hholds'.wf, ?_⟩
  have hsize : g.historySize = g.view.page.history.length := by
    rw [hholds.historySize, hholds.length_history]
  rw [hholds'.view_eq]
  unfold scrollDisplay View.step
  rw [hsize]
  cases scroll <;> rfl

/-- Cells of a line are rewritten, and it keeps its id. -/
theorem modifyRow_holds (h : g.Wf) {line : ℤ} {edit : Row.Edit T}
    (hv : g.view.Valid (.modifyRow line edit)) :
    ∃ x row' raw, g.active[position g.lines line]? = some x ∧
      row'.inner = edit.apply x.1.inner ∧ g.modifyRow line edit.on = some { g with raw } ∧
      ({ g with raw } : Grid T).Holds (g.active.set (position g.lines line) (row', x.2)) := by
  obtain ⟨htop, hbottom, hfits⟩ := hv
  have hholds : g.Holds g.active := h
  have hbottom' : line < g.lines := hbottom
  have hfits' : edit.Fits g.columns := hfits
  have hle := h.lines_le
  rw [hholds.length_history] at htop
  have hpos : position g.lines line < g.active.length := by
    unfold position
    omega
  obtain ⟨x, hx⟩ : ∃ x, g.active[position g.lines line]? = some x :=
    ⟨_, List.getElem?_eq_getElem hpos⟩
  obtain ⟨row', hrow', hclean, hinner⟩ := (hholds.raw.clean (List.mem_of_getElem? hx)).edit hfits'
  have hedit (row row'' : Row T) (hrow : row.Clean g.columns) (hm : edit.on row = some row'') :
      row''.Clean g.columns := by
    obtain ⟨row₁, hrow₁, hclean₁, -⟩ := hrow.edit hfits'
    rw [hrow₁] at hm
    exact Option.some.inj hm ▸ hclean₁
  obtain ⟨raw, hraw, hholds'⟩ := Storage.modifyRow_holds hholds.raw hbottom' hedit
    (Ring.updateAt_eq_some hx (b := (row', x.2)) (by rw [hrow']; rfl))
  refine ⟨x, row', raw, hx, hinner, ?_, hholds.update hholds' (by rw [List.length_set]; exact hle)
    (by rw [List.length_set]; exact h.length_le)⟩
  unfold modifyRow
  rw [hraw]
  rfl

/-- Cells of a line are rewritten on the view. -/
theorem modifyRow_view (h : g.Wf) {line : ℤ} {edit : Row.Edit T}
    (hv : g.view.Valid (.modifyRow line edit)) :
    ∃ g', g.modifyRow line edit.on = some g' ∧ g'.Wf ∧
      g'.view = g.view.step (.modifyRow line edit) := by
  obtain ⟨x, row', raw, hx, hinner, hg', hfinal⟩ := modifyRow_holds h hv
  have hholds : g.Holds g.active := h
  have hbottom : line < g.lines := hv.2.1
  have htop := hv.1
  rw [hholds.length_history] at htop
  have hle := h.lines_le
  refine ⟨{ g with raw }, hg', hfinal.wf, ?_⟩
  have hcells : cellsOf (g.active.set (position g.lines line) (row', x.2)) =
      (cellsOf g.active).modify (position g.lines line) edit.apply := by
    unfold cellsOf
    rw [List.map_set, List.modify_eq_set_getElem?, List.getElem?_map, hx]
    simp only [Option.map_some, Option.map_eq_map, Option.getD_some, hinner]
  rw [hfinal.view_eq, hcells, hholds.view_eq]
  unfold View.step
  simp only [View.mk.injEq, and_true]
  refine (Page.modify_ofLines (by rw [length_cellsOf]; exact hle) ?_ _).symm
  rw [Storage.cast_position hbottom]
  omega

end History

end Termua.Grid
