import Mathlib
import Termua.Grid.Cell
import Termua.Grid.Clearing

/-!
# Runs of the grid

What holds of a grid after any operations that the terminal promises to be valid: it does not panic and
shows the page that the operations make (`run_view`), its scrollback is the newest of the rows that left
at the top of the screen, and the display stays in the scrollback and on its rows.
-/

namespace Termua.Grid

open Scrollback (Page)

variable {T D : Type} [DecidableEq D] [GridCell T D] {g : Grid T} {v : View T} {ops : List (Op T)}

namespace View

/-- Every operation of a run meets a condition where it is taken. -/
def Along (ok : View T → Op T → Prop) : View T → List (Op T) → Prop
  | _, [] => True
  | v, op :: ops => ok v op ∧ Along ok (v.step op) ops

/-- The view after a run. -/
def run (v : View T) (ops : List (Op T)) : View T := ops.foldl step v

/-- The view of a new grid. -/
def new (lines columns limit : ℕ) : View T where
  page := ⟨List.replicate lines (List.replicate columns default), []⟩
  lines := lines
  columns := columns
  limit := limit
  offset := 0
  template := default

omit [DecidableEq D] in
theorem Along.mono {ok ok' : View T → Op T → Prop} (hok : ∀ v op, ok v op → ok' v op)
    (h : v.Along ok ops) : v.Along ok' ops := by
  induction ops generalizing v with
  | nil => trivial
  | cons op ops ih => exact ⟨hok v op h.1, ih h.2⟩

end View

/-- What holds of the rows of a grid, of what happened and of the arguments so far is kept along a run,
when it is kept by each operation on a grid in order. -/
theorem run_invariant {ok : View T → Op T → Prop} {I : Grid T → Prop} (h : g.Wf) (hI : I g)
    (hstep : ∀ g op g', g.Wf → I g → g.view.Valid op → ok g.view op → g.step op = some g' →
      g'.Wf → g'.view = g.view.step op → I g')
    (hok : g.view.Along (fun v op => v.Valid op ∧ ok v op) ops) :
    ∃ g', ops.foldlM step g = some g' ∧ g'.Wf ∧ g'.view = g.view.run ops ∧ I g' := by
  induction ops generalizing g with
  | nil => exact ⟨g, rfl, h, rfl, hI⟩
  | cons op ops ih =>
    obtain ⟨⟨hvalid, hop⟩, hops⟩ := hok
    obtain ⟨m, hm, hwf, hview⟩ := step_view h hvalid
    rw [← hview] at hops
    obtain ⟨g', hg', hwf', hview', hI'⟩ :=
      ih hwf (hstep g op m h hI hvalid hop hm hwf hview) hops
    refine ⟨g', ?_, hwf', ?_, hI'⟩
    · rw [List.foldlM_cons, hm]
      exact hg'
    · rw [hview', hview]
      rfl

/-- A run of valid operations does not panic and does to the view what the operations say. -/
theorem run_view (h : g.Wf) (hok : g.view.Along View.Valid ops) :
    ∃ g', ops.foldlM step g = some g' ∧ g'.Wf ∧ g'.view = g.view.run ops := by
  obtain ⟨g', hg', hwf, hview, -⟩ := run_invariant (I := fun _ => True) h trivial
    (fun _ _ _ _ _ _ _ _ _ _ => trivial) (hok.mono fun _ _ hv => ⟨hv, trivial⟩)
  exact ⟨g', hg', hwf, hview⟩

/-! ## Reading a grid -/

section Reading

variable {T D : Type} [GridCell T D] {g : Grid T}

theorem Wf.length_history (h : g.Wf) : g.historySize = g.view.page.history.length := by
  have hholds : g.Holds g.active := h
  rw [hholds.historySize, hholds.length_history]

theorem Wf.length_screen (h : g.Wf) : g.view.page.screen.length = g.lines := by
  have hle := h.lines_le
  show ((cellsOf g.active).take g.lines).reverse.length = _
  rw [List.length_reverse, List.length_take, length_cellsOf]
  omega

/-- The row of a line of the buffer. -/
theorem Wf.exists_row (h : g.Wf) {line : ℤ} (htop : -(g.historySize : ℤ) ≤ line)
    (hbottom : line < g.lines) :
    ∃ x, g.active[position g.lines line]? = some x ∧ g.raw.index line = some x.1 := by
  have hholds : g.Holds g.active := h
  have hle := h.lines_le
  have hsize := hholds.historySize
  have hpos : position g.lines line < g.active.length := by
    unfold position
    omega
  have hx := List.getElem?_eq_getElem hpos
  exact ⟨_, hx, Storage.index_eq h.raw hbottom hx⟩

/-- The rows of a grid are read as its page has them. -/
theorem Wf.index_eq (h : g.Wf) {line : ℤ} (htop : -(g.historySize : ℤ) ≤ line)
    (hbottom : line < g.lines) :
    ∃ row, g.raw.index line = some row ∧ g.view.page.row? line = some row.inner := by
  obtain ⟨x, hx, hrow⟩ := h.exists_row htop hbottom
  refine ⟨x.1, hrow, ?_⟩
  show (Page.ofLines g.lines (cellsOf g.active)).row? line = _
  rw [Page.row?_ofLines (by rw [length_cellsOf]; exact h.lines_le)
    (by rw [Storage.cast_position hbottom]; omega)]
  unfold cellsOf
  rw [List.getElem?_map, hx]
  rfl

end Reading

/-- Whatever valid operations a new grid takes, it does not panic, and every line of its buffer has the
cells that the operations on the page give it: rotating the ring and swapping its rows look the same. -/
theorem runs_show_page (lines columns limit : ℕ) (ops : List (Op T)) (hlines : 0 < lines)
    (hcols : 0 < columns) (hok : (View.new lines columns limit).Along View.Valid ops) :
    ∃ g g', new lines columns limit = some g ∧ ops.foldlM step g = some g' ∧
      g'.view = (View.new lines columns limit).run ops ∧
      g'.historySize = ((View.new lines columns limit).run ops).page.history.length ∧
      ∀ line, -(g'.historySize : ℤ) ≤ line → line < g'.lines →
        ∃ row, g'.raw.index line = some row ∧
          ((View.new lines columns limit).run ops).page.row? line = some row.inner := by
  obtain ⟨g, hg, hwf, hview⟩ := new_view (T := T) limit hlines hcols
  change g.view = View.new lines columns limit at hview
  rw [← hview] at hok ⊢
  obtain ⟨g', hg', hwf', hview'⟩ := run_view hwf hok
  refine ⟨g, g', hg, hg', hview', ?_, fun line htop hbottom => ?_⟩
  · rw [hwf'.length_history, hview']
  · rw [← hview']
    exact hwf'.index_eq htop hbottom

/-- A line is written, and scrolls into the history. -/
theorem runs_show_page_write_scroll :
    ∃ g g' : Grid Cell, new 2 2 1 = some g ∧
      [.modifyRow 0 (.cell 0 fun c => { c with c := 'a' }), .scrollUp 0 2 1].foldlM step g = some g' ∧
      ∃ row, g'.raw.index (-1) = some row ∧ row.inner = [{ c := 'a' }, {}] := by
  obtain ⟨g, g', hg, hg', -, hsize, hrows⟩ := runs_show_page 2 2 1
    [.modifyRow 0 (.cell 0 fun c : Cell => { c with c := 'a' }), .scrollUp 0 2 1] (by decide) (by decide)
    ⟨by decide, by decide, trivial⟩
  obtain ⟨row, hrow, hcells⟩ := hrows (-1) (by rw [hsize]; decide) (by omega)
  exact ⟨g, g', hg, hg', row, hrow, (Option.some.inj hcells).symm⟩

/-! ## The scrollback -/

namespace View

omit [DecidableEq D]

/-- The rows that an operation moves off the top of the screen, the last first. -/
def leaving (v : View T) : Op T → List (List T)
  | .scrollUp start stop positions =>
    if start = 0 then (v.page.screen.take (min positions stop)).reverse else []
  | .clearViewport =>
    (v.page.screen.take (occupied v.page.history.isEmpty v.page.screen.reverse)).reverse
  | _ => []

/-- The rows that left at the top of the screen during a run, the newest first, since the history was
last cleared. -/
def log : View T → List (Op T) → List (List T) → List (List T)
  | _, [], rows => rows
  | v, op :: ops, rows =>
    (v.step op).log ops (match op with
      | .clearHistory | .reset => []
      | op => v.leaving op ++ rows)

/-- The history is not given more room, and what is in it is not rewritten. -/
def KeepsHistory (v : View T) : Op T → Prop
  | .updateHistory historySize => historySize ≤ v.limit
  | .modifyRow line _ => 0 ≤ line
  | _ => True

/-- An operation keeps the history the newest rows of the log. -/
theorem recent_step {rows : List (List T)} (h : v.page.Recent v.limit rows) {op : Op T}
    (hop : v.KeepsHistory op) :
    (v.step op).page.Recent (v.step op).limit
      (match op with
        | .clearHistory | .reset => []
        | op => v.leaving op ++ rows) := by
  cases op with
  | scrollUp start stop positions =>
    by_cases hstart : start = 0
    · subst hstart
      simp only [step, leaving, Nat.sub_zero, if_true, Page.scrollUp]
      exact h.push
    · simp only [step, leaving, if_neg hstart, Page.scrollUp, List.nil_append]
      exact h
  | clearViewport => exact h.push
  | updateHistory historySize => exact h.setLimit hop
  | modifyRow line edit =>
    simp only [step, leaving, List.nil_append, Page.modify]
    rw [if_pos (show 0 ≤ line from hop)]
    exact h
  | clearHistory => exact (List.take_nil).symm
  | reset => exact (List.take_nil).symm
  | scrollDown start stop positions => exact h
  | resetRegion start stop => exact h
  | scrollDisplay scroll => exact h
  | setCursor cursor => exact h

theorem recent_run {rows : List (List T)} (h : v.page.Recent v.limit rows)
    (hops : v.Along KeepsHistory ops) :
    (v.run ops).page.Recent (v.run ops).limit (v.log ops rows) := by
  induction ops generalizing v rows with
  | nil => exact h
  | cons op ops ih => exact ih (recent_step h hops.1) hops.2

end View

/-- The scrollback of a grid is the newest of the rows that left at the top of its screen since it was
last cleared, as many as the limit allows, whatever regions scrolled in between. -/
theorem scrollback_eq_log (lines columns limit : ℕ) (ops : List (Op T)) (hlines : 0 < lines)
    (hcols : 0 < columns)
    (hok : (View.new lines columns limit).Along (fun v op => v.Valid op ∧ v.KeepsHistory op) ops) :
    ∃ g g', new lines columns limit = some g ∧ ops.foldlM step g = some g' ∧
      g'.historySize = min g'.maxScrollLimit ((View.new lines columns limit).log ops []).length ∧
      ∀ i < g'.historySize, (g'.raw.index (-1 - i)).map Row.inner =
        ((View.new lines columns limit).log ops [])[i]? := by
  obtain ⟨g, hg, hwf, hview⟩ := new_view (T := T) limit hlines hcols
  change g.view = View.new lines columns limit at hview
  have hrecent : g.view.page.Recent g.view.limit [] := by
    rw [hview]
    exact List.take_nil.symm
  rw [← hview] at hok ⊢
  obtain ⟨g', hg', hwf', hview'⟩ := run_view hwf (hok.mono fun _ _ h => h.1)
  have hlog := View.recent_run hrecent (hok.mono fun _ _ h => h.2)
  rw [← hview'] at hlog
  refine ⟨g, g', hg, hg', ?_, fun i hi => ?_⟩
  · rw [hwf'.length_history, hlog.length]
    rfl
  · obtain ⟨row, hrow, hcells⟩ := hwf'.index_eq
      (show -(g'.historySize : ℤ) ≤ -1 - i by omega) (by omega)
    rw [hwf'.length_history, hlog.length] at hi
    unfold Page.row? at hcells
    rw [if_neg (by omega), hlog, show (-(-1 - (i : ℤ)) - 1).toNat = i by omega,
      List.getElem?_take_of_lt (by omega)] at hcells
    rw [hrow, hcells]
    rfl

/-- What scrolled off the top enters the scrollback, what scrolled off a region below it does not. -/
theorem scrollback_eq_log_region :
    ∃ g g' : Grid Cell, new 3 1 1 = some g ∧
      [.modifyRow 0 (.cell 0 fun c => { c with c := 'a' }), .scrollUp 1 3 1, .scrollUp 0 2 1].foldlM step g =
        some g' ∧
      g'.historySize = min g'.maxScrollLimit 1 ∧
      ∀ i < g'.historySize, (g'.raw.index (-1 - i)).map Row.inner = [[{ c := 'a' }]][i]? := by
  have h := scrollback_eq_log 3 1 1
    [.modifyRow 0 (.cell 0 fun c : Cell => { c with c := 'a' }), .scrollUp 1 3 1, .scrollUp 0 2 1]
    (by decide) (by decide)
    ⟨⟨by decide, le_refl (0 : ℤ)⟩, ⟨by decide, trivial⟩, ⟨by decide, trivial⟩, trivial⟩
  have hlog : (View.new 3 1 1).log [.modifyRow 0 (.cell 0 fun c : Cell => { c with c := 'a' }),
      .scrollUp 1 3 1, .scrollUp 0 2 1] [] = [[{ c := 'a' }]] := rfl
  rwa [hlog] at h

/-! ## The display -/

namespace View

omit [DecidableEq D]

/-- A region below the top of the screen scrolls up only while the display is at the bottom: `scroll_up`
moves the display with it, and the scrollback does not grow. -/
def KeepsDisplay (v : View T) : Op T → Prop
  | .scrollUp start stop positions => start ≠ 0 → positions < stop - start → v.offset = 0
  | _ => True

theorem offsetUp_le {n : ℕ} (h : v.offset ≤ v.page.history.length) {start stop positions : ℕ}
    (hstart : start = 0 ∨ v.offset = 0 ∨ stop - start ≤ positions)
    (hn : (start = 0 ∧ n = min v.limit (positions + v.page.history.length)) ∨
      n = v.page.history.length ∧ start ≠ 0) (hlimit : v.page.history.length ≤ v.limit) :
    v.offsetUp start stop positions ≤ n := by
  unfold offsetUp
  split
  · omega
  · split <;> omega

/-- The display stays within the scrollback. -/
theorem offset_le_step (h : v.offset ≤ v.page.history.length)
    (hlimit : v.page.history.length ≤ v.limit) (hscreen : v.page.screen.length = v.lines)
    (hpos : 0 < v.lines) {op : Op T} (hv : v.Valid op) (hop : v.KeepsDisplay op) :
    (v.step op).offset ≤ (v.step op).page.history.length := by
  cases op with
  | scrollUp start stop positions =>
    obtain ⟨hle, hstop, htop⟩ := hv
    refine offsetUp_le h ?_ ?_ hlimit
    -- the display moves only with the lines that come into the history
    · have hkeep : start ≠ 0 → positions < stop - start → v.offset = 0 := hop
      by_cases h0 : start = 0
      · exact .inl h0
      · rcases Nat.lt_or_ge positions (stop - start) with hlt | hge
        · exact .inr (.inl (hkeep h0 hlt))
        · exact .inr (.inr hge)
    · by_cases h0 : start = 0
      · left
        have := htop h0
        simp only [step, Page.scrollUp, h0, if_true, List.length_take, List.length_append,
          List.length_reverse, hscreen, true_and]
        omega
      · right
        simp only [step, Page.scrollUp, h0, if_false, ne_eq, not_false_eq_true, and_true]
  -- as the scroll of the whole screen by the lines that are not empty
  | clearViewport =>
    have hn := occupied_le v.page.history.isEmpty v.page.screen.reverse
    rw [List.length_reverse, hscreen] at hn
    refine @offsetUp_le _ v _ h 0 v.lines _ (.inl rfl) (.inl ⟨rfl, ?_⟩) hlimit
    simp only [step, List.length_take, List.length_append, List.length_reverse, hscreen]
    omega
  | updateHistory historySize =>
    simp only [step, Page.setLimit, List.length_take]
    omega
  | scrollDisplay scroll => cases scroll <;> simp only [step] <;> omega
  | modifyRow line edit =>
    simp only [step, Page.modify]
    split
    · exact h
    · rw [List.length_modify]
      exact h
  | clearHistory => exact Nat.zero_le _
  | reset => exact Nat.zero_le _
  | scrollDown start stop positions => exact h
  | resetRegion start stop => exact h
  | setCursor cursor => exact h

/-- The rows on display, the topmost first. -/
def displayed (v : View T) : List (List T) := v.page.displayed v.lines v.offset

/-- What happens to the screen happens below the display, which is moved back, or moves the screen into
scrollback that has room for it. -/
def BelowDisplay (v : View T) : Op T → Prop
  | .scrollUp start stop positions =>
    start = 0 ∧ v.offset ≠ 0 ∧ v.offset + positions ≤ v.limit ∧ v.lines ≤ v.offset + stop
  | .scrollDown start _ _ | .resetRegion start _ => v.lines ≤ v.offset + start
  | .modifyRow line _ => 0 ≤ line ∧ (v.lines : ℤ) ≤ v.offset + line
  | .setCursor _ => True
  | _ => False

/-- The rows on display stay. -/
theorem displayed_step (h : v.offset ≤ v.page.history.length)
    (hscreen : v.page.screen.length = v.lines) {op : Op T} (hv : v.Valid op)
    (hop : v.BelowDisplay op) : (v.step op).displayed = v.displayed := by
  -- rows above `start` are untouched
  have hkept {start : ℕ} (hle : start ≤ v.lines) (rows : List (List T)) :
      (v.page.screen.take start ++ rows).take start = v.page.screen.take start :=
    List.take_left' (by rw [List.length_take]; omega)
  cases op with
  | scrollUp start stop positions =>
    obtain ⟨rfl, hne, hlimit, hlines⟩ := hop
    obtain ⟨-, hstop, htop⟩ := hv
    have hpositions := htop rfl
    have hmin : min positions stop = positions := min_eq_left hpositions
    unfold displayed
    simp only [step, offsetUp, ne_eq, not_true_eq_false, false_and, if_false, if_pos hne, hmin,
      min_eq_left hlimit, Nat.sub_zero]
    exact Page.displayed_scrollUp h hpositions (by omega) hlimit hlines
  | scrollDown start stop positions =>
    obtain ⟨hle, hstop⟩ := hv
    exact Page.displayed_congr _ rfl (hkept (hle.trans hstop) _) h hop
  | resetRegion start stop =>
    obtain ⟨hle, hstop⟩ := hv
    exact Page.displayed_congr _ rfl (hkept (hle.trans hstop) _) h hop
  | modifyRow line edit =>
    obtain ⟨hpos, hline⟩ := hop
    have hmod : (v.step (.modifyRow line edit)).page =
        ⟨v.page.screen.modify line.toNat edit.apply, v.page.history⟩ := by
      simp only [step, Page.modify]
      rw [if_pos hpos]
    have htake : (v.page.screen.modify line.toNat edit.apply).take line.toNat =
        v.page.screen.take line.toNat := by
      refine List.ext_getElem? fun i => ?_
      by_cases hi : i < line.toNat
      · have hne : line.toNat ≠ i := by omega
        rw [List.getElem?_take_of_lt hi, List.getElem?_take_of_lt hi, List.getElem?_modify]
        simp [hne]
      · rw [List.getElem?_eq_none (by rw [List.length_take]; omega),
          List.getElem?_eq_none (by rw [List.length_take]; omega)]
    have hbelow : v.lines ≤ v.offset + line.toNat := by omega
    exact Page.displayed_congr (v.step (.modifyRow line edit)).page (by rw [hmod])
      (by rw [hmod]; exact htake) h hbelow
  | setCursor cursor => rfl
  | _ => exact hop.elim

theorem BelowDisplay.keepsDisplay {op : Op T} (h : v.BelowDisplay op) : v.KeepsDisplay op := by
  cases op with
  | scrollUp start stop positions => exact fun hne => absurd h.1 hne
  | _ => trivial

end View

/-- The row that the display of a grid has at the line `i` from its top. -/
def displayedRow (g : Grid T) (i : ℕ) : Option (List T) :=
  (g.raw.index (i - g.displayOffset)).map Row.inner

omit [DecidableEq D] in
theorem Wf.displayedRow_eq (h : g.Wf) (hoffset : g.displayOffset ≤ g.historySize) {i : ℕ}
    (hi : i < g.lines) : g.displayedRow i = g.view.displayed[i]? := by
  obtain ⟨row, hrow, hcells⟩ := h.index_eq
    (show -(g.historySize : ℤ) ≤ i - g.displayOffset by omega) (by omega)
  have hlen : (g.view.page.history.take g.displayOffset).reverse.length = g.displayOffset := by
    rw [List.length_reverse, List.length_take, ← h.length_history]
    omega
  have hhist := h.length_history
  unfold displayedRow View.displayed Page.displayed
  rw [hrow, Option.map_some, ← hcells]
  show _ =
    (((g.view.page.history.take g.displayOffset).reverse ++ g.view.page.screen).take g.lines)[i]?
  rw [List.getElem?_take_of_lt hi]
  unfold Page.row?
  split
  · rw [List.getElem?_append_right (by omega), hlen]
    congr 1
    omega
  · rw [List.getElem?_append_left (by omega),
      List.getElem?_reverse (by rw [List.length_take]; omega), List.length_take,
      List.getElem?_take_of_lt (by omega)]
    congr 1
    omega

/-- A run that keeps the display within the scrollback. -/
theorem run_display (h : g.Wf) (hoffset : g.displayOffset ≤ g.historySize)
    (hok : g.view.Along (fun v op => v.Valid op ∧ v.KeepsDisplay op) ops) :
    ∃ g', ops.foldlM step g = some g' ∧ g'.Wf ∧ g'.view = g.view.run ops ∧
      g'.displayOffset ≤ g'.historySize := by
  refine run_invariant (I := fun g => g.displayOffset ≤ g.historySize) h hoffset
    (fun g op g' hwf hI hv hop _ hwf' hview => ?_) hok
  have hstep := View.offset_le_step (by rw [← hwf.length_history]; exact hI)
    (by
      have hlen := hwf.length_le
      have hholds : g.Holds g.active := hwf
      rw [hholds.length_history]
      show _ ≤ g.maxScrollLimit
      omega) hwf.length_screen hwf.lines_pos hv hop
  rw [← hview, ← hwf'.length_history] at hstep
  exact hstep

/-- The rows on display stay along a run that happens below them. -/
theorem run_displayedRow (h : g.Wf) (hoffset : g.displayOffset ≤ g.historySize)
    (hok : g.view.Along (fun v op => v.Valid op ∧ v.BelowDisplay op) ops) :
    ∃ g', ops.foldlM step g = some g' ∧ g'.displayOffset ≤ g'.historySize ∧ g'.lines = g.lines ∧
      ∀ i < g.lines, g'.displayedRow i = g.displayedRow i := by
  have hstep (m : Grid T) (op : Op T) (m' : Grid T) (hwf : m.Wf)
      (hI : m.displayOffset ≤ m.historySize ∧ m.lines = g.lines ∧ m.view.displayed = g.view.displayed)
      (hv : m.view.Valid op) (hop : m.view.BelowDisplay op) (hm : m.step op = some m') (_ : m'.Wf)
      (hview : m'.view = m.view.step op) :
      m'.displayOffset ≤ m'.historySize ∧ m'.lines = g.lines ∧
        m'.view.displayed = g.view.displayed := by
    obtain ⟨hle, hlines, hdisplayed⟩ := hI
    obtain ⟨m₁, hm₁, -, -, hle'⟩ := run_display hwf hle
      (show m.view.Along _ [op] from ⟨⟨hv, hop.keepsDisplay⟩, trivial⟩)
    obtain rfl : m' = m₁ := by
      simpa [hm] using hm₁
    have hstay := View.displayed_step (by rw [← hwf.length_history]; exact hle) hwf.length_screen hv hop
    have hsame : m'.lines = m.lines := by
      have := congrArg View.lines hview
      cases op <;> exact this
    exact ⟨hle', hsame.trans hlines, by rw [hview, hstay, hdisplayed]⟩
  obtain ⟨g', hg', hwf', -, hoffset', hlines, hdisplayed⟩ :=
    run_invariant h ⟨hoffset, rfl, rfl⟩ hstep hok
  refine ⟨g', hg', hoffset', hlines, fun i hi => ?_⟩
  rw [hwf'.displayedRow_eq hoffset' (by omega), h.displayedRow_eq hoffset hi, hdisplayed]

/-- The display never leaves the scrollback, as long as no region below the top of the screen scrolls up
under it; and what is on display stays when the screen moves on below it. -/
theorem display_stays (lines columns limit : ℕ) (before after : List (Op T)) (hlines : 0 < lines)
    (hcols : 0 < columns)
    (hbefore : (View.new lines columns limit).Along (fun v op => v.Valid op ∧ v.KeepsDisplay op) before)
    (hafter : ((View.new lines columns limit).run before).Along
      (fun v op => v.Valid op ∧ v.BelowDisplay op) after) :
    ∃ g₀ g g', new lines columns limit = some g₀ ∧ before.foldlM step g₀ = some g ∧
      after.foldlM step g = some g' ∧ g.displayOffset ≤ g.historySize ∧
      g'.displayOffset ≤ g'.historySize ∧ ∀ i < g.lines, g'.displayedRow i = g.displayedRow i := by
  obtain ⟨g₀, hg₀, hwf₀, hview₀⟩ := new_view (T := T) limit hlines hcols
  change g₀.view = View.new lines columns limit at hview₀
  have hoffset₀ : g₀.displayOffset ≤ g₀.historySize := by
    have : g₀.displayOffset = 0 := congrArg View.offset hview₀
    omega
  rw [← hview₀] at hbefore hafter
  obtain ⟨g, hg, hwf, hview, hoffset⟩ := run_display hwf₀ hoffset₀ hbefore
  rw [← hview] at hafter
  obtain ⟨g', hg', hoffset', -, hrows⟩ := run_displayedRow hwf hoffset hafter
  exact ⟨g₀, g, g', hg₀, hg, hg', hoffset, hoffset', hrows⟩

/-- A line scrolls into the history, the display moves back to it, and two more lines scroll up. -/
theorem display_stays_scroll :
    ∃ g₀ g g' : Grid Cell, new 2 1 3 = some g₀ ∧
      [.modifyRow 0 (.cell 0 fun c => { c with c := 'a' }), .scrollUp 0 2 1,
        .scrollDisplay .pageUp].foldlM step g₀ = some g ∧
      [.scrollUp 0 2 1, .modifyRow 1 (.cell 0 fun c => { c with c := 'b' }),
        .scrollUp 0 2 1].foldlM step g = some g' ∧
      g.displayOffset ≤ g.historySize ∧
      g'.displayOffset ≤ g'.historySize ∧ ∀ i < g.lines, g'.displayedRow i = g.displayedRow i := by
  have hbefore : (View.new 2 1 3).Along (fun v op => v.Valid op ∧ v.KeepsDisplay op)
      [.modifyRow 0 (.cell 0 fun c : Cell => { c with c := 'a' }), .scrollUp 0 2 1,
        .scrollDisplay .pageUp] :=
    ⟨⟨by decide, trivial⟩, ⟨by decide, fun h => absurd rfl h⟩, ⟨by decide, trivial⟩, trivial⟩
  have hafter : ((View.new 2 1 3).run [.modifyRow 0 (.cell 0 fun c : Cell => { c with c := 'a' }),
      .scrollUp 0 2 1, .scrollDisplay .pageUp]).Along (fun v op => v.Valid op ∧ v.BelowDisplay op)
      [.scrollUp 0 2 1, .modifyRow 1 (.cell 0 fun c : Cell => { c with c := 'b' }),
        .scrollUp 0 2 1] :=
    ⟨⟨by decide, by unfold View.BelowDisplay; decide⟩,
      ⟨by decide, by unfold View.BelowDisplay; decide⟩,
      ⟨by decide, by unfold View.BelowDisplay; decide⟩, trivial⟩
  exact display_stays 2 1 3 _ _ (by decide) (by decide) hbefore hafter

end Termua.Grid
