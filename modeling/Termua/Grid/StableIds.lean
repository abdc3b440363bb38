import Mathlib
import Termua.Grid.Runs
import Termua.Lib.Bisect

/-!
# Stable row ids

Every line of the grid has an id that is to stay with it while it scrolls. The ids of a grid are in order
when they count down from the bottommost line; scrolling the whole screen keeps them so, scrolling a part
of it does not. Where they are in order, `line_for_stable_row_id` inverts `stable_row_id_for_line`, and a
line of the scrollback is found by its id whatever is printed after it.
-/

namespace Termua.Grid

section Ids

variable {T D : Type} [GridCell T D] {g g' m : Grid T} {r : List (Row T × ℤ)}

/-- `stable_row_id_for_line`, `none` where it panics. -/
def stableRowIdForLine (g : Grid T) (line : ℤ) : Option ℤ := g.raw.stableRowIdForLine line

/-- `line_for_stable_row_id`, the outer `none` where it panics. -/
def lineForStableRowId (g : Grid T) (id : ℤ) : Option (Option ℤ) :=
  let total := g.dimensions.totalLines
  if total = 0 then some none
  else if id < g.stableRowMin ∨ g.stableRowMax < id then some none
  else
    let top := g.dimensions.topmostLine
    (Bisect.locate (fun mid => g.stableRowIdForLine (top + mid)) id 0 (total - 1 : ℕ)).map
      (·.map (top + ·))

/-- The ids count down from the bottommost line to the topmost. -/
structure Ordered (g : Grid T) : Prop where
  ids : ∀ (p : ℕ) x, g.active[p]? = some x → x.2 = g.stableRowMax - p
  min : g.stableRowMin = g.stableRowMax - (g.active.length - 1)

/-- Ids that count down, with bounds that were read off them. -/
theorem Holds.ordered (h : g.Holds r) (hb : g.Bounded r) (c : ℤ)
    (hids : ∀ (p : ℕ) x, r[p]? = some x → x.2 = c - p) : g.Ordered ∧ g.stableRowMax = c := by
  have hpos := h.lines_pos
  have hle := h.lines_le
  have hmax : g.stableRowMax = c := by
    have hhead := hb.max
    rw [List.head?_eq_getElem?, List.getElem?_eq_getElem (show 0 < r.length by omega),
      Option.map_some, Option.some.injEq, hids 0 _ (List.getElem?_eq_getElem _)] at hhead
    omega
  have hmin : g.stableRowMin = c - (r.length - 1) := by
    have hlast := hb.min
    rw [List.getLast?_eq_getElem?, List.getElem?_eq_getElem (show r.length - 1 < r.length by omega),
      Option.map_some, Option.some.injEq, hids _ _ (List.getElem?_eq_getElem _)] at hlast
    omega
  refine ⟨⟨?_, ?_⟩, hmax⟩
  · rw [h.active_eq, hmax]
    exact hids
  · rw [h.active_eq, hmax]
    exact hmin

/-- The id of a line of a grid in order. -/
theorem Ordered.stableRowIdForLine_eq (hwf : g.Wf) (h : g.Ordered) {line : ℤ}
    (htop : -(g.historySize : ℤ) ≤ line) (hbottom : line < g.lines) :
    g.stableRowIdForLine line = some (g.stableRowMax - (g.lines - 1 - line)) := by
  have hholds : g.Holds g.active := hwf
  have hsize := hholds.historySize
  have hle := hwf.lines_le
  have hpos : position g.lines line < g.active.length := by
    unfold position
    omega
  have hx := List.getElem?_eq_getElem hpos
  unfold stableRowIdForLine
  rw [Storage.stableRowIdForLine_eq hwf.raw hbottom hx, h.ids _ _ hx, Storage.cast_position hbottom]
  congr 1
  omega

/-- `line_for_stable_row_id` finds the line of an id. -/
theorem Ordered.lineForStableRowId_eq (hwf : g.Wf) (h : g.Ordered) {line : ℤ}
    (htop : -(g.historySize : ℤ) ≤ line) (hbottom : line < g.lines) :
    g.lineForStableRowId (g.stableRowMax - (g.lines - 1 - line)) = some (some line) := by
  have hholds : g.Holds g.active := hwf
  have hsize := hholds.historySize
  have hle := hwf.lines_le
  have hpos := hwf.lines_pos
  have hmin := h.min
  have htotal : g.dimensions.totalLines = g.active.length := hwf.raw.len
  have htopmost : g.dimensions.topmostLine = -(g.historySize : ℤ) := rfl
  unfold lineForStableRowId
  simp only [htotal, htopmost]
  rw [if_neg (by omega), if_neg (by omega)]
  have hread (i : ℤ) (hlo : 0 ≤ i) (hhi : i ≤ (g.active.length - 1 : ℕ)) :
      g.stableRowIdForLine (-(g.historySize : ℤ) + i) =
        some (g.stableRowMax - (g.lines - 1 - (-(g.historySize : ℤ) + i))) :=
    h.stableRowIdForLine_eq hwf (by omega) (by omega)
  rw [Bisect.locate_eq_some hread (fun i j _ _ _ => by omega)
    (show 0 ≤ line + g.historySize by omega) (by omega) (by ring)]
  simp only [Option.map_some, Option.some.injEq]
  ring

/-- An id that no line has is not found. -/
theorem lineForStableRowId_none {id : ℤ} (hid : id < g.stableRowMin ∨ g.stableRowMax < id) :
    g.lineForStableRowId id = some none := by
  unfold lineForStableRowId
  simp only [if_pos hid, ite_self]

/-- What `line_for_stable_row_id` finds has the id. -/
theorem Ordered.eq_of_lineForStableRowId (hwf : g.Wf) (h : g.Ordered) {id line : ℤ}
    (hline : g.lineForStableRowId id = some (some line)) :
    -(g.historySize : ℤ) ≤ line ∧ line < g.lines ∧
      id = g.stableRowMax - (g.lines - 1 - line) := by
  have hholds : g.Holds g.active := hwf
  have hsize := hholds.historySize
  have hle := hwf.lines_le
  have hmin := h.min
  by_cases hid : id < g.stableRowMin ∨ g.stableRowMax < id
  · rw [lineForStableRowId_none hid] at hline
    cases hline
  · have hfound := h.lineForStableRowId_eq hwf 
      (show -(g.historySize : ℤ) ≤ g.lines - 1 - (g.stableRowMax - id) by omega) (by omega)
    rw [show g.stableRowMax - (g.lines - 1 - (g.lines - 1 - (g.stableRowMax - id))) = id by ring,
      hline] at hfound
    obtain rfl : line = _ := by simpa using hfound
    omega

/-! ## Going forward -/

/-- The ids stay in order and go on, and the lines that scrolled off the screen stay there with their ids
and their cells as long as they are kept. -/
structure Forward (g g' : Grid T) : Prop where
  ordered : g'.Ordered
  max_le : g.stableRowMax ≤ g'.stableRowMax
  min_le : g.stableRowMin ≤ g'.stableRowMin
  lines : g'.lines = g.lines
  kept : ∀ (p p' : ℕ) x x', g.lines ≤ p → g.active[p]? = some x → g'.active[p']? = some x' →
    g.stableRowMax - p = g'.stableRowMax - p' → x'.1.inner = x.1.inner

theorem Ordered.forward_refl (h : g.Ordered) : g.Forward g where
  ordered := h
  max_le := le_refl _
  min_le := le_refl _
  lines := rfl
  kept p p' x x' _ hx hx' hid := by
    obtain rfl : p = p' := by omega
    rw [Option.some.inj (hx.symm.trans hx')]

theorem Forward.trans (h : g.Forward m) (h' : m.Forward g') : g.Forward g' where
  ordered := h'.ordered
  max_le := h.max_le.trans h'.max_le
  min_le := h.min_le.trans h'.min_le
  lines := h'.lines.trans h.lines
  kept p p' x x' hp hx hx' hid := by
    have hlt := (List.getElem?_eq_some_iff.mp hx').1
    have hmin := h.ordered.min
    have hmin' := h'.ordered.min
    have := h.max_le
    have := h'.min_le
    -- in between the line was at the position that its id gives
    obtain ⟨q, hq⟩ : ∃ q : ℕ, (q : ℤ) = m.stableRowMax - g.stableRowMax + p :=
      ⟨(m.stableRowMax - g.stableRowMax + p).toNat, by omega⟩
    have hlen : q < m.active.length := by omega
    have hy := List.getElem?_eq_getElem hlen
    have hlines := h.lines
    rw [h'.kept q p' _ x' (by omega) hy hx' (by omega), h.kept p q x _ hp hx hy (by omega)]

end Ids

variable {T D : Type} [DecidableEq D] [GridCell T D] {g : Grid T} {ops : List (Op T)}

/-- Scrolling the whole screen up. -/
theorem forward_scrollUp (h : g.Wf) (ho : g.Ordered) {positions : ℕ} (hle : positions ≤ g.lines) :
    ∃ g', g.step (.scrollUp 0 g.lines positions) = some g' ∧ g.Forward g' := by
  have hholds : g.Holds g.active := h
  obtain ⟨below, region, gone, above, history, hr, hbelow, hlow, hstop, habove⟩ :=
    exists_blocks g.active 0 g.lines (g.lines - positions) h.lines_le (le_refl _) (by omega)
  obtain rfl : below = [] := List.length_eq_zero_iff.mp (by omega)
  obtain rfl : above = [] := List.length_eq_zero_iff.mp habove
  rw [hr] at hholds
  obtain ⟨g', fresh, r', hg', hfresh, hr', hholds', hup⟩ := scrollUp_holds hholds hbelow habove
    (show 0 + (gone.length + region.length) = g.lines by omega)
    (show gone.length = min positions (g.lines - 0) by omega) (fun _ => hle)
  -- the lines are the new ones and as many of the old ones as fit
  have hprefix : ((region ++ (gone ++ history).take g.maxScrollLimit)) <+: g.active := by
    rw [hr]
    simp only [List.nil_append, List.append_assoc]
    exact (List.prefix_append_right_inj _).mpr (List.take_prefix ..)
  simp only [List.nil_append, if_true, List.append_assoc] at hr'
  have hlen : fresh.length = positions := by omega
  have hold {p' : ℕ} {x'} (hx' : r'[p']? = some x') (hp' : positions ≤ p') :
      g.active[p' - positions]? = some x' := by
    rw [hr', List.getElem?_append_right (by omega), hlen] at hx'
    have hlt := (List.getElem?_eq_some_iff.mp hx').1
    obtain ⟨rest, hrest⟩ := hprefix
    rw [← hrest, List.getElem?_append_left hlt]
    exact hx'
  have hids (p' : ℕ) (x' : Row T × ℤ) (hx' : r'[p']? = some x') :
      x'.2 = g.stableRowMax + positions - p' := by
    by_cases hp' : p' < positions
    · rw [hr', List.getElem?_append_left (by omega)] at hx'
      have := hup.ids rfl rfl p' x' hx'
      omega
    · have := ho.ids _ _ (hold hx' (by omega))
      omega
  obtain ⟨hordered, hmax⟩ := hholds'.ordered (hup.bounded rfl rfl) _ hids
  have hlength : r'.length ≤ positions + g.active.length := by
    have := hprefix.length_le
    rw [hr', List.length_append]
    omega
  have hmin := hordered.min
  rw [hholds'.active_eq] at hmin
  have hmin' := ho.min
  refine ⟨g', hg', hordered, by omega, by omega, hup.frame.lines, ?_⟩
  intro p p' x x' _ hx hx' hid
  rw [hholds'.active_eq] at hx'
  have hsame := hold hx' (by omega)
  rw [show p' - positions = p by omega] at hsame
  rw [Option.some.inj (hx.symm.trans hsame)]

omit [DecidableEq D] in
/-- Lines rewritten in place. -/
theorem forward_rewrite {g g' : Grid T} {r : List (Row T × ℤ)} (ho : g.Ordered) (hholds : g'.Holds r)
    (hids : r.map Prod.snd = g.active.map Prod.snd)
    (hrows : ∀ p, g.lines ≤ p → (r[p]?).map (·.1.inner) = (g.active[p]?).map (·.1.inner))
    (hmax : g'.stableRowMax = g.stableRowMax) (hmin : g'.stableRowMin = g.stableRowMin)
    (hlines : g'.lines = g.lines) : g.Forward g' := by
  have hlength : r.length = g.active.length := by simpa using congrArg List.length hids
  refine ⟨⟨?_, ?_⟩, hmax.ge, hmin.ge, hlines, ?_⟩
  · intro p x hx
    rw [hholds.active_eq] at hx
    have hid := congrArg (·[p]?) hids
    simp only [List.getElem?_map, hx, Option.map_some] at hid
    obtain ⟨y, hy, hyx⟩ := Option.map_eq_some_iff.mp hid.symm
    rw [← hyx, ho.ids p y hy, hmax]
  · rw [hholds.active_eq, hlength, hmax, hmin]
    exact ho.min
  · intro p p' x x' hp hx hx' hid
    obtain rfl : p = p' := by omega
    rw [hholds.active_eq] at hx'
    have := hrows p hp
    rw [hx, hx', Option.map_some, Option.map_some, Option.some.injEq] at this
    exact this

/-- A part of the screen is cleared. -/
theorem forward_resetRegion (h : g.Wf) (ho : g.Ordered) {start stop : ℕ} (hle : start ≤ stop)
    (hlines : stop ≤ g.lines) :
    ∃ g', g.step (.resetRegion start stop) = some g' ∧ g.Forward g' := by
  have hholds : g.Holds g.active := h
  obtain ⟨below, region, none, above, history, hr, hbelow, hlow, hstop, habove⟩ :=
    exists_blocks g.active start stop (stop - start) h.lines_le hlines (by omega)
  obtain rfl : none = [] := List.length_eq_zero_iff.mp (by omega)
  rw [List.append_nil] at hr
  rw [hr] at hholds
  obtain ⟨raw, fresh, hraw, hlength, -, hids, hholds'⟩ := resetLines_holds g.displayOffset
    g.stableRowMin g.stableRowMax start stop hholds hbelow (by omega)
  refine ⟨{ g with raw }, ?_, forward_rewrite ho hholds' ?_ ?_ rfl rfl rfl⟩
  · show g.resetRegion start stop = _
    unfold resetRegion
    rw [hraw]
    rfl
  · rw [hr]
    simp only [List.map_append, hids]
  · intro p hp
    have habove (xs : List (Row T × ℤ)) (hxs : xs.length = region.length) :
        (below ++ (xs ++ (above ++ history)))[p]? = history[p - g.lines]? := by
      rw [List.getElem?_append_right (by omega), List.getElem?_append_right (by omega),
        List.getElem?_append_right (by omega)]
      congr 1
      omega
    rw [hr, habove fresh hlength, habove region rfl]

/-- Cells of a line of the screen are rewritten. -/
theorem forward_modifyRow (h : g.Wf) (ho : g.Ordered) {line : ℤ} {edit : Row.Edit T}
    (hv : g.view.Valid (.modifyRow line edit)) (hscreen : 0 ≤ line) :
    ∃ g', g.step (.modifyRow line edit) = some g' ∧ g.Forward g' := by
  obtain ⟨x, row', raw, hx, -, hg', hholds⟩ := modifyRow_holds h hv
  have hbottom : line < g.lines := hv.2.1
  have hpos := Storage.cast_position hbottom
  refine ⟨{ g with raw }, hg', forward_rewrite ho hholds ?_ ?_ rfl rfl rfl⟩
  · have hid : (g.active.map Prod.snd)[position g.lines line]? = some x.2 := by
      rw [List.getElem?_map, hx]
      rfl
    obtain ⟨hlt, hget⟩ := List.getElem?_eq_some_iff.mp hid
    rw [List.map_set, ← hget, List.set_getElem_self]
  · intro p hp
    rw [List.getElem?_set_ne (by omega)]

omit [DecidableEq D] in
/-- The far end of the scrollback is dropped. -/
theorem Shrunk.forward {g' : Grid T} {n offset limit : ℕ} (h : g.Shrunk g' n offset limit)
    (ho : g.Ordered) : g.Forward g' := by
  have hget {p : ℕ} {x : Row T × ℤ} (hx : (g.active.take n)[p]? = some x) : g.active[p]? = some x := by
    have hlt := (List.getElem?_eq_some_iff.mp hx).1
    rw [List.length_take] at hlt
    rwa [List.getElem?_take_of_lt (by omega)] at hx
  obtain ⟨hordered, hmax⟩ := h.holds.ordered h.bounded g.stableRowMax fun p x hx =>
    ho.ids p x (hget hx)
  have hmin := hordered.min
  have hmin' := ho.min
  rw [h.holds.active_eq, List.length_take] at hmin
  refine ⟨hordered, hmax.ge, by omega, h.lines, ?_⟩
  intro p p' x x' _ hx hx' hid
  rw [h.holds.active_eq] at hx'
  obtain rfl : p = p' := by omega
  rw [Option.some.inj (hx.symm.trans (hget hx'))]

/-! ## Runs -/

namespace View

omit [DecidableEq D] [GridCell T D]

/-- Only the whole screen scrolls, and not down under a scrollback. -/
def KeepsOrder (v : View T) : Op T → Prop
  | .scrollUp start stop _ => start = 0 ∧ stop = v.lines
  | .scrollDown start stop positions =>
    stop - start ≤ positions ∨ start = 0 ∧ stop = v.lines ∧ v.page.history = []
  | _ => True

/-- Output goes to the screen, which only scrolls up. -/
def GoesOn (v : View T) : Op T → Prop
  | .scrollUp start stop _ => start = 0 ∧ stop = v.lines
  | .scrollDown start stop positions => stop - start ≤ positions
  | .modifyRow line _ => 0 ≤ line
  | .reset => False
  | _ => True

end View

/-- A region of the screen that scrolls down by its whole height is cleared. -/
theorem forward_scrollDown (h : g.Wf) (ho : g.Ordered) {start stop positions : ℕ} (hle : start ≤ stop)
    (hlines : stop ≤ g.lines) (hall : stop - start ≤ positions) :
    ∃ g', g.step (.scrollDown start stop positions) = some g' ∧ g.Forward g' := by
  obtain ⟨g', hg', hforward⟩ := forward_resetRegion h ho hle hlines
  refine ⟨g', ?_, hforward⟩
  show g.scrollDown start stop positions = _
  unfold scrollDown
  rw [if_pos (by omega)]
  exact hg'

/-- Where output goes to the screen and the screen scrolls up, the grid goes forward. -/
theorem forward_step (h : g.Wf) (ho : g.Ordered) {op : Op T} (hv : g.view.Valid op)
    (hop : g.view.GoesOn op) : ∃ g', g.step op = some g' ∧ g.Forward g' := by
  cases op with
  | scrollUp start stop positions =>
    obtain ⟨rfl, rfl⟩ := hop
    exact forward_scrollUp h ho (hv.2.2 rfl)
  | scrollDown start stop positions => exact forward_scrollDown h ho hv.1 hv.2 hop
  | resetRegion start stop => exact forward_resetRegion h ho hv.1 hv.2
  -- a scroll of the whole screen and then a reset of its top
  | clearViewport =>
    obtain ⟨g₁, g₂, hnle, hg₁, hwf₁, -, hg₂, hclear⟩ := clearViewport_steps h
    obtain ⟨m, hm, hforward₁⟩ := forward_scrollUp h ho hnle
    obtain rfl : g₁ = m := Option.some.inj (hg₁.symm.trans hm)
    have hrest : g.lines - View.occupied g.view.page.history.isEmpty g.view.page.screen.reverse ≤
        g₁.lines := by
      rw [hforward₁.lines]
      exact Nat.sub_le _ _
    obtain ⟨m', hm', hforward₂⟩ :=
      forward_resetRegion hwf₁ hforward₁.ordered (Nat.zero_le _) hrest
    obtain rfl : g₂ = m' := Option.some.inj (hg₂.symm.trans hm')
    exact ⟨g₂, hclear, hforward₁.trans hforward₂⟩
  | clearHistory =>
    obtain ⟨g', hg', hs⟩ := clearHistory_shrunk h
    exact ⟨g', hg', hs.forward ho⟩
  | updateHistory historySize =>
    obtain ⟨g', hg', hs⟩ := updateHistory_shrunk h historySize
    exact ⟨g', hg', hs.forward ho⟩
  | modifyRow line edit => exact forward_modifyRow h ho hv hop
  | reset => exact hop.elim
  | scrollDisplay scroll =>
    exact ⟨_, rfl, forward_rewrite ho (scrollDisplay_view h scroll).1 rfl (fun _ _ => rfl) rfl rfl rfl⟩
  | setCursor cursor =>
    have hholds : ({ g with cursor } : Grid T).Holds g.active :=
      ⟨h.raw, h.columns_pos, h.lines_pos, h.lines_le, h.length_le⟩
    exact ⟨_, rfl, forward_rewrite ho hholds rfl (fun _ _ => rfl) rfl rfl rfl⟩

/-- The whole screen scrolls down where there is no scrollback above it. -/
theorem ordered_scrollDown (h : g.Wf) (ho : g.Ordered) {positions : ℕ}
    (hnone : g.view.page.history = []) (hlt : positions < g.lines) :
    ∃ g', g.step (.scrollDown 0 g.lines positions) = some g' ∧ g'.Ordered := by
  have hholds : g.Holds g.active := h
  have hlength : g.active.length = g.lines := by
    have hle := h.lines_le
    have hsize := hholds.length_history
    rw [hnone, List.length_nil] at hsize
    omega
  obtain ⟨gone, region, hr, hgone⟩ := exists_append g.active (n := positions) (by omega)
  have hsplit := congrArg List.length hr
  rw [List.length_append] at hsplit
  have hblocks : g.active = [] ++ ((gone ++ region) ++ []) := by simpa using hr
  rw [hblocks] at hholds
  obtain ⟨g', fresh, r', hg', hfresh, hr', hholds', hdown⟩ := scrollDown_holds hholds
    (show ([] : List (Row T × ℤ)).length + g.lines = g.lines by simp) (Nat.zero_le _)
    (show 0 + (gone.length + region.length) = g.lines by omega)
    (show gone.length = min positions (g.lines - 0) by omega)
  have hr'' : r' = region ++ fresh := by simpa using hr'
  refine ⟨g', hg', (hholds'.ordered (hdown.bounded rfl rfl hlt) (g.stableRowMax - positions) ?_).1⟩
  intro p x hx
  have hmin := ho.min
  rw [hr''] at hx
  by_cases hp : p < region.length
  · -- a line of the region has moved down
    rw [List.getElem?_append_left hp] at hx
    have hid := ho.ids (p + positions) x (by
      rw [hr, List.getElem?_append_right (by omega)]
      rwa [show p + positions - gone.length = p by omega])
    push_cast at hid
    omega
  · rw [List.getElem?_append_right (by omega)] at hx
    have hid := hdown.ids rfl rfl hlt _ _ hx
    omega

/-- The ids stay in order. -/
theorem ordered_step (h : g.Wf) (ho : g.Ordered) {op : Op T} (hv : g.view.Valid op)
    (hop : g.view.KeepsOrder op) : ∃ g', g.step op = some g' ∧ g'.Ordered := by
  -- what goes on keeps the order
  have hgoes (hop' : g.view.GoesOn op) : ∃ g', g.step op = some g' ∧ g'.Ordered := by
    obtain ⟨g', hg', hforward⟩ := forward_step h ho hv hop'
    exact ⟨g', hg', hforward.ordered⟩
  cases op with
  | scrollDown start stop positions =>
    by_cases hall : stop - start ≤ positions
    · exact hgoes hall
    · obtain ⟨rfl, rfl, hnone⟩ := hop.resolve_left hall
      exact ordered_scrollDown h ho hnone (by
        have : g.view.lines = g.lines := rfl
        omega)
  | modifyRow line edit =>
    obtain ⟨x, row', raw, hx, -, hg', hholds⟩ := modifyRow_holds h hv
    refine ⟨{ g with raw }, hg', ?_, ?_⟩
    · intro p y hy
      rw [hholds.active_eq, List.getElem?_set] at hy
      split at hy
      · next heq =>
        split at hy
        · obtain rfl := Option.some.inj hy
          exact heq ▸ ho.ids _ x hx
        · cases hy
      · exact ho.ids p y hy
    · rw [hholds.active_eq, List.length_set]
      exact ho.min
  | reset =>
    obtain ⟨g', rows, hg', hholds, hbounded, -⟩ := reset_holds h
    refine ⟨g', hg', (hholds.ordered hbounded (rows.length - 1 : ℤ) fun p x hx => ?_).1⟩
    simp only [Storage.numbered, List.getElem?_mapIdx, Option.map_eq_some_iff] at hx
    obtain ⟨row, -, rfl⟩ := hx
    rfl
  | scrollUp start stop positions => exact hgoes hop
  | resetRegion start stop => exact hgoes trivial
  | clearViewport => exact hgoes trivial
  | clearHistory => exact hgoes trivial
  | updateHistory historySize => exact hgoes trivial
  | scrollDisplay scroll => exact hgoes trivial
  | setCursor cursor => exact hgoes trivial

omit [DecidableEq D] in
/-- The ids of a new grid are in order. -/
theorem new_ordered {lines columns : ℕ} (limit : ℕ) (hlines : 0 < lines) (hcols : 0 < columns) :
    ∃ g : Grid T, new lines columns limit = some g ∧ g.Wf ∧
      g.view = View.new lines columns limit ∧ g.Ordered := by
  obtain ⟨raw, hraw, hraw'⟩ := Storage.withCapacity_holds (T := T) columns hlines
  obtain ⟨g, hg, hwf, hview⟩ := new_view (T := T) limit hlines hcols
  refine ⟨g, hg, hwf, hview, ?_⟩
  unfold new at hg
  rw [hraw] at hg
  obtain rfl := Option.some.inj hg
  have hactive := hraw'.unique hwf.raw
  have hlen : (Storage.numbered (List.replicate lines (Row.new columns : Row T))).length = lines := by
    rw [Storage.length_numbered, List.length_replicate]
  refine ⟨?_, ?_⟩
  · intro p x hx
    rw [← hactive] at hx
    have hlt := (List.getElem?_eq_some_iff.mp hx).1
    simp only [Storage.numbered, List.getElem?_mapIdx, Option.map_eq_some_iff] at hx
    obtain ⟨row, -, rfl⟩ := hx
    simp only [List.length_replicate]
    omega
  · rw [← hactive, hlen]
    show (0 : ℤ) = ((lines - 1 : ℕ) : ℤ) - (lines - 1)
    omega

/-- In every run in which only the whole screen scrolls, and not down under a scrollback, each line of the
buffer has an id, `line_for_stable_row_id` finds just that line by it, and lines further down have greater
ids. From there on, as output goes to the screen and the screen scrolls up, a line of the scrollback that
is still found by its id is in the scrollback and has the same cells. -/
theorem stable_row_ids (lines columns limit : ℕ) (before after : List (Op T)) (hlines : 0 < lines)
    (hcols : 0 < columns)
    (hbefore : (View.new lines columns limit).Along (fun v op => v.Valid op ∧ v.KeepsOrder op) before)
    (hafter : ((View.new lines columns limit).run before).Along
      (fun v op => v.Valid op ∧ v.GoesOn op) after) :
    ∃ g₀ g g', new lines columns limit = some g₀ ∧ before.foldlM step g₀ = some g ∧
      after.foldlM step g = some g' ∧
      (∀ line, -(g.historySize : ℤ) ≤ line → line < g.lines →
        ∃ id row, g.stableRowIdForLine line = some id ∧ g.raw.index line = some row ∧
          (∀ line', g.lineForStableRowId id = some (some line') ↔ line' = line) ∧
          (∀ line' id', line < line' → g.stableRowIdForLine line' = some id' → id < id') ∧
          ∀ line', line < 0 → g'.lineForStableRowId id = some (some line') →
            line' < 0 ∧ (g'.raw.index line').map Row.inner = some row.inner) := by
  obtain ⟨g₀, hg₀, hwf₀, hview₀, hordered₀⟩ := new_ordered (T := T) limit hlines hcols
  rw [← hview₀] at hbefore hafter
  -- the ids are in order along the first part, and from there on lines only move up
  obtain ⟨g, hg, hwf, hview, ho⟩ := run_invariant hwf₀ hordered₀
    (fun m op m' hwf ho hv hop hm _ _ => by
      obtain ⟨m₁, hm₁, ho'⟩ := ordered_step hwf ho hv hop
      rwa [Option.some.inj (hm.symm.trans hm₁)]) hbefore
  rw [← hview] at hafter
  obtain ⟨g', hg', hwf', -, hforward⟩ := run_invariant hwf ho.forward_refl
    (fun m op m' hwf hforward hv hop hm _ _ => by
      obtain ⟨m₁, hm₁, hforward'⟩ := forward_step hwf hforward.ordered hv hop
      rw [Option.some.inj (hm.symm.trans hm₁)]
      exact hforward.trans hforward') hafter
  refine ⟨g₀, g, g', hg₀, hg, hg', fun line htop hbottom => ?_⟩
  have hfind := ho.lineForStableRowId_eq hwf htop hbottom
  obtain ⟨x, hx, hrow⟩ := hwf.exists_row htop hbottom
  refine ⟨_, x.1, ho.stableRowIdForLine_eq hwf htop hbottom, hrow, fun line' => ?_, ?_, ?_⟩
  · rw [hfind, Option.some.injEq, Option.some.injEq]
    exact eq_comm
  -- below the screen there is no line
  · intro line' id' hlt hid'
    have hbottom' : line' < g.lines := by
      by_contra hge
      unfold stableRowIdForLine Storage.stableRowIdForLine Storage.computeIndex at hid'
      rw [if_neg (by rw [hwf.raw.visibleLines]; exact hge)] at hid'
      cases hid'
    rw [ho.stableRowIdForLine_eq hwf (by omega) hbottom', Option.some.injEq] at hid'
    omega
  -- the same id at another time: the line was in the scrollback and is kept there
  · intro line' hneg hline'
    obtain ⟨htop', hbottom', hid⟩ := hforward.ordered.eq_of_lineForStableRowId hwf' hline'
    have hmax := hforward.max_le
    have hlines := hforward.lines
    obtain ⟨x', hx', hrow'⟩ := hwf'.exists_row htop' hbottom'
    have hpos := Storage.cast_position hbottom
    have hpos' := Storage.cast_position hbottom'
    refine ⟨by omega, ?_⟩
    rw [hrow', Option.map_some, hforward.kept _ _ _ _ (by omega) hx hx' (by omega)]

/-- Two lines scroll into the history, and one more after them. -/
theorem stable_row_ids_scroll :
    ∃ g₀ g g' : Grid Cell, new 2 1 3 = some g₀ ∧ [.scrollUp 0 2 2].foldlM step g₀ = some g ∧
      [.scrollUp 0 2 1, .modifyRow 1 (.cell 0 fun c => { c with c := 'b' })].foldlM step g = some g' ∧
      (∀ line, -(g.historySize : ℤ) ≤ line → line < g.lines →
        ∃ id row, g.stableRowIdForLine line = some id ∧ g.raw.index line = some row ∧
          (∀ line', g.lineForStableRowId id = some (some line') ↔ line' = line) ∧
          (∀ line' id', line < line' → g.stableRowIdForLine line' = some id' → id < id') ∧
          ∀ line', line < 0 → g'.lineForStableRowId id = some (some line') →
            line' < 0 ∧ (g'.raw.index line').map Row.inner = some row.inner) := by
  have hbefore : (View.new 2 1 3 : View Cell).Along (fun v op => v.Valid op ∧ v.KeepsOrder op)
      [.scrollUp 0 2 2] := ⟨⟨by decide, rfl, rfl⟩, trivial⟩
  have hafter : ((View.new 2 1 3 : View Cell).run [.scrollUp 0 2 2]).Along
      (fun v op => v.Valid op ∧ v.GoesOn op)
      [.scrollUp 0 2 1, .modifyRow 1 (.cell 0 fun c => { c with c := 'b' })] :=
    ⟨⟨by decide, rfl, rfl⟩, ⟨by decide, by unfold View.GoesOn; decide⟩, trivial⟩
  exact stable_row_ids 2 1 3 _ _ (by decide) (by decide) hbefore hafter

end Termua.Grid
