import Mathlib
import Termua.Cast.Screen
import Termua.Scroll.Requests

/-!
# Jumps to a match of the search

`jump_to_match` of `gpui_term/src/terminal.rs` and what the scrollbar makes of the line of a match in
`gpui_term/src/view/scrolling.rs`. Both bring the line into the middle of the viewport, up to the
ends of the scrollback.
-/

namespace Termua.Scroll

open Cast (GridPoint)

/-- `buffer_index_for_line_coord`. -/
def bufferIndexForLineCoord (totalLines viewportLines : ℕ) (lineCoord : ℤ) : ℕ :=
  if totalLines = 0 ∨ viewportLines = 0 then 0
  else
    let topLine : ℤ := viewportLines - totalLines
    let idx := lineCoord - topLine
    (max (max 0 (min idx (totalLines - 1 : ℕ))) 0).toNat

/-- `scroll_offset_for_line_coord_centered`. -/
def scrollOffsetForLineCoordCentered (totalLines viewportLines : ℕ) (lineCoord : ℤ) : ℕ :=
  if totalLines = 0 ∨ viewportLines = 0 then 0
  else
    let maxOffset := totalLines - viewportLines
    if maxOffset = 0 then 0
    else
      let idx := bufferIndexForLineCoord totalLines viewportLines lineCoord
      let half := viewportLines / 2
      let startFromTop := min (idx - half) maxOffset
      maxOffset - startFromTop

/-- The offset that `jump_to_match` scrolls to for the first line of a match; none where it returns
early. -/
def targetDisplayOffset (totalLines viewportLines : ℕ) (line : ℤ) : Option ℕ :=
  let viewportLines := max viewportLines 1
  let maxOffset := totalLines - viewportLines
  if totalLines = 0 ∨ maxOffset = 0 then none
  else
    let rowFromTop : ℤ := maxOffset + line
    if rowFromTop < 0 then none
    else
      let rowFromTop := min rowFromTop.toNat (totalLines - 1)
      let half := viewportLines / 2
      let viewportTopIdx := min (rowFromTop - half) maxOffset
      some (maxOffset - viewportTopIdx)

/-- `jump_to_match`, over the scroll requests of a backend. -/
def jumpToMatch {Backend : Type*} (request : Backend → Request → Backend)
    (totalLines viewportLines : ℕ) (found : List (GridPoint × GridPoint)) (index : ℕ)
    (b : Backend) : Backend :=
  match found[index]? with
  | none => b
  | some range =>
    match targetDisplayOffset totalLines viewportLines range.1.line with
    | none => b
    | some target => request (request b .scrollToBottom) (.scrollUpBy target)

/-- `total_lines` and `viewport_lines` of alacritty. -/
def AlacrittyBackend.totalLines (b : AlacrittyBackend) : ℕ := b.grid.historySize + b.grid.lines

/-- `jump_to_match` in the backend of alacritty. -/
def AlacrittyBackend.jumpToMatch (b : AlacrittyBackend) (found : List (GridPoint × GridPoint))
    (index : ℕ) : AlacrittyBackend :=
  Scroll.jumpToMatch AlacrittyBackend.request b.totalLines b.grid.lines found index b

/-- `jump_to_match` in the backend of WezTerm. -/
def WezTermBackend.jumpToMatch {Line : Type*} (b : WezTermBackend Line)
    (found : List (GridPoint × GridPoint)) (index : ℕ) : WezTermBackend Line :=
  Scroll.jumpToMatch WezTermBackend.request b.screen.scrollbackRows b.screen.physicalRows found index b

/-- The line is in view at this offset, and in the middle row unless an end of the scrollback is
reached before. -/
structure Centered (totalLines viewportLines : ℕ) (line : ℤ) (offset : ℕ) : Prop where
  le : offset ≤ totalLines - viewportLines
  inView : 0 ≤ line + offset ∧ line + offset < viewportLines
  middle : line + offset = (viewportLines / 2 : ℕ) ∨
    offset = totalLines - viewportLines ∧ line + offset < (viewportLines / 2 : ℕ) ∨
      offset = 0 ∧ (viewportLines / 2 : ℕ) < line + offset

variable {totalLines viewportLines : ℕ} {line : ℤ}

/-- The line is one of the scrollback or of the live view. -/
def OnScreen (totalLines viewportLines : ℕ) (line : ℤ) : Prop :=
  -(totalLines - viewportLines : ℕ) ≤ line ∧ line < viewportLines

theorem bufferIndexForLineCoord_eq (hpos : 0 < viewportLines) (hle : viewportLines ≤ totalLines)
    (hline : OnScreen totalLines viewportLines line) :
    (bufferIndexForLineCoord totalLines viewportLines line : ℤ) =
      (totalLines - viewportLines : ℕ) + line := by
  obtain ⟨hfirst, hlast⟩ := hline
  unfold bufferIndexForLineCoord
  rw [if_neg (by omega)]
  simp only
  omega

/-- Without a scrollback the offset is zero; with one, the line is moved to the middle row and the
offset is clamped. -/
theorem scrollOffset_eq (hpos : 0 < viewportLines)
    (hline : OnScreen totalLines viewportLines line) :
    (scrollOffsetForLineCoordCentered totalLines viewportLines line : ℤ) =
      Clamp.clamp (totalLines - viewportLines : ℕ) ((viewportLines / 2 : ℕ) - line) := by
  unfold scrollOffsetForLineCoordCentered
  split
  · next hnone =>
    rw [Clamp.clamp]
    omega
  · next htotal =>
    simp only
    split
    · next hmax =>
      rw [hmax, Clamp.clamp]
      omega
    · next hmax =>
      have hidx := bufferIndexForLineCoord_eq hpos (by omega) hline
      rw [Clamp.clamp]
      omega

/-- The two conversions agree; the jump does nothing where there is no scrollback. -/
theorem targetDisplayOffset_eq (hpos : 0 < viewportLines)
    (hline : OnScreen totalLines viewportLines line) :
    targetDisplayOffset totalLines viewportLines line =
      if totalLines - viewportLines = 0 then none
      else some (scrollOffsetForLineCoordCentered totalLines viewportLines line) := by
  have hscroll := scrollOffset_eq hpos hline
  rw [Clamp.clamp] at hscroll
  obtain ⟨hfirst, hlast⟩ := hline
  unfold targetDisplayOffset
  rw [max_eq_left hpos]
  simp only
  by_cases hmax : totalLines - viewportLines = 0
  · rw [if_pos (.inr hmax), if_pos hmax]
  · rw [if_neg (by omega), if_neg (by omega), if_neg hmax, Option.some.injEq]
    omega

theorem centered_scrollOffset (hpos : 0 < viewportLines)
    (hline : OnScreen totalLines viewportLines line) :
    Centered totalLines viewportLines line
      (scrollOffsetForLineCoordCentered totalLines viewportLines line) := by
  have hscroll := scrollOffset_eq hpos hline
  rw [Clamp.clamp] at hscroll
  obtain ⟨hfirst, hlast⟩ := hline
  exact ⟨by omega, by omega, by omega⟩

/-! ## The jump in each backend -/

/-- A jump to the bottom and a scroll up from there, where nothing is pending. -/
theorem AlacrittyBackend.displayOffset_scrollUpFromBottom {b : AlacrittyBackend} {target : ℕ}
    (hidle : b.pendingOps = []) (htarget : target ≤ b.grid.historySize) :
    ((b.request .scrollToBottom).request (.scrollUpBy target)).applyPendingOps.grid.displayOffset =
      target := by
  have hcomposes : (b.request .scrollToBottom).Composes (.scrollUpBy target) := by
    unfold Composes request push
    rw [hidle]
    trivial
  have hbottom : (b.request .scrollToBottom).applyPendingOps.grid = b.grid.scrollDisplay .bottom := by
    show (b.push .bottom).applyPendingOps.grid = _
    rw [grid_applyPendingOps_push, applyPendingOps_of_idle hidle]
  rw [applyPendingOps_request_iff.mpr hcomposes, ← Nat.cast_inj (R := ℤ)]
  refine (displayOffset_queueScrollDelta_of_idle rfl _).trans ?_
  rw [hbottom]
  show Clamp.clamp b.grid.historySize ((0 : ℕ) + _) = _
  rw [Nat.cast_zero, zero_add]
  exact Clamp.clamp_eq_self (Int.natCast_nonneg _) (Int.ofNat_le.mpr htarget)

theorem AlacrittyBackend.displayOffset_jumpToMatch {b : AlacrittyBackend}
    {found : List (GridPoint × GridPoint)} {index : ℕ} {range : GridPoint × GridPoint}
    (hidle : b.pendingOps = []) (hpos : 0 < b.grid.lines) (hfound : found[index]? = some range)
    (hline : OnScreen b.totalLines b.grid.lines range.1.line) :
    (b.jumpToMatch found index).applyPendingOps.grid.displayOffset =
      scrollOffsetForLineCoordCentered b.totalLines b.grid.lines range.1.line := by
  have hscroll := scrollOffset_eq hpos hline
  have hcentered := (centered_scrollOffset hpos hline).le
  have hhistory : b.totalLines - b.grid.lines = b.grid.historySize := Nat.add_sub_cancel _ _
  unfold AlacrittyBackend.jumpToMatch Scroll.jumpToMatch
  rw [hfound]
  simp only
  rw [targetDisplayOffset_eq hpos hline]
  by_cases hmax : b.totalLines - b.grid.lines = 0
  · rw [if_pos hmax, applyPendingOps_of_idle hidle]
    have hle := b.grid.displayOffset_le
    omega
  · rw [if_neg hmax]
    exact displayOffset_scrollUpFromBottom hidle (hhistory ▸ hcentered)

theorem WezTermBackend.displayOffset_scrollUpFromBottom {Line : Type*} {b : WezTermBackend Line}
    {target : ℕ} (h : b.screen.Lawful) (hidle : b.pendingOps = []) (htarget : target ≤ b.historySize) :
    ((b.request .scrollToBottom).request (.scrollUpBy target)).sync.plan.displayOffset = target := by
  have hsingle : b.pendingOps.length ≤ 1 := by
    rw [hidle]
    exact Nat.zero_le _
  have hbottom : ((b.request .scrollToBottom).plan.displayOffset : ℤ) = 0 :=
    (displayOffset_eq (b := b.request .scrollToBottom) h).trans
      (Clamp.clamp_of_nonpos (Int.sub_self _).le)
  have haim : (b.request .scrollToBottom).aim (.scrollUpBy target) = target := by
    refine Eq.trans ?_ (zero_add _)
    rw [← hbottom]
    rfl
  have hsum : (b.request .scrollToBottom).pendingOps.sum = 0 := by
    show b.pendingOps.sum = 0
    rw [hidle, List.sum_nil]
  rw [← Nat.cast_inj (R := ℤ)]
  refine (displayOffset_request_sync (b := b.request .scrollToBottom) h hsingle _).trans ?_
  rw [haim, hsum, add_zero]
  exact Clamp.clamp_eq_self (Int.natCast_nonneg _) htarget

theorem WezTermBackend.displayOffset_jumpToMatch {Line : Type*} {b : WezTermBackend Line}
    {found : List (GridPoint × GridPoint)} {index : ℕ} {range : GridPoint × GridPoint}
    (h : b.screen.Lawful) (hidle : b.pendingOps = []) (hfound : found[index]? = some range)
    (hline : OnScreen b.screen.scrollbackRows b.screen.physicalRows range.1.line) :
    (b.jumpToMatch found index).sync.plan.displayOffset =
      scrollOffsetForLineCoordCentered b.screen.scrollbackRows b.screen.physicalRows
        range.1.line := by
  have hscroll := scrollOffset_eq h.rows_pos hline
  have hcentered := (centered_scrollOffset h.rows_pos hline).le
  have hhistory : b.historySize = (b.screen.scrollbackRows - b.screen.physicalRows : ℕ) := by
    have hlive := h.live
    unfold historySize
    rw [h.baseStable]
    omega
  unfold WezTermBackend.jumpToMatch Scroll.jumpToMatch
  rw [hfound]
  simp only
  rw [targetDisplayOffset_eq h.rows_pos hline]
  by_cases hmax : b.screen.scrollbackRows - b.screen.physicalRows = 0
  · rw [if_pos hmax]
    have hle := displayOffset_mem (b := b.sync) (by rwa [screen_sync])
    have hsync : b.sync.historySize = b.historySize := by
      unfold historySize
      rw [screen_sync]
    rw [hsync] at hle
    simp only
    omega
  · rw [if_neg hmax]
    exact displayOffset_scrollUpFromBottom h hidle (hhistory ▸ Int.ofNat_le.mpr hcentered)

/-- In both backends: a jump to a match with no scroll pending leads to the offset that the scrollbar
has for its first line, and the line is in view, in the middle row unless an end of the scrollback is
reached before. -/
theorem jumpToMatch_centered {Line : Type*} (found : List (GridPoint × GridPoint)) (index : ℕ)
    (range : GridPoint × GridPoint) (hfound : found[index]? = some range) :
    (∀ b : AlacrittyBackend, b.pendingOps = [] → 0 < b.grid.lines →
      OnScreen b.totalLines b.grid.lines range.1.line →
      let offset := (b.jumpToMatch found index).applyPendingOps.grid.displayOffset
      offset = scrollOffsetForLineCoordCentered b.totalLines b.grid.lines range.1.line ∧
        Centered b.totalLines b.grid.lines range.1.line offset) ∧
    ∀ b : WezTermBackend Line, b.screen.Lawful → b.pendingOps = [] →
      OnScreen b.screen.scrollbackRows b.screen.physicalRows range.1.line →
      let offset := (b.jumpToMatch found index).sync.plan.displayOffset
      offset = scrollOffsetForLineCoordCentered b.screen.scrollbackRows b.screen.physicalRows
          range.1.line ∧
        Centered b.screen.scrollbackRows b.screen.physicalRows range.1.line offset := by
  constructor
  · intro b hidle hpos hline
    have hoffset := AlacrittyBackend.displayOffset_jumpToMatch hidle hpos hfound hline
    exact ⟨hoffset, hoffset ▸ centered_scrollOffset hpos hline⟩
  · intro b h hidle hline
    have hoffset := WezTermBackend.displayOffset_jumpToMatch h hidle hfound hline
    exact ⟨hoffset, hoffset ▸ centered_scrollOffset h.rows_pos hline⟩

/-- A match in the scrollback of ten rows over three. -/
def oneMatch : List (GridPoint × GridPoint) := [(⟨-4, 2⟩, ⟨-4, 5⟩)]

theorem jumpToMatch_centered_atBottom :
    (atBottom.jumpToMatch oneMatch 0).applyPendingOps.grid.displayOffset = 5 ∧
      Centered 13 3 (-4) 5 ∧ (following.jumpToMatch oneMatch 0).sync.plan.displayOffset = 5 ∧
      Centered 8 3 (-4) 5 := by
  obtain ⟨halacritty, hwezterm⟩ :=
    @jumpToMatch_centered ℤ oneMatch 0 (⟨-4, 2⟩, ⟨-4, 5⟩) rfl
  obtain ⟨hoffset, hcentered⟩ := halacritty atBottom rfl (by decide) ⟨by decide, by decide⟩
  obtain ⟨hoffset', hcentered'⟩ := hwezterm following
    (Screen.lawful_ring 3 8 40 (by decide) (by decide)) rfl ⟨by decide, by decide⟩
  have h₁ : scrollOffsetForLineCoordCentered atBottom.totalLines atBottom.grid.lines (-4) = 5 := by
    decide
  have h₂ : scrollOffsetForLineCoordCentered following.screen.scrollbackRows
      following.screen.physicalRows (-4) = 5 := by
    decide
  rw [h₁] at hoffset
  rw [h₂] at hoffset'
  exact ⟨hoffset, hoffset ▸ hcentered, hoffset', hoffset' ▸ hcentered'⟩

end Termua.Scroll
