import Mathlib
import Termua.Term.Safety

/-!
# Writing and erasing do not panic

`input` writes at the cursor, wraps and shifts the line, and everything that erases clears ranges of the
line of the cursor or regions of the screen. Wide characters need care: they take two cells, and what is
left of one that is overwritten may be in the next cell, in the one before or at the end of the line above.
-/

namespace Termua.Term

open Termua.Grid (Cell Color Point Flags)

variable {tables : Tables} {t m : Term}

/-! ## Cells -/

/-- A loop over the grid is a loop over the terminal. -/
theorem onGrid_foldlM {ι : Type} (f : Grid Cell → ι → Option (Grid Cell)) (is : List ι) :
    ∀ t : Term, t.onGrid (fun g => is.foldlM f g) = is.foldlM (fun t i => t.onGrid (f · i)) t := by
  induction is with
  | nil =>
    intro t
    rfl
  | cons i is ih =>
    intro t
    rw [List.foldlM_cons]
    simp only [← ih]
    unfold onGrid
    simp only [List.foldlM_cons]
    rcases f t.grid i with _ | g <;> rfl

theorem clearWideAround_holds (h : t.Inv) (flags : Flags) :
    Returns (t.clearWideAround flags) (Holds t) := by
  have hnonneg := h.onScreen.line_nonneg
  have hlt : t.cursor.point.line < t.screenLines := h.onScreen.line_lt
  have hcol : t.cursor.point.column < t.columns := h.onScreen.column_lt
  have htop := t.topmostLine_nonpos.trans hnonneg
  have hlast : t.lastColumn = t.columns - 1 := rfl
  refine Returns.bind (Q := Holds t) ?_ fun m hm => ?_
  · refine .ite (fun hwide => ?_) fun _ => .ite (fun _ => ?_) fun _ => .some h.holds
    · have hnext : t.cursor.point.column + 1 < t.columns := by omega
      exact modifyCell_holds (p := ⟨t.cursor.point.line, t.cursor.point.column + 1⟩) h htop hlt hnext _
    · have hback : t.cursor.point.column - 1 < t.columns := by omega
      exact modifyCell_holds (p := ⟨t.cursor.point.line, t.cursor.point.column - 1⟩) h htop hlt hback _
  · have hmtop := m.topmostLine_nonpos
    have hmlines := hm.screenLines
    refine .ite (fun habove => ?_) fun _ => .some hm
    -- the line above is in the buffer, as the cursor is not in the topmost one
    have hne := habove.2
    have hline : m.topmostLine ≤ t.cursor.point.line - 1 := by omega
    have hlt' : t.cursor.point.line - 1 < m.screenLines := by omega
    exact (modifyCell_holds (p := ⟨t.cursor.point.line - 1, m.lastColumn⟩) hm.inv hline hlt'
      hm.inv.lastColumn_lt _).mono fun _ h' => hm.trans h'

theorem writeAtCursor_holds (h : t.Inv) (c : Char) :
    Returns (t.writeAtCursor tables c) (Holds t) := by
  refine (cell_returns h h.onScreen).bind fun cell _ => ?_
  refine Returns.bind (Q := Holds t) ?_ fun m hm => ?_
  · exact .ite (fun _ => clearWideAround_holds h _) fun _ => .some h.holds
  · exact (modifyCursorCell_holds hm.inv _).mono fun _ h' => hm.trans h'

theorem swapCells_returns {row : List Cell} {pairs : List (ℕ × ℕ)}
    (hpairs : ∀ p ∈ pairs, p.1 < row.length ∧ p.2 < row.length) :
    Returns (swapCells row pairs) fun row' => row'.length = row.length := by
  refine Returns.foldlM rfl fun row' p hp hlen => ?_
  obtain ⟨hi, hj⟩ := hpairs p hp
  unfold Ring.swapAt
  rw [List.getElem?_eq_getElem (hlen ▸ hi), List.getElem?_eq_getElem (hlen ▸ hj)]
  exact .pure (by rw [List.length_set, List.length_set, hlen])

theorem fill_returns {row : List Cell} {start stop : ℕ} (hstart : start ≤ stop)
    (hstop : stop ≤ row.length) (bg : Color) :
    Returns (fill row start stop bg) fun row' => row'.length = row.length := by
  unfold fill
  rw [if_pos ⟨hstart, hstop⟩]
  refine .some ?_
  simp only [List.length_append, List.length_take, List.length_replicate, List.length_drop]
  omega

/-- The cells of a line of the screen change places, and some are cleared. -/
theorem modifyLine_holds (h : t.Inv) {line : ℤ} (hnonneg : 0 ≤ line) (hlt : line < t.screenLines)
    {f : List Cell → Option (List Cell)}
    (hf : ∀ l, l.length = t.columns → Returns (f l) fun l' => l'.length = l.length) :
    Returns (t.onGrid (·.modifyRow line (·.modifyRange 0 none f))) (Holds t) :=
  modifyRange_holds h hnonneg hlt (Nat.zero_le _) (le_refl _) hf

/-! ## Input -/

theorem shiftRight_holds (h : t.Inv) (width : ℕ) : Returns (t.shiftRight width) (Holds t) := by
  refine .ite (fun hshift => ?_) fun _ => .some h.holds
  have hfits := hshift.2
  refine modifyLine_holds h h.onScreen.line_nonneg h.onScreen.line_lt fun l hl => ?_
  refine swapCells_returns fun p hp => ?_
  obtain ⟨i, hi, rfl⟩ := List.mem_map.mp hp
  rw [List.mem_reverse, List.mem_range'_1] at hi
  simp only
  omega

theorem writeWide_keeps (h : t.Inv) (hroom : t.cursor.point.column + 1 < t.columns) (c : Char) :
    Returns (t.writeWide tables c) (Keeps t) := by
  have hwide := withTemplate_keeps h fun template =>
    { template with flags := { template.flags with wideChar := true } }
  refine (writeAtCursor_holds hwide.inv c).bind fun m hm => ?_
  have hplain := withTemplate_keeps hm.inv fun template =>
    { template with flags := { template.flags with wideChar := false } }
  have hpoint : m.cursor.point = t.cursor.point := congrArg (·.point) hm.cursor
  have hcols : m.columns = t.columns := hm.columns
  have hnext := toColumn_keeps hplain.inv (show m.cursor.point.column + 1 < m.columns by
    rw [hpoint, hcols]
    exact hroom)
  -- the second cell is a spacer, which the template makes of it for this one write
  have hspacer := withTemplate_keeps hnext.inv fun template =>
    { template with flags := { template.flags with wideCharSpacer := true } }
  refine (writeAtCursor_holds hspacer.inv ' ').bind fun d hd => .pure ?_
  have hdone := withTemplate_keeps hd.inv fun template =>
    { template with flags := { template.flags with wideCharSpacer := false } }
  exact hwide.trans (hm.toKeeps.trans (hplain.trans (hnext.trans (hspacer.trans
    (hd.toKeeps.trans hdone)))))

theorem advance_keeps (h : t.Inv) : t.Keeps t.advance := by
  unfold advance
  simp only
  split
  · next hroom => exact toColumn_keeps h hroom
  · exact needsWrap_keeps h true

/-- Where lines wrap, a wide character that does not fit goes to the first column. -/
theorem wrapWide_keeps (h : t.Inv) (hwrap : t.mode.lineWrap) :
    Returns (t.wrapWide tables) fun t' => t.Keeps t' ∧ t'.cursor.point.column = 0 := by
  have hlead := withTemplate_keeps h fun template =>
    { template with flags := { template.flags with leadingWideCharSpacer := true } }
  refine (writeAtCursor_holds hlead.inv ' ').bind fun m hm => ?_
  have hplain := withTemplate_keeps hm.inv fun template =>
    { template with flags := { template.flags with leadingWideCharSpacer := false } }
  refine (wrapline_keeps hplain.inv).mono fun t' h' => ⟨?_, h'.2.2 ?_⟩
  · exact hlead.trans (hm.toKeeps.trans (hplain.trans h'.1))
  · show m.mode.lineWrap
    rw [hm.mode]
    exact hwrap

/-- A step is followed by the move of the cursor. -/
theorem advance_after {x : Option Term} (hx : Returns x (Keeps t)) :
    Returns (x >>= fun t => pure t.advance) (Keeps t) :=
  Keeps.bind hx fun _ hm => .pure (advance_keeps hm)

theorem inputGlyph_keeps (h : t.Inv) (c : Char) (width : ℕ) :
    Returns (t.inputGlyph tables c width) (Keeps t) := by
  have htwo := h.two_columns
  -- a narrow character; a wide one that does not fit, where lines wrap and where not; and one that fits
  refine .ite (fun _ => ?_) fun _ => .ite (fun _ => .ite (fun hwrap => ?_) fun _ => ?_) fun hroom => ?_
  · exact advance_after ((writeAtCursor_holds h c).mono fun _ h' => h'.toKeeps)
  · refine (wrapWide_keeps h hwrap).bind fun m hm => ?_
    have hcol : m.cursor.point.column + 1 < m.columns := by
      rw [hm.2, hm.1.columns]
      omega
    exact (advance_after (writeWide_keeps hm.1.inv hcol c)).mono fun _ h' => hm.1.trans h'
  · exact .some (needsWrap_keeps h true)
  · exact advance_after (writeWide_keeps h (by omega) c)

theorem inputZerowidth_keeps (h : t.Inv) (c : Char) : Returns (t.inputZerowidth c) (Keeps t) := by
  have hnonneg := h.onScreen.line_nonneg
  have hlt := h.onScreen.line_lt
  have hcol := h.onScreen.column_lt
  have hread (column : ℕ) (hcolumn : column < t.grid.columns) :=
    cell_returns h (p := ⟨t.cursor.point.line, column⟩) ⟨hnonneg, hlt, hcolumn⟩
  have hwrite (column : ℕ) (hcolumn : column < t.grid.columns) :=
    modifyCell_holds (p := ⟨t.cursor.point.line, column⟩) h (t.topmostLine_nonpos.trans hnonneg) hlt
      hcolumn (·.pushZerowidth c)
  have hcolumn : (if t.cursor.inputNeedsWrap then t.cursor.point.column
      else t.cursor.point.column - 1) < t.grid.columns := by
    split <;> omega
  refine (hread _ hcolumn).bind fun cell _ => (hwrite _ ?_).mono fun _ h' => h'.toKeeps
  split
  · exact (Nat.sub_le ..).trans_lt hcolumn
  · exact hcolumn

theorem input_keeps (h : t.Inv) (c : Char) : Returns (t.input tables c) (Keeps t) := by
  unfold input
  split
  · exact .some h.keeps
  · exact inputZerowidth_keeps h c
  · next width _ _ =>
    refine Keeps.bind (.ite (fun _ => (wrapline_keeps h).mono fun _ h' => h'.1)
      fun _ => .some h.keeps) fun m hm => ?_
    refine Keeps.bind ((shiftRight_holds hm width).mono fun _ h' => h'.toKeeps) fun d hd => ?_
    exact inputGlyph_keeps hd c width

theorem decaln_keeps (h : t.Inv) : Returns t.decaln (Keeps t) := by
  refine Returns.bind (Q := Holds t) ?_ fun m hm =>
    .pure (hm.toKeeps.trans (markFullyDamaged_holds hm.inv).toKeeps)
  rw [onGrid_foldlM]
  refine .foldlM h.holds fun m line hline hm => ?_
  rw [onGrid_foldlM]
  refine .foldlM hm fun d column hcolumn hd => ?_
  have hmem := Grid.Storage.mem_lineRange.mp hline
  have htop := d.topmostLine_nonpos
  refine (modifyCell_holds (p := ⟨line, column⟩) hd.inv ?_ ?_ ?_ _).mono fun _ h' => hd.trans h'
  · exact htop.trans hmem.1
  · rw [hd.screenLines]
    exact hmem.2
  · rw [hd.columns]
    exact List.mem_range.mp hcolumn

/-! ## Erasing -/

/-- The line of the cursor is damaged and its cells are changed. -/
theorem modifyDamaged_keeps (h : t.Inv) (left right : ℕ) {f : List Cell → Option (List Cell)}
    (hf : ∀ l, l.length = t.columns → Returns (f l) fun l' => l'.length = l.length) :
    Returns (t.damageLine t.cursor.point.line.toNat left right >>= fun m =>
      m.onGrid (·.modifyRow t.cursor.point.line (·.modifyRange 0 none f))) (Keeps t) := by
  refine (damageLine_holds h h.line_toNat_lt left right).bind fun m hm => ?_
  refine (modifyLine_holds hm.inv h.onScreen.line_nonneg ?_ fun l hl => hf l ?_).mono
    fun _ h' => hm.toKeeps.trans h'.toKeeps
  · rw [hm.screenLines]
    exact h.onScreen.line_lt
  · rw [hl, hm.columns]

theorem insertBlank_keeps (h : t.Inv) (count : ℕ) : Returns (t.insertBlank count) (Keeps t) := by
  have hcol : t.cursor.point.column < t.columns := h.onScreen.column_lt
  refine modifyDamaged_keeps h _ _ fun l hl => ?_
  -- the cells behind the cursor move from the last one on, and what is left between is cleared
  refine Returns.bind (swapCells_returns fun p hp => ?_) fun l' hl' => ?_
  · obtain ⟨i, hi, rfl⟩ := List.mem_map.mp hp
    rw [List.mem_reverse, List.mem_range] at hi
    simp only
    omega
  · rw [← hl']
    exact fill_returns (Nat.le_add_right ..) (by omega) _

theorem deleteChars_keeps (h : t.Inv) (count : ℕ) : Returns (t.deleteChars count) (Keeps t) := by
  have hcol : t.cursor.point.column < t.columns := h.onScreen.column_lt
  refine modifyDamaged_keeps h _ _ fun l hl => ?_
  refine Returns.bind (swapCells_returns fun p hp => ?_) fun l' hl' => ?_
  · obtain ⟨i, hi, rfl⟩ := List.mem_map.mp hp
    rw [List.mem_range] at hi
    simp only
    omega
  · rw [← hl']
    exact fill_returns (by omega) (le_refl _) _

/-- The line of the cursor is damaged and a range of its cells is cleared. -/
theorem clearDamaged_keeps (h : t.Inv) (left right : ℕ) {start stop : ℕ} (hstart : start ≤ stop)
    (hstop : stop ≤ t.columns) :
    Returns (t.damageLine t.cursor.point.line.toNat left right >>= fun m =>
      m.clearCells t.cursor.point.line start (some stop) m.cursor.template.bg) (Keeps t) := by
  refine (damageLine_holds h h.line_toNat_lt left right).bind fun m hm => ?_
  refine (clearCells_holds hm.inv h.onScreen.line_nonneg ?_ hstart ?_ _).mono
    fun _ h' => hm.toKeeps.trans h'.toKeeps
  · rw [hm.screenLines]
    exact h.onScreen.line_lt
  · rw [hm.columns]
    exact hstop

theorem eraseChars_keeps (h : t.Inv) (count : ℕ) : Returns (t.eraseChars count) (Keeps t) := by
  have hcol : t.cursor.point.column < t.columns := h.onScreen.column_lt
  exact clearDamaged_keeps h _ _ (by omega) (min_le_right ..)

theorem clearLine_keeps (h : t.Inv) : ∀ mode, Returns (t.clearLine mode) (Keeps t)
  | .right => .ite (fun _ => .some h.keeps) fun _ =>
    clearDamaged_keeps h _ _ h.onScreen.column_lt.le (le_refl _)
  | .left => clearDamaged_keeps h _ _ (Nat.zero_le _) h.onScreen.column_lt
  | .all => clearDamaged_keeps h _ _ (Nat.zero_le _) (le_refl _)

theorem resetRegion_holds (h : t.Inv) {start stop : ℤ} (hstart : 0 ≤ start) (hle : start ≤ stop)
    (hstop : stop ≤ t.screenLines) : Returns (t.onGrid (·.resetRegion start stop)) (Holds t) := by
  obtain ⟨a, rfl⟩ := Int.eq_ofNat_of_zero_le hstart
  obtain ⟨b, rfl⟩ := Int.eq_ofNat_of_zero_le (hstart.trans hle)
  exact onGrid_holds h (.resetRegion a b) rfl ⟨by omega, Int.ofNat_le.mp hstop⟩ trivial

theorem clearPart_holds (h : t.Inv) : ∀ mode, Returns (t.clearPart mode) (Holds t)
  | .above => by
    have hnonneg := h.onScreen.line_nonneg
    have hlt : t.cursor.point.line < t.screenLines := h.onScreen.line_lt
    refine Returns.bind (Q := Holds t) (.ite (fun _ => ?_) fun _ => .some h.holds) fun m hm => ?_
    · exact resetRegion_holds h (le_refl _) hnonneg hlt.le
    · refine (clearCells_holds hm.inv hnonneg ?_ (Nat.zero_le _) ?_ _).mono fun _ h' => hm.trans h'
      · rw [hm.screenLines]
        exact hlt
      · exact min_le_right ..
  | .below => by
    have hnonneg := h.onScreen.line_nonneg
    have hlt : t.cursor.point.line < t.screenLines := h.onScreen.line_lt
    have hcol : t.cursor.point.column < t.columns := h.onScreen.column_lt
    -- the rest of the line, and then the lines below it where there are any
    refine (clearCells_holds h hnonneg hlt hcol.le (le_refl _) _).bind fun m hm => ?_
    refine .ite (fun _ => ?_) fun _ => .some hm
    refine (resetRegion_holds hm.inv ?_ ?_ (le_refl _)).mono fun _ h' => hm.trans h'
    · omega
    · rw [hm.screenLines]
      exact hlt
  | .all => by
    refine .ite (fun _ => ?_) fun _ => ?_
    · exact resetRegion_holds h (le_refl _) (Int.natCast_nonneg _) (le_refl _)
    · exact onGrid_holds h .clearViewport rfl trivial trivial
  | .saved => .ite (fun _ => onGrid_holds h .clearHistory rfl trivial trivial) fun _ => .some h.holds

theorem clearScreen_keeps (h : t.Inv) (mode : ClearMode) : Returns (t.clearScreen mode) (Keeps t) :=
  (clearPart_holds h mode).bind fun _ hm =>
    .pure (hm.toKeeps.trans (markFullyDamaged_holds hm.inv).toKeeps)

end Termua.Term
