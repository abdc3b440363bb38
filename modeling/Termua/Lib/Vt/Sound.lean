import Mathlib
import Termua.Lib.Vt.Screen

/-!
# What a screen can hold

However a screen came about by printing, control characters, cursor movements, graphic renditions and
erasing the whole display, it holds no control character and no half of a wide character
(`Sound.foldl_perform`). Erasing a part of the display is left out: it may cut a wide character.
-/

namespace Vt

namespace Screen

variable {s t : Screen} {width : Char → ℕ}

/-- No slot holds a control character, every right half is behind the wide character it belongs to, and
every wide character has its right half, inside the screen. -/
structure Sound (s : Screen) : Prop where
  char : ∀ r c g, s.cell r c = .glyph g → isControl g.char = false
  spacer : ∀ r c pen, s.cell r c = .spacer pen →
    ∃ c' g, c = c' + 1 ∧ s.cell r c' = .glyph g ∧ g.wide = true
  wide : ∀ r c g, s.cell r c = .glyph g → g.wide = true →
    s.cell r (c + 1) = .spacer g.pen ∧ c + 1 < s.columns

/-- The actions that keep a screen of so many columns sound: a wide character needs two of them. -/
def Mild (width : Char → ℕ) (columns : ℕ) : Action → Prop
  | .print c => isControl c = false ∧ (1 < width c → 2 ≤ columns)
  | .execute _ => True
  | .csi _ params final => final = 'J' → arg params 0 = 2

theorem isControl_space : isControl ' ' = false := by decide

theorem Sound.new (columns rows : ℕ) : Sound (.new columns rows) where
  char r c g h := by cases h; exact isControl_space
  spacer r c pen h := nomatch h
  wide r c g h hwide := by cases h; cases hwide

/-- Only the slots and the number of columns matter. -/
theorem Sound.congr (h : s.Sound) (hcell : t.cell = s.cell) (hcolumns : t.columns = s.columns) :
    t.Sound := by
  refine ⟨?_, ?_, ?_⟩ <;> rw [hcell]
  · exact h.char
  · exact h.spacer
  · rw [hcolumns]
    exact h.wide

theorem Sound.lineFeed (h : s.Sound) : s.lineFeed.Sound := by
  unfold Screen.lineFeed
  by_cases hy : s.y + 1 < s.rows
  · rw [if_pos hy]
    exact h.congr rfl rfl
  rw [if_neg hy]
  refine ⟨fun r c g hg => ?_, fun r c pen hpen => ?_, fun r c g hg hwide => ?_⟩
  · by_cases hr : r + 1 < s.rows
    · simp only [if_pos hr] at hg
      exact h.char _ _ _ hg
    · simp only [if_neg hr] at hg
      cases hg
      exact isControl_space
  · by_cases hr : r + 1 < s.rows
    · simp only [if_pos hr] at hpen ⊢
      exact h.spacer _ _ _ hpen
    · simp only [if_neg hr] at hpen
      cases hpen
  · by_cases hr : r + 1 < s.rows
    · simp only [if_pos hr] at hg ⊢
      exact h.wide _ _ _ hg hwide
    · simp only [if_neg hr] at hg
      cases hg
      cases hwide

theorem Sound.wrap (h : s.Sound) (n : ℕ) : (s.wrap n).Sound := by
  unfold Screen.wrap
  by_cases hx : s.columns < s.x + n
  · rw [if_pos hx]
    exact h.lineFeed.congr rfl rfl
  · rw [if_neg hx]
    exact h

/-- After wrapping there is room. -/
theorem wrap_fits {n : ℕ} (hn : n ≤ s.columns) : (s.wrap n).x + n ≤ (s.wrap n).columns := by
  have hcolumns : (s.wrap n).columns = s.columns := congrArg Prod.fst (s.size_wrap n)
  rw [hcolumns]
  unfold Screen.wrap
  by_cases hx : s.columns < s.x + n
  · rw [if_pos hx]
    simpa using hn
  · rw [if_neg hx]
    omega

theorem splitLeft_cell (r c : ℕ) : s.splitLeft.cell r c =
    if r = s.y ∧ c + 1 = s.x ∧ (s.cell r c).isWide then .blank s.pen else s.cell r c := by
  unfold splitLeft
  by_cases hsplit : 0 < s.x ∧ (s.cell s.y (s.x - 1)).isWide
  · rw [if_pos hsplit]
    refine if_congr (and_congr_right ?_) rfl rfl
    rintro rfl
    constructor
    · rintro rfl
      exact ⟨by omega, hsplit.2⟩
    · rintro ⟨hc, -⟩
      omega
  · rw [if_neg hsplit, if_neg]
    rintro ⟨rfl, hc, hwide⟩
    exact hsplit ⟨by omega, by rwa [show s.x - 1 = c by omega]⟩

theorem splitRight_cell (r c : ℕ) : s.splitRight.cell r c =
    if r = s.y ∧ c = s.x ∧ (s.cell r c).isSpacer then .blank s.pen else s.cell r c := by
  unfold splitRight
  by_cases hsplit : (s.cell s.y s.x).isSpacer
  · rw [if_pos hsplit]
    refine if_congr (and_congr_right ?_) rfl rfl
    rintro rfl
    exact ⟨fun hc => ⟨hc, hc ▸ hsplit⟩, And.left⟩
  · rw [if_neg hsplit, if_neg]
    rintro ⟨rfl, rfl, hspacer⟩
    exact hsplit hspacer

@[simp] theorem splitLeft_x : s.splitLeft.x = s.x := by
  unfold splitLeft
  split <;> rfl

@[simp] theorem splitLeft_y : s.splitLeft.y = s.y := by
  unfold splitLeft
  split <;> rfl

@[simp] theorem length_slots (g : Glyph) : g.slots.length = if g.wide then 2 else 1 := by
  unfold Glyph.slots
  split <;> rfl

/-- The slots after a character was printed where there is room for it: its own ones, the blanked halves
of the wide characters that it cuts, and the others as they were. -/
theorem put_cell (c : Char) (wide : Bool) {n : ℕ} (hn : n = if wide then 2 else 1) (r col : ℕ) :
    (s.put c wide).cell r col =
      if r = (s.wrap n).y ∧ col = (s.wrap n).x then .glyph ⟨c, [], s.pen, wide⟩
      else if r = (s.wrap n).y ∧ wide = true ∧ col = (s.wrap n).x + 1 then .spacer s.pen
      else if r = (s.wrap n).y ∧ col + 1 = (s.wrap n).x ∧ ((s.wrap n).cell r col).isWide then
        .blank s.pen
      else if r = (s.wrap n).y ∧ col = (s.wrap n).x + n ∧ ((s.wrap n).cell r col).isSpacer then
        .blank s.pen
      else (s.wrap n).cell r col := by
  have hpen := s.pen_wrap n
  -- the halves that are cut are left of the cursor and behind the new character
  cases wide with
  | false =>
    obtain rfl : n = 1 := hn
    simp only [put, length_slots, Bool.false_eq_true, if_false, false_and, and_false]
    generalize s.wrap 1 = w at hpen ⊢
    simp only [splitRight_cell, set, splitLeft_cell, splitLeft_x, splitLeft_y, hpen, pen_splitLeft]
    by_cases hcol : col = w.x + 1
    · subst hcol
      simp [show w.x + 1 + 1 ≠ w.x by omega]
    · simp only [hcol, false_and, and_false, if_false]
  | true =>
    obtain rfl : n = 2 := hn
    simp only [put, length_slots, if_true, true_and]
    generalize s.wrap 2 = w at hpen ⊢
    simp only [splitRight_cell, set, splitLeft_cell, splitLeft_x, splitLeft_y, hpen, pen_splitLeft]
    by_cases hcol : col = w.x + 2
    · subst hcol
      simp [show w.x + 2 + 1 ≠ w.x by omega]
    · by_cases hx : col = w.x
      · subst hx
        simp
      · simp only [hcol, hx, false_and, and_false, if_false]

/-- A slot that printing a character leaves as it was. -/
theorem put_cell_of_old (c : Char) (wide : Bool) {n : ℕ} (hn : n = if wide then 2 else 1) (r col : ℕ)
    (hx : ¬ (r = (s.wrap n).y ∧ col = (s.wrap n).x))
    (hright : ¬ (r = (s.wrap n).y ∧ wide = true ∧ col = (s.wrap n).x + 1))
    (hleft : ¬ (r = (s.wrap n).y ∧ col + 1 = (s.wrap n).x ∧ ((s.wrap n).cell r col).isWide))
    (hend : ¬ (r = (s.wrap n).y ∧ col = (s.wrap n).x + n ∧ ((s.wrap n).cell r col).isSpacer)) :
    (s.put c wide).cell r col = (s.wrap n).cell r col := by
  rw [put_cell c wide hn, if_neg hx, if_neg hright, if_neg hleft, if_neg hend]

theorem Sound.put (h : s.Sound) {c : Char} (hc : isControl c = false) (wide : Bool)
    (hcolumns : (if wide then 2 else 1) ≤ s.columns) : (s.put c wide).Sound := by
  obtain ⟨n, hn⟩ : ∃ n, n = if wide then 2 else 1 := ⟨_, rfl⟩
  have hw := h.wrap n
  have hfit := wrap_fits (hn ▸ hcolumns)
  have hwidth : (s.put c wide).columns = (s.wrap n).columns :=
    congrArg Prod.fst ((s.size_put c wide).trans (s.size_wrap n).symm)
  have hcell := fun r col => put_cell (s := s) c wide hn r col
  have hold := fun r col => put_cell_of_old (s := s) c wide hn r col
  generalize s.wrap n = w at *
  generalize s.put c wide = t at *
  -- three conditions on each cell: its character, the half to its left, the half to its right
  refine ⟨fun r col g hg => ?_, fun r col pen hpen => ?_, fun r col g hg hwide => ?_⟩
  · rw [hcell] at hg
    split_ifs at hg
    · cases hg
      exact hc
    · cases hg
      exact isControl_space
    · cases hg
      exact isControl_space
    · exact hw.char r col g hg
  · rw [hcell] at hpen
    split_ifs at hpen with hx hright hleft hend
    · obtain ⟨rfl, rfl, rfl⟩ := hright
      exact ⟨w.x, _, rfl, (hcell _ _).trans (if_pos ⟨rfl, rfl⟩), rfl⟩
    · cases hpen
    · cases hpen
    -- an old spacer whose other half is not overwritten
    · obtain ⟨col', g, rfl, hg, hwide⟩ := hw.spacer r col pen hpen
      have hspacer : (w.cell r (col' + 1)).isSpacer := by rw [hpen]; rfl
      refine ⟨col', g, rfl, (hold _ _ ?_ ?_ ?_ ?_).trans hg, hwide⟩
      · grind
      · grind
      · grind
      · simp [hg, Slot.isSpacer]
  · rw [hcell] at hg
    split_ifs at hg with hx hright hleft hend
    · cases hg
      obtain ⟨rfl, rfl⟩ := hx
      obtain rfl : wide = true := hwide
      refine ⟨(hcell _ _).trans ?_, ?_⟩
      · rw [if_neg (by simp), if_pos ⟨rfl, rfl, rfl⟩]
      · rw [hwidth]
        simp only [if_true] at hn
        omega
    · cases hg
      cases hwide
    · cases hg
      cases hwide
    -- an old wide cell whose spacer is not overwritten
    · obtain ⟨hspacer, hinside⟩ := hw.wide r col g hg hwide
      have hold' : (w.cell r col).isWide := by rw [hg]; exact hwide
      refine ⟨(hold _ _ ?_ ?_ ?_ ?_).trans hspacer, hwidth ▸ hinside⟩
      · grind
      · grind
      · simp [hspacer, Slot.isWide]
      · grind

/-- Another glyph of the same character, width and pen keeps a screen sound. -/
theorem Sound.set_glyph (h : s.Sound) {column : ℕ} {g g' : Glyph}
    (hg : s.cell s.y column = .glyph g) (hchar : g'.char = g.char) (hwide : g'.wide = g.wide)
    (hpen : g'.pen = g.pen) : (s.set column (.glyph g')).Sound := by
  have hcell : ∀ r c, (s.set column (.glyph g')).cell r c =
      if r = s.y ∧ c = column then .glyph g' else s.cell r c := fun _ _ => rfl
  -- the slot that changed and the others, for each of the three conditions
  refine ⟨fun r c f hf => ?_, fun r c pen hspacer => ?_, fun r c f hf hfwide => ?_⟩
  · rw [hcell] at hf
    split_ifs at hf with hhere
    · cases hf
      rw [hchar]
      exact h.char _ _ _ hg
    · exact h.char _ _ _ hf
  · rw [hcell] at hspacer
    split_ifs at hspacer with hhere
    obtain ⟨c', f, rfl, hf, hfwide⟩ := h.spacer r c pen hspacer
    by_cases hhere' : r = s.y ∧ c' = column
    · obtain ⟨rfl, rfl⟩ := hhere'
      obtain rfl : f = g := Slot.glyph.inj (hf.symm.trans hg)
      exact ⟨c', g', rfl, (hcell _ _).trans (if_pos ⟨rfl, rfl⟩), hwide.trans hfwide⟩
    · exact ⟨c', f, rfl, (hcell _ _).trans ((if_neg hhere').trans hf), hfwide⟩
  · have hold : ∀ f', s.cell r c = .glyph f' → f'.wide = true → f'.pen = f.pen →
        (s.set column (.glyph g')).cell r (c + 1) = .spacer f.pen ∧ c + 1 < s.columns := by
      intro f' hf' hwide' hpen'
      obtain ⟨hnext, hinside⟩ := h.wide r c f' hf' hwide'
      refine ⟨(hcell _ _).trans ((if_neg ?_).trans (hpen' ▸ hnext)), hinside⟩
      rintro ⟨rfl, rfl⟩
      rw [hg] at hnext
      cases hnext
    rw [hcell] at hf
    split_ifs at hf with hhere
    · obtain ⟨rfl, rfl⟩ := hhere
      cases hf
      exact hold g hg (hwide.symm.trans hfwide) hpen.symm
    · exact hold f hf hfwide rfl

theorem Sound.combine (h : s.Sound) (c : Char) : (s.combine c).Sound := by
  unfold Screen.combine
  by_cases hx : s.x = 0
  · rw [if_pos hx]
    exact h
  rw [if_neg hx]
  generalize (if (s.cell s.y (s.x - 1)).isSpacer then s.x - 2 else s.x - 1) = column
  cases hcell : s.cell s.y column with
  | glyph g =>
    simp only [hcell]
    exact h.set_glyph hcell rfl rfl rfl
  | spacer pen =>
    simp only [hcell]
    exact h

theorem Sound.execute (h : s.Sound) (c : Char) : (s.execute c).Sound := by
  unfold Screen.execute
  split_ifs
  · exact h.congr rfl rfl
  · exact h.lineFeed
  · exact h.congr rfl rfl
  · exact h.congr rfl rfl
  · exact h

/-- Erasing the whole display leaves blanks. -/
theorem Sound.eraseDisplay (s : Screen) : (s.eraseDisplay 2).Sound where
  char r c g h := by cases h; exact isControl_space
  spacer r c pen h := nomatch h
  wide r c g h hwide := by cases h; cases hwide

theorem Sound.csi (h : s.Sound) {question : Bool} {params : List (List ℕ)} {final : Char}
    (hmild : Mild width s.columns (.csi question params final)) : (s.csi question params final).Sound := by
  unfold Screen.csi
  split
  · exact h.congr rfl rfl
  · rw [show arg params 0 = 2 from hmild rfl]
    exact .eraseDisplay s
  · exact h.congr rfl rfl
  · split_ifs
    · exact h.congr rfl rfl
    · exact h
  · split_ifs
    · exact h.congr rfl rfl
    · exact h
  · exact h

theorem Sound.perform (h : s.Sound) (hcolumns : 0 < s.columns) {a : Action}
    (hmild : Mild width s.columns a) : (s.perform width a).Sound := by
  cases a with
  | print c =>
    obtain ⟨hc, hwide⟩ := hmild
    show (s.print width c).Sound
    unfold print
    split
    · exact h.combine c
    · exact h.put hc false hcolumns
    · next hzero hone =>
      exact h.put hc true (hwide (Nat.one_lt_iff_ne_zero_and_ne_one.mpr ⟨hzero, hone⟩))
  | execute c => exact h.execute c
  | csi question params final => exact h.csi hmild

/-- Mild actions keep a screen sound. -/
theorem Sound.foldl_perform (h : s.Sound) (hcolumns : 0 < s.columns) {actions : List Action}
    (hmild : ∀ a ∈ actions, Mild width s.columns a) :
    (actions.foldl (Screen.perform width) s).Sound := by
  induction actions generalizing s with
  | nil => exact h
  | cons a actions ih =>
    have hwidth : (s.perform width a).columns = s.columns := congrArg Prod.fst (s.size_perform a)
    refine ih (h.perform hcolumns (hmild a List.mem_cons_self)) (hwidth ▸ hcolumns) fun b hb => ?_
    rw [hwidth]
    exact hmild b (List.mem_cons_of_mem a hb)

end Screen

end Vt
