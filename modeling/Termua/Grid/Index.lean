import Mathlib

/-!
# Points of the grid

`alacritty_terminal/src/index.rs`: lines are counted from the top of the screen, those of the
scrollback are negative. Adding columns to a point and subtracting them is arithmetic on the number of
cells from the first column of line 0 on (`Point.offset`): clamped to the screen or to the grid, or
going round the grid (`Point.add_sub_eq`).
-/

namespace Termua.Grid

/-- `Dimensions` of a grid. -/
structure Dimensions where
  totalLines : ℕ
  screenLines : ℕ
  columns : ℕ
  deriving DecidableEq, Repr

namespace Dimensions

variable (d : Dimensions)

/-- `last_column`. -/
def lastColumn : ℕ := d.columns - 1

/-- `history_size`. -/
def historySize : ℕ := d.totalLines - d.screenLines

/-- `topmost_line`. -/
def topmostLine : ℤ := -d.historySize

/-- `bottommost_line`. -/
def bottommostLine : ℤ := d.screenLines - 1

end Dimensions

/-- `Boundary`. -/
inductive Boundary where
  | cursor
  | grid
  | none
  deriving DecidableEq, Repr

/-- `Point`. -/
structure Point where
  line : ℤ
  column : ℕ
  deriving DecidableEq, Repr

/-- `Line::grid_clamp`. -/
def Line.gridClamp (line : ℤ) (d : Dimensions) : Boundary → ℤ
  | .cursor => max 0 (min d.bottommostLine line)
  | .grid => max d.topmostLine (min d.bottommostLine line)
  | .none =>
    if d.screenLines ≤ line then
      d.topmostLine + (line - d.screenLines).tmod d.totalLines
    else
      d.bottommostLine + (line - d.screenLines + 1).tmod d.totalLines

namespace Point

/-- `grid_clamp`. -/
def gridClamp (p : Point) (d : Dimensions) (boundary : Boundary) : Point :=
  let p := { p with column := min p.column d.lastColumn }
  match boundary with
  | .cursor =>
    if p.line < 0 then ⟨0, 0⟩
    else if d.bottommostLine < p.line then ⟨d.bottommostLine, d.lastColumn⟩
    else p
  | .grid =>
    if p.line < d.topmostLine then ⟨d.topmostLine, 0⟩
    else if d.bottommostLine < p.line then ⟨d.bottommostLine, d.lastColumn⟩
    else p
  | .none => { p with line := Line.gridClamp p.line d .none }

/-- `sub`. -/
def sub (p : Point) (d : Dimensions) (boundary : Boundary) (rhs : ℕ) : Point :=
  let cols := d.columns
  let lineChanges := (rhs + cols - 1 - p.column) / cols
  gridClamp ⟨p.line - lineChanges, (cols + p.column - rhs % cols) % cols⟩ d boundary

/-- `add`. -/
def add (p : Point) (d : Dimensions) (boundary : Boundary) (rhs : ℕ) : Point :=
  let cols := d.columns
  gridClamp ⟨p.line + ((rhs + p.column) / cols : ℕ), (p.column + rhs) % cols⟩ d boundary

/-! ## Cells counted from the first column of line 0 -/

variable {p : Point} {d : Dimensions} {n : ℕ}

/-- The number of cells from the first column of line 0 to the point. -/
def offset (d : Dimensions) (p : Point) : ℤ := p.line * d.columns + p.column

/-- The topmost line of a boundary. -/
def top (d : Dimensions) : Boundary → ℤ
  | .cursor => 0
  | .grid | .none => d.topmostLine

/-- The point is between the first cell of the boundary and the last cell of the screen. -/
structure In (d : Dimensions) (boundary : Boundary) (p : Point) : Prop where
  top_le : top d boundary ≤ p.line
  le_bottom : p.line ≤ d.bottommostLine
  column_lt : p.column < d.columns

/-- The cells `first..=last` of a boundary. -/
def first (d : Dimensions) (boundary : Boundary) : ℤ := top d boundary * d.columns

@[inherit_doc first]
def last (d : Dimensions) : ℤ := d.screenLines * d.columns - 1

/-- What `add` clamps is as many cells further on. -/
theorem offset_add :
    offset d ⟨p.line + ((n + p.column) / d.columns : ℕ), (p.column + n) % d.columns⟩ =
      p.offset d + n := by
  have hdiv := congrArg (Nat.cast : ℕ → ℤ) (Nat.div_add_mod (n + p.column) d.columns)
  unfold offset
  rw [Nat.add_comm p.column n]
  push_cast at hdiv ⊢
  linear_combination hdiv

/-- What `sub` clamps is as many cells further back. -/
theorem offset_sub (hcol : p.column < d.columns) :
    offset d ⟨p.line - ((n + d.columns - 1 - p.column) / d.columns : ℕ),
      (d.columns + p.column - n % d.columns) % d.columns⟩ = p.offset d - n := by
  have hpos : 0 < d.columns := by omega
  have hdiv := Nat.div_add_mod n d.columns
  have hlt := Nat.mod_lt n hpos
  have hcast := congrArg (Nat.cast : ℕ → ℤ) hdiv
  set q := n / d.columns
  set r := n % d.columns
  unfold offset
  rcases Nat.lt_or_ge p.column r with hr | hr
  · have hlines : (n + d.columns - 1 - p.column) / d.columns = q + 1 := by
      rw [← hdiv, show d.columns * q + r + d.columns - 1 - p.column =
        (r - 1 - p.column) + d.columns * (q + 1) by rw [Nat.mul_succ]; omega,
        Nat.add_mul_div_left _ _ hpos, Nat.div_eq_of_lt (by omega), Nat.zero_add]
    rw [hlines, Nat.mod_eq_of_lt (by omega)]
    have hc : ((d.columns + p.column - r : ℕ) : ℤ) = d.columns + p.column - r := by omega
    rw [hc]
    push_cast at hcast ⊢
    linear_combination -hcast
  · have hlines : (n + d.columns - 1 - p.column) / d.columns = q := by
      rw [← hdiv, show d.columns * q + r + d.columns - 1 - p.column =
        (r + d.columns - 1 - p.column) + d.columns * q by omega,
        Nat.add_mul_div_left _ _ hpos, Nat.div_eq_of_lt (by omega), Nat.zero_add]
    have hcols : (d.columns + p.column - r) % d.columns = p.column - r := by
      rw [show d.columns + p.column - r = (p.column - r) + d.columns by omega,
        Nat.add_mod_right, Nat.mod_eq_of_lt (by omega)]
    have hc : ((p.column - r : ℕ) : ℤ) = p.column - r := by omega
    rw [hlines, hcols, hc]
    push_cast at hcast ⊢
    linear_combination -hcast

/-- A clamp to the lines from `t` on, with a point of at most the last column. -/
private theorem offset_clampLine {t : ℤ} (ht : t ≤ d.bottommostLine) (hcol : p.column < d.columns)
    {q : Point} (hq : q = if p.line < t then ⟨t, 0⟩
      else if d.bottommostLine < p.line then ⟨d.bottommostLine, d.lastColumn⟩ else p) :
    (t ≤ q.line ∧ q.line ≤ d.bottommostLine ∧ q.column < d.columns) ∧
      q.offset d = max (t * d.columns) (min (last d) (p.offset d)) := by
  have hpos : (0 : ℤ) < d.columns := by omega
  have hscreen : (d.screenLines : ℤ) = d.bottommostLine + 1 := by
    unfold Dimensions.bottommostLine
    omega
  have hlast : last d = d.bottommostLine * d.columns + d.columns - 1 := by
    unfold last
    rw [hscreen]
    ring
  have hfirst := mul_le_mul_of_nonneg_right ht hpos.le
  subst hq
  unfold offset
  -- above, below and in between; the offset is that of the line by monotonicity
  split
  · next hlt =>
    have := mul_le_mul_of_nonneg_right (show p.line + 1 ≤ t by omega) hpos.le
    rw [add_mul, one_mul] at this
    refine ⟨⟨le_rfl, ht, by simp only; omega⟩, ?_⟩
    simp only
    omega
  · next hge =>
    have := mul_le_mul_of_nonneg_right (not_lt.mp hge) hpos.le
    split
    · next hgt =>
      have := mul_le_mul_of_nonneg_right (show d.bottommostLine + 1 ≤ p.line by omega) hpos.le
      rw [add_mul, one_mul] at this
      have hcols : ((d.lastColumn : ℕ) : ℤ) = d.columns - 1 := by
        unfold Dimensions.lastColumn
        omega
      refine ⟨⟨ht, le_rfl, by simp only; omega⟩, ?_⟩
      simp only [hcols]
      omega
    · next hle =>
      have := mul_le_mul_of_nonneg_right (not_lt.mp hle) hpos.le
      exact ⟨⟨not_lt.mp hge, not_lt.mp hle, hcol⟩, by omega⟩

/-- Clamping a point to a boundary clamps its offset. -/
theorem offset_gridClamp {boundary : Boundary} (hb : boundary ≠ .none)
    (htop : top d boundary ≤ d.bottommostLine) (hcol : p.column < d.columns) :
    In d boundary (p.gridClamp d boundary) ∧
      (p.gridClamp d boundary).offset d = max (first d boundary) (min (last d) (p.offset d)) := by
  have hmin : min p.column d.lastColumn = p.column := by
    unfold Dimensions.lastColumn
    omega
  cases boundary with
  | none => exact absurd rfl hb
  | cursor =>
    obtain ⟨⟨h₁, h₂, h₃⟩, h⟩ := offset_clampLine (t := 0) htop hcol rfl
    simp only [gridClamp, hmin]
    exact ⟨⟨h₁, h₂, h₃⟩, h⟩
  | grid =>
    obtain ⟨⟨h₁, h₂, h₃⟩, h⟩ := offset_clampLine (t := d.topmostLine) htop hcol rfl
    simp only [gridClamp, hmin]
    exact ⟨⟨h₁, h₂, h₃⟩, h⟩

/-- Without a boundary a line goes round the lines of the grid. -/
theorem gridClamp_none_eq (hscreen : d.screenLines ≤ d.totalLines) (hpos : 0 < d.totalLines)
    (line : ℤ) :
    Line.gridClamp line d .none = d.topmostLine + (line - d.topmostLine) % d.totalLines := by
  have htop : d.topmostLine = d.screenLines - d.totalLines := by
    unfold Dimensions.topmostLine Dimensions.historySize
    omega
  have htotal : (0 : ℤ) < d.totalLines := by omega
  dsimp only [Line.gridClamp]
  split
  · next hle =>
    rw [Int.tmod_eq_emod_of_nonneg (by omega), htop,
      show line - (d.screenLines - d.totalLines : ℤ) = (line - d.screenLines) + d.totalLines by ring,
      Int.add_emod_right]
  · next hlt =>
    have hneg : line - d.screenLines + 1 = -(d.screenLines - 1 - line) := by ring
    have hdiv := Int.emod_add_mul_ediv (d.screenLines - 1 - line) d.totalLines
    have hnonneg := Int.emod_nonneg (d.screenLines - 1 - line) htotal.ne'
    have hlt' := Int.emod_lt_of_pos (d.screenLines - 1 - line) htotal
    have hsplit : line - d.topmostLine =
        (d.totalLines - 1 - (d.screenLines - 1 - line) % d.totalLines) +
          d.totalLines * -((d.screenLines - 1 - line) / d.totalLines) := by
      rw [htop]
      linear_combination hdiv
    have hmod : (line - d.topmostLine) % d.totalLines =
        d.totalLines - 1 - (d.screenLines - 1 - line) % d.totalLines := by
      rw [hsplit, Int.add_mul_emod_self_left]
      exact Int.emod_eq_of_lt (by omega) (by omega)
    rw [hneg, Int.neg_tmod, Int.tmod_eq_emod_of_nonneg (by omega), hmod, htop]
    unfold Dimensions.bottommostLine
    ring

/-- Without a boundary a point goes round the cells of the grid. -/
theorem offset_gridClamp_none (hscreen : d.screenLines ≤ d.totalLines) (hpos : 0 < d.totalLines)
    (hcol : p.column < d.columns) :
    In d .none (p.gridClamp d .none) ∧
      (p.gridClamp d .none).offset d =
        first d .none + (p.offset d - first d .none) % (d.totalLines * d.columns) := by
  have hmin : min p.column d.lastColumn = p.column := by
    unfold Dimensions.lastColumn
    omega
  have hcols : (0 : ℤ) < d.columns := by omega
  have htotal : (0 : ℤ) < d.totalLines := by omega
  have htop : d.topmostLine = d.screenLines - d.totalLines := by
    unfold Dimensions.topmostLine Dimensions.historySize
    omega
  have hnonneg := Int.emod_nonneg (p.line - d.topmostLine) htotal.ne'
  have hlt := Int.emod_lt_of_pos (p.line - d.topmostLine) htotal
  have hdiv := Int.emod_add_mul_ediv (p.line - d.topmostLine) d.totalLines
  simp only [gridClamp, hmin, gridClamp_none_eq hscreen hpos]
  refine ⟨⟨by simp only [top]; omega, ?_, hcol⟩, ?_⟩
  · unfold Dimensions.bottommostLine
    simp only
    omega
  · have hrow := mul_le_mul_of_nonneg_right
      (show (p.line - d.topmostLine) % d.totalLines + 1 ≤ d.totalLines by omega) hcols.le
    have hrow' := mul_nonneg hnonneg hcols.le
    rw [add_mul, one_mul] at hrow
    -- whole rounds of the grid fall out, and what remains is a place in it
    have hsplit : p.offset d - first d .none =
        ((p.line - d.topmostLine) % d.totalLines * d.columns + p.column) +
          d.totalLines * d.columns * ((p.line - d.topmostLine) / d.totalLines) := by
      unfold offset first top
      linear_combination -(d.columns : ℤ) * hdiv
    have hlow : 0 ≤ (p.line - d.topmostLine) % d.totalLines * d.columns + (p.column : ℤ) :=
      add_nonneg hrow' (Int.natCast_nonneg _)
    have hhigh : (p.line - d.topmostLine) % d.totalLines * d.columns + (p.column : ℤ) <
        d.totalLines * d.columns := by omega
    rw [hsplit, Int.add_mul_emod_self_left, Int.emod_eq_of_lt hlow hhigh]
    unfold offset first top
    ring

/-- The points that `add` and `sub` may be asked for: those of a grid with at least one line on the
screen and none below the scrollback. -/
structure Wf (d : Dimensions) : Prop where
  screen_pos : 0 < d.screenLines
  screen_le : d.screenLines ≤ d.totalLines

theorem Wf.top_le (h : Wf d) (boundary : Boundary) : top d boundary ≤ d.bottommostLine := by
  have := h.screen_pos
  cases boundary <;>
    simp only [top, Dimensions.topmostLine, Dimensions.bottommostLine] <;> omega

/-- Columns added to a point or subtracted from it move it as many cells on or back, clamped to the
boundary, or round the whole grid where there is none. -/
theorem add_sub_eq (h : Wf d) (hcol : p.column < d.columns) (n : ℕ) (boundary : Boundary) :
    In d boundary (p.add d boundary n) ∧ In d boundary (p.sub d boundary n) ∧
      if boundary = .none then
        (p.add d boundary n).offset d = first d boundary +
            (p.offset d + n - first d boundary) % (d.totalLines * d.columns) ∧
          (p.sub d boundary n).offset d = first d boundary +
            (p.offset d - n - first d boundary) % (d.totalLines * d.columns)
      else
        (p.add d boundary n).offset d =
            max (first d boundary) (min (last d) (p.offset d + n)) ∧
          (p.sub d boundary n).offset d =
            max (first d boundary) (min (last d) (p.offset d - n)) := by
  have hpos : 0 < d.columns := by omega
  have hscreen := h.screen_pos
  have hle := h.screen_le
  -- the point before it is clamped, on and back
  let on : Point :=
    ⟨p.line + ((n + p.column) / d.columns : ℕ), (p.column + n) % d.columns⟩
  let back : Point :=
    ⟨p.line - ((n + d.columns - 1 - p.column) / d.columns : ℕ),
      (d.columns + p.column - n % d.columns) % d.columns⟩
  have hon : on.column < d.columns := Nat.mod_lt _ hpos
  have hback : back.column < d.columns := Nat.mod_lt _ hpos
  rw [← offset_add (d := d) (p := p) (n := n), ← offset_sub (n := n) hcol]
  show In d boundary (on.gridClamp d boundary) ∧ In d boundary (back.gridClamp d boundary) ∧ _
  split
  · next hb =>
    subst hb
    have ha := offset_gridClamp_none hle (by omega) hon
    have hs := offset_gridClamp_none hle (by omega) hback
    exact ⟨ha.1, hs.1, ha.2, hs.2⟩
  · next hb =>
    have ha := offset_gridClamp hb (h.top_le boundary) hon
    have hs := offset_gridClamp hb (h.top_le boundary) hback
    exact ⟨ha.1, hs.1, ha.2, hs.2⟩

/-- Five cells back from the second line of a screen of two lines of three cells under one line of
scrollback, and round the end of its six cells. -/
theorem add_sub_eq_round :
    In ⟨3, 2, 3⟩ .none (add ⟨1, 1⟩ ⟨3, 2, 3⟩ .none 5) ∧ In ⟨3, 2, 3⟩ .none (sub ⟨1, 1⟩ ⟨3, 2, 3⟩ .none 5) ∧
      (add ⟨1, 1⟩ ⟨3, 2, 3⟩ .none 5).offset ⟨3, 2, 3⟩ = 0 ∧
      (sub ⟨1, 1⟩ ⟨3, 2, 3⟩ .none 5).offset ⟨3, 2, 3⟩ = -1 := by
  have h : Wf ⟨3, 2, 3⟩ := ⟨by decide, by decide⟩
  obtain ⟨hadd, hsub, ha, hs⟩ := add_sub_eq h (p := ⟨1, 1⟩) (by decide) 5 .none
  exact ⟨hadd, hsub, ha.trans (by decide), hs.trans (by decide)⟩

end Point

end Termua.Grid
