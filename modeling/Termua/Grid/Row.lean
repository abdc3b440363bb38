import Mathlib

/-!
# Cells and rows of the grid

`GridCell` and `Row` of `alacritty_terminal/src/grid/mod.rs` and `grid/row.rs`. A row keeps an upper
bound `occ` on the cells written since its last reset, and a reset touches only those: it relies on
the cells behind them being what the last reset left there. `Row.Clean` is that promise, and
`Row.reset_eq` says that under it a reset clears the whole row.
-/

namespace Termua.Grid

/-- `Flags` of a cell. -/
structure Flags where
  inverse : Bool := false
  bold : Bool := false
  italic : Bool := false
  underline : Bool := false
  wrapline : Bool := false
  wideChar : Bool := false
  wideCharSpacer : Bool := false
  dim : Bool := false
  hidden : Bool := false
  strikeout : Bool := false
  leadingWideCharSpacer : Bool := false
  doubleUnderline : Bool := false
  undercurl : Bool := false
  dottedUnderline : Bool := false
  dashedUnderline : Bool := false
  deriving DecidableEq, Repr

/-- `GridCell` and `ResetDiscriminant`. A reset cell is determined by the discriminant of the
template; `cleared` is that cell. -/
class GridCell (T : Type) (D : outParam Type) extends Inhabited T where
  isEmpty : T → Bool
  reset : T → T → T
  flags : T → Flags
  setFlags : T → Flags → T
  discriminant : T → D
  cleared : D → T
  reset_eq : ∀ c template, reset c template = cleared (discriminant template)
  discriminant_cleared : ∀ d, discriminant (cleared d) = d
  cleared_default : cleared (discriminant default) = default
  flags_setFlags : ∀ c f, flags (setFlags c f) = f

/-- `Row`. -/
structure Row (T : Type) where
  inner : List T
  occ : ℕ
  deriving DecidableEq, Repr

namespace Row

variable {T D : Type} [GridCell T D] {row : Row T} {columns : ℕ}

/-- `Row::new`. -/
def new (columns : ℕ) : Row T := ⟨List.replicate columns default, 0⟩

/-- `Row::len`. -/
def len (row : Row T) : ℕ := row.inner.length

/-- `Row::reset`, `none` where it panics. -/
def reset [DecidableEq D] (row : Row T) (template : T) : Option (Row T) := do
  let last ← row.inner.getLast?
  let occ :=
    if GridCell.discriminant last = GridCell.discriminant template then row.occ
    else row.inner.length
  if occ ≤ row.inner.length then
    some ⟨(row.inner.take occ).map (GridCell.reset · template) ++ row.inner.drop occ, 0⟩
  else none

/-- `&mut row[column]` with what is done to the cell, `none` where it panics. -/
def modify (row : Row T) (column : ℕ) (f : T → T) : Option (Row T) := do
  let cell ← row.inner[column]?
  return ⟨row.inner.set column (f cell), max row.occ (column + 1)⟩

/-- The bound on the written cells after a range up to `stop` is. -/
def occAfter (row : Row T) : Option ℕ → ℕ
  | some stop => max row.occ stop
  | none => row.inner.length

/-- `&mut row[start..stop]`, up to the end of the row where there is no `stop`, with what is done to the
cells, `none` where either panics. -/
def modifyRange (row : Row T) (start : ℕ) (stop : Option ℕ) (f : List T → Option (List T)) :
    Option (Row T) :=
  let last := stop.getD row.inner.length
  if start ≤ last ∧ last ≤ row.inner.length then do
    let cells ← f ((row.inner.take last).drop start)
    return ⟨row.inner.take start ++ (cells ++ row.inner.drop last), row.occAfter stop⟩
  else none

/-- What is done to one cell of a row or to a range of its cells, which stay as many. -/
inductive Edit (T : Type) where
  | cell (column : ℕ) (f : T → T)
  | cells (start : ℕ) (stop : Option ℕ) (f : {f : List T → List T // ∀ l, (f l).length = l.length})

namespace Edit

/-- The edit of a row, `none` where it panics. -/
def on (edit : Edit T) (row : Row T) : Option (Row T) :=
  match edit with
  | .cell column f => row.modify column f
  | .cells start stop f => row.modifyRange start stop fun l => some (f.1 l)

/-- What an edit does to the cells of a row. -/
def apply (edit : Edit T) (l : List T) : List T :=
  match edit with
  | .cell column f => l.modify column f
  | .cells start stop f =>
    let last := stop.getD l.length
    l.take start ++ (f.1 ((l.take last).drop start) ++ l.drop last)

/-- The edit is of cells of a row of `columns` cells. -/
def Fits (columns : ℕ) : Edit T → Prop
  | .cell column _ => column < columns
  | .cells start stop _ => start ≤ stop.getD columns ∧ stop.getD columns ≤ columns

instance (columns : ℕ) : (edit : Edit T) → Decidable (edit.Fits columns)
  | .cell column _ => inferInstanceAs (Decidable (column < columns))
  | .cells start stop _ =>
    inferInstanceAs (Decidable (start ≤ stop.getD columns ∧ stop.getD columns ≤ columns))

end Edit

/-! ## What a reset relies on -/

/-- A row of `columns` cells whose cells behind `occ` are as a reset left them: cleared, with the
discriminant of the last cell. -/
structure Clean (columns : ℕ) (row : Row T) : Prop where
  length : row.inner.length = columns
  occ_le : row.occ ≤ columns
  cleared : ∀ last ∈ row.inner.getLast?, ∀ c ∈ row.inner.drop row.occ,
    c = GridCell.cleared (GridCell.discriminant last)

/-- The row that a reset leaves. -/
def blank (columns : ℕ) (d : D) : Row T := ⟨List.replicate columns (GridCell.cleared d), 0⟩

theorem clean_blank (columns : ℕ) (d : D) : (blank columns d : Row T).Clean columns where
  length := List.length_replicate
  occ_le := Nat.zero_le _
  cleared last hlast c hc := by
    have hl := List.eq_of_mem_replicate (List.mem_of_getLast? hlast)
    rw [hl, GridCell.discriminant_cleared]
    exact List.eq_of_mem_replicate (List.mem_of_mem_drop hc)

theorem new_eq_blank (columns : ℕ) :
    (new columns : Row T) = blank columns (GridCell.discriminant (default : T)) := by
  unfold new blank
  rw [GridCell.cleared_default]

theorem clean_new (columns : ℕ) : (new columns : Row T).Clean columns := by
  rw [new_eq_blank]
  exact clean_blank columns _

/-- A reset clears every cell of a clean row, those it does not touch included. -/
theorem reset_eq [DecidableEq D] (h : row.Clean columns) (hpos : 0 < columns) (template : T) :
    row.reset template = some (blank columns (GridCell.discriminant template)) := by
  have hne : row.inner ≠ [] := by
    rintro hnil
    have := h.length
    rw [hnil] at this
    simp at this
    omega
  have hlast := List.getLast?_eq_getLast_of_ne_nil hne
  have hmap (cells : List T) : cells.map (GridCell.reset · template) =
      List.replicate cells.length (GridCell.cleared (GridCell.discriminant template)) := by
    refine List.eq_replicate_iff.mpr ⟨List.length_map .., fun c hc => ?_⟩
    obtain ⟨c', -, rfl⟩ := List.mem_map.mp hc
    exact GridCell.reset_eq _ _
  have hlen := h.length
  have hocc := h.occ_le
  unfold reset blank
  rw [hlast]
  by_cases hd : GridCell.discriminant (row.inner.getLast hne) = GridCell.discriminant template
  · have hrest : row.inner.drop row.occ = List.replicate (columns - row.occ)
        (GridCell.cleared (GridCell.discriminant template)) := by
      refine List.eq_replicate_iff.mpr ⟨by rw [List.length_drop, hlen], fun c hc => ?_⟩
      rw [← hd]
      exact h.cleared _ hlast c hc
    have hle : row.occ ≤ row.inner.length := by omega
    simp only [Option.bind_eq_bind, Option.bind_some, hd, if_true, hle]
    rw [hmap, hrest, List.length_take, hlen, min_eq_left hocc, List.replicate_append_replicate,
      Nat.add_sub_cancel' hocc]
  · simp only [Option.bind_eq_bind, Option.bind_some, hd, if_false, le_refl, if_true]
    rw [List.take_length, List.drop_length, hmap, hlen, List.append_nil]

/-- A row stays clean when its last cells, from `occ` on, stay. -/
theorem Clean.of_drop {row' : Row T} (h : row.Clean columns) (hlen : row'.inner.length = columns)
    (hle : row.occ ≤ row'.occ) (hocc : row'.occ ≤ columns)
    (hdrop : row'.inner.drop row'.occ = row.inner.drop row'.occ) : row'.Clean columns := by
  refine ⟨hlen, hocc, fun last hlast c hc => ?_⟩
  rw [hdrop] at hc
  have hc' : c ∈ row.inner.drop row.occ := by
    rw [← Nat.sub_add_cancel hle, Nat.add_comm, ← List.drop_drop] at hc
    exact List.mem_of_mem_drop hc
  refine h.cleared last ?_ c hc'
  -- a cell is left behind `occ`, so the last one is
  have hne : row'.occ < columns := by
    by_contra hge
    rw [List.drop_eq_nil_of_le (by rw [h.length]; omega)] at hc
    cases hc
  have hlast' := congrArg List.getLast? hdrop
  rw [List.getLast?_drop, List.getLast?_drop, if_neg (by omega), if_neg (by rw [h.length]; omega)]
    at hlast'
  rw [← hlast']
  exact hlast

/-- Writing to cells keeps a row clean. -/
theorem Clean.edit (h : row.Clean columns) {edit : Edit T} (hfits : edit.Fits columns) :
    ∃ row', edit.on row = some row' ∧ row'.Clean columns ∧
      row'.inner = edit.apply row.inner := by
  have hlen := h.length
  have hocc := h.occ_le
  cases edit with
  | cell column f =>
    have hcol : column < columns := hfits
    have hget := List.getElem?_eq_getElem (show column < row.inner.length by omega)
    refine ⟨⟨row.inner.set column (f row.inner[column]), max row.occ (column + 1)⟩, ?_,
      h.of_drop ?_ (le_max_left ..) ?_ ?_, ?_⟩
    · unfold Edit.on modify
      simp only [hget, Option.bind_eq_bind, Option.bind_some, Option.pure_def]
    · rw [List.length_set, hlen]
    · simp only
      omega
    · exact List.drop_set_of_lt (by simp only; omega)
    · unfold Edit.apply
      simp only [List.modify_eq_set_getElem?, hget, Option.map_some, Option.map_eq_map,
        Option.getD_some]
  | cells start stop f =>
    obtain ⟨hstart, hstop⟩ := hfits
    rw [← hlen] at hstart hstop
    have hcells : ∀ cells, f.1 ((row.inner.take (stop.getD row.inner.length)).drop start) = cells →
        cells.length = stop.getD row.inner.length - start := by
      rintro cells rfl
      rw [f.2, List.length_drop, List.length_take]
      omega
    have hlength : ((row.inner.take start) ++
        (f.1 ((row.inner.take (stop.getD row.inner.length)).drop start) ++
          row.inner.drop (stop.getD row.inner.length))).length = columns := by
      simp only [List.length_append, hcells _ rfl, List.length_take, List.length_drop]
      omega
    have hkept : row.occ ≤ row.occAfter stop ∧ row.occAfter stop ≤ columns ∧
        stop.getD row.inner.length ≤ row.occAfter stop := by
      cases stop with
      | none => exact ⟨by rw [occAfter, hlen]; exact hocc, hlen.le, le_refl _⟩
      | some stop =>
        simp only [Option.getD_some] at hstop
        exact ⟨le_max_left .., max_le hocc (hlen ▸ hstop), le_max_right ..⟩
    refine ⟨⟨_, row.occAfter stop⟩, ?_, h.of_drop hlength hkept.1 hkept.2.1 ?_, rfl⟩
    · unfold Edit.on modifyRange
      simp only [if_pos (And.intro hstart hstop), Option.bind_eq_bind, Option.bind_some,
        Option.pure_def]
    · -- nothing behind `occ` was written
      have hfront : (row.inner.take start ++
          f.1 ((row.inner.take (stop.getD row.inner.length)).drop start)).length =
            stop.getD row.inner.length := by
        rw [List.length_append, hcells _ rfl, List.length_take]
        omega
      simp only
      rw [← List.append_assoc, List.drop_append, List.drop_eq_nil_of_le (by omega), hfront,
        List.nil_append, List.drop_drop, Nat.add_sub_cancel' hkept.2.2]

end Row

end Termua.Grid
