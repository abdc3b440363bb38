import Mathlib

/-!
# Line editors

A line with a cursor, as the list before it and the list after it. `Region` says that between two
fixed parts of the line stands a text with the cursor at some place of it; it is kept, with its text
and its place changed as one expects, by inserting, moving and deleting inside the text.

* `Region.insert`, `Region.left`, `Region.right` and `Region.rubout` are the rules of the four
  operations, the last three for any number of them.
-/

/-- A line with a cursor. -/
structure LineEditor (α : Type*) where
  before : List α := []
  after : List α := []
  deriving DecidableEq

namespace LineEditor

variable {α : Type*}

/-- The whole line. -/
def line (e : LineEditor α) : List α := e.before ++ e.after

/-- A text is inserted before the cursor. -/
def insert (xs : List α) (e : LineEditor α) : LineEditor α := { e with before := e.before ++ xs }

/-- The cursor moves over the entry before it. -/
def left (e : LineEditor α) : LineEditor α :=
  match e.before.getLast? with
  | some x => ⟨e.before.dropLast, x :: e.after⟩
  | none => e

/-- The cursor moves over the entry after it. -/
def right (e : LineEditor α) : LineEditor α :=
  match e.after with
  | x :: xs => ⟨e.before ++ [x], xs⟩
  | [] => e

/-- The entry before the cursor is deleted. -/
def rubout (e : LineEditor α) : LineEditor α := { e with before := e.before.dropLast }

variable {e : LineEditor α} {before xs after : List α}

/-- Moving left over a text. -/
theorem left_iterate (before xs after : List α) :
    left^[xs.length] ⟨before ++ xs, after⟩ = ⟨before, xs ++ after⟩ := by
  induction xs using List.reverseRecOn generalizing after with
  | nil => simp
  | append_singleton xs x ih =>
    have hstep : left ⟨before ++ (xs ++ [x]), after⟩ = ⟨before ++ xs, x :: after⟩ := by
      unfold left
      simp only [← List.append_assoc, List.getLast?_concat, List.dropLast_concat]
    rw [List.length_append, List.length_singleton, Function.iterate_succ_apply, hstep, ih,
      List.append_assoc, List.singleton_append]

/-- Moving right over a text. -/
theorem right_iterate (before xs after : List α) :
    right^[xs.length] ⟨before, xs ++ after⟩ = ⟨before ++ xs, after⟩ := by
  induction xs generalizing before with
  | nil => simp
  | cons x xs ih =>
    have hstep : right ⟨before, x :: (xs ++ after)⟩ = ⟨before ++ [x], xs ++ after⟩ := rfl
    rw [List.cons_append, List.length_cons, Function.iterate_succ_apply, hstep, ih,
      List.append_assoc, List.singleton_append]

/-- Deleting a text before the cursor. -/
theorem rubout_iterate (before xs after : List α) :
    rubout^[xs.length] ⟨before ++ xs, after⟩ = ⟨before, after⟩ := by
  induction xs using List.reverseRecOn with
  | nil => simp
  | append_singleton xs x ih =>
    have hstep : rubout ⟨before ++ (xs ++ [x]), after⟩ = ⟨before ++ xs, after⟩ := by
      unfold rubout
      simp only [← List.append_assoc, List.dropLast_concat]
    rw [List.length_append, List.length_singleton, Function.iterate_succ_apply, hstep, ih]

/-! ## A region of the line -/

/-- Between `before` and `after` stands `text`, with the cursor at `cursor` of it. -/
structure Region (e : LineEditor α) (before text after : List α) (cursor : ℕ) : Prop where
  le : cursor ≤ text.length
  before_eq : e.before = before ++ text.take cursor
  after_eq : e.after = text.drop cursor ++ after

variable {text : List α} {cursor n : ℕ}

theorem Region.eq (h : Region e before text after cursor) :
    e = ⟨before ++ text.take cursor, text.drop cursor ++ after⟩ := by
  rw [← h.before_eq, ← h.after_eq]

/-- The region of a text that is inserted at the cursor. -/
theorem Region.of_insert (xs : List α) (e : LineEditor α) :
    Region (e.insert xs) e.before xs e.after xs.length where
  le := le_rfl
  before_eq := by
    rw [List.take_length]
    rfl
  after_eq := by
    rw [List.drop_length]
    rfl

theorem Region.insert (h : Region e before text after cursor) (xs : List α) :
    Region (e.insert xs) before (text.take cursor ++ xs ++ text.drop cursor) after
      (cursor + xs.length) := by
  have hlen : (text.take cursor ++ xs).length = cursor + xs.length := by
    rw [List.length_append, List.length_take_of_le h.le]
  constructor
  · rw [List.length_append, hlen]
    exact Nat.le_add_right _ _
  · rw [List.take_left' hlen]
    show e.before ++ xs = _
    rw [h.before_eq, List.append_assoc]
  · rw [List.drop_left' hlen]
    exact h.after_eq

theorem take_eq_take_append (h : n ≤ cursor) :
    text.take cursor = text.take (cursor - n) ++ (text.drop (cursor - n)).take n := by
  conv_lhs => rw [← Nat.sub_add_cancel h]
  exact List.take_add

theorem drop_eq_take_append (text : List α) (i n : ℕ) :
    text.drop i = (text.drop i).take n ++ text.drop (i + n) := by
  rw [← List.drop_drop, List.take_append_drop]

theorem Region.left (h : Region e before text after cursor) (hn : n ≤ cursor) :
    Region (LineEditor.left^[n] e) before text after (cursor - n) := by
  have hmid : ((text.drop (cursor - n)).take n).length = n := by
    have hle := h.le
    rw [List.length_take_of_le]
    rw [List.length_drop]
    omega
  have hmove := left_iterate (before ++ text.take (cursor - n)) ((text.drop (cursor - n)).take n)
    (text.drop cursor ++ after)
  rw [hmid, List.append_assoc, ← take_eq_take_append hn, ← h.eq] at hmove
  constructor
  · exact (Nat.sub_le _ _).trans h.le
  · rw [hmove]
  · have hsplit := drop_eq_take_append text (cursor - n) n
    rw [Nat.sub_add_cancel hn] at hsplit
    rw [hmove, ← List.append_assoc, ← hsplit]

theorem Region.right (h : Region e before text after cursor) (hn : cursor + n ≤ text.length) :
    Region (LineEditor.right^[n] e) before text after (cursor + n) := by
  have hmid : ((text.drop cursor).take n).length = n := by
    rw [List.length_take_of_le]
    rw [List.length_drop]
    omega
  have hmove := right_iterate (before ++ text.take cursor) ((text.drop cursor).take n)
    (text.drop (cursor + n) ++ after)
  rw [hmid, ← List.append_assoc, ← drop_eq_take_append, ← h.eq] at hmove
  constructor
  · exact hn
  · rw [hmove, List.append_assoc, ← List.take_add]
  · rw [hmove]

theorem Region.rubout (h : Region e before text after cursor) (hn : n ≤ cursor) :
    Region (LineEditor.rubout^[n] e) before (text.take (cursor - n) ++ text.drop cursor) after
      (cursor - n) := by
  have hle := h.le
  have hmid : ((text.drop (cursor - n)).take n).length = n := by
    rw [List.length_take_of_le]
    rw [List.length_drop]
    omega
  have hlen : (text.take (cursor - n)).length = cursor - n := List.length_take_of_le (by omega)
  have hmove := rubout_iterate (before ++ text.take (cursor - n)) ((text.drop (cursor - n)).take n)
    (text.drop cursor ++ after)
  rw [hmid, List.append_assoc, ← take_eq_take_append hn, ← h.eq] at hmove
  constructor
  · rw [List.length_append, hlen]
    exact Nat.le_add_right _ _
  · rw [hmove, List.take_left' hlen]
  · rw [hmove, List.drop_left' hlen]

end LineEditor
