import Mathlib
import Termua.Lib.Graphemes
import Termua.Lib.Run

/-!
# The text buffer of the search

`SearchBuffer` of `gpui_term/src/view/search.rs`. The cursor is kept as the number of characters before
it, where the source counts bytes. What an edit leaves on both sides of the cursor may make up one
grapheme cluster: after an insertion the cursor is then taken back, after a deletion it stays inside
the cluster.
-/

namespace Termua.View

open Graphemes (Segmentation)

/-- `SearchBuffer`. -/
structure SearchBuffer where
  text : List Char := []
  cursor : ℕ := 0
  deriving DecidableEq, Repr

namespace SearchBuffer

variable (s : Segmentation) (b : SearchBuffer)

/-- `clear`. -/
def clear : SearchBuffer := {}

/-- `split_at_cursor`. -/
def splitAtCursor : List Char × List Char := (b.text.take b.cursor, b.text.drop b.cursor)

/-- `clamp_cursor`. -/
def clampCursor : SearchBuffer :=
  let cursor := min b.cursor b.text.length
  if cursor = b.text.length then { b with cursor }
  else { b with cursor := s.floor b.text cursor }

/-- `move_left`. -/
def moveLeft : SearchBuffer :=
  let b := b.clampCursor s
  if b.cursor = 0 then b
  else { b with cursor := s.prev b.text b.cursor }

/-- `move_right`. -/
def moveRight : SearchBuffer :=
  let b := b.clampCursor s
  if b.text.length ≤ b.cursor then { b with cursor := b.text.length }
  else { b with cursor := s.next b.text b.cursor }

/-- `home`. -/
def home : SearchBuffer := { b with cursor := 0 }

/-- `end`. -/
def toEnd : SearchBuffer := { b with cursor := b.text.length }

/-- `insert`. -/
def insert (t : List Char) : SearchBuffer :=
  if t = [] then b
  else
    let b := b.clampCursor s
    let b : SearchBuffer :=
      { text := b.text.take b.cursor ++ t ++ b.text.drop b.cursor, cursor := b.cursor + t.length }
    b.clampCursor s

/-- `delete_prev`. -/
def deletePrev : Bool × SearchBuffer :=
  let b := b.clampCursor s
  if b.cursor = 0 ∨ b.text = [] then (false, b)
  else
    let prev := s.prev b.text b.cursor
    if prev = b.cursor then (false, b)
    else (true, { text := b.text.take prev ++ b.text.drop b.cursor, cursor := prev })

/-- `delete_next`. -/
def deleteNext : Bool × SearchBuffer :=
  let b := b.clampCursor s
  let cursor := min b.cursor b.text.length
  if b.text.length ≤ cursor then (false, b)
  else
    let next := s.next b.text cursor
    if next ≤ cursor then (false, b)
    else (true, { b with text := b.text.take cursor ++ b.text.drop next })

/-- The operations of the buffer. -/
inductive Op
  | insert (t : List Char)
  | deletePrev
  | deleteNext
  | moveLeft
  | moveRight
  | home
  | toEnd
  | clear
  deriving DecidableEq, Repr

/-- An operation is carried out. -/
def apply : Op → SearchBuffer
  | .insert t => b.insert s t
  | .deletePrev => (b.deletePrev s).2
  | .deleteNext => (b.deleteNext s).2
  | .moveLeft => b.moveLeft s
  | .moveRight => b.moveRight s
  | .home => b.home
  | .toEnd => b.toEnd
  | .clear => clear

/-- The buffer after these operations on the empty one. -/
def after (ops : List Op) : SearchBuffer := ops.foldl (apply s) {}

/-! ## What an operation is to do -/

/-- The cursor is between two grapheme clusters or at an end of the text. -/
def OnBoundary : Prop := s.IsBoundary b.text b.cursor

/-- An insertion puts the text at the cursor, and what is typed next goes behind it. -/
def Inserts (t : List Char) : Prop :=
  (b.insert s t).text = b.splitAtCursor.1 ++ t ++ b.splitAtCursor.2 ∧
    ∀ u, ((b.insert s t).insert s u).text = (b.insert s (t ++ u)).text

/-- A deletion removes the cluster before the cursor, or nothing where there is none. -/
def RemovesPrev (result : Bool × SearchBuffer) : Prop :=
  if b.cursor = 0 then result = (false, b)
  else
    ∃ init g rest, s.graphemes b.text = init ++ g :: rest ∧
      b.cursor = init.flatten.length + g.length ∧
      result = (true, ⟨init.flatten ++ rest.flatten, init.flatten.length⟩)

/-- A deletion removes the cluster behind the cursor, or nothing where there is none. -/
def RemovesNext (result : Bool × SearchBuffer) : Prop :=
  if b.cursor = b.text.length then result = (false, b)
  else
    ∃ init g rest, s.graphemes b.text = init ++ g :: rest ∧ b.cursor = init.flatten.length ∧
      result = (true, ⟨init.flatten ++ rest.flatten, init.flatten.length⟩)

/-- What is to hold of an operation. -/
structure Behaves (op : Op) : Prop where
  onBoundary : (b.apply s op).OnBoundary s
  inserts : ∀ t, op = .insert t → b.Inserts s t
  removesPrev : op = .deletePrev → b.RemovesPrev s (b.deletePrev s)
  removesNext : op = .deleteNext → b.RemovesNext s (b.deleteNext s)

/-- No cluster comes about over the place of the edit: what is put in stands apart from the text behind
it, and what is left on both sides of a removed cluster stands apart. -/
def KeepsApart : Op → Prop
  | .insert t => t = [] ∨ s.Apart (b.splitAtCursor.1 ++ t) b.splitAtCursor.2
  | .deletePrev =>
    ∀ init g rest, s.graphemes b.text = init ++ g :: rest →
      b.cursor = init.flatten.length + g.length → s.Apart init.flatten rest.flatten
  | .deleteNext =>
    ∀ init g rest, s.graphemes b.text = init ++ g :: rest → b.cursor = init.flatten.length →
      s.Apart init.flatten rest.flatten
  | _ => True

/-! ## One operation -/

section Operation

variable {s : Segmentation} {b : SearchBuffer} {t u x y : List Char} {init rest : List (List Char)}
  {g : List Char}

theorem isBoundary_append_iff : s.IsBoundary (x ++ y) x.length ↔ s.Apart x y := by
  unfold Segmentation.IsBoundary
  rw [List.take_left, List.drop_left]
  exact and_iff_right (by rw [List.length_append]; exact Nat.le_add_right _ _)

/-- A boundary before the end has a cluster behind it. -/
theorem OnBoundary.exists_next (h : b.OnBoundary s) (hend : b.cursor ≠ b.text.length) :
    ∃ init g rest, s.graphemes b.text = init ++ g :: rest ∧ b.cursor = init.flatten.length := by
  obtain ⟨init, rest, heq, hcursor, hinit, hrest⟩ := Segmentation.IsBoundary.exists_append h
  cases rest with
  | nil =>
    refine absurd ?_ hend
    rw [← s.flatten_graphemes b.text, heq, List.append_nil, hcursor]
  | cons g rest => exact ⟨init, g, rest, heq, hcursor⟩

/-- A boundary behind the start has a cluster before it. -/
theorem OnBoundary.exists_prev (h : b.OnBoundary s) (hstart : b.cursor ≠ 0) :
    ∃ init g rest, s.graphemes b.text = init ++ g :: rest ∧
      b.cursor = init.flatten.length + g.length := by
  obtain ⟨init, rest, heq, hcursor, hinit, hrest⟩ := Segmentation.IsBoundary.exists_append h
  rcases List.eq_nil_or_concat init with rfl | ⟨init, g, rfl⟩
  · exact absurd hcursor hstart
  · refine ⟨init, g, rest, by rw [heq, List.concat_eq_append, List.append_assoc]; rfl, ?_⟩
    rw [hcursor, List.concat_eq_append, List.flatten_append, List.length_append,
      List.flatten_singleton]

/-- Around a cluster the text is that of the clusters before it and of those behind it. -/
theorem take_drop_of_graphemes {text : List Char} (h : s.graphemes text = init ++ g :: rest) :
    text.take init.flatten.length = init.flatten ∧
      text.drop (init.flatten.length + g.length) = rest.flatten := by
  have htext : text = init.flatten ++ (g ++ rest.flatten) := by
    rw [← s.flatten_graphemes text, h, List.flatten_append, List.flatten_cons]
  constructor
  · rw [htext, List.take_left]
  · rw [htext, ← List.append_assoc, ← List.length_append, List.drop_left]

/-- The cursor is not moved from a boundary. -/
theorem OnBoundary.clampCursor_eq (h : b.OnBoundary s) : b.clampCursor s = b := by
  have hmin : min b.cursor b.text.length = b.cursor := min_eq_left h.1
  unfold clampCursor
  simp only [hmin]
  split
  · rfl
  · next hend =>
    obtain ⟨init, g, rest, heq, hcursor⟩ := h.exists_next hend
    rw [hcursor, Segmentation.floor_eq heq, ← hcursor]

/-- The cursor is moved to a boundary. -/
theorem onBoundary_clampCursor : (b.clampCursor s).OnBoundary s := by
  unfold clampCursor
  dsimp only
  split
  · next hend =>
    show s.IsBoundary b.text (min b.cursor b.text.length)
    rw [hend]
    exact Segmentation.isBoundary_length
  · exact Segmentation.isBoundary_floor.1

theorem text_clampCursor : (b.clampCursor s).text = b.text := by
  unfold clampCursor
  dsimp only
  split <;> rfl

theorem cursor_clampCursor_le : (b.clampCursor s).cursor ≤ b.cursor := by
  unfold clampCursor
  dsimp only
  split
  · exact min_le_left _ _
  · exact Segmentation.isBoundary_floor.2.trans (min_le_left _ _)

/-- The buffer with a text put in, before the cursor is clamped again. -/
def typed (b : SearchBuffer) (t : List Char) : SearchBuffer where
  text := b.text.take b.cursor ++ t ++ b.text.drop b.cursor
  cursor := b.cursor + t.length

theorem OnBoundary.insert_eq (h : b.OnBoundary s) (ht : t ≠ []) :
    b.insert s t = (b.typed t).clampCursor s := by
  unfold insert
  rw [if_neg ht, h.clampCursor_eq]
  rfl

theorem OnBoundary.text_insert (h : b.OnBoundary s) (t : List Char) :
    (b.insert s t).text = (b.typed t).text := by
  rcases eq_or_ne t [] with rfl | ht
  · unfold insert typed
    rw [if_pos rfl, List.append_nil, List.take_append_drop]
  · rw [h.insert_eq ht, text_clampCursor]

theorem OnBoundary.insert (h : b.OnBoundary s) (t : List Char) : (b.insert s t).OnBoundary s := by
  rcases eq_or_ne t [] with rfl | ht
  · have hsame : b.insert s [] = b := if_pos rfl
    rwa [hsame]
  · rw [h.insert_eq ht]
    exact onBoundary_clampCursor

theorem OnBoundary.typed_iff (h : b.OnBoundary s) :
    (b.typed t).OnBoundary s ↔ s.Apart (b.splitAtCursor.1 ++ t) b.splitAtCursor.2 := by
  have hlength : b.cursor + t.length = (b.text.take b.cursor ++ t).length := by
    rw [List.length_append, List.length_take, min_eq_left h.1]
  unfold OnBoundary typed
  simp only [hlength]
  exact isBoundary_append_iff

/-- Two insertions one behind the other. -/
theorem text_typed_typed (hle : b.cursor ≤ b.text.length) :
    ((b.typed t).typed u).text = (b.typed (t ++ u)).text := by
  have hlength : b.cursor + t.length = (b.text.take b.cursor ++ t).length := by
    rw [List.length_append, List.length_take, min_eq_left hle]
  unfold typed
  simp only [hlength, List.take_left, List.drop_left]
  simp only [List.append_assoc]

/-- What is typed inside an insertion does not go behind it. -/
theorem typed_before_ne (hle : b.cursor ≤ b.text.length) {b' : SearchBuffer}
    (htext : b'.text = (b.typed t).text) (hlt : b'.cursor < (b.typed t).cursor) :
    ∃ c, (b'.typed [c]).text ≠ (b.typed (t ++ [c])).text := by
  have hlength : (b.text.take b.cursor ++ t).length = (b.typed t).cursor := by
    rw [List.length_append, List.length_take, min_eq_left hle]
    rfl
  have hget : b'.cursor < (b.text.take b.cursor ++ t).length := hlength ▸ hlt
  have hchars : Nontrivial Char := ⟨'a', 'b', by decide⟩
  obtain ⟨c, hc⟩ := exists_ne (b.text.take b.cursor ++ t)[b'.cursor]
  refine ⟨c, fun heq => hc ?_⟩
  have hleft : (b'.typed [c]).text[b'.cursor]? = some c := by
    have htake : (b'.text.take b'.cursor).length = b'.cursor := by
      rw [List.length_take, htext, typed, List.length_append]
      omega
    unfold typed
    dsimp only
    rw [List.append_assoc, List.getElem?_append_right htake.le, htake, Nat.sub_self]
    rfl
  have hright : (b.typed (t ++ [c])).text[b'.cursor]? =
      some (b.text.take b.cursor ++ t)[b'.cursor] := by
    unfold typed
    dsimp only
    rw [← List.append_assoc, List.append_assoc, List.getElem?_append_left hget,
      List.getElem?_eq_getElem hget]
  rw [heq, hright] at hleft
  exact (Option.some.inj hleft).symm

/-- What is typed next goes behind an insertion exactly when no cluster comes about over its end. -/
theorem OnBoundary.inserts_iff (h : b.OnBoundary s) :
    b.Inserts s t ↔ b.KeepsApart s (.insert t) := by
  show b.Inserts s t ↔ t = [] ∨ s.Apart (b.splitAtCursor.1 ++ t) b.splitAtCursor.2
  rcases eq_or_ne t [] with rfl | ht
  · have hsame : b.insert s [] = b := if_pos rfl
    refine iff_of_true ⟨h.text_insert [], fun u => ?_⟩ (.inl rfl)
    rw [hsame, List.nil_append]
  · rw [or_iff_right ht, ← h.typed_iff]
    constructor
    · intro hinserts
      by_contra hnot
      have hle := cursor_clampCursor_le (s := s) (b := b.typed t)
      have hne : ((b.typed t).clampCursor s).cursor ≠ (b.typed t).cursor := by
        intro heq
        have hon := onBoundary_clampCursor (s := s) (b := b.typed t)
        unfold OnBoundary at hon
        rw [text_clampCursor, heq] at hon
        exact hnot hon
      obtain ⟨c, hc⟩ := typed_before_ne h.1 text_clampCursor (lt_of_le_of_ne hle hne)
      refine hc ?_
      rw [← onBoundary_clampCursor.text_insert, ← h.insert_eq ht, hinserts.2, h.text_insert]
    · intro hon
      have heq : b.insert s t = b.typed t := (h.insert_eq ht).trans hon.clampCursor_eq
      refine ⟨h.text_insert t, fun u => ?_⟩
      rw [heq, hon.text_insert, h.text_insert, text_typed_typed h.1]

/-- A deletion from a boundary removes the cluster before it. -/
theorem OnBoundary.deletePrev_eq (h : b.OnBoundary s) :
    b.RemovesPrev s (b.deletePrev s) := by
  unfold RemovesPrev deletePrev
  rw [h.clampCursor_eq]
  dsimp only
  split
  · next hstart => rw [if_pos (.inl hstart)]
  · next hstart =>
    obtain ⟨init, g, rest, heq, hcursor⟩ := h.exists_prev hstart
    obtain ⟨htake, hdrop⟩ := take_drop_of_graphemes heq
    have hg := List.length_pos_of_ne_nil ((Segmentation.ne_nil_of_append heq).2 g List.mem_cons_self)
    have hnil : b.text ≠ [] := by
      intro hnil
      have hle := h.1
      rw [hnil, List.length_nil] at hle
      exact hstart (Nat.le_zero.mp hle)
    refine ⟨init, g, rest, heq, hcursor, ?_⟩
    rw [if_neg (not_or.mpr ⟨hstart, hnil⟩), hcursor, Segmentation.prev_eq heq,
      if_neg (by omega), htake, hdrop]

/-- A deletion from a boundary removes the cluster behind it. -/
theorem OnBoundary.deleteNext_eq (h : b.OnBoundary s) :
    b.RemovesNext s (b.deleteNext s) := by
  have hmin : min b.cursor b.text.length = b.cursor := min_eq_left h.1
  unfold RemovesNext deleteNext
  rw [h.clampCursor_eq]
  simp only [hmin]
  split
  · next hend => rw [if_pos hend.ge]
  · next hend =>
    obtain ⟨init, g, rest, heq, hcursor⟩ := h.exists_next hend
    obtain ⟨htake, hdrop⟩ := take_drop_of_graphemes heq
    have hg := List.length_pos_of_ne_nil ((Segmentation.ne_nil_of_append heq).2 g List.mem_cons_self)
    refine ⟨init, g, rest, heq, hcursor, ?_⟩
    rw [if_neg (by have hle := h.1; omega), hcursor, Segmentation.next_eq heq, if_neg (by omega),
      htake, hdrop]

theorem OnBoundary.moveLeft (h : b.OnBoundary s) : (b.moveLeft s).OnBoundary s := by
  unfold SearchBuffer.moveLeft
  rw [h.clampCursor_eq]
  dsimp only
  split
  · exact h
  · next hstart =>
    obtain ⟨init, g, rest, heq, hcursor⟩ := h.exists_prev hstart
    unfold OnBoundary
    dsimp only
    rw [hcursor, Segmentation.prev_eq heq]
    exact Segmentation.isBoundary_of_append heq

theorem OnBoundary.moveRight (h : b.OnBoundary s) : (b.moveRight s).OnBoundary s := by
  unfold SearchBuffer.moveRight
  rw [h.clampCursor_eq]
  dsimp only
  split
  · exact Segmentation.isBoundary_length
  · next hend =>
    obtain ⟨init, g, rest, heq, hcursor⟩ := h.exists_next fun heq => hend heq.ge
    have happend : s.graphemes b.text = (init ++ [g]) ++ rest := by
      rw [heq, List.append_assoc, List.singleton_append]
    have hboundary := Segmentation.isBoundary_of_append happend
    rw [List.flatten_append, List.length_append, List.flatten_singleton] at hboundary
    unfold OnBoundary
    dsimp only
    rwa [hcursor, Segmentation.next_eq heq]

/-- What stands on both sides of a cluster is known from where the cluster begins and ends. -/
theorem sides_eq {init' rest' : List (List Char)} {g g' : List Char}
    (heq : s.graphemes b.text = init ++ g :: rest) (heq' : s.graphemes b.text = init' ++ g' :: rest')
    (hbegin : init'.flatten.length = init.flatten.length)
    (hend : init'.flatten.length + g'.length = init.flatten.length + g.length) :
    init'.flatten = init.flatten ∧ rest'.flatten = rest.flatten := by
  obtain ⟨htake, hdrop⟩ := take_drop_of_graphemes heq
  obtain ⟨htake', hdrop'⟩ := take_drop_of_graphemes heq'
  constructor
  · rw [← htake', hbegin, htake]
  · rw [← hdrop', hend, hdrop]

/-- A deletion before the cursor leaves it on a boundary exactly when no cluster comes about there. -/
theorem OnBoundary.deletePrev_iff (h : b.OnBoundary s) :
    (b.deletePrev s).2.OnBoundary s ↔ b.KeepsApart s .deletePrev := by
  have hremoves := h.deletePrev_eq
  unfold RemovesPrev at hremoves
  split at hremoves
  · next hstart =>
    rw [hremoves]
    refine iff_of_true h fun init g rest heq hcursor => ?_
    have hg := List.length_pos_of_ne_nil ((Segmentation.ne_nil_of_append heq).2 g List.mem_cons_self)
    omega
  · obtain ⟨init, g, rest, heq, hcursor, hresult⟩ := hremoves
    rw [hresult]
    refine isBoundary_append_iff.trans ⟨fun hapart init' g' rest' heq' hcursor' => ?_,
      fun hkeeps => hkeeps init g rest heq hcursor⟩
    have hbegin := Segmentation.prev_eq heq'
    rw [← hcursor', hcursor, Segmentation.prev_eq heq] at hbegin
    obtain ⟨hinit, hrest⟩ := sides_eq heq heq' hbegin.symm (hcursor'.symm.trans hcursor)
    rwa [hinit, hrest]

theorem OnBoundary.deleteNext_iff (h : b.OnBoundary s) :
    (b.deleteNext s).2.OnBoundary s ↔ b.KeepsApart s .deleteNext := by
  have hremoves := h.deleteNext_eq
  unfold RemovesNext at hremoves
  split at hremoves
  · next hend =>
    rw [hremoves]
    refine iff_of_true h fun init g rest heq hcursor => ?_
    have hg := List.length_pos_of_ne_nil ((Segmentation.ne_nil_of_append heq).2 g List.mem_cons_self)
    have hlength := congrArg List.length (s.flatten_graphemes b.text)
    rw [heq, List.flatten_append, List.flatten_cons, List.length_append, List.length_append] at hlength
    omega
  · obtain ⟨init, g, rest, heq, hcursor, hresult⟩ := hremoves
    rw [hresult]
    refine isBoundary_append_iff.trans ⟨fun hapart init' g' rest' heq' hcursor' => ?_,
      fun hkeeps => hkeeps init g rest heq hcursor⟩
    have hbegin : init'.flatten.length = init.flatten.length := hcursor'.symm.trans hcursor
    have hend := Segmentation.next_eq heq'
    rw [hbegin, Segmentation.next_eq heq, ← hbegin] at hend
    obtain ⟨hinit, hrest⟩ := sides_eq heq heq' hbegin (by rw [← hend, hbegin])
    rwa [hinit, hrest]

/-- From a boundary an operation does what it is to do exactly when no cluster comes about over the
place of the edit. -/
theorem OnBoundary.behaves_step_iff (h : b.OnBoundary s) {op : Op} :
    b.Behaves s op ↔ b.KeepsApart s op := by
  have hmove {op : Op} (hon : (b.apply s op).OnBoundary s) (hinsert : ∀ t, op ≠ .insert t)
      (hprev : op ≠ .deletePrev) (hnext : op ≠ .deleteNext) : b.Behaves s op :=
    ⟨hon, fun t ht => absurd ht (hinsert t), fun h => absurd h hprev, fun h => absurd h hnext⟩
  cases op with
  | insert t =>
    rw [← h.inserts_iff]
    exact ⟨fun hbehaves => hbehaves.inserts t rfl, fun hinserts => ⟨h.insert t,
      fun t' ht' => Op.insert.inj ht' ▸ hinserts, nofun, nofun⟩⟩
  | deletePrev =>
    rw [← h.deletePrev_iff]
    exact ⟨fun hbehaves => hbehaves.onBoundary, fun hon => ⟨hon, nofun, fun _ => h.deletePrev_eq,
      nofun⟩⟩
  | deleteNext =>
    rw [← h.deleteNext_iff]
    exact ⟨fun hbehaves => hbehaves.onBoundary, fun hon => ⟨hon, nofun, nofun,
      fun _ => h.deleteNext_eq⟩⟩
  | moveLeft => exact iff_of_true (hmove h.moveLeft nofun nofun nofun) trivial
  | moveRight => exact iff_of_true (hmove h.moveRight nofun nofun nofun) trivial
  | home => exact iff_of_true (hmove Segmentation.isBoundary_zero nofun nofun nofun) trivial
  | toEnd => exact iff_of_true (hmove Segmentation.isBoundary_length nofun nofun nofun) trivial
  | clear => exact iff_of_true (hmove Segmentation.isBoundary_zero nofun nofun nofun) trivial

end Operation

/-- In every sequence of operations each one does what it is to do exactly when each one keeps apart
what is on both sides of its edit. -/
theorem behaves_iff (s : Segmentation) (ops : List Op) :
    (∀ init op, init ++ [op] <+: ops → (after s init).Behaves s op) ↔
      ∀ init op, init ++ [op] <+: ops → (after s init).KeepsApart s op :=
  Transition.forall_prefix_concat_iff (I := fun b => b.OnBoundary s) Segmentation.isBoundary_zero
    (fun _ _ h => h.behaves_step_iff) (fun _ _ _ h => h.onBoundary) ops

/-- Between two regional indicators a letter is deleted: the cursor is left inside a flag. -/
theorem not_behaves_flag :
    ¬ ∀ init op, init ++ [op] <+: [.insert ['🇩', 'x', '🇪'], .moveLeft, .deletePrev] →
      (after .basic init).Behaves .basic op := by
  intro h
  have hbehaves := h [.insert ['🇩', 'x', '🇪'], .moveLeft] .deletePrev List.prefix_rfl
  have hafter : (after .basic [.insert ['🇩', 'x', '🇪'], .moveLeft]).apply .basic .deletePrev =
      ⟨['🇩', '🇪'], 1⟩ := by decide +kernel
  have hboundary := hbehaves.onBoundary
  rw [hafter] at hboundary
  have hinside : ¬ Segmentation.basic.IsBoundary ['🇩', '🇪'] 1 := by decide +kernel
  exact hinside hboundary

end SearchBuffer

end Termua.View
