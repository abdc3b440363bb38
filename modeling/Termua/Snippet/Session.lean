import Mathlib
import Termua.Lib.LineEditor
import Termua.Snippet.Parse

/-!
# Snippet sessions

`SnippetSession` of `gpui_term/src/snippet.rs`: the view's copy of the text that an accepted snippet
has put into the line of the shell. Its four edits replace the end of the active placeholder, from
some place of it on, by a text (`edit`); `Valid` is what they and the jumps keep, and a line editor
that does what the view sends for an edit keeps the rendered text in its region.
-/

namespace Termua.Snippet

/-- `SnippetSession`, without the point where it started. -/
structure SnippetSession where
  insertedLenChars : ℕ
  rendered : List Char
  tabstops : List TabStop
  active : ℕ
  cursorOffsetChars : ℕ
  selected : Bool
  cursorLineId : Option ℤ
  deriving DecidableEq

/-- `SnippetJump`. -/
inductive SnippetJump
  | noop
  | move (delta : ℤ)
  | exit (delta : ℤ)
  deriving DecidableEq

/-- The way that the cursor goes in a jump. -/
def SnippetJump.delta : SnippetJump → ℤ
  | .noop => 0
  | .move delta => delta
  | .exit delta => delta

/-- `SnippetJumpDir`. -/
inductive SnippetJumpDir
  | next
  | prev
  deriving DecidableEq

namespace SnippetSession

/-- `SnippetSession::new`. -/
def new (rendered : List Char) (tabstops : List TabStop) : SnippetSession where
  insertedLenChars := rendered.length
  rendered := rendered
  tabstops := tabstops
  active := 0
  cursorOffsetChars := rendered.length
  selected := false
  cursorLineId := none

/-- The characters from `start` to `stop` give way to a text, and the cursor stands behind it: the
active placeholder ends there, and those that start at `stop` or behind it move along. -/
def edit (s : SnippetSession) (start stop : ℕ) (inserted : List Char) : SnippetSession :=
  { s with
    rendered := s.rendered.take start ++ inserted ++ s.rendered.drop stop
    tabstops := s.tabstops.mapIdx fun i t =>
      if i = s.active then { t with stop := start + inserted.length }
      else if stop ≤ t.start then
        { t with
          start := t.start - (stop - start) + inserted.length
          stop := t.stop - (stop - start) + inserted.length }
      else t
    insertedLenChars := s.insertedLenChars - (stop - start) + inserted.length
    cursorOffsetChars := start + inserted.length }

/-- `delete_active_placeholder`. -/
def deleteActivePlaceholder (s : SnippetSession) : SnippetSession × ℕ :=
  match s.tabstops[s.active]? with
  | none => (s, 0)
  | some stop =>
    if stop.stop - stop.start = 0 then (s, 0)
    else (s.edit stop.start stop.stop [], stop.stop - stop.start)

/-- `replace_active_placeholder`. -/
def replaceActivePlaceholder (s : SnippetSession) (inserted : List Char) : SnippetSession × ℕ :=
  let (s, deleted) := s.deleteActivePlaceholder
  if inserted.length = 0 then (s, deleted)
  else
    match s.tabstops[s.active]? with
    | none => (s, deleted)
    | some active => (s.edit active.start active.start inserted, deleted)

/-- `jump`. -/
def jump (s : SnippetSession) (dir : SnippetJumpDir) : SnippetSession × SnippetJump :=
  let goTo (active : ℕ) : SnippetSession × SnippetJump :=
    let targetEnd := ((s.tabstops[active]?).map TabStop.stop).getD 0
    ({ s with active, cursorOffsetChars := targetEnd, selected := true },
      .move ((targetEnd : ℤ) - s.cursorOffsetChars))
  if s.tabstops.length ≤ s.active then (s, .exit 0)
  else
    match dir with
    | .prev => if s.active = 0 then (s, .noop) else goTo (s.active - 1)
    | .next =>
      if s.tabstops.length ≤ s.active + 1 then
        ({ s with cursorOffsetChars := s.insertedLenChars },
          .exit ((s.insertedLenChars : ℤ) - s.cursorOffsetChars))
      else goTo (s.active + 1)

/-- `insert_into_active_placeholder`. -/
def insertIntoActivePlaceholder (s : SnippetSession) (inserted : List Char) : SnippetSession :=
  if inserted.length = 0 then s
  else
    match s.tabstops[s.active]? with
    | none => s
    | some active =>
      if s.cursorOffsetChars ≠ active.stop then s else s.edit active.stop active.stop inserted

/-- `backspace_one_in_active_placeholder`. -/
def backspaceOneInActivePlaceholder (s : SnippetSession) : SnippetSession × Bool :=
  match s.tabstops[s.active]? with
  | none => (s, false)
  | some active =>
    if s.cursorOffsetChars ≠ active.stop then (s, false)
    else if active.stop ≤ active.start then (s, false)
    else (s.edit (active.stop - 1) active.stop [], true)

/-- The active placeholder has no text. -/
def ActiveEmpty (s : SnippetSession) : Prop :=
  ∀ active, s.tabstops[s.active]? = some active → active.stop ≤ active.start

/-! ## What the edits keep -/

/-- The tabstops are in the rendered text and do not overlap, the length is that of the text, and the
cursor stands at the end of the active placeholder. -/
structure Valid (s : SnippetSession) : Prop where
  within : ∀ t ∈ s.tabstops, Within t s.rendered
  apart : ∀ (i j : ℕ) (a b : TabStop), i ≠ j → s.tabstops[i]? = some a → s.tabstops[j]? = some b → Apart a b
  length : s.insertedLenChars = s.rendered.length
  cursor : ∃ active, s.tabstops[s.active]? = some active ∧ s.cursorOffsetChars = active.stop

variable {s : SnippetSession} {active : TabStop} {start : ℕ} {inserted : List Char}

theorem Valid.cursor_eq (h : s.Valid) (hactive : s.tabstops[s.active]? = some active) :
    s.cursorOffsetChars = active.stop := by
  obtain ⟨active', hactive', hcursor⟩ := h.cursor
  obtain rfl := Option.some.inj (hactive.symm.trans hactive')
  exact hcursor

theorem Valid.within_active (h : s.Valid) (hactive : s.tabstops[s.active]? = some active) :
    Within active s.rendered :=
  h.within active (List.mem_of_getElem? hactive)

theorem length_edit (hstart : start ≤ active.stop) (hin : active.stop ≤ s.rendered.length) :
    (s.edit start active.stop inserted).rendered.length =
      s.rendered.length - (active.stop - start) + inserted.length := by
  show (s.rendered.take start ++ inserted ++ s.rendered.drop active.stop).length = _
  rw [List.length_append, List.length_append, List.length_take_of_le (by omega), List.length_drop]
  omega

/-- A tabstop after an edit. -/
theorem getElem?_edit {stop i : ℕ} {t' : TabStop}
    (h : (s.edit start stop inserted).tabstops[i]? = some t') :
    ∃ t, s.tabstops[i]? = some t ∧
      t' =
        if i = s.active then { t with stop := start + inserted.length }
        else if stop ≤ t.start then
          { t with
            start := t.start - (stop - start) + inserted.length
            stop := t.stop - (stop - start) + inserted.length }
        else t := by
  obtain ⟨t, ht, rfl⟩ := Option.map_eq_some_iff.mp (List.getElem?_mapIdx.symm.trans h)
  exact ⟨t, ht, rfl⟩

theorem getElem?_edit_active (hactive : s.tabstops[s.active]? = some active) (stop : ℕ) :
    (s.edit start stop inserted).tabstops[s.active]? =
      some { active with stop := start + inserted.length } := by
  refine List.getElem?_mapIdx.trans ?_
  rw [hactive]
  exact congrArg some (if_pos rfl)

/-- An edit from a place of the active placeholder to its end. -/
theorem Valid.edit (h : s.Valid) (inserted : List Char)
    (hactive : s.tabstops[s.active]? = some active)
    (hle : active.start ≤ start) (hstart : start ≤ active.stop) :
    (s.edit start active.stop inserted).Valid where
  within := by
    intro t' ht'
    obtain ⟨i, hi⟩ := List.getElem?_of_mem ht'
    obtain ⟨t, ht, rfl⟩ := getElem?_edit hi
    have hin := (h.within_active hactive).2
    have htin := h.within t (List.mem_of_getElem? ht)
    unfold Within at htin ⊢
    rw [length_edit hstart hin]
    -- the active placeholder ends behind what was put in; the others move whole or stay
    by_cases hi' : i = s.active
    · rw [if_pos hi']
      subst hi'
      obtain rfl := Option.some.inj (hactive.symm.trans ht)
      exact ⟨hle.trans (Nat.le_add_right _ _), by show start + inserted.length ≤ _; omega⟩
    · rw [if_neg hi']
      have hapart := h.apart i s.active t active hi' ht hactive
      unfold Apart at hapart
      split
      · show t.start - (active.stop - start) + inserted.length ≤
            t.stop - (active.stop - start) + inserted.length ∧
          t.stop - (active.stop - start) + inserted.length ≤ _
        omega
      · omega
  apart := by
    intro i j a' b' hij ha' hb'
    obtain ⟨a, ha, rfl⟩ := getElem?_edit ha'
    obtain ⟨b, hb, rfl⟩ := getElem?_edit hb'
    have hab := h.apart i j a b hij ha hb
    have hain := h.within a (List.mem_of_getElem? ha)
    have hbin := h.within b (List.mem_of_getElem? hb)
    unfold Apart at hab ⊢
    unfold Within at hain hbin
    -- two placeholders of which one is the active one, and two others
    by_cases hi : i = s.active
    · have hj : j ≠ s.active := fun hj => hij (hi.trans hj.symm)
      rw [if_pos hi, if_neg hj]
      subst hi
      obtain rfl := Option.some.inj (hactive.symm.trans ha)
      split
      · show start + inserted.length ≤ b.start - (active.stop - start) + inserted.length ∨ _
        omega
      · show start + inserted.length ≤ b.start ∨ b.stop ≤ active.start
        omega
    · rw [if_neg hi]
      have hai := h.apart i s.active a active hi ha hactive
      unfold Apart at hai
      by_cases hj : j = s.active
      · rw [if_pos hj]
        subst hj
        obtain rfl := Option.some.inj (hactive.symm.trans hb)
        split
        · show _ ∨ start + inserted.length ≤ a.start - (active.stop - start) + inserted.length
          omega
        · show a.stop ≤ active.start ∨ start + inserted.length ≤ a.start
          omega
      · rw [if_neg hj]
        have hbj := h.apart j s.active b active hj hb hactive
        unfold Apart at hbj
        -- of two others the later one moves if the earlier one does
        by_cases hma : active.stop ≤ a.start <;> by_cases hmb : active.stop ≤ b.start <;>
          simp only [hma, hmb, if_true, if_false] <;> omega
  length := by
    rw [length_edit hstart (h.within_active hactive).2, ← h.length]
    rfl
  cursor := ⟨_, getElem?_edit_active hactive _, rfl⟩

/-- What the view sends for an edit: it deletes up to the start of it and types the text. -/
theorem region_edit (inserted : List Char) {e : LineEditor Char} {before after : List Char}
    (h : e.Region before s.rendered after active.stop) (hstart : start ≤ active.stop) :
    ((LineEditor.rubout^[active.stop - start] e).insert inserted).Region before
      (s.edit start active.stop inserted).rendered after (start + inserted.length) := by
  have hrub := h.rubout (Nat.sub_le active.stop start)
  rw [Nat.sub_sub_self hstart] at hrub
  have hlen : (s.rendered.take start).length = start := List.length_take_of_le (hstart.trans h.le)
  have hins := hrub.insert inserted
  rw [List.take_left' hlen, List.drop_left' hlen] at hins
  exact hins

/-! ## The operations -/

/-- The line editor holds the session between two texts. -/
def HeldBy (s : SnippetSession) (e : LineEditor Char) (before after : List Char) : Prop :=
  e.Region before s.rendered after s.cursorOffsetChars

variable {e : LineEditor Char} {before after : List Char}

theorem deleteActivePlaceholder_eq (hactive : s.tabstops[s.active]? = some active) :
    s.deleteActivePlaceholder =
      if active.stop - active.start = 0 then (s, 0)
      else (s.edit active.start active.stop [], active.stop - active.start) := by
  unfold SnippetSession.deleteActivePlaceholder
  rw [hactive]

theorem activeEmpty_iff (hactive : s.tabstops[s.active]? = some active) :
    s.ActiveEmpty ↔ active.stop ≤ active.start := by
  constructor
  · intro h
    exact h active hactive
  · intro h active' hactive'
    obtain rfl := Option.some.inj (hactive.symm.trans hactive')
    exact h

/-- Nothing is deleted exactly where the active placeholder is empty. -/
theorem deleted_eq_zero_iff : s.deleteActivePlaceholder.2 = 0 ↔ s.ActiveEmpty := by
  rcases hactive : s.tabstops[s.active]? with _ | active
  · unfold SnippetSession.deleteActivePlaceholder
    rw [hactive]
    exact ⟨fun _ active' hactive' => absurd (hactive.symm.trans hactive') (by simp), fun _ => rfl⟩
  · rw [deleteActivePlaceholder_eq hactive, activeEmpty_iff hactive]
    split
    · next hempty => exact ⟨fun _ => by omega, fun _ => rfl⟩
    · next hnot => exact ⟨fun hzero => absurd hzero hnot, fun hle => absurd hle (by omega)⟩

theorem deleteActivePlaceholder_of_empty (hempty : s.ActiveEmpty) :
    s.deleteActivePlaceholder = (s, 0) := by
  unfold SnippetSession.deleteActivePlaceholder
  split
  · rfl
  · next active hactive =>
    have hle := hempty active hactive
    rw [if_pos (by omega)]

theorem Valid.deleteActivePlaceholder (h : s.Valid) : s.deleteActivePlaceholder.1.Valid := by
  obtain ⟨active, hactive, -⟩ := h.cursor
  rw [deleteActivePlaceholder_eq hactive]
  split
  · exact h
  · exact h.edit _ hactive le_rfl (h.within_active hactive).1

theorem Valid.held_deleteActivePlaceholder (h : s.Valid) (hheld : s.HeldBy e before after) :
    s.deleteActivePlaceholder.1.HeldBy (LineEditor.rubout^[s.deleteActivePlaceholder.2] e) before
      after := by
  obtain ⟨active, hactive, hcursor⟩ := h.cursor
  rw [deleteActivePlaceholder_eq hactive]
  split
  · exact hheld
  · unfold HeldBy at hheld
    rw [hcursor] at hheld
    have hedit := region_edit [] hheld (h.within_active hactive).1
    have hnil : ∀ e : LineEditor Char, e.insert [] = e := fun e => by
      unfold LineEditor.insert
      rw [List.append_nil]
    rwa [hnil] at hedit

/-- The active placeholder is empty after it was deleted. -/
theorem Valid.active_deleteActivePlaceholder (h : s.Valid) :
    ∃ active, s.deleteActivePlaceholder.1.tabstops[s.deleteActivePlaceholder.1.active]? = some active ∧
      active.stop = active.start := by
  obtain ⟨active, hactive, -⟩ := h.cursor
  have hle := (h.within_active hactive).1
  rw [deleteActivePlaceholder_eq hactive]
  split
  · next hempty => exact ⟨active, hactive, by omega⟩
  · exact ⟨_, getElem?_edit_active hactive _, Nat.add_zero _⟩

/-- A text is typed at the empty active placeholder. -/
theorem Valid.replaceActivePlaceholder (h : s.Valid) (inserted : List Char) :
    (s.replaceActivePlaceholder inserted).1.Valid := by
  unfold SnippetSession.replaceActivePlaceholder
  simp only
  split
  · exact h.deleteActivePlaceholder
  · obtain ⟨active, hactive, hempty⟩ := h.active_deleteActivePlaceholder
    rw [hactive]
    have hedit := h.deleteActivePlaceholder.edit inserted hactive le_rfl hempty.ge
    rwa [hempty] at hedit

theorem Valid.held_replaceActivePlaceholder (h : s.Valid) (hheld : s.HeldBy e before after)
    (inserted : List Char) :
    (s.replaceActivePlaceholder inserted).1.HeldBy
      ((LineEditor.rubout^[(s.replaceActivePlaceholder inserted).2] e).insert inserted) before
      after := by
  have hdeleted := h.held_deleteActivePlaceholder hheld
  unfold SnippetSession.replaceActivePlaceholder
  simp only
  split
  · next hnil =>
    obtain rfl := List.length_eq_zero_iff.mp hnil
    unfold LineEditor.insert
    rw [List.append_nil]
    exact hdeleted
  · obtain ⟨active, hactive, hempty⟩ := h.active_deleteActivePlaceholder
    rw [hactive]
    unfold HeldBy at hdeleted
    rw [h.deleteActivePlaceholder.cursor_eq hactive] at hdeleted
    have hedit := region_edit inserted hdeleted hempty.ge
    rw [hempty, Nat.sub_self] at hedit
    exact hedit

/-- What is replaced is what is deleted. -/
theorem replaced_eq_deleted (inserted : List Char) :
    (s.replaceActivePlaceholder inserted).2 = s.deleteActivePlaceholder.2 := by
  unfold SnippetSession.replaceActivePlaceholder
  simp only
  split
  · rfl
  · split <;> rfl

/-- With the cursor at the end of the active placeholder a text is always inserted. -/
theorem Valid.insertIntoActivePlaceholder_eq (h : s.Valid)
    (hactive : s.tabstops[s.active]? = some active) (hne : inserted ≠ []) :
    s.insertIntoActivePlaceholder inserted = s.edit active.stop active.stop inserted := by
  unfold SnippetSession.insertIntoActivePlaceholder
  rw [if_neg (by rwa [List.length_eq_zero_iff]), hactive]
  exact if_neg (not_not.mpr (h.cursor_eq hactive))

theorem Valid.insertIntoActivePlaceholder (h : s.Valid) (hne : inserted ≠ []) :
    (s.insertIntoActivePlaceholder inserted).Valid := by
  obtain ⟨active, hactive, -⟩ := h.cursor
  rw [h.insertIntoActivePlaceholder_eq hactive hne]
  exact h.edit _ hactive (h.within_active hactive).1 le_rfl

theorem Valid.held_insertIntoActivePlaceholder (h : s.Valid) (hheld : s.HeldBy e before after)
    (hne : inserted ≠ []) :
    (s.insertIntoActivePlaceholder inserted).HeldBy (e.insert inserted) before after := by
  obtain ⟨active, hactive, hcursor⟩ := h.cursor
  rw [h.insertIntoActivePlaceholder_eq hactive hne]
  unfold HeldBy at hheld
  rw [hcursor] at hheld
  have hedit := region_edit inserted hheld le_rfl
  rw [Nat.sub_self] at hedit
  exact hedit

/-- One character of the active placeholder is deleted, if it has one. -/
theorem Valid.backspaceOne_eq (h : s.Valid) (hactive : s.tabstops[s.active]? = some active) :
    s.backspaceOneInActivePlaceholder =
      if active.stop ≤ active.start then (s, false)
      else (s.edit (active.stop - 1) active.stop [], true) := by
  unfold SnippetSession.backspaceOneInActivePlaceholder
  rw [hactive]
  exact if_neg (not_not.mpr (h.cursor_eq hactive))

/-- A Backspace is taken exactly where the active placeholder has text. -/
theorem Valid.backspaceOne_eq_false_iff (h : s.Valid) :
    s.backspaceOneInActivePlaceholder.2 = false ↔ s.ActiveEmpty := by
  obtain ⟨active, hactive, -⟩ := h.cursor
  rw [h.backspaceOne_eq hactive, activeEmpty_iff hactive]
  split
  · next hempty => exact ⟨fun _ => hempty, fun _ => rfl⟩
  · next hnot => exact ⟨nofun, fun hle => absurd hle hnot⟩

theorem backspaceOne_of_empty (hempty : s.ActiveEmpty) :
    s.backspaceOneInActivePlaceholder = (s, false) := by
  unfold SnippetSession.backspaceOneInActivePlaceholder
  split
  · rfl
  · next active hactive =>
    split
    · rfl
    · rw [if_pos (hempty active hactive)]

theorem Valid.backspaceOne (h : s.Valid) : s.backspaceOneInActivePlaceholder.1.Valid := by
  obtain ⟨active, hactive, -⟩ := h.cursor
  rw [h.backspaceOne_eq hactive]
  split
  · exact h
  · exact h.edit _ hactive (by omega) (Nat.sub_le _ _)

theorem Valid.held_backspaceOne (h : s.Valid) (hheld : s.HeldBy e before after)
    (hdone : s.backspaceOneInActivePlaceholder.2 = true) :
    s.backspaceOneInActivePlaceholder.1.HeldBy e.rubout before after := by
  obtain ⟨active, hactive, hcursor⟩ := h.cursor
  rw [h.backspaceOne_eq hactive] at hdone ⊢
  split at hdone
  · cases hdone
  · next hnot =>
    rw [if_neg hnot]
    unfold HeldBy at hheld
    rw [hcursor] at hheld
    have hedit := region_edit [] hheld (Nat.sub_le active.stop 1)
    have hone : active.stop - (active.stop - 1) = 1 := by omega
    rw [hone] at hedit
    unfold LineEditor.insert at hedit
    rw [List.append_nil] at hedit
    exact hedit

/-! ## Jumps -/

/-- Where a jump puts the cursor. -/
def jumpTarget (s : SnippetSession) (dir : SnippetJumpDir) : ℕ :=
  if s.tabstops.length ≤ s.active then s.cursorOffsetChars
  else
    match dir with
    | .prev =>
      if s.active = 0 then s.cursorOffsetChars
      else ((s.tabstops[s.active - 1]?).map TabStop.stop).getD 0
    | .next =>
      if s.tabstops.length ≤ s.active + 1 then s.insertedLenChars
      else ((s.tabstops[s.active + 1]?).map TabStop.stop).getD 0

theorem delta_jump (s : SnippetSession) (dir : SnippetJumpDir) :
    (s.jump dir).2.delta = (s.jumpTarget dir : ℤ) - s.cursorOffsetChars := by
  unfold SnippetSession.jump jumpTarget
  split
  · exact (sub_self _).symm
  · rcases dir with _ | _
    · simp only
      split <;> rfl
    · simp only
      split
      · exact (sub_self _).symm
      · rfl

/-- A jump that does not end the session goes to the end of another placeholder, or stays. -/
theorem Valid.jump (h : s.Valid) (dir : SnippetJumpDir) :
    (s.jump dir).2 = .noop ∧ (s.jump dir).1 = s ∨
      (∃ target ∈ s.tabstops, (s.jump dir).2 = .move ((target.stop : ℤ) - s.cursorOffsetChars) ∧
        (s.jump dir).1.Valid ∧ (s.jump dir).1.rendered = s.rendered ∧
        (s.jump dir).1.cursorOffsetChars = target.stop) ∨
      ∃ delta, (s.jump dir).2 = .exit delta := by
  obtain ⟨active, hactive, -⟩ := h.cursor
  have hlt := (List.getElem?_eq_some_iff.mp hactive).1
  have hgoTo : ∀ i, i < s.tabstops.length → ∃ target ∈ s.tabstops, s.tabstops[i]? = some target ∧
      ({ s with active := i, cursorOffsetChars := target.stop, selected := true } :
        SnippetSession).Valid := by
    intro i hi
    have htarget : s.tabstops[i]? = some s.tabstops[i] := List.getElem?_eq_getElem hi
    refine ⟨s.tabstops[i], List.getElem_mem hi, htarget, ?_⟩
    exact { within := h.within, apart := h.apart, length := h.length, cursor := ⟨_, htarget, rfl⟩ }
  unfold SnippetSession.jump
  rw [if_neg (Nat.not_le.mpr hlt)]
  rcases dir with _ | _
  · simp only
    split
    · exact .inr (.inr ⟨_, rfl⟩)
    · next hnext =>
      obtain ⟨target, hmem, htarget, hvalid⟩ := hgoTo (s.active + 1) (Nat.not_le.mp hnext)
      rw [htarget]
      exact .inr (.inl ⟨target, hmem, rfl, hvalid, rfl, rfl⟩)
  · simp only
    split
    · exact .inl ⟨rfl, rfl⟩
    · obtain ⟨target, hmem, htarget, hvalid⟩ := hgoTo (s.active - 1) (by omega)
      rw [htarget]
      exact .inr (.inl ⟨target, hmem, rfl, hvalid, rfl, rfl⟩)

end SnippetSession

end Termua.Snippet
