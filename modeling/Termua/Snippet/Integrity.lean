import Mathlib
import Termua.Lib.Run
import Termua.Snippet.Session

/-!
# The tabstops of a snippet session

A session of `gpui_term/src/snippet.rs` moves its tabstops by comparing positions, while what stands
before what is decided by the template (`Precedes`). The two agree (`Intact`, `Moved`) until a text is
typed where an earlier placeholder of the template stands empty at the place of the active one:
`Clear` says that there is none, and `tabstops_kept_iff` that nothing else goes wrong.
-/

namespace Termua.Snippet

open Transition

/-- A placeholder stands before another one in a template; both are given by their places among the
tabstops. -/
def Precedes (input : List Char) (i j : ℕ) : Prop :=
  ∃ a b, (templateStops input)[i]? = some a ∧ (templateStops input)[j]? = some b ∧
    a.appearance < b.appearance

variable {input : List Char} {i j : ℕ}

theorem Precedes.ne (h : Precedes input i j) : i ≠ j := by
  rintro rfl
  obtain ⟨a, b, ha, hb, hlt⟩ := h
  obtain rfl := Option.some.inj (ha.symm.trans hb)
  exact lt_irrefl _ hlt

/-- Of two placeholders one stands before the other. -/
theorem precedes_or_precedes (hi : i < (templateStops input).length)
    (hj : j < (templateStops input).length) (hij : i ≠ j) :
    Precedes input i j ∨ Precedes input j i := by
  have hne : (templateStops input)[i].appearance ≠ (templateStops input)[j].appearance := by
    intro heq
    have hmap : ∀ {k}, k < (templateStops input).length →
        k < ((templateStops input).map ParsedStop.appearance).length := by
      intro k hk
      rwa [List.length_map]
    refine hij ((@List.Nodup.getElem_inj_iff _ _ (templateStops_nodup input) i (hmap hi) j
      (hmap hj)).mp ?_)
    rw [List.getElem_map, List.getElem_map, heq]
  rcases Nat.lt_or_gt_of_ne hne with hlt | hgt
  · exact .inl ⟨_, _, List.getElem?_eq_getElem hi, List.getElem?_eq_getElem hj, hlt⟩
  · exact .inr ⟨_, _, List.getElem?_eq_getElem hj, List.getElem?_eq_getElem hi, hgt⟩

namespace SnippetSession

/-- A call of a session by the view. -/
inductive Call
  | jump (dir : SnippetJumpDir)
  | delete
  | replace (inserted : List Char)
  | insert (inserted : List Char)
  | backspace
  | deselect
  deriving DecidableEq

/-- The session after a call. -/
def call (s : SnippetSession) : Call → SnippetSession
  | .jump dir => (s.jump dir).1
  | .delete => s.deleteActivePlaceholder.1
  | .replace inserted => (s.replaceActivePlaceholder inserted).1
  | .insert inserted => s.insertIntoActivePlaceholder inserted
  | .backspace => s.backspaceOneInActivePlaceholder.1
  | .deselect => { s with selected := false }

/-- The session of a snippet at its start, wherever the view has put the cursor. -/
def Begins (input : List Char) (s : SnippetSession) : Prop :=
  ∃ snippet cursor selected lineId, parseSnippetSuffix input = some snippet ∧
    s = { new snippet.rendered snippet.tabstops with
          cursorOffsetChars := cursor, selected, cursorLineId := lineId }

/-- The tabstops are in the rendered text, do not overlap and stand in the order of the template, and
the length is that of the text. -/
structure Intact (input : List Char) (s : SnippetSession) : Prop where
  count : s.tabstops.length = (templateStops input).length
  within : ∀ t ∈ s.tabstops, Within t s.rendered
  apart : s.tabstops.Pairwise Apart
  ordered : ∀ (i j : ℕ) (a b : TabStop), Precedes input i j → s.tabstops[i]? = some a →
    s.tabstops[j]? = some b → a.stop ≤ b.start
  length : s.insertedLenChars = s.rendered.length

/-- The placeholders before the active one stay, and those after it move by the change in length. -/
structure Moved (input : List Char) (s s' : SnippetSession) : Prop where
  before : ∀ i, Precedes input i s.active → s'.tabstops[i]? = s.tabstops[i]?
  after : ∀ (i : ℕ) (t : TabStop), Precedes input s.active i → s.tabstops[i]? = some t →
    ∃ t', s'.tabstops[i]? = some t' ∧
      (t'.start : ℤ) = t.start + ((s'.rendered.length : ℤ) - s.rendered.length) ∧
      (t'.stop : ℤ) = t.stop + ((s'.rendered.length : ℤ) - s.rendered.length)

/-- Where a call puts text. -/
def insertsAt (s : SnippetSession) : Call → Option ℕ
  | .replace inserted => if inserted = [] then none else (s.tabstops[s.active]?).map TabStop.start
  | .insert inserted =>
    if inserted = [] then none
    else ((s.tabstops[s.active]?).map TabStop.stop).filter (· = s.cursorOffsetChars)
  | _ => none

/-- No placeholder before the active one stands where the call puts text. -/
def Clear (input : List Char) (s : SnippetSession) (c : Call) : Prop :=
  ∀ place ∈ s.insertsAt c, ∀ (i : ℕ) (t : TabStop), Precedes input i s.active →
    s.tabstops[i]? = some t → t.start < place

variable {s s' s'' : SnippetSession} {active t : TabStop} {start : ℕ} {inserted : List Char}

/-! ## One edit -/

theorem Intact.lt_count (h : s.Intact input) (ht : s.tabstops[i]? = some t) :
    i < (templateStops input).length :=
  h.count ▸ (List.getElem?_eq_some_iff.mp ht).1

theorem Intact.within_of (h : s.Intact input) (ht : s.tabstops[i]? = some t) :
    Within t s.rendered :=
  h.within t (List.mem_of_getElem? ht)

/-- Ranges in the order of the template do not overlap. -/
theorem apart_of_ordered (hcount : s.tabstops.length = (templateStops input).length)
    (hordered : ∀ (i j : ℕ) (a b : TabStop), Precedes input i j → s.tabstops[i]? = some a →
      s.tabstops[j]? = some b → a.stop ≤ b.start) :
    s.tabstops.Pairwise Apart := by
  refine List.pairwise_iff_getElem.mpr fun i j hi hj hlt => ?_
  have ha := List.getElem?_eq_getElem hi
  have hb := List.getElem?_eq_getElem hj
  rcases precedes_or_precedes (hcount ▸ hi) (hcount ▸ hj) hlt.ne with hij | hji
  · exact .inl (hordered _ _ _ _ hij ha hb)
  · exact .inr (hordered _ _ _ _ hji hb ha)

/-- What an edit does to a tabstop: the active one ends behind the text, what stands before it in the
template stays, what stands after it moves. -/
theorem Intact.edit_cases (h : s.Intact input) (hactive : s.tabstops[s.active]? = some active)
    (hclear : ∀ (i : ℕ) (t : TabStop), Precedes input i s.active → s.tabstops[i]? = some t →
      t.start < active.stop)
    {t' : TabStop} (ht' : (s.edit start active.stop inserted).tabstops[i]? = some t') :
    (i = s.active ∧ t' = { active with stop := start + inserted.length }) ∨
      (Precedes input i s.active ∧ s.tabstops[i]? = some t' ∧ t'.stop ≤ active.start) ∨
      (Precedes input s.active i ∧ ∃ t, s.tabstops[i]? = some t ∧ active.stop ≤ t.start ∧
        t' = { t with
          start := t.start - (active.stop - start) + inserted.length
          stop := t.stop - (active.stop - start) + inserted.length }) := by
  obtain ⟨t, ht, rfl⟩ := getElem?_edit ht'
  by_cases hi : i = s.active
  · subst hi
    obtain rfl := Option.some.inj (hactive.symm.trans ht)
    exact .inl ⟨rfl, if_pos rfl⟩
  · rw [if_neg hi]
    rcases precedes_or_precedes (h.lt_count ht) (h.lt_count hactive) hi with hbefore | hafter
    · have hlt := hclear i t hbefore ht
      rw [if_neg (Nat.not_le.mpr hlt)]
      exact .inr (.inl ⟨hbefore, ht, h.ordered _ _ _ _ hbefore ht hactive⟩)
    · have hle := h.ordered _ _ _ _ hafter hactive ht
      rw [if_pos hle]
      exact .inr (.inr ⟨hafter, t, ht, hle, rfl⟩)

/-- An edit of the end of the active placeholder, where no placeholder before it ends up behind. -/
theorem Intact.edit (h : s.Intact input) (inserted : List Char)
    (hactive : s.tabstops[s.active]? = some active) (hle : active.start ≤ start)
    (hstart : start ≤ active.stop)
    (hclear : ∀ (i : ℕ) (t : TabStop), Precedes input i s.active → s.tabstops[i]? = some t →
      t.start < active.stop) :
    (s.edit start active.stop inserted).Intact input := by
  have hin := (h.within_of hactive).2
  have hlen : (s.edit start active.stop inserted).rendered.length =
      s.rendered.length - (active.stop - start) + inserted.length := length_edit hstart hin
  have hcount : (s.edit start active.stop inserted).tabstops.length =
      (templateStops input).length := List.length_mapIdx.trans h.count
  have hordered : ∀ (i j : ℕ) (a b : TabStop), Precedes input i j →
      (s.edit start active.stop inserted).tabstops[i]? = some a →
      (s.edit start active.stop inserted).tabstops[j]? = some b → a.stop ≤ b.start := by
    intro i j a b hij ha' hb'
    have hne := hij.ne
    -- a pair in the order of the template has the active one before, between or after it
    rcases h.edit_cases hactive hclear ha' with ⟨rfl, rfl⟩ | ⟨hi, ha, hai⟩ | ⟨hi, a, ha, hai, rfl⟩ <;>
    rcases h.edit_cases hactive hclear hb' with ⟨rfl, rfl⟩ | ⟨hj, hb, hbj⟩ | ⟨hj, b, hb, hbj, rfl⟩
    · exact absurd rfl hne
    · have := h.ordered _ _ _ _ hij hactive hb
      have := (h.within_of hb).1
      have := (h.within_of hactive).1
      have := hclear _ _ hj hb
      omega
    · show start + inserted.length ≤ b.start - (active.stop - start) + inserted.length
      omega
    · exact hai
    · exact h.ordered _ _ _ _ hij ha hb
    · show a.stop ≤ b.start - (active.stop - start) + inserted.length
      omega
    · have := hclear _ _ hij ha
      show a.stop - (active.stop - start) + inserted.length ≤ active.start
      omega
    · have := h.ordered _ _ _ _ hij ha hb
      have := (h.within_of ha).1
      have := (h.within_of hb).1
      have := hclear _ _ hj hb
      show a.stop - (active.stop - start) + inserted.length ≤ b.start
      omega
    · have := h.ordered _ _ _ _ hij ha hb
      show a.stop - (active.stop - start) + inserted.length ≤
        b.start - (active.stop - start) + inserted.length
      omega
  -- that the placeholders lie in the text goes by the same cases
  refine ⟨hcount, ?_, apart_of_ordered hcount hordered, hordered, ?_⟩
  · intro t' ht'
    obtain ⟨i, hi⟩ := List.getElem?_of_mem ht'
    unfold Within
    rw [hlen]
    rcases h.edit_cases hactive hclear hi with ⟨-, rfl⟩ | ⟨-, ht, hti⟩ | ⟨-, t, ht, hti, rfl⟩
    · show active.start ≤ start + inserted.length ∧ start + inserted.length ≤ _
      omega
    · have := (h.within_of ht).1
      omega
    · have hwithin := h.within_of ht
      unfold Within at hwithin
      show t.start - (active.stop - start) + inserted.length ≤
          t.stop - (active.stop - start) + inserted.length ∧
        t.stop - (active.stop - start) + inserted.length ≤ _
      omega
  · rw [hlen, ← h.length]
    rfl

theorem Moved.edit (h : s.Intact input) (inserted : List Char)
    (hactive : s.tabstops[s.active]? = some active) (hstart : start ≤ active.stop)
    (hclear : ∀ (i : ℕ) (t : TabStop), Precedes input i s.active → s.tabstops[i]? = some t →
      t.start < active.stop) :
    s.Moved input (s.edit start active.stop inserted) := by
  have hget : ∀ i, (s.edit start active.stop inserted).tabstops[i]? =
      (s.tabstops[i]?).map fun t =>
        if i = s.active then { t with stop := start + inserted.length }
        else if active.stop ≤ t.start then
          { t with
            start := t.start - (active.stop - start) + inserted.length
            stop := t.stop - (active.stop - start) + inserted.length }
        else t := fun i => List.getElem?_mapIdx
  constructor
  -- before the active placeholder nothing moves
  · intro i hi
    rw [hget]
    rcases ht : s.tabstops[i]? with _ | t
    · rfl
    · rw [Option.map_some, if_neg hi.ne, if_neg (Nat.not_le.mpr (hclear i t hi ht))]
  -- behind it everything moves by the same
  · intro i t hi ht
    have hle := h.ordered _ _ _ _ hi hactive ht
    have hlen : (s.edit start active.stop inserted).rendered.length =
        s.rendered.length - (active.stop - start) + inserted.length :=
      length_edit hstart (h.within_of hactive).2
    have := (h.within_of hactive).2
    have := (h.within_of ht).1
    rw [hget, ht, Option.map_some, if_neg hi.ne.symm, if_pos hle]
    refine ⟨_, rfl, ?_, ?_⟩
    · show ((t.start - (active.stop - start) + inserted.length : ℕ) : ℤ) = _
      omega
    · show ((t.stop - (active.stop - start) + inserted.length : ℕ) : ℤ) = _
      omega

/-- A text that is put where a placeholder stands takes it along. -/
theorem edit_ne (hne : inserted ≠ []) (hi : i ≠ s.active) (ht : s.tabstops[i]? = some t)
    (hle : start ≤ t.start) : (s.edit start start inserted).tabstops[i]? ≠ some t := by
  intro hsame
  obtain ⟨t', ht', heq⟩ := getElem?_edit hsame
  obtain rfl := Option.some.inj (ht.symm.trans ht')
  rw [if_neg hi, if_pos hle] at heq
  have hstart := congrArg TabStop.start heq
  have hpos := List.length_pos_iff.mpr hne
  change t.start = t.start - (start - start) + inserted.length at hstart
  omega

/-! ## The calls -/

theorem Moved.refl (s : SnippetSession) : s.Moved input s where
  before _ _ := rfl
  after i t _ ht := ⟨t, ht, by omega, by omega⟩

theorem Moved.trans (h : s.Moved input s') (h' : s'.Moved input s'') (heq : s'.active = s.active) :
    s.Moved input s'' where
  before i hi := by
    rw [h'.before i (heq ▸ hi), h.before i hi]
  after i t hi ht := by
    obtain ⟨t', ht', hstart', hstop'⟩ := h.after i t hi ht
    obtain ⟨t'', ht'', hstart'', hstop''⟩ := h'.after i t' (heq ▸ hi) ht'
    exact ⟨t'', ht'', by omega, by omega⟩

/-- Other fields do not matter. -/
theorem Intact.of_eq (h : s.Intact input) (htabstops : s'.tabstops = s.tabstops)
    (hrendered : s'.rendered = s.rendered) (hlen : s'.insertedLenChars = s.insertedLenChars) :
    s'.Intact input where
  count := htabstops ▸ h.count
  within := by
    rw [htabstops, hrendered]
    exact h.within
  apart := htabstops ▸ h.apart
  ordered := by
    rw [htabstops]
    exact h.ordered
  length := by rw [hlen, hrendered, h.length]

theorem Moved.of_eq (htabstops : s'.tabstops = s.tabstops) (hrendered : s'.rendered = s.rendered) :
    s.Moved input s' where
  before i _ := by rw [htabstops]
  after i t _ ht := ⟨t, by rw [htabstops, ht], by rw [hrendered]; omega, by rw [hrendered]; omega⟩

theorem jump_eq (s : SnippetSession) (dir : SnippetJumpDir) :
    (s.jump dir).1.tabstops = s.tabstops ∧ (s.jump dir).1.rendered = s.rendered ∧
      (s.jump dir).1.insertedLenChars = s.insertedLenChars := by
  unfold SnippetSession.jump
  simp only
  split
  · exact ⟨rfl, rfl, rfl⟩
  · rcases dir with _ | _
    · simp only
      split <;> exact ⟨rfl, rfl, rfl⟩
    · simp only
      split <;> exact ⟨rfl, rfl, rfl⟩

/-- What precedes an active placeholder with text starts before its end. -/
theorem Intact.lt_stop (h : s.Intact input) (hactive : s.tabstops[s.active]? = some active)
    (hlt : active.start < active.stop) (hi : Precedes input i s.active)
    (ht : s.tabstops[i]? = some t) : t.start < active.stop := by
  have := h.ordered _ _ _ _ hi ht hactive
  have := (h.within_of ht).1
  omega

/-- A deletion needs no condition. -/
theorem Intact.delete (h : s.Intact input) :
    s.deleteActivePlaceholder.1.Intact input ∧ s.Moved input s.deleteActivePlaceholder.1 := by
  unfold SnippetSession.deleteActivePlaceholder
  rcases hactive : s.tabstops[s.active]? with _ | active
  · exact ⟨h, .refl s⟩
  · simp only
    split
    · exact ⟨h, .refl s⟩
    · have hlt : active.start < active.stop := by omega
      have hclear := fun i t => h.lt_stop (i := i) (t := t) hactive hlt
      exact ⟨h.edit [] hactive le_rfl hlt.le hclear, .edit h [] hactive hlt.le hclear⟩

theorem active_delete (s : SnippetSession) : s.deleteActivePlaceholder.1.active = s.active := by
  unfold SnippetSession.deleteActivePlaceholder
  split
  · rfl
  · split <;> rfl

/-- The active placeholder after it was deleted. -/
theorem Intact.getElem?_delete (h : s.Intact input) (hactive : s.tabstops[s.active]? = some active) :
    s.deleteActivePlaceholder.1.tabstops[s.active]? = some { active with stop := active.start } := by
  have hle := (h.within_of hactive).1
  rw [deleteActivePlaceholder_eq hactive]
  split
  · next hempty =>
    obtain ⟨index, start, stop⟩ := active
    obtain rfl : stop = start := by
      change start ≤ stop at hle
      change stop - start = 0 at hempty
      omega
    exact hactive
  · exact getElem?_edit_active hactive _

/-- A replacement is a deletion and an edit of the empty placeholder. -/
theorem Intact.replace_eq (h : s.Intact input) (hne : inserted ≠ [])
    (hactive : s.tabstops[s.active]? = some active) :
    (s.replaceActivePlaceholder inserted).1 =
      s.deleteActivePlaceholder.1.edit active.start active.start inserted := by
  unfold SnippetSession.replaceActivePlaceholder
  simp only
  rw [if_neg (by rwa [List.length_eq_zero_iff]), active_delete, h.getElem?_delete hactive]

theorem Intact.replace_iff (h : s.Intact input) (hne : inserted ≠ [])
    (hactive : s.tabstops[s.active]? = some active) :
    ((s.replaceActivePlaceholder inserted).1.Intact input ∧
        s.Moved input (s.replaceActivePlaceholder inserted).1) ↔
      ∀ (i : ℕ) (t : TabStop), Precedes input i s.active → s.tabstops[i]? = some t →
        t.start < active.start := by
  obtain ⟨hintact, hmoved⟩ := h.delete
  have hempty := h.getElem?_delete hactive
  rw [h.replace_eq hne hactive]
  constructor
  · rintro ⟨-, hmoved'⟩ i t hi ht
    by_contra hnot
    refine edit_ne (s := s.deleteActivePlaceholder.1) hne ?_ ?_ (Nat.not_lt.mp hnot)
      ((hmoved'.before i hi).trans ht)
    · rw [active_delete]
      exact hi.ne
    · exact (hmoved.before i hi).trans ht
  · intro hclear
    have hempty' : s.deleteActivePlaceholder.1.tabstops[s.deleteActivePlaceholder.1.active]? =
        some { active with stop := active.start } := by
      rw [active_delete]
      exact hempty
    have hclear' : ∀ (i : ℕ) (t : TabStop),
        Precedes input i s.deleteActivePlaceholder.1.active →
        s.deleteActivePlaceholder.1.tabstops[i]? = some t → t.start < active.start := by
      intro i t hi ht
      rw [active_delete] at hi
      exact hclear i t hi ((hmoved.before i hi).symm.trans ht)
    exact ⟨hintact.edit inserted hempty' le_rfl le_rfl hclear',
      hmoved.trans (.edit hintact inserted hempty' le_rfl hclear') (active_delete s)⟩

theorem Intact.insert_iff (h : s.Intact input) (hne : inserted ≠ [])
    (hactive : s.tabstops[s.active]? = some active) (hcursor : active.stop = s.cursorOffsetChars) :
    ((s.insertIntoActivePlaceholder inserted).Intact input ∧
        s.Moved input (s.insertIntoActivePlaceholder inserted)) ↔
      ∀ (i : ℕ) (t : TabStop), Precedes input i s.active → s.tabstops[i]? = some t →
        t.start < active.stop := by
  have heq : s.insertIntoActivePlaceholder inserted = s.edit active.stop active.stop inserted := by
    unfold SnippetSession.insertIntoActivePlaceholder
    rw [if_neg (by rwa [List.length_eq_zero_iff]), hactive]
    exact if_neg (not_not.mpr hcursor.symm)
  rw [heq]
  constructor
  · rintro ⟨-, hmoved⟩ i t hi ht
    by_contra hnot
    exact edit_ne hne hi.ne ht (Nat.not_lt.mp hnot) ((hmoved.before i hi).trans ht)
  · intro hclear
    exact ⟨h.edit inserted hactive (h.within_of hactive).1 le_rfl hclear,
      .edit h inserted hactive le_rfl hclear⟩

theorem Intact.backspace (h : s.Intact input) :
    s.backspaceOneInActivePlaceholder.1.Intact input ∧
      s.Moved input s.backspaceOneInActivePlaceholder.1 := by
  unfold SnippetSession.backspaceOneInActivePlaceholder
  rcases hactive : s.tabstops[s.active]? with _ | active
  · exact ⟨h, .refl s⟩
  · simp only
    split
    · exact ⟨h, .refl s⟩
    · split
      · exact ⟨h, .refl s⟩
      · have hlt : active.start < active.stop := by omega
        have hclear := fun i t => h.lt_stop (i := i) (t := t) hactive hlt
        exact ⟨h.edit [] hactive (by omega) (Nat.sub_le _ _) hclear,
          .edit h [] hactive (Nat.sub_le _ _) hclear⟩

theorem clear_of_none {c : Call} (h : s.insertsAt c = none) : s.Clear input c := by
  intro place hplace
  rw [h] at hplace
  cases hplace

theorem clear_iff_of_some {c : Call} {place : ℕ} (h : s.insertsAt c = some place) :
    s.Clear input c ↔ ∀ (i : ℕ) (t : TabStop), Precedes input i s.active →
      s.tabstops[i]? = some t → t.start < place := by
  unfold Clear
  rw [h]
  exact ⟨fun hclear => hclear place rfl, fun hclear _ hmem => Option.some.inj hmem ▸ hclear⟩

/-- A call that changes nothing. -/
theorem Intact.iff_of_same (h : s.Intact input) {c : Call} (hsame : s.call c = s)
    (hplace : s.insertsAt c = none) :
    ((s.call c).Intact input ∧ s.Moved input (s.call c)) ↔ s.Clear input c := by
  rw [hsame]
  exact ⟨fun _ => clear_of_none hplace, fun _ => ⟨h, .refl s⟩⟩

theorem Intact.call_replace_iff (h : s.Intact input) (inserted : List Char) :
    ((s.call (.replace inserted)).Intact input ∧ s.Moved input (s.call (.replace inserted))) ↔
      s.Clear input (.replace inserted) := by
  by_cases hne : inserted = []
  · subst hne
    exact ⟨fun _ => clear_of_none rfl, fun _ => h.delete⟩
  have hplace : s.insertsAt (.replace inserted) = (s.tabstops[s.active]?).map TabStop.start :=
    if_neg hne
  rcases hactive : s.tabstops[s.active]? with _ | active
  · rw [hactive] at hplace
    refine h.iff_of_same ?_ hplace
    show (s.replaceActivePlaceholder inserted).1 = s
    unfold SnippetSession.replaceActivePlaceholder SnippetSession.deleteActivePlaceholder
    simp [hactive]
  · rw [hactive] at hplace
    exact (h.replace_iff hne hactive).trans (clear_iff_of_some hplace).symm

theorem Intact.call_insert_iff (h : s.Intact input) (inserted : List Char) :
    ((s.call (.insert inserted)).Intact input ∧ s.Moved input (s.call (.insert inserted))) ↔
      s.Clear input (.insert inserted) := by
  by_cases hne : inserted = []
  · subst hne
    exact ⟨fun _ => clear_of_none rfl, fun _ => ⟨h, .refl s⟩⟩
  have hplace : s.insertsAt (.insert inserted) =
      ((s.tabstops[s.active]?).map TabStop.stop).filter (· = s.cursorOffsetChars) := if_neg hne
  rcases hactive : s.tabstops[s.active]? with _ | active
  · rw [hactive] at hplace
    refine h.iff_of_same ?_ hplace
    show s.insertIntoActivePlaceholder inserted = s
    unfold SnippetSession.insertIntoActivePlaceholder
    simp [hactive]
  · rw [hactive] at hplace
    by_cases hcursor : active.stop = s.cursorOffsetChars
    · have hsome : s.insertsAt (.insert inserted) = some active.stop := by
        rw [hplace, Option.map_some, Option.filter_some, if_pos (decide_eq_true hcursor)]
      exact (h.insert_iff hne hactive hcursor).trans (clear_iff_of_some hsome).symm
    · -- away from the end of the active placeholder nothing is inserted
      refine h.iff_of_same ?_ ?_
      · show s.insertIntoActivePlaceholder inserted = s
        unfold SnippetSession.insertIntoActivePlaceholder
        rw [if_neg (by rwa [List.length_eq_zero_iff]), hactive]
        exact if_pos (Ne.symm hcursor)
      · rw [hplace, Option.map_some, Option.filter_some, if_neg (by simpa using hcursor)]

/-- A call keeps the tabstops intact and moves them by the change in length exactly where no
placeholder before the active one stands where it puts text. -/
theorem Intact.call_iff (h : s.Intact input) (c : Call) :
    ((s.call c).Intact input ∧ s.Moved input (s.call c)) ↔ s.Clear input c := by
  cases c with
  | jump dir =>
    obtain ⟨htabstops, hrendered, hlen⟩ := jump_eq s dir
    exact ⟨fun _ => clear_of_none rfl, fun _ => ⟨h.of_eq htabstops hrendered hlen,
      .of_eq htabstops hrendered⟩⟩
  | delete => exact ⟨fun _ => clear_of_none rfl, fun _ => h.delete⟩
  | replace inserted => exact h.call_replace_iff inserted
  | insert inserted => exact h.call_insert_iff inserted
  | backspace => exact ⟨fun _ => clear_of_none rfl, fun _ => h.backspace⟩
  | deselect => exact ⟨fun _ => clear_of_none rfl, fun _ => ⟨h.of_eq rfl rfl rfl, .of_eq rfl rfl⟩⟩

/-! ## Runs -/

/-- The tabstops of a snippet at its start. -/
theorem Begins.intact (h : s.Begins input) : s.Intact input := by
  obtain ⟨snippet, cursor, selected, lineId, hparse, rfl⟩ := h
  obtain ⟨hwithin, hapart⟩ := parseSnippetSuffix_ranges hparse
  obtain ⟨htabstops, -⟩ := parseSnippetSuffix_eq hparse
  refine ⟨?_, hwithin, hapart, ?_, rfl⟩
  · show snippet.tabstops.length = _
    rw [htabstops, List.length_map]
  · intro i j a b hij ha hb
    obtain ⟨a', b', ha', hb', hlt⟩ := hij
    change snippet.tabstops[i]? = some a at ha
    change snippet.tabstops[j]? = some b at hb
    rw [htabstops, List.getElem?_map, ha'] at ha
    rw [htabstops, List.getElem?_map, hb'] at hb
    obtain rfl := Option.some.inj ha
    obtain rfl := Option.some.inj hb
    exact templateStops_apart (List.mem_of_getElem? ha') (List.mem_of_getElem? hb') hlt

/-- After calls that meet the condition the tabstops are intact, and the next call keeps them intact
and moves them by the change in length exactly where it meets the condition too. -/
theorem tabstops_kept_iff {input : List Char} {s₀ s : SnippetSession} {cs : List Call}
    (hbegins : s₀.Begins input)
    (hrun : Run (Guarded (ofFun call) (Clear input)) s₀ cs s) :
    s.Intact input ∧
      ∀ c, ((s.call c).Intact input ∧ s.Moved input (s.call c)) ↔ s.Clear input c := by
  have hintact : s.Intact input := by
    refine hrun.invariant hbegins.intact fun _ m c m' _ hm hstep => ?_
    obtain ⟨hclear, rfl⟩ := hstep
    exact ((hm.call_iff c).mpr hclear).1
  exact ⟨hintact, hintact.call_iff⟩

/-- The template with the second placeholder right before the first one. -/
def coincident : List Char := "$\x7b2\x7d$\x7b1\x7d".toList

/-- The session that the view starts for it. -/
def coincidentSession : SnippetSession :=
  { new [] [⟨1, 0, 0⟩, ⟨2, 0, 0⟩] with cursorOffsetChars := 0, selected := true }

theorem begins_coincident : coincidentSession.Begins coincident :=
  ⟨⟨[], [⟨1, 0, 0⟩, ⟨2, 0, 0⟩]⟩, 0, true, none, by decide, rfl⟩

theorem precedes_coincident : Precedes coincident 1 0 :=
  ⟨⟨⟨2, 0, 0⟩, 0⟩, ⟨⟨1, 0, 0⟩, 1⟩, rfl, rfl, Nat.zero_lt_one⟩

/-- A text typed for the first placeholder takes the one before it along, behind the first one. -/
theorem tabstops_not_kept_coincident :
    ¬ ∀ (input : List Char) (s₀ s : SnippetSession) (cs : List Call), s₀.Begins input →
      Run (ofFun call) s₀ cs s →
      s.Intact input ∧ ∀ c, (s.call c).Intact input ∧ s.Moved input (s.call c) := by
  intro hall
  obtain ⟨hintact, -⟩ := (hall _ _ _ [] begins_coincident .start).2 (.replace ['x'])
  have hle := hintact.ordered 1 0 ⟨2, 1, 1⟩ ⟨1, 0, 1⟩ precedes_coincident rfl rfl
  exact absurd hle (by decide)

/-- The session after a text for the second placeholder, which nothing stands before. -/
def typedSession : SnippetSession := (coincidentSession.call (.jump .next)).call (.replace ['y'])

theorem tabstops_kept_iff_coincident :
    typedSession.Intact coincident ∧
      ∀ c, ((typedSession.call c).Intact coincident ∧
        typedSession.Moved coincident (typedSession.call c)) ↔ typedSession.Clear coincident c := by
  have hrun : Run (Guarded (ofFun call) (Clear coincident)) coincidentSession
      [.jump .next, .replace ['y']] typedSession := by
    refine .next (.next .start ⟨clear_of_none rfl, rfl⟩) ⟨?_, rfl⟩
    rintro place - i t ⟨a, b, -, hb, hlt⟩
    have hfirst : (templateStops coincident)[1]? = some ⟨⟨2, 0, 0⟩, 0⟩ := rfl
    obtain rfl := Option.some.inj (hfirst.symm.trans hb)
    exact absurd hlt (Nat.not_lt_zero _)
  exact tabstops_kept_iff begins_coincident hrun

end SnippetSession

end Termua.Snippet
