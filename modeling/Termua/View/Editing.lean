import Mathlib
import Termua.Lib.Run
import Termua.View.Input

/-!
# The line of the shell

A line editor that gets what the view sends. While a snippet session is active it holds the session's
text between what stood before and after the cursor when the suggestion was accepted, with its cursor
where the session has it.
-/

namespace Termua.View

open Snippet Transition

/-- `char::is_control`. -/
def isControl (c : Char) : Bool := decide (c.toNat < 0x20 ∨ 0x7f ≤ c.toNat ∧ c.toNat < 0xa0)

/-- No character of a text is a control character. -/
def NoControl (text : List Char) : Prop := ∀ c ∈ text, isControl c = false

instance (text : List Char) : Decidable (NoControl text) :=
  List.decidableBAll (fun c => isControl c = false) text

/-- A line editor gets a character. -/
def typeChar (e : LineEditor Char) (c : Char) : LineEditor Char :=
  if isControl c then
    if c = '\x7f' ∨ c = '\x08' then e.rubout
    else if c = '\r' ∨ c = '\n' then {}
    else e
  else e.insert [c]

/-- A line editor gets a text. -/
def typeText (e : LineEditor Char) (text : List Char) : LineEditor Char := text.foldl typeChar e

/-- A line editor gets a keystroke. -/
def pressKey (e : LineEditor Char) (k : Keystroke) : LineEditor Char :=
  match k.plainTextForKeystroke with
  | some text => typeText e text
  | none =>
    if k.isCommand then e
    else
      match k.key with
      | .backspace => e.rubout
      | .left => e.left
      | .right => e.right
      | .home => ⟨[], e.line⟩
      | .endKey => ⟨e.line, []⟩
      | .delete => { e with after := e.after.tail }
      | .enter => {}
      | _ => e

/-- A line editor gets what the view sends. -/
def receive (e : LineEditor Char) : Sent → LineEditor Char
  | .input text => typeText e text
  | .keystroke k => pressKey e k
  | .paste text => typeText e text

/-- A view with the line of the shell; the region of the last suggestion that was accepted is between
`before` and `after`. -/
structure Pane where
  view : TerminalView := {}
  editor : LineEditor Char := {}
  before : List Char := []
  after : List Char := []

namespace Pane

/-- One operation. -/
def step (s : Pane) (e : TerminalView.Event) : Pane :=
  let (view, out) := s.view.handle e
  { view
    editor := out.sent.foldl receive s.editor
    before := if out.accepted then s.editor.before else s.before
    after := if out.accepted then s.editor.after else s.after }

/-- While a session is active the line editor holds its text in the region, with its cursor where the
session has it. -/
def Mirrors (s : Pane) : Prop := ∀ session, s.view.snippet = some session →
  s.editor.Region s.before session.rendered s.after session.cursorOffsetChars

/-- The condition on an operation: no control character is typed or inserted, and a Backspace that
meets a session finds text in the active placeholder, or nothing at all before the cursor. -/
def Careful (s : Pane) (e : TerminalView.Event) : Prop :=
  match e.op with
  | .suggest _ => True
  | .accept index => ∀ template, s.view.templateAt e.prompt index = some template →
    NoControl (TerminalView.renderedSuffix template)
  | .commit text => NoControl text
  | .paste text => NoControl text
  | .press k =>
    (∀ template, s.view.selectedTemplate e.prompt = some template →
      NoControl (TerminalView.renderedSuffix template)) ∧
    (∀ text, k.plainTextForKeystroke = some text → NoControl text) ∧
    (k.key = .backspace → s.view.snippetPromptIsEligible e.prompt = true →
      ∀ session, s.view.snippet = some session → session.ActiveEmpty → s.editor.before = [])

end Pane

/-! ## What the line editor makes of what is sent -/

variable {e : LineEditor Char} {before after : List Char} {v : TerminalView} {p : Prompt}

theorem typeText_eq_insert {text : List Char} (h : NoControl text) (e : LineEditor Char) :
    typeText e text = e.insert text := by
  induction text generalizing e with
  | nil =>
    unfold LineEditor.insert
    rw [List.append_nil]
    rfl
  | cons c text ih =>
    have hc : typeChar e c = e.insert [c] := by
      unfold typeChar
      rw [h c List.mem_cons_self]
      rfl
    show typeText (typeChar e c) text = _
    rw [hc, ih fun d hd => h d (List.mem_cons_of_mem _ hd)]
    unfold LineEditor.insert
    rw [List.append_assoc, List.singleton_append]

theorem foldl_receive_replicate {x : Sent} {f : LineEditor Char → LineEditor Char}
    (hx : ∀ e, receive e x = f e) (n : ℕ) (e : LineEditor Char) :
    (List.replicate n x).foldl receive e = f^[n] e := by
  induction n generalizing e with
  | zero => rfl
  | succ n ih =>
    rw [List.replicate_succ, List.foldl_cons, hx, ih]
    rfl

theorem foldl_receive_backspaces (n : ℕ) (e : LineEditor Char) :
    (List.replicate n (Sent.keystroke .backspaceKey)).foldl receive e = LineEditor.rubout^[n] e :=
  foldl_receive_replicate (fun _ => rfl) n e

theorem foldl_receive_lefts (n : ℕ) (e : LineEditor Char) :
    (List.replicate n (Sent.keystroke .leftKey)).foldl receive e = LineEditor.left^[n] e :=
  foldl_receive_replicate (fun _ => rfl) n e

theorem foldl_receive_rights (n : ℕ) (e : LineEditor Char) :
    (List.replicate n (Sent.keystroke .rightKey)).foldl receive e = LineEditor.right^[n] e :=
  foldl_receive_replicate (fun _ => rfl) n e

/-- The arrow keys of a jump put the cursor at its target. -/
theorem region_arrows {text : List Char} {cursor target : ℕ}
    (h : e.Region before text after cursor) (htarget : target ≤ text.length) :
    ((TerminalView.arrows ((target : ℤ) - cursor)).foldl receive e).Region before text after
      target := by
  unfold TerminalView.arrows
  split
  · next hneg =>
    rw [foldl_receive_lefts]
    have hmove := h.left (n := (-((target : ℤ) - cursor)).toNat) (by omega)
    have hto : cursor - (-((target : ℤ) - cursor)).toNat = target := by omega
    rwa [hto] at hmove
  · next hpos =>
    rw [foldl_receive_rights]
    have hmove := h.right (n := ((target : ℤ) - cursor).toNat) (by omega)
    have hto : cursor + ((target : ℤ) - cursor).toNat = target := by omega
    rwa [hto] at hmove

/-! ## The handlers -/

/-- The session of a view is valid, and the line editor holds it. -/
def Held (v : TerminalView) (e : LineEditor Char) (before after : List Char) : Prop :=
  ∀ session, v.snippet = some session → session.Valid ∧ session.HeldBy e before after

theorem held_of_none (h : v.snippet = none) : Held v e before after := by
  intro session hsession
  exact absurd (h.symm.trans hsession) (by simp)

theorem held_some {session : SnippetSession} {suggestions : Suggestions} (hvalid : session.Valid)
    (hheld : session.HeldBy e before after) :
    Held { snippet := some session, suggestions } e before after := by
  intro session' hsession'
  obtain rfl := Option.some.inj hsession'
  exact ⟨hvalid, hheld⟩

/-- The selection is no part of what is held. -/
theorem valid_select {session : SnippetSession} (h : session.Valid) (selected : Bool) :
    ({ session with selected } : SnippetSession).Valid where
  within := h.within
  apart := h.apart
  length := h.length
  cursor := h.cursor

/-- What is held after a handler; an accepted suggestion has its region where the cursor was. -/
def HeldAfter (r : TerminalView × Output) (e : LineEditor Char) (before after : List Char) : Prop :=
  Held r.1 (r.2.sent.foldl receive e) (if r.2.accepted then e.before else before)
    (if r.2.accepted then e.after else after)

theorem heldAfter_of_none {r : TerminalView × Output} (h : r.1.snippet = none) :
    HeldAfter r e before after :=
  held_of_none h

/-- Committed and pasted text: the characters to delete are deleted and the text is typed. -/
theorem Held.insertText (h : Held v e before after) {text : List Char} (hne : text ≠ [])
    (cancels : Bool) :
    Held (v.insertText p text cancels).1
      ((LineEditor.rubout^[(v.insertText p text cancels).2] e).insert text) before after := by
  unfold TerminalView.insertText
  split
  · next hnone => exact held_of_none hnone
  · next session hsession =>
    obtain ⟨hvalid, hheld⟩ := h session hsession
    split
    · exact held_of_none rfl
    · split
      · exact held_some (valid_select (hvalid.replaceActivePlaceholder text) false)
          (hvalid.held_replaceActivePlaceholder hheld text)
      · simp only
        split
        · exact held_of_none rfl
        · exact held_some (hvalid.insertIntoActivePlaceholder hne)
            (hvalid.held_insertIntoActivePlaceholder hheld hne)

theorem Held.commitText (h : Held v e before after) {text : List Char} (htext : NoControl text) :
    HeldAfter (v.commitText p text) e before after := by
  unfold TerminalView.commitText
  split
  · exact h
  · next hne =>
    unfold HeldAfter
    simp only
    rw [List.foldl_append, foldl_receive_backspaces]
    show Held _ (typeText _ text) before after
    rw [typeText_eq_insert htext]
    exact h.insertText hne true

theorem Held.paste (h : Held v e before after) {text : List Char} (htext : NoControl text) :
    HeldAfter (v.paste p text) e before after := by
  unfold TerminalView.paste
  split
  · exact h
  · next hne =>
    unfold HeldAfter
    simp only
    rw [List.foldl_append, foldl_receive_backspaces]
    show Held _ (typeText _ text) before after
    rw [typeText_eq_insert htext]
    exact h.insertText hne false

/-- The session that a template starts: the rendered text with the cursor at the end of the first
placeholder. -/
theorem startSnippet_valid {template : List Char} {session : SnippetSession}
    (h : (TerminalView.startSnippet p template).1 = some session) :
    session.Valid ∧ session.rendered = TerminalView.renderedSuffix template ∧
      session.cursorOffsetChars =
        session.rendered.length - (TerminalView.startSnippet p template).2 ∧
      (TerminalView.startSnippet p template).2 ≤ session.rendered.length := by
  unfold TerminalView.startSnippet TerminalView.renderedSuffix at *
  rcases hparse : parseSnippetSuffix template with _ | snippet
  · rw [hparse] at h
    cases h
  · rw [hparse] at h
    simp only at h ⊢
    split at h
    · next hany =>
      rw [if_pos hany]
      obtain rfl := Option.some.inj h
      obtain ⟨hwithin, hapart⟩ := parseSnippetSuffix_ranges hparse
      -- the cursor goes back from the end of the line to the first placeholder
      obtain ⟨first, rest, hstops⟩ := List.exists_cons_of_ne_nil (parseSnippetSuffix_ne_nil hparse)
      have hfirst : snippet.tabstops[0]? = some first := by
        rw [hstops]
        rfl
      have hhead : snippet.tabstops.head? = some first := by
        rw [hstops]
        rfl
      have hin := (hwithin first (List.mem_of_getElem? hfirst)).2
      refine ⟨⟨hwithin, ?_, rfl, ⟨first, hfirst, ?_⟩⟩, rfl, ?_, ?_⟩
      · intro i j a b hij ha hb
        obtain ⟨hi, rfl⟩ := List.getElem?_eq_some_iff.mp ha
        obtain ⟨hj, rfl⟩ := List.getElem?_eq_some_iff.mp hb
        rcases Nat.lt_or_gt_of_ne hij with hlt | hgt
        · exact List.pairwise_iff_getElem.mp hapart i j hi hj hlt
        · exact (List.pairwise_iff_getElem.mp hapart j i hj hi hgt).symm
      · show ((snippet.tabstops.head?.map TabStop.stop).getD _) = _
        rw [hhead]
        rfl
      · show ((snippet.tabstops.head?.map TabStop.stop).getD _) = snippet.rendered.length -
          (snippet.rendered.length - (snippet.tabstops.head?.map TabStop.stop).getD _)
        rw [hhead]
        show first.stop = snippet.rendered.length - (snippet.rendered.length - first.stop)
        omega
      · exact Nat.sub_le _ _
    · cases h

/-- An accepted suggestion: its text is inserted at the cursor, and the region is that text. -/
theorem held_acceptTemplate {template : List Char}
    (htemplate : NoControl (TerminalView.renderedSuffix template)) (e : LineEditor Char) :
    HeldAfter (TerminalView.acceptTemplate p template) e before after := by
  intro session hsession
  obtain ⟨hvalid, hrendered, hcursor, hle⟩ := startSnippet_valid (p := p) hsession
  refine ⟨hvalid, ?_⟩
  show session.HeldBy ((List.replicate (TerminalView.startSnippet p template).2
    (Sent.keystroke .leftKey)).foldl receive (typeText e (TerminalView.renderedSuffix template)))
    e.before e.after
  rw [foldl_receive_lefts, typeText_eq_insert htemplate, ← hrendered]
  unfold SnippetSession.HeldBy
  rw [hcursor]
  exact (LineEditor.Region.of_insert session.rendered e).left hle

/-- A jump. -/
theorem Held.jumpSnippet (h : Held v e before after) {session : SnippetSession}
    (hsession : v.snippet = some session) (shift : Bool) :
    HeldAfter (v.jumpSnippet session shift) e before after := by
  obtain ⟨hvalid, hheld⟩ := h session hsession
  unfold TerminalView.jumpSnippet
  rcases hjump : session.jump (if shift then .prev else .next) with ⟨session', jump⟩
  have hcases := hvalid.jump (if shift then .prev else .next)
  rw [hjump] at hcases
  rcases hcases with ⟨hnoop, rfl⟩ | ⟨target, htarget, hmove, hvalid', hrendered, hcursor⟩ | ⟨delta, hexit⟩
  · obtain rfl : jump = .noop := hnoop
    exact held_some hvalid hheld
  · obtain rfl : jump = .move _ := hmove
    refine held_some hvalid' ?_
    have hregion := region_arrows hheld (hvalid.within target htarget).2
    have hrendered' : session'.rendered = session.rendered := hrendered
    have hcursor' : session'.cursorOffsetChars = target.stop := hcursor
    unfold SnippetSession.HeldBy
    rw [hrendered', hcursor']
    exact hregion
  · obtain rfl : jump = .exit delta := hexit
    exact held_of_none rfl

/-! ### Keystrokes -/

/-- A suggestion that is accepted by a keystroke. -/
theorem heldAfter_acceptSelected {out : TerminalView × Output}
    (htemplates : ∀ template, v.selectedTemplate p = some template →
      NoControl (TerminalView.renderedSuffix template))
    (h : v.acceptSelectedSuggestion p = some out) : HeldAfter out e before after := by
  obtain ⟨template, htemplate, rfl⟩ := Option.map_eq_some_iff.mp h
  exact held_acceptTemplate (htemplates template htemplate) e

/-- The suggestions decide which template a keystroke accepts. -/
theorem selectedTemplate_congr {v' : TerminalView} (h : v'.suggestions = v.suggestions) :
    v'.selectedTemplate p = v.selectedTemplate p := by
  unfold TerminalView.selectedTemplate TerminalView.templateAt
  rw [h]

/-- A text that is not typed by the session is not typed by the keystroke either. -/
theorem plainTextForKeystroke_of_snippetText {k : Keystroke}
    (h : TerminalView.snippetText k = none) : k.plainTextForKeystroke = none := by
  unfold TerminalView.snippetText at h
  unfold Keystroke.plainTextForKeystroke
  split
  · rfl
  · next hkey =>
    rwa [if_neg fun hcommand => hkey (hcommand.imp_right .inl)] at h

/-- A keystroke that neither edits nor cancels the session does nothing to the line. -/
theorem pressKey_of_not_cancels {k : Keystroke} (htext : k.plainTextForKeystroke = none)
    (hbackspace : k.key ≠ .backspace) (henter : k.key ≠ .enter)
    (hcancels : TerminalView.cancelsSnippet k = false) (e : LineEditor Char) : pressKey e k = e := by
  unfold TerminalView.cancelsSnippet at hcancels
  rw [Bool.or_eq_false_iff, decide_eq_false_iff_not] at hcancels
  obtain ⟨hcommand, hkey⟩ := hcancels
  unfold pressKey
  rw [htext, hcommand]
  simp only
  split
  · rfl
  · split
    all_goals first
      | rfl
      | (next h => simp [h] at hbackspace henter hkey)

/-- A Backspace that the session does not take and that finds nothing before the cursor. -/
theorem pressKey_backspace_of_before_nil {k : Keystroke} (htext : k.plainTextForKeystroke = none)
    (hkey : k.key = .backspace) (hbefore : e.before = []) : pressKey e k = e := by
  have hrubout : e.rubout = e := by
    unfold LineEditor.rubout
    rw [hbefore]
    show (⟨[], e.after⟩ : LineEditor Char) = e
    rw [← hbefore]
  unfold pressKey
  rw [htext, hkey]
  simp only
  split
  · rfl
  · exact hrubout

/-- What the session does with a keystroke: it handles it, it ends, or the keystroke does nothing to
the line. -/
theorem Held.handleSnippetKeyDown (h : Held v e before after) {k : Keystroke}
    (htext : ∀ text, k.plainTextForKeystroke = some text → NoControl text)
    (hbackspace : k.key = .backspace → v.snippetPromptIsEligible p = true →
      ∀ session, v.snippet = some session → session.ActiveEmpty → e.before = []) :
    match v.handleSnippetKeyDown p k with
    | (v', some out) => HeldAfter (v', out) e before after
    | (v', none) => v'.suggestions = v.suggestions ∧
        (v'.snippet = none ∨ Held v' (pressKey e k) before after) := by
  unfold TerminalView.handleSnippetKeyDown
  rcases hsession : v.snippet with _ | session
  · exact ⟨rfl, .inl hsession⟩
  · obtain ⟨hvalid, hheld⟩ := h session hsession
    simp only
    -- the branches of `handle_snippet_key_down` in its order; the first two end the session
    by_cases heligible : (!v.snippetPromptIsEligible p) = true
    · rw [if_pos heligible]
      exact ⟨rfl, .inl rfl⟩
    · rw [if_neg heligible]
      have helig : v.snippetPromptIsEligible p = true := by simpa using heligible
      by_cases henter : k.key = .enter
      · rw [if_pos henter]
        exact ⟨rfl, .inl rfl⟩
      · rw [if_neg henter]
        rcases htyped : TerminalView.snippetText k with _ | ch
        -- no text: a deletion, a key that cancels, or one that the line does not act on
        · have hplain := plainTextForKeystroke_of_snippetText htyped
          simp only
          by_cases hkey : k.key = .backspace
          · rw [if_pos hkey]
            by_cases hselected : session.selected = true
            · rw [if_pos hselected]
              by_cases hdeleted : 0 < session.deleteActivePlaceholder.2
              · rw [if_pos hdeleted]
                refine held_some (valid_select hvalid.deleteActivePlaceholder false) ?_
                rw [foldl_receive_backspaces]
                exact hvalid.held_deleteActivePlaceholder hheld
              · rw [if_neg hdeleted]
                -- nothing to delete, so the key goes to the line and must find nothing either
                have hempty := SnippetSession.deleted_eq_zero_iff.mp (Nat.eq_zero_of_not_pos hdeleted)
                rw [pressKey_backspace_of_before_nil hplain hkey
                  (hbackspace hkey helig session hsession hempty),
                  SnippetSession.deleteActivePlaceholder_of_empty hempty]
                exact ⟨rfl, .inr (held_some (valid_select hvalid false) hheld)⟩
            · rw [if_neg hselected]
              rcases hdone : session.backspaceOneInActivePlaceholder.2 with _ | _
              · have hempty := hvalid.backspaceOne_eq_false_iff.mp hdone
                rw [pressKey_backspace_of_before_nil hplain hkey
                  (hbackspace hkey helig session hsession hempty), SnippetSession.backspaceOne_of_empty hempty]
                exact ⟨rfl, .inr (held_some hvalid hheld)⟩
              · exact held_some hvalid.backspaceOne (hvalid.held_backspaceOne hheld hdone)
          · rw [if_neg hkey]
            by_cases hcancels : TerminalView.cancelsSnippet k = true
            · rw [if_pos hcancels]
              exact ⟨rfl, .inl rfl⟩
            · rw [if_neg hcancels, pressKey_of_not_cancels hplain hkey henter (by simpa using hcancels)]
              exact ⟨rfl, .inr h⟩
        -- what is typed is put in by `commit_text`
        · have hch : k.plainTextForKeystroke = some ch := by
            unfold TerminalView.snippetText at htyped
            unfold Keystroke.plainTextForKeystroke
            split at htyped
            · cases htyped
            · next hkey =>
              rwa [if_neg fun hsome => hkey (hsome.imp_right fun hor => hor.resolve_right henter)]
          exact h.commitText (htext ch hch)

theorem Held.congr {v' : TerminalView} (h : Held v e before after) (hsnippet : v'.snippet = v.snippet) :
    Held v' e before after := by
  intro session hsession
  exact h session (hsnippet.symm.trans hsession)

theorem Held.keyDown (h : Held v e before after) {k : Keystroke}
    (htemplates : ∀ template, v.selectedTemplate p = some template →
      NoControl (TerminalView.renderedSuffix template))
    (htext : ∀ text, k.plainTextForKeystroke = some text → NoControl text)
    (hbackspace : k.key = .backspace → v.snippetPromptIsEligible p = true →
      ∀ session, v.snippet = some session → session.ActiveEmpty → e.before = []) :
    HeldAfter (v.keyDown p k) e before after := by
  have hsnippet := h.handleSnippetKeyDown (p := p) htext hbackspace
  unfold TerminalView.keyDown
  rcases hresult : v.handleSnippetKeyDown p k with ⟨v', _ | out⟩
  · rw [hresult] at hsnippet
    obtain ⟨hsuggestions, hsnippet⟩ := hsnippet
    simp only
    rcases v'.handleSuggestionsKeyDown_cases p k with
      ⟨r, -, haccept, heq⟩ | ⟨-, hsame, hquiet | ⟨hnone, hquiet⟩⟩
    · rw [heq]
      refine heldAfter_acceptSelected (fun template htemplate => htemplates template ?_) haccept
      exact (selectedTemplate_congr hsuggestions).symm.trans htemplate
    · -- the keystroke is forwarded
      rcases hhandled : v'.handleSuggestionsKeyDown p k with ⟨v'', out⟩
      rw [hhandled] at hsame hquiet
      obtain rfl : out = none := hquiet
      rcases hsnippet with hnone | hheld
      · exact heldAfter_of_none (hsame.trans hnone)
      · exact hheld.congr hsame
    · rcases hhandled : v'.handleSuggestionsKeyDown p k with ⟨v'', out⟩
      rw [hhandled] at hsame hquiet
      obtain rfl : out = some {} := hquiet
      exact heldAfter_of_none (hsame.trans hnone)
  · rw [hresult] at hsnippet
    exact hsnippet

/-- Tab without a session: a suggestion is accepted, or the tab is sent. -/
theorem heldAfter_sendTab (hnone : v.snippet = none)
    (htemplates : ∀ template, v.selectedTemplate p = some template →
      NoControl (TerminalView.renderedSuffix template)) (shift : Bool) :
    HeldAfter (v.sendTab p shift) e before after := by
  unfold TerminalView.sendTab
  split
  · next v' out haccept =>
    split at haccept
    · exact heldAfter_acceptSelected htemplates haccept
    · cases haccept
  · exact heldAfter_of_none hnone

theorem Held.sendKeystroke (h : Held v e before after)
    (htemplates : ∀ template, v.selectedTemplate p = some template →
      NoControl (TerminalView.renderedSuffix template)) (shift : Bool) :
    HeldAfter (v.sendKeystroke p shift) e before after := by
  unfold TerminalView.sendKeystroke
  split
  · next hnone => exact heldAfter_sendTab hnone htemplates shift
  · next session hsession =>
    split
    · refine heldAfter_sendTab rfl (fun template htemplate => htemplates template ?_) shift
      exact (selectedTemplate_congr rfl).symm.trans htemplate
    · exact h.jumpSnippet hsession shift

/-! ## Runs -/

namespace Pane

variable {s s' : Pane}

/-- A careful operation keeps what is held. -/
theorem held_step (h : Held s.view s.editor s.before s.after) {e : TerminalView.Event}
    (hcareful : s.Careful e) :
    Held (s.step e).view (s.step e).editor (s.step e).before (s.step e).after := by
  show HeldAfter (s.view.handle e) s.editor s.before s.after
  unfold Careful at hcareful
  unfold TerminalView.handle
  rcases hkind : e.op with items | index | text | text | k
  · exact h
  · simp only
    unfold TerminalView.acceptSuggestionAtIndex
    rw [hkind] at hcareful
    rcases hat : s.view.templateAt e.prompt index with _ | template
    · exact h
    · exact held_acceptTemplate (hcareful template hat) s.editor
  · rw [hkind] at hcareful
    exact h.commitText hcareful
  · rw [hkind] at hcareful
    exact h.paste hcareful
  · rw [hkind] at hcareful
    obtain ⟨htemplates, htext, hbackspace⟩ := hcareful
    simp only
    split
    · exact h.sendKeystroke htemplates k.shift
    · exact h.keyDown htemplates htext hbackspace

theorem held_run {editor : LineEditor Char} {es : List TerminalView.Event}
    (h : Run (Guarded (ofFun step) Careful) { editor } es s) :
    Held s.view s.editor s.before s.after := by
  refine h.invariant (I := fun s => Held s.view s.editor s.before s.after)
    (held_of_none rfl) fun _ _ _ _ _ hb hs => ?_
  obtain ⟨hcareful, rfl⟩ := hs
  exact held_step hb hcareful

/-- In every run of careful operations from a view without a session the line editor holds the text of
the session while it is active. -/
theorem mirrors_run {editor : LineEditor Char} {es : List TerminalView.Event}
    (h : Run (Guarded (ofFun step) Careful) { editor } es s) : s.Mirrors :=
  fun session hsession => (held_run h session hsession).2

/-- A Backspace that meets an empty placeholder deletes what stands before it, and the session does not
know. -/
theorem not_mirrors_of_empty (h : Held s.view s.editor s.before s.after) {p : Prompt}
    {session : SnippetSession} (hsession : s.view.snippet = some session)
    (heligible : s.view.snippetPromptIsEligible p = true) (hempty : session.ActiveEmpty)
    (hbefore : s.editor.before ≠ []) : ¬ (s.step ⟨p, .press .backspaceKey⟩).Mirrors := by
  obtain ⟨hvalid, hheld⟩ := h session hsession
  have hsnippet : s.view.handleSnippetKeyDown p .backspaceKey =
      ({ s.view with snippet := some { session with selected := false } }, none) := by
    have htext : TerminalView.snippetText .backspaceKey = none := rfl
    unfold TerminalView.handleSnippetKeyDown
    rw [hsession]
    simp only
    rw [if_neg (by simp [heligible]), if_neg (by decide), htext]
    simp only
    rw [if_pos (show Keystroke.backspaceKey.key = .backspace from rfl),
      SnippetSession.deleteActivePlaceholder_of_empty hempty, SnippetSession.backspaceOne_of_empty hempty]
    rcases hselected : session.selected with _ | _
    · have hsame : ({ session with selected := false } : SnippetSession) = session := by
        rw [← hselected]
      rw [if_neg (by decide), hsame]
      rfl
    · rfl
  -- with the session still there the suggestions pass, and the key goes to the terminal
  have hkey : s.view.keyDown p .backspaceKey =
      ({ s.view with snippet := some { session with selected := false } },
        TerminalView.forwardKeystrokeToTerminal p .backspaceKey) := by
    unfold TerminalView.keyDown
    rw [hsnippet]
    simp only
    unfold TerminalView.handleSuggestionsKeyDown
    simp only
    rw [if_pos (by simp)]
  have hstep : s.step ⟨p, .press .backspaceKey⟩ =
      { s with
        view := { s.view with snippet := some { session with selected := false } }
        editor := s.editor.rubout } := by
    unfold Pane.step TerminalView.handle
    simp only
    rw [if_neg (by decide), hkey]
    rfl
  -- the session keeps its text while the line is one shorter
  intro hmirrors
  rw [hstep] at hmirrors
  have hregion : s.editor.rubout.before = s.before ++ session.rendered.take session.cursorOffsetChars :=
    (hmirrors _ rfl).before_eq
  have hlen := congrArg List.length (hregion.trans hheld.before_eq.symm)
  have hpos := List.length_pos_iff.mpr hbefore
  have hdrop : s.editor.rubout.before.length = s.editor.before.length - 1 := List.length_dropLast
  omega

/-- A command with one placeholder and no default. -/
def commitPrompt : Prompt where
  escStr := editingKeys
  insertSuffix := fun _ => some "commit -m $\x7b1\x7d".toList

/-- The suggestion of the command is accepted. -/
def acceptedCommit : List TerminalView.Event :=
  [⟨commitPrompt, .suggest ["git commit -m $\x7b1\x7d".toList]⟩, ⟨commitPrompt, .accept 0⟩]

/-- The line with the command that the user has begun. -/
def begunCommit : Pane := { editor := ⟨"git ".toList, []⟩ }

theorem run_acceptedCommit :
    Run (Guarded (ofFun step) Careful) begunCommit acceptedCommit (acceptedCommit.foldl step begunCommit) := by
  have hopened : Run (Guarded (ofFun step) Careful) begunCommit
      [⟨commitPrompt, .suggest ["git commit -m $\x7b1\x7d".toList]⟩] _ := .next .start ⟨trivial, rfl⟩
  refine .next hopened ⟨?_, rfl⟩
  intro template htemplate
  obtain rfl := Option.some.inj htemplate
  have hrendered : TerminalView.renderedSuffix "commit -m $\x7b1\x7d".toList = "commit -m ".toList := by
    decide
  rw [hrendered]
  decide

/-- The session of the command. -/
def commitSession : SnippetSession where
  insertedLenChars := 10
  rendered := "commit -m ".toList
  tabstops := [⟨1, 10, 10⟩]
  active := 0
  cursorOffsetChars := 10
  selected := true
  cursorLineId := none

theorem acceptedCommit_snippet :
    (acceptedCommit.foldl step begunCommit).view.snippet = some commitSession := by decide

/-- After the suggestion was accepted. -/
theorem mirrors_run_acceptedCommit : ∃ s,
    Run (Guarded (ofFun step) Careful) begunCommit acceptedCommit s ∧
      s.view.snippet = some commitSession ∧ s.Mirrors :=
  ⟨_, run_acceptedCommit, acceptedCommit_snippet, mirrors_run run_acceptedCommit⟩

/-- A Backspace at the placeholder of the command. -/
theorem not_mirrors_emptyPlaceholder : ∃ s, Run (ofFun step) begunCommit
    (acceptedCommit ++ [⟨commitPrompt, .press .backspaceKey⟩]) s ∧ s.view.snippet.isSome ∧
      ¬ s.Mirrors := by
  have hheld : Held (acceptedCommit.foldl step begunCommit).view
      (acceptedCommit.foldl step begunCommit).editor (acceptedCommit.foldl step begunCommit).before
      (acceptedCommit.foldl step begunCommit).after := held_run run_acceptedCommit
  refine ⟨_, .next run_acceptedCommit.unguard rfl, by decide, ?_⟩
  refine not_mirrors_of_empty hheld acceptedCommit_snippet (by decide) ?_ (by decide)
  intro active hactive
  obtain rfl := Option.some.inj (hactive.symm.trans (show commitSession.tabstops[0]? = some ⟨1, 10, 10⟩ from rfl))
  exact le_rfl

end Pane

end Termua.View
