import Mathlib
import Termua.Lib.Run
import Termua.View.Input

/-!
# Multi-execution

With multi-execution on, the main window sends what the focused view emits to the other visible
terminals. They get what the focused terminal gets exactly where a handler emits all that it sends
(`Faithful`).
-/

namespace Termua.View

open Snippet Transition

/-- `on_terminal_user_input` for another visible terminal. -/
def onTerminalUserInput (locked multiExecEnabled : Bool) (input : UserInput) : List Sent :=
  if locked then []
  else if !multiExecEnabled then []
  else
    match input with
    | .keystroke k => [.keystroke k]
    | .text text => [.input text]
    | .paste text => [.paste text]

/-- The focused view, with the bytes that its terminal and the other visible terminals got. -/
structure MultiExec where
  view : TerminalView := {}
  focused : List UInt8 := []
  others : List (List UInt8) := []

/-- The bytes that an output sends to the focused terminal. -/
def Output.sentBytes (out : Output) (p : Prompt) : List UInt8 := out.sent.flatMap p.bytes

/-- The bytes that an output sends to another terminal in the same modes. -/
def Output.mirroredBytes (out : Output) (p : Prompt) : List UInt8 :=
  (out.emitted.flatMap (onTerminalUserInput false true)).flatMap p.bytes

namespace MultiExec

/-- One operation at the focused view. -/
def step (s : MultiExec) (e : TerminalView.Event) : MultiExec :=
  let (view, out) := s.view.handle e
  { view
    focused := s.focused ++ out.sentBytes e.prompt
    others := s.others.map (· ++ out.mirroredBytes e.prompt) }

/-- Every other terminal got what the focused one got. -/
def Mirrored (s : MultiExec) : Prop := ∀ bytes ∈ s.others, bytes = s.focused

end MultiExec

namespace TerminalView

/-! ## Which operations emit what they send -/

/-- A template leaves nothing to insert. -/
def InsertsNothing (template : Option (List Char)) : Prop :=
  ∀ t, template = some t → renderedSuffix t = []

/-- Text replaces a placeholder that is selected and has text. -/
def Replaces (v : TerminalView) (p : Prompt) : Prop :=
  ∃ session, v.snippet = some session ∧ v.snippetPromptIsEligible p = true ∧
    session.selected = true ∧ ¬ session.ActiveEmpty

/-- A keystroke meets a session. -/
def MeetsSnippet (v : TerminalView) (p : Prompt) (k : Keystroke) : Prop :=
  v.snippet.isSome = true ∧ v.snippetPromptIsEligible p = true ∧ k.key ≠ .enter

/-- A keystroke that is text replaces nothing, a Backspace deletes nothing of a session, and Enter and
Right accept no suggestion with text. -/
structure KeyFaithful (v : TerminalView) (p : Prompt) (k : Keystroke) : Prop where
  text : v.MeetsSnippet p k → snippetText k ≠ none → ¬ v.Replaces p
  backspace : v.MeetsSnippet p k → snippetText k = none → k.key = .backspace →
    ∀ session, v.snippet = some session → session.ActiveEmpty
  accept : ¬ (v.MeetsSnippet p k ∧ snippetText k ≠ none) → k.key = .enter ∨ k.key = .right →
    p.suggestionsEnabled = true → p.eligible = true → InsertsNothing (v.selectedTemplate p)

/-- A tab without a session accepts a suggestion that has no text; a tab that is sent is not
emitted. -/
def TabAccepts (v : TerminalView) (p : Prompt) : Prop :=
  (p.suggestionsEnabled && v.suggestions.isOpen && p.eligible) = true ∧
    ∃ template, v.selectedTemplate p = some template ∧ renderedSuffix template = []

/-- A jump goes to where the cursor is. -/
def TabFaithful (v : TerminalView) (p : Prompt) (shift : Bool) : Prop :=
  match v.snippet with
  | none => v.TabAccepts p
  | some session =>
    if v.snippetPromptIsEligible p then
      session.jumpTarget (if shift then .prev else .next) = session.cursorOffsetChars
    else v.TabAccepts p

/-- The operation emits what it sends. -/
def Faithful (v : TerminalView) (e : Event) : Prop :=
  match e.op with
  | .suggest _ => True
  | .accept index => InsertsNothing (v.templateAt e.prompt index)
  | .commit text => text = [] ∨ ¬ v.Replaces e.prompt
  | .paste text => text = [] ∨ ¬ v.Replaces e.prompt
  | .press k => if isBound k then v.TabFaithful e.prompt k.shift else v.KeyFaithful e.prompt k

variable {v : TerminalView} {p : Prompt} {k : Keystroke}

/-- What is sent is what the other terminals get. -/
def Even (out : Output) (p : Prompt) : Prop := out.mirroredBytes p = out.sentBytes p

/-- Text deletes nothing where it replaces nothing. -/
theorem insertText_deleted {text : List Char} {cancels : Bool} (h : ¬ v.Replaces p) :
    (v.insertText p text cancels).2 = 0 := by
  unfold insertText
  split
  · rfl
  · next session hsession =>
    split
    · rfl
    · next heligible =>
      split
      · next hselected =>
        show (session.replaceActivePlaceholder text).2 = 0
        rw [SnippetSession.replaced_eq_deleted, SnippetSession.deleted_eq_zero_iff]
        by_contra hempty
        exact h ⟨session, hsession, by simpa using heligible, hselected, hempty⟩
      · simp only
        split <;> rfl

theorem even_commitText {text : List Char} (h : text = [] ∨ ¬ v.Replaces p) :
    Even (v.commitText p text).2 p := by
  unfold commitText
  split
  · rfl
  · next hne =>
    simp only
    rw [insertText_deleted (h.resolve_left hne)]
    rfl

theorem even_paste {text : List Char} (h : text = [] ∨ ¬ v.Replaces p) :
    Even (v.paste p text).2 p := by
  unfold paste
  split
  · rfl
  · next hne =>
    simp only
    rw [insertText_deleted (h.resolve_left hne)]
    rfl

theorem even_acceptTemplate {template : List Char} (h : renderedSuffix template = []) :
    Even (acceptTemplate p template).2 p := by
  have hmoves : (startSnippet p template).2 = 0 := by
    unfold startSnippet renderedSuffix at *
    rcases hparse : parseSnippetSuffix template with _ | snippet
    · rfl
    · rw [hparse] at h
      have hnil : snippet.rendered = [] := h
      simp only
      split
      · show snippet.rendered.length - _ = 0
        rw [hnil]
        exact Nat.zero_sub _
      · rfl
  unfold acceptTemplate
  simp only
  rw [hmoves, h]
  rfl

theorem even_acceptSelected {r : TerminalView × Output} (h : InsertsNothing (v.selectedTemplate p))
    (haccept : v.acceptSelectedSuggestion p = some r) : Even r.2 p := by
  obtain ⟨template, htemplate, rfl⟩ := Option.map_eq_some_iff.mp haccept
  exact even_acceptTemplate (h template htemplate)

theorem even_forward (p : Prompt) (k : Keystroke) : Even (forwardKeystrokeToTerminal p k) p := by
  unfold Even Output.mirroredBytes Output.sentBytes forwardKeystrokeToTerminal
  rcases htry : p.tryKeystroke k with _ | text
  · have hbytes : p.bytes (.keystroke k) = [] := by
      show Utf8.encode ((p.tryKeystroke k).getD []) = []
      rw [htry]
      rfl
    simp only [List.flatMap_cons, List.flatMap_nil, hbytes]
    rfl
  · rfl

/-- The suggestions, and the keystroke if they leave it. -/
theorem even_suggestions (h : k.key = .enter ∨ k.key = .right → p.suggestionsEnabled = true →
    p.eligible = true → InsertsNothing (v.selectedTemplate p)) :
    Even (match v.handleSuggestionsKeyDown p k with
      | (v, some out) => (v, out)
      | (v, none) => (v, forwardKeystrokeToTerminal p k) : TerminalView × Output).2 p := by
  rcases v.handleSuggestionsKeyDown_cases p k with
    ⟨r, haccepts, haccept, heq⟩ | ⟨-, -, hquiet | ⟨-, hquiet⟩⟩
  · rw [heq]
    exact even_acceptSelected (h haccepts.2.2.2 haccepts.2.1 haccepts.2.2.1) haccept
  · rcases hhandled : v.handleSuggestionsKeyDown p k with ⟨v', out⟩
    rw [hhandled] at hquiet
    obtain rfl : out = none := hquiet
    exact even_forward p k
  · rcases hhandled : v.handleSuggestionsKeyDown p k with ⟨v', out⟩
    rw [hhandled] at hquiet
    obtain rfl : out = some {} := hquiet
    rfl

theorem even_keyDown (h : v.KeyFaithful p k) : Even (v.keyDown p k).2 p := by
  unfold keyDown handleSnippetKeyDown
  -- the keystroke is text for the placeholder, a deletion, or goes on to the suggestions
  rcases hsession : v.snippet with _ | session
  · exact even_suggestions (h.accept (fun hmeets => by simp [MeetsSnippet, hsession] at hmeets))
  · simp only
    by_cases heligible : v.snippetPromptIsEligible p = true
    · rw [if_neg (by simp [heligible])]
      by_cases henter : k.key = .enter
      · rw [if_pos henter]
        exact even_suggestions (v := { v with snippet := none })
          (h.accept fun hmeets => hmeets.1.2.2 henter)
      · rw [if_neg henter]
        have hmeets : v.MeetsSnippet p k := ⟨by rw [hsession]; rfl, heligible, henter⟩
        rcases htyped : snippetText k with _ | ch
        · simp only
          have haccept := h.accept fun hboth => hboth.2 htyped
          by_cases hkey : k.key = .backspace
          · have hempty := h.backspace hmeets htyped hkey session hsession
            rw [if_pos hkey, SnippetSession.deleteActivePlaceholder_of_empty hempty,
              SnippetSession.backspaceOne_of_empty hempty]
            rcases session.selected with _ | _
            · exact even_suggestions (v := { v with snippet := some session }) haccept
            · exact even_suggestions
                (v := { v with snippet := some { session with selected := false } }) haccept
          · rw [if_neg hkey]
            by_cases hcancels : cancelsSnippet k = true
            · rw [if_pos hcancels]
              exact even_suggestions (v := { v with snippet := none }) haccept
            · rw [if_neg hcancels]
              exact even_suggestions haccept
        · exact even_commitText (.inr (h.text hmeets (by simp [htyped])))
    · rw [if_pos (by simpa using heligible)]
      exact even_suggestions (v := { v with snippet := none })
        (h.accept fun hmeets => heligible hmeets.1.2.1)

theorem even_sendTab (shift : Bool) (h : v.TabAccepts p) : Even (v.sendTab p shift).2 p := by
  obtain ⟨hopen, template, htemplate, hnil⟩ := h
  unfold sendTab acceptSelectedSuggestion
  rw [if_pos hopen, htemplate]
  exact even_acceptTemplate hnil

theorem even_jumpSnippet {session : SnippetSession} {shift : Bool}
    (h : session.jumpTarget (if shift then .prev else .next) = session.cursorOffsetChars) :
    Even (v.jumpSnippet session shift).2 p := by
  have hdelta := session.delta_jump (if shift then .prev else .next)
  rw [h, sub_self] at hdelta
  unfold jumpSnippet
  rcases hjump : session.jump (if shift then .prev else .next) with ⟨session', _ | delta | delta⟩
  · rfl
  · rw [hjump] at hdelta
    obtain rfl : delta = 0 := hdelta
    rfl
  · rw [hjump] at hdelta
    obtain rfl : delta = 0 := hdelta
    rfl

theorem even_sendKeystroke {shift : Bool} (h : v.TabFaithful p shift) :
    Even (v.sendKeystroke p shift).2 p := by
  unfold TabFaithful at h
  unfold sendKeystroke
  rcases hsession : v.snippet with _ | session
  · rw [hsession] at h
    exact even_sendTab shift h
  · rw [hsession] at h
    simp only at h ⊢
    by_cases heligible : v.snippetPromptIsEligible p = true
    · rw [if_pos heligible] at h
      rw [if_neg (by simp [heligible])]
      exact even_jumpSnippet h
    · rw [if_neg heligible] at h
      rw [if_pos (by simpa using heligible)]
      exact even_sendTab (v := { v with snippet := none }) shift h

/-- A faithful operation sends to the other terminals what it sends to its own. -/
theorem even_handle {e : Event} (h : v.Faithful e) : Even (v.handle e).2 e.prompt := by
  unfold Faithful at h
  unfold handle
  rcases hkind : e.op with items | index | text | text | k
  · rfl
  · rw [hkind] at h
    simp only at h ⊢
    unfold acceptSuggestionAtIndex
    rcases hat : v.templateAt e.prompt index with _ | template
    · rfl
    · exact even_acceptTemplate (h template hat)
  · rw [hkind] at h
    exact even_commitText h
  · rw [hkind] at h
    exact even_paste h
  · rw [hkind] at h
    simp only at h ⊢
    by_cases hbound : isBound k = true
    · rw [if_pos hbound] at h ⊢
      exact even_sendKeystroke h
    · rw [if_neg hbound] at h ⊢
      exact even_keyDown h

/-! ## Only these -/

/-- The terminal has sequences for the keys that the view sends by itself. -/
structure SendsKeys (p : Prompt) : Prop where
  backspace : p.bytes (.keystroke .backspaceKey) ≠ []
  left : p.bytes (.keystroke .leftKey) ≠ []
  right : p.bytes (.keystroke .rightKey) ≠ []
  tab : ∀ shift, p.bytes (.keystroke (.tabKey shift)) ≠ []

theorem eq_zero_of_replicate_bytes {x : Sent} {n : ℕ} (hx : p.bytes x ≠ [])
    (h : (List.replicate n x).flatMap p.bytes = []) : n = 0 := by
  by_contra hn
  exact hx (List.flatMap_eq_nil_iff.mp h x (List.mem_replicate.mpr ⟨hn, rfl⟩))

/-- A text that replaces a placeholder sends Backspaces too. -/
theorem not_replaces_of_bytes (text : List Char) (cancels : Bool) (bytes : List UInt8)
    (hp : SendsKeys p)
    (h : bytes = (List.replicate (v.insertText p text cancels).2
      (Sent.keystroke .backspaceKey)).flatMap p.bytes ++ bytes) : ¬ v.Replaces p := by
  rintro ⟨session, hsession, heligible, hselected, hempty⟩
  have hdeleted : (v.insertText p text cancels).2 = session.deleteActivePlaceholder.2 := by
    unfold insertText
    rw [hsession]
    simp only
    rw [if_neg (by simp [heligible]), if_pos hselected]
    exact SnippetSession.replaced_eq_deleted text
  have hnil := List.append_left_eq_self.mp h.symm
  have hzero := eq_zero_of_replicate_bytes hp.backspace hnil
  rw [hdeleted, SnippetSession.deleted_eq_zero_iff] at hzero
  exact hempty hzero

theorem not_replaces_of_even_commitText {text : List Char} (hp : SendsKeys p)
    (h : Even (v.commitText p text).2 p) : text = [] ∨ ¬ v.Replaces p := by
  unfold commitText at h
  split at h
  · next hnil => exact .inl hnil
  · refine .inr (not_replaces_of_bytes text true (Utf8.encode text) hp ?_)
    unfold Even Output.mirroredBytes Output.sentBytes at h
    simp only [List.flatMap_append] at h
    simpa [onTerminalUserInput, Prompt.bytes] using h

theorem not_replaces_of_even_paste {text : List Char} (hp : SendsKeys p)
    (h : Even (v.paste p text).2 p) : text = [] ∨ ¬ v.Replaces p := by
  unfold paste at h
  split at h
  · next hnil => exact .inl hnil
  · refine .inr (not_replaces_of_bytes text false (Utf8.encode (p.pasteText text)) hp ?_)
    unfold Even Output.mirroredBytes Output.sentBytes at h
    simp only [List.flatMap_append] at h
    simpa [onTerminalUserInput, Prompt.bytes] using h

theorem rendered_of_even_acceptTemplate {template : List Char}
    (h : Even (acceptTemplate p template).2 p) : renderedSuffix template = [] := by
  have hnil : [] = Utf8.encode (renderedSuffix template) ++ _ := h
  exact Utf8.encode_eq_nil (List.append_eq_nil_iff.mp hnil.symm).1

/-- Enter or Right that is no text of the session gets to the suggestions without the session. -/
theorem handleSnippetKeyDown_of_accepts (hnot : ¬ (v.MeetsSnippet p k ∧ snippetText k ≠ none))
    (hkey : k.key = .enter ∨ k.key = .right) :
    v.handleSnippetKeyDown p k = ({ v with snippet := none }, none) := by
  unfold handleSnippetKeyDown
  rcases hsession : v.snippet with _ | session
  · show (v, none) = _
    rw [← hsession]
  · simp only
    by_cases heligible : v.snippetPromptIsEligible p = true
    · rw [if_neg (by simp [heligible])]
      by_cases henter : k.key = .enter
      · rw [if_pos henter]
      · have hright := hkey.resolve_left henter
        have htyped : snippetText k = none := by
          by_contra htyped
          exact hnot ⟨⟨by rw [hsession]; rfl, heligible, henter⟩, htyped⟩
        have hcancels : cancelsSnippet k = true := by
          unfold cancelsSnippet
          rw [hright]
          exact Bool.or_true _
        rw [if_neg henter, htyped]
        simp only
        rw [if_neg (by rw [hright]; decide), if_pos hcancels]
    · rw [if_pos (by simpa using heligible)]

theorem keyFaithful_of_even (hp : SendsKeys p)
    (hvalid : ∀ session, v.snippet = some session → session.Valid) (h : Even (v.keyDown p k).2 p) :
    v.KeyFaithful p k where
  -- what is typed is emitted, the keys that delete the placeholder are not: so there were none
  text := by
    rintro ⟨hsome, heligible, henter⟩ htyped
    obtain ⟨session, hsession⟩ := Option.isSome_iff_exists.mp hsome
    obtain ⟨ch, hch⟩ := Option.ne_none_iff_exists'.mp htyped
    have hhandled : v.keyDown p k = v.commitText p ch := by
      unfold keyDown handleSnippetKeyDown
      rw [hsession]
      simp only
      rw [if_neg (by simp [heligible]), if_neg henter, hch]
    rw [hhandled] at h
    refine (not_replaces_of_even_commitText hp h).resolve_left ?_
    rintro rfl
    unfold snippetText Keystroke.plainText at hch
    split at hch
    · cases hch
    · split at hch
      · cases hch
      · exact absurd (Option.filter_eq_some_iff.mp hch).2 (by decide)
  -- the keys of a deletion are not emitted either, so nothing was there to delete
  backspace := by
    rintro ⟨hsome, heligible, henter⟩ htyped hkey session hsession
    by_contra hempty
    have hhandled : v.handleSnippetKeyDown p k = if session.selected then
        ({ v with snippet := some { session.deleteActivePlaceholder.1 with selected := false } },
          if 0 < session.deleteActivePlaceholder.2 then
            some { sent := List.replicate session.deleteActivePlaceholder.2 (.keystroke .backspaceKey) }
          else none)
      else
        ({ v with snippet := some session.backspaceOneInActivePlaceholder.1 },
          if session.backspaceOneInActivePlaceholder.2 then
            some { sent := [.keystroke .backspaceKey] }
          else none) := by
      unfold handleSnippetKeyDown
      rw [hsession]
      simp only
      rw [if_neg (by simp [heligible]), if_neg henter, htyped]
      simp only
      rw [if_pos hkey]
    have hdeleted : session.deleteActivePlaceholder.2 ≠ 0 := fun hzero =>
      hempty (SnippetSession.deleted_eq_zero_iff.mp hzero)
    have hdone : session.backspaceOneInActivePlaceholder.2 = true := by
      by_contra hfalse
      exact hempty ((hvalid session hsession).backspaceOne_eq_false_iff.mp (by simpa using hfalse))
    unfold keyDown at h
    rw [hhandled] at h
    rcases hselected : session.selected with _ | _
    · rw [hselected, if_neg (by decide), if_pos hdone] at h
      have hnil : [] = p.bytes (.keystroke .backspaceKey) ++ [] := h
      exact hp.backspace (List.append_eq_nil_iff.mp hnil.symm).1
    · rw [hselected, if_pos rfl, if_pos (Nat.pos_of_ne_zero hdeleted)] at h
      have hnil : [] = (List.replicate session.deleteActivePlaceholder.2
        (Sent.keystroke .backspaceKey)).flatMap p.bytes := h
      exact hdeleted (eq_zero_of_replicate_bytes hp.backspace hnil.symm)
  -- what an accepted suggestion sends is not emitted, so there was nothing left to type
  accept := by
    intro hnot hkey henabled heligible template htemplate
    unfold keyDown at h
    rw [handleSnippetKeyDown_of_accepts hnot hkey] at h
    simp only at h
    have haccept : acceptSelectedSuggestion { v with snippet := none } p =
        some (acceptTemplate p template) := congrArg (Option.map (acceptTemplate p)) htemplate
    rcases handleSuggestionsKeyDown_cases { v with snippet := none } p k with
      ⟨r, -, hr, heq⟩ | ⟨hnone, -⟩
    · obtain rfl := Option.some.inj (haccept.symm.trans hr)
      rw [heq] at h
      exact rendered_of_even_acceptTemplate h
    · exact absurd (haccept.symm.trans (hnone ⟨rfl, henabled, heligible, hkey⟩)) (by simp)

theorem tabAccepts_of_even (hp : SendsKeys p) {shift : Bool} (h : Even (v.sendTab p shift).2 p) :
    v.TabAccepts p := by
  unfold sendTab at h
  split at h
  · next v' out haccept =>
    split at haccept
    · next hopen =>
      obtain ⟨template, htemplate, hout⟩ := Option.map_eq_some_iff.mp haccept
      have hev : Even (acceptTemplate p template).2 p := by
        rw [hout]
        exact h
      exact ⟨hopen, template, htemplate, rendered_of_even_acceptTemplate hev⟩
    · cases haccept
  · have hnil : [] = p.bytes (.keystroke (.tabKey shift)) ++ [] := h
    exact absurd (List.append_eq_nil_iff.mp hnil.symm).1 (hp.tab shift)

theorem delta_of_even_arrows (hp : SendsKeys p) {delta : ℤ}
    (h : Even { sent := arrows delta } p) : delta = 0 := by
  have hnil : [] = (arrows delta).flatMap p.bytes := h
  unfold arrows at hnil
  split at hnil
  · have hzero := eq_zero_of_replicate_bytes hp.left hnil.symm
    omega
  · have hzero := eq_zero_of_replicate_bytes hp.right hnil.symm
    omega

theorem tabFaithful_of_even (hp : SendsKeys p) {shift : Bool}
    (h : Even (v.sendKeystroke p shift).2 p) : v.TabFaithful p shift := by
  unfold TabFaithful
  unfold sendKeystroke at h
  rcases hsession : v.snippet with _ | session
  · rw [hsession] at h
    exact tabAccepts_of_even hp h
  · rw [hsession] at h
    simp only at h ⊢
    by_cases heligible : v.snippetPromptIsEligible p = true
    · rw [if_pos heligible]
      rw [if_neg (by simp [heligible])] at h
      have hdelta := session.delta_jump (if shift then .prev else .next)
      have hzero : (session.jump (if shift then .prev else .next)).2.delta = 0 := by
        unfold jumpSnippet at h
        rcases hjump : session.jump (if shift then .prev else .next) with ⟨session', _ | delta | delta⟩
        · rfl
        · rw [hjump] at h
          exact delta_of_even_arrows hp h
        · rw [hjump] at h
          exact delta_of_even_arrows hp h
      omega
    · rw [if_neg heligible]
      rw [if_pos (by simpa using heligible)] at h
      exact tabAccepts_of_even (v := { v with snippet := none }) hp h

/-- The operations that send to the other terminals what they send to their own are the faithful
ones. -/
theorem even_handle_iff {e : Event} (hp : SendsKeys e.prompt)
    (hvalid : ∀ session, v.snippet = some session → session.Valid) :
    Even (v.handle e).2 e.prompt ↔ v.Faithful e := by
  refine ⟨fun h => ?_, even_handle⟩
  unfold Faithful
  unfold handle at h
  rcases hkind : e.op with items | index | text | text | k
  · trivial
  · rw [hkind] at h
    intro template htemplate
    have haccept : v.acceptSuggestionAtIndex e.prompt index = some (acceptTemplate e.prompt template) :=
      congrArg (Option.map (acceptTemplate e.prompt)) htemplate
    simp only at h
    rw [haccept] at h
    exact rendered_of_even_acceptTemplate h
  · rw [hkind] at h
    exact not_replaces_of_even_commitText hp h
  · rw [hkind] at h
    exact not_replaces_of_even_paste hp h
  · rw [hkind] at h
    simp only at h ⊢
    by_cases hbound : isBound k = true
    · rw [if_pos hbound] at h ⊢
      exact tabFaithful_of_even hp h
    · rw [if_neg hbound] at h ⊢
      exact keyFaithful_of_even hp hvalid h

end TerminalView

namespace MultiExec

variable {s : MultiExec}

theorem mirrored_step (h : s.Mirrored) {e : TerminalView.Event} (hfaithful : s.view.Faithful e) :
    (s.step e).Mirrored := by
  intro bytes hbytes
  obtain ⟨old, hold, rfl⟩ := List.mem_map.mp hbytes
  have heven : (s.view.handle e).2.mirroredBytes e.prompt = (s.view.handle e).2.sentBytes e.prompt :=
    TerminalView.even_handle hfaithful
  show old ++ _ = s.focused ++ _
  rw [h old hold]
  exact congrArg (s.focused ++ ·) heven

/-- In every run of faithful operations every other visible terminal gets the bytes that the focused
one gets. -/
theorem mirrored_run {view : TerminalView} {n : ℕ} {es : List TerminalView.Event}
    (h : Run (Guarded (ofFun step) fun s e => s.view.Faithful e) { view, others := List.replicate n [] }
      es s) : s.Mirrored := by
  refine h.invariant (I := Mirrored) (fun bytes hbytes => List.eq_of_mem_replicate hbytes)
    fun _ _ _ _ _ hb hs => ?_
  obtain ⟨hfaithful, rfl⟩ := hs
  exact mirrored_step hb hfaithful

/-- A prompt with nothing to suggest. -/
def plainPrompt : Prompt where
  escStr := editingKeys

/-- A command is typed and entered. -/
def typedCommand : List TerminalView.Event :=
  [⟨plainPrompt, .commit "ls".toList⟩, ⟨plainPrompt, .press { key := .enter }⟩]

theorem mirrored_run_typedCommand : ∃ s, Run (Guarded (ofFun step) fun s e => s.view.Faithful e)
    { view := {}, others := List.replicate 2 [] } typedCommand s ∧
      s.focused = Utf8.encode "ls\r".toList ∧ s.Mirrored := by
  have htyped : (({} : TerminalView).Faithful ⟨plainPrompt, .commit "ls".toList⟩) := by
    refine .inr ?_
    rintro ⟨session, hsession, -⟩
    cases hsession
  have hentered : (({} : TerminalView).Faithful ⟨plainPrompt, .press { key := .enter }⟩) := by
    refine ⟨?_, ?_, ?_⟩
    · rintro ⟨hsome, -⟩
      cases hsome
    · rintro ⟨hsome, -⟩
      cases hsome
    · intro _ _ _ _ template htemplate
      cases htemplate
  have hrun : Run (Guarded (ofFun step) fun s e => s.view.Faithful e)
      { view := {}, others := List.replicate 2 [] } typedCommand _ :=
    .next (.next .start ⟨htyped, rfl⟩) ⟨hentered, rfl⟩
  exact ⟨_, hrun, by decide, mirrored_run hrun⟩

/-- A suggestion is accepted. -/
def acceptedSuggestion : List TerminalView.Event :=
  [⟨plainPrompt, .suggest ["ls -l".toList]⟩,
    ⟨{ plainPrompt with insertSuffix := fun _ => some " -l".toList }, .accept 0⟩]

/-- What the suggestion inserts is sent to the focused terminal only. -/
theorem not_mirrored_acceptedSuggestion : ∃ s, Run (ofFun step) { view := {}, others := [[]] }
    acceptedSuggestion s ∧ s.focused = Utf8.encode " -l".toList ∧ ¬ s.Mirrored := by
  refine ⟨_, .next (.next .start rfl) rfl, by decide, fun h => ?_⟩
  exact absurd (h [] (List.mem_singleton_self _)) (by decide)

end MultiExec

end Termua.View
