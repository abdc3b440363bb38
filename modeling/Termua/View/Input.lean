import Mathlib
import Termua.Lib.Utf8
import Termua.Snippet.Session

/-!
# The input of a terminal view

What `TerminalView` of `gpui_term/src/view` does with the user's input: text that is committed or
pasted, keystrokes, and suggestions that are accepted. A handler returns the view with its `Output`,
what it sends to its terminal and which `UserInput` events it emits. The screen around the cursor is
an input of every handler (`Prompt`).
-/

namespace Termua.View

open Snippet

/-- The keys that the view tells apart. -/
inductive Key
  | backspace
  | escape
  | enter
  | tab
  | left
  | right
  | up
  | down
  | home
  | endKey
  | pageup
  | pagedown
  | delete
  | other (name : List Char)
  deriving DecidableEq

/-- `Keystroke`. -/
structure Keystroke where
  key : Key
  keyChar : Option (List Char) := none
  control : Bool := false
  alt : Bool := false
  shift : Bool := false
  platform : Bool := false
  function : Bool := false
  imeInProgress : Bool := false
  deriving DecidableEq

namespace Keystroke

/-- `Keystroke::parse("left")`, and so on. -/
def leftKey : Keystroke := { key := .left }

def rightKey : Keystroke := { key := .right }

def backspaceKey : Keystroke := { key := .backspace }

def tabKey (shift : Bool) : Keystroke := { key := .tab, shift }

/-- A modifier that makes a keystroke a command. -/
def isCommand (k : Keystroke) : Bool := k.control || k.platform || k.function || k.alt

/-- The text of a keystroke that is plain text. -/
def plainText (k : Keystroke) : Option (List Char) :=
  if k.imeInProgress || k.isCommand then none else k.keyChar.filter (· ≠ [])

/-- `plain_text_for_keystroke`. -/
def plainTextForKeystroke (k : Keystroke) : Option (List Char) :=
  if k.key = .tab ∨ k.key = .escape ∨ k.key = .enter then none else k.plainText

end Keystroke

/-- What a call of the view asks its terminal to send. -/
inductive Sent
  | input (text : List Char)
  | keystroke (k : Keystroke)
  | paste (text : List Char)

/-- `UserInput`. -/
inductive UserInput
  | text (text : List Char)
  | keystroke (k : Keystroke)
  | paste (text : List Char)

/-- The screen around the cursor when a handler runs: the escape sequences of the terminal's modes,
whether a paste is bracketed, whether suggestions are enabled and the prompt is eligible for them, the
line of the cursor, and what is left to insert of an item. -/
structure Prompt where
  escStr : Keystroke → Option (List Char)
  bracketedPaste : Bool := false
  suggestionsEnabled : Bool := true
  eligible : Bool := true
  cursorLineId : Option ℤ := none
  insertSuffix : List Char → Option (List Char) := fun _ => none

/-- `Terminal::try_keystroke`: what is sent for a keystroke that the terminal knows. -/
def Prompt.tryKeystroke (p : Prompt) (k : Keystroke) : Option (List Char) :=
  k.plainTextForKeystroke.or (p.escStr k)

/-- The sequences of the editing keys in the normal cursor mode. -/
def editingKeys (k : Keystroke) : Option (List Char) :=
  match k.key with
  | .backspace => some ['\x7f']
  | .left => some "\x1b[D".toList
  | .right => some "\x1b[C".toList
  | .tab => some (if k.shift then "\x1b[Z".toList else ['\t'])
  | .enter => some ['\r']
  | .escape => some ['\x1b']
  | _ => none

/-- Line ends of a paste that is not bracketed. -/
def lineEnds : List Char → List Char
  | '\r' :: '\n' :: text => '\r' :: lineEnds text
  | '\n' :: text => '\r' :: lineEnds text
  | c :: text => c :: lineEnds text
  | [] => []

/-- `paste` of the terminal. -/
def Prompt.pasteText (p : Prompt) (text : List Char) : List Char :=
  if p.bracketedPaste then "\x1b[200~".toList ++ text.filter (· ≠ '\x1b') ++ "\x1b[201~".toList
  else lineEnds text

/-- The bytes that a call sends. -/
def Prompt.bytes (p : Prompt) : Sent → List UInt8
  | .input text => Utf8.encode text
  | .keystroke k => Utf8.encode ((p.tryKeystroke k).getD [])
  | .paste text => Utf8.encode (p.pasteText text)

/-- The suggestions on view. -/
structure Suggestions where
  isOpen : Bool := false
  items : List (List Char) := []
  selected : Option ℕ := none

/-- `open_with_items`. -/
def Suggestions.openWithItems (items : List (List Char)) : Suggestions :=
  { isOpen := !items.isEmpty, items }

/-- `TerminalView`. -/
structure TerminalView where
  snippet : Option SnippetSession := none
  suggestions : Suggestions := {}

/-- What a handler does besides changing the view; `accepted` says whether it accepted a
suggestion. -/
structure Output where
  sent : List Sent := []
  emitted : List UserInput := []
  accepted : Bool := false

/-- `move_selection_opt`. -/
def moveSelectionOpt (selected : Option ℕ) (itemsLen : ℕ) (down : Bool) : Option ℕ :=
  if itemsLen = 0 then none
  else
    match selected, down with
    | none, true => some 0
    | none, false => some (itemsLen - 1)
    | some i, true => some (min (i + 1) (itemsLen - 1))
    | some i, false => some (min (i - 1) (itemsLen - 1))

namespace TerminalView

/-- `snippet_prompt_is_eligible`. -/
def snippetPromptIsEligible (v : TerminalView) (p : Prompt) : Bool :=
  let sessionLineId := v.snippet.bind SnippetSession.cursorLineId
  p.eligible && (sessionLineId.isNone || sessionLineId == p.cursorLineId)

/-! ## Text -/

/-- What committed and pasted text does to the session, with the number of characters that have to be
deleted; committed text cancels a session that does not take it. -/
def insertText (v : TerminalView) (p : Prompt) (text : List Char) (cancels : Bool) :
    TerminalView × ℕ :=
  match v.snippet with
  | none => (v, 0)
  | some session =>
    if !v.snippetPromptIsEligible p then ({ v with snippet := none }, 0)
    else if session.selected then
      let (session, deleted) := session.replaceActivePlaceholder text
      ({ v with snippet := some { session with selected := false } }, deleted)
    else
      let inserted := session.insertIntoActivePlaceholder text
      if cancels && inserted.insertedLenChars = session.insertedLenChars then
        ({ v with snippet := none }, 0)
      else ({ v with snippet := some inserted }, 0)

/-- `commit_text`. -/
def commitText (v : TerminalView) (p : Prompt) (text : List Char) : TerminalView × Output :=
  if text = [] then (v, {})
  else
    let (v, deletedChars) := v.insertText p text true
    (v, { sent := List.replicate deletedChars (.keystroke .backspaceKey) ++ [.input text],
          emitted := [.text text] })

/-- `paste`. -/
def paste (v : TerminalView) (p : Prompt) (text : List Char) : TerminalView × Output :=
  if text = [] then (v, {})
  else
    let (v, deletedChars) := v.insertText p text false
    (v, { sent := List.replicate deletedChars (.keystroke .backspaceKey) ++ [.paste text],
          emitted := [.paste text] })

/-! ## Suggestions -/

/-- The text that a template inserts. -/
def renderedSuffix (template : List Char) : List Char :=
  ((parseSnippetSuffix template).map SnippetSuffix.rendered).getD template

/-- The session that a template starts, and how far the cursor moves to the left for it. -/
def startSnippet (p : Prompt) (template : List Char) : Option SnippetSession × ℕ :=
  match parseSnippetSuffix template with
  | none => (none, 0)
  | some snippet =>
    if snippet.tabstops.any (·.index ≠ 0) then
      let session := SnippetSession.new snippet.rendered snippet.tabstops
      let targetEnd := (session.tabstops.head?.map TabStop.stop).getD session.insertedLenChars
      (some { session with
                cursorLineId := p.cursorLineId, cursorOffsetChars := targetEnd, selected := true },
        session.insertedLenChars - targetEnd)
    else (none, 0)

/-- The template of an item at an index, when its suggestion can be accepted. -/
def templateAt (v : TerminalView) (p : Prompt) (index : ℕ) : Option (List Char) :=
  if !v.suggestions.isOpen then none else v.suggestions.items[index]?.bind p.insertSuffix

/-- The template of the selected suggestion. -/
def selectedTemplate (v : TerminalView) (p : Prompt) : Option (List Char) :=
  v.suggestions.selected.bind (v.templateAt p)

/-- A template is inserted. -/
def acceptTemplate (p : Prompt) (template : List Char) : TerminalView × Output :=
  let (snippet, initialMoveLeft) := startSnippet p template
  ({ snippet },
    { sent := .input (renderedSuffix template) ::
        List.replicate initialMoveLeft (.keystroke .leftKey)
      accepted := true })

/-- `accept_suggestion_at_index`. -/
def acceptSuggestionAtIndex (v : TerminalView) (p : Prompt) (index : ℕ) :
    Option (TerminalView × Output) :=
  (v.templateAt p index).map (acceptTemplate p)

/-- `accept_selected_suggestion`. -/
def acceptSelectedSuggestion (v : TerminalView) (p : Prompt) : Option (TerminalView × Output) :=
  (v.selectedTemplate p).map (acceptTemplate p)

/-- `handle_suggestions_key_down`; no output where the keystroke was not handled. -/
def handleSuggestionsKeyDown (v : TerminalView) (p : Prompt) (k : Keystroke) :
    TerminalView × Option Output :=
  let closed : TerminalView := { v with suggestions := {} }
  let moved (down : Bool) : TerminalView :=
    { v with suggestions := { v.suggestions with
        selected := moveSelectionOpt v.suggestions.selected v.suggestions.items.length down } }
  let others : TerminalView × Option Output :=
    (if k.plainText.isNone && v.suggestions.isOpen then closed else v, none)
  if !p.suggestionsEnabled || v.snippet.isSome then (v, none)
  else if !p.eligible then (closed, none)
  else
    match k.key with
    | .escape => if v.suggestions.isOpen then (closed, some {}) else others
    | .up => if v.suggestions.isOpen then (moved false, some {}) else others
    | .down => if v.suggestions.isOpen then (moved true, some {}) else others
    | .enter =>
      match v.acceptSelectedSuggestion p with
      | some (v, out) => (v, some out)
      | none => (closed, none)
    | .right =>
      match v.acceptSelectedSuggestion p with
      | some (v, out) => (v, some out)
      | none => (v, none)
    | .backspace => (v, none)
    | _ => others

/-! ## Keystrokes -/

/-- A keystroke that is not an edit of the active placeholder and cancels the session. -/
def cancelsSnippet (k : Keystroke) : Bool :=
  k.isCommand ||
    decide (k.key ∈ [.left, .right, .up, .down, .home, .endKey, .pageup, .pagedown, .delete])

/-- The text that a keystroke commits while there is a session. -/
def snippetText (k : Keystroke) : Option (List Char) :=
  if k.key = .tab ∨ k.key = .escape then none else k.plainText

/-- `handle_snippet_key_down`; no output where the keystroke was not handled. -/
def handleSnippetKeyDown (v : TerminalView) (p : Prompt) (k : Keystroke) :
    TerminalView × Option Output :=
  match v.snippet with
  | none => (v, none)
  | some session =>
    if !v.snippetPromptIsEligible p then ({ v with snippet := none }, none)
    else if k.key = .enter then ({ v with snippet := none }, none)
    else
      match snippetText k with
      | some ch =>
        let (v, out) := v.commitText p ch
        (v, some out)
      | none =>
        if k.key = .backspace then
          if session.selected then
            let (session, deletedChars) := session.deleteActivePlaceholder
            ({ v with snippet := some { session with selected := false } },
              if 0 < deletedChars then
                some { sent := List.replicate deletedChars (.keystroke .backspaceKey) }
              else none)
          else
            let (session, deleted) := session.backspaceOneInActivePlaceholder
            ({ v with snippet := some session },
              if deleted then some { sent := [.keystroke .backspaceKey] } else none)
        else if cancelsSnippet k then ({ v with snippet := none }, none)
        else (v, none)

/-- `forward_keystroke_to_terminal`. -/
def forwardKeystrokeToTerminal (p : Prompt) (k : Keystroke) : Output where
  sent := [.keystroke k]
  emitted := if (p.tryKeystroke k).isSome then [.keystroke k] else []

/-- `key_down`. -/
def keyDown (v : TerminalView) (p : Prompt) (k : Keystroke) : TerminalView × Output :=
  match v.handleSnippetKeyDown p k with
  | (v, some out) => (v, out)
  | (v, none) =>
    match v.handleSuggestionsKeyDown p k with
    | (v, some out) => (v, out)
    | (v, none) => (v, forwardKeystrokeToTerminal p k)

/-- The arrow keys that move the cursor by a jump. -/
def arrows (delta : ℤ) : List Sent :=
  if delta < 0 then List.replicate (-delta).toNat (.keystroke .leftKey)
  else List.replicate delta.toNat (.keystroke .rightKey)

/-- The jump of `send_keystroke`. -/
def jumpSnippet (v : TerminalView) (session : SnippetSession) (shift : Bool) :
    TerminalView × Output :=
  match session.jump (if shift then .prev else .next) with
  | (session, .noop) => ({ v with snippet := some session }, {})
  | (session, .move delta) => ({ v with snippet := some session }, { sent := arrows delta })
  | (_, .exit delta) => ({ v with snippet := none }, { sent := arrows delta })

/-- The rest of `send_keystroke` for a tab that is not a jump. -/
def sendTab (v : TerminalView) (p : Prompt) (shift : Bool) : TerminalView × Output :=
  match
    if p.suggestionsEnabled && v.suggestions.isOpen && p.eligible then v.acceptSelectedSuggestion p
    else none with
  | some (v, out) => (v, out)
  | none => (v, { sent := [.keystroke (.tabKey shift)] })

/-- `send_keystroke` of the bindings of Tab and Shift-Tab. -/
def sendKeystroke (v : TerminalView) (p : Prompt) (shift : Bool) : TerminalView × Output :=
  match v.snippet with
  | none => v.sendTab p shift
  | some session =>
    if !v.snippetPromptIsEligible p then { v with snippet := none }.sendTab p shift
    else v.jumpSnippet session shift

/-- What the user does, or the timer of the suggestions. -/
inductive Op
  | suggest (items : List (List Char))
  | accept (index : ℕ)
  | commit (text : List Char)
  | paste (text : List Char)
  | press (k : Keystroke)

/-- An operation with the screen that it meets. -/
structure Event where
  prompt : Prompt
  op : Op

/-- A keystroke that the key bindings take: Tab and Shift-Tab. -/
def isBound (k : Keystroke) : Bool := decide (k.key = .tab) && !k.isCommand

/-- One operation. -/
def handle (v : TerminalView) (e : Event) : TerminalView × Output :=
  match e.op with
  | .suggest items => ({ v with suggestions := .openWithItems items }, {})
  | .accept index => (v.acceptSuggestionAtIndex e.prompt index).getD (v, {})
  | .commit text => v.commitText e.prompt text
  | .paste text => v.paste e.prompt text
  | .press k => if isBound k then v.sendKeystroke e.prompt k.shift else v.keyDown e.prompt k

/-! ## Which keystrokes accept a suggestion -/

variable {v : TerminalView} {p : Prompt} {k : Keystroke}

/-- The keystroke accepts the selected suggestion, if there is one. -/
def AcceptsKey (v : TerminalView) (p : Prompt) (k : Keystroke) : Prop :=
  v.snippet = none ∧ p.suggestionsEnabled = true ∧ p.eligible = true ∧
    (k.key = .enter ∨ k.key = .right)

/-- A key of the open list handles the keystroke, without output; neither case touches the session. -/
theorem leaves_ite {v w u : TerminalView} {c : Prop} [Decidable c] (hw : w.snippet = v.snippet)
    (hu : u.snippet = v.snippet) (hnone : v.snippet = none) :
    (if c then (w, some ({} : Output)) else (u, none)).1.snippet = v.snippet ∧
      ((if c then (w, some ({} : Output)) else (u, none)).2 = none ∨
        v.snippet = none ∧ (if c then (w, some ({} : Output)) else (u, none)).2 = some {}) := by
  split
  · exact ⟨hw, .inr ⟨hnone, rfl⟩⟩
  · exact ⟨hu, .inl rfl⟩

/-- The suggestions handle a keystroke by accepting one, or they leave the session and send
nothing. -/
theorem handleSuggestionsKeyDown_cases (v : TerminalView) (p : Prompt) (k : Keystroke) :
    (∃ r, v.AcceptsKey p k ∧ v.acceptSelectedSuggestion p = some r ∧
      v.handleSuggestionsKeyDown p k = (r.1, some r.2)) ∨
    (v.AcceptsKey p k → v.acceptSelectedSuggestion p = none) ∧
      (v.handleSuggestionsKeyDown p k).1.snippet = v.snippet ∧
      ((v.handleSuggestionsKeyDown p k).2 = none ∨
        v.snippet = none ∧ (v.handleSuggestionsKeyDown p k).2 = some {}) := by
  unfold handleSuggestionsKeyDown AcceptsKey
  simp only
  split
  -- disabled, or while a snippet is active
  · next hoff =>
    refine .inr ⟨fun hkey => ?_, rfl, .inl rfl⟩
    simp [hkey.1, hkey.2.1] at hoff
  · next hon =>
    split
    · next hnot =>
      refine .inr ⟨fun hkey => ?_, rfl, .inl rfl⟩
      simp [hkey.2.2.1] at hnot
    · next heligible =>
      have hopen : v.snippet = none ∧ p.suggestionsEnabled = true ∧ p.eligible = true := by
        simp only [Bool.or_eq_true, Bool.not_eq_true', not_or, Option.not_isSome_iff_eq_none,
          Bool.not_eq_false] at hon heligible
        exact ⟨hon.2, hon.1, heligible⟩
      -- escape, up and down only change which suggestion is shown
      have hothers : ∀ c : Bool, (if c then ({ v with suggestions := {} } : TerminalView) else v).snippet =
          v.snippet := fun c => by rcases c <;> rfl
      split
      · next hkey =>
        exact .inr ⟨fun h => by simp [hkey] at h, leaves_ite rfl (hothers _) hopen.1⟩
      · next hkey =>
        exact .inr ⟨fun h => by simp [hkey] at h, leaves_ite rfl (hothers _) hopen.1⟩
      · next hkey =>
        exact .inr ⟨fun h => by simp [hkey] at h, leaves_ite rfl (hothers _) hopen.1⟩
      · next hkey =>
        split
        · next r out haccept => exact .inl ⟨(r, out), ⟨hopen.1, hopen.2.1, hopen.2.2, .inl hkey⟩, haccept, rfl⟩
        · next haccept => exact .inr ⟨fun _ => haccept, rfl, .inl rfl⟩
      · next hkey =>
        split
        · next r out haccept => exact .inl ⟨(r, out), ⟨hopen.1, hopen.2.1, hopen.2.2, .inr hkey⟩, haccept, rfl⟩
        · next haccept => exact .inr ⟨fun _ => haccept, rfl, .inl rfl⟩
      · next hkey => exact .inr ⟨fun h => by simp [hkey] at h, rfl, .inl rfl⟩
      · next hescape hup hdown henter hright hbackspace =>
        refine .inr ⟨fun h => ?_, hothers _, .inl rfl⟩
        rcases h.2.2.2 with hkey | hkey
        · exact absurd hkey henter
        · exact absurd hkey hright

end TerminalView

end Termua.View
