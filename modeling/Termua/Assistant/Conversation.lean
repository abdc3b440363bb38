import Mathlib
import Termua.Lib.Run
import Termua.Lib.Text

/-!
# The conversation with the assistant

`AssistantState` (termua/src/assistant.rs) and the panel that sends prompts and takes replies
(termua/src/panel/assistant_panel.rs). The requests block on threads of their own and end in any order,
also after they were cancelled; what the provider answers, whether the assistant is enabled and what is
selected in the terminal are free. The translated messages are their keys.
-/

namespace Termua.Assistant

open Transition (Run Guarded ofPartial run_ofPartial_iff run_ofPartial_unique)

/-- A text. -/
abbrev Text := List Char

/-! ## The state -/

/-- `AssistantRole`. -/
inductive AssistantRole
  | user | assistant | system
  deriving DecidableEq

/-- `AssistantMessage`. -/
structure AssistantMessage where
  role : AssistantRole
  content : Text
  deriving DecidableEq

/-- `AssistantState` without the terminal that commands go to. -/
structure AssistantState where
  messages : List AssistantMessage
  inFlight : Bool
  activeRequestId : Option ℕ
  nextRequestId : ℕ
  attachSelection : Bool
  deriving DecidableEq

namespace AssistantState

variable (s : AssistantState)

/-- `AssistantState::default`. -/
def default : AssistantState where
  messages := []
  inFlight := false
  activeRequestId := none
  nextRequestId := 1
  attachSelection := false

/-- `clear`. -/
def clear : AssistantState := { s with messages := [], inFlight := false, activeRequestId := none }

/-- `push`: blank messages are left out. -/
def push (role : AssistantRole) (content : Text) : AssistantState :=
  let trimmed := Text.trim content
  if trimmed = [] then s else { s with messages := s.messages ++ [{ role, content := trimmed }] }

/-- `begin_request`. -/
def beginRequest : ℕ × AssistantState :=
  (s.nextRequestId,
    { s with
      nextRequestId := min (s.nextRequestId + 1) (2 ^ 64 - 1)
      inFlight := true
      activeRequestId := some s.nextRequestId })

/-- `finish_request`. -/
def finishRequest (requestId : ℕ) : Bool × AssistantState :=
  if s.activeRequestId ≠ some requestId then (false, s)
  else (true, { s with inFlight := false, activeRequestId := none })

/-- `cancel_request`. -/
def cancelRequest : Bool × AssistantState :=
  if !s.inFlight then (false, s)
  else (true, { s with inFlight := false, activeRequestId := none })

end AssistantState

/-! ## Texts of requests and replies -/

/-- `ASSISTANT_SYSTEM_PROMPT`. -/
def assistantSystemPrompt : Text :=
  ("You are a terminal assistant embedded in a GUI app.\n\nRules:\n" ++
    "- Do NOT output tool-call annotations like `to=functions.exec_command`, `to=shell`, JSON tool " ++
    "payloads, or any \"agent framework\" metadata.\n" ++
    "- When suggesting terminal commands, put them in a single fenced code block (```sh ... ```).\n" ++
    "- Otherwise, reply in plain text. Keep it concise.").toList

/-- `compose_full_prompt`, with the text that is attached. -/
def composeFullPrompt (prompt selection : Text) : Text :=
  if selection = [] then prompt
  else "Selected text:\n".toList ++ selection ++ "\n\n".toList ++ "User:\n".toList ++ prompt

/-- `str::lines`. -/
def lines (text : Text) : List Text :=
  let pieces := text.splitOn '\n'
  let last := pieces.getLastD []
  pieces.dropLast.map (fun line => if line.getLast? = some '\r' then line.dropLast else line)
    ++ if last = [] then [] else [last]

/-- `looks_like_tool_json_payload`. -/
def looksLikeToolJsonPayload (line : Text) : Bool :=
  line.head? = some '\x7b' && line.getLast? = some '\x7d' &&
    ["\"cmd\"".toList, "\"command\"".toList, "\"justification\"".toList].any fun key =>
      key <:+: line

/-- `sanitize_assistant_reply`: without the lines of tool calls. -/
def sanitizeAssistantReply (text : Text) : Text :=
  let kept := (lines text).filter fun line =>
    let trimmed := Text.trim line
    trimmed = [] || !("to=functions.".toList <:+: trimmed || "to=shell".toList <:+: trimmed
      || looksLikeToolJsonPayload trimmed)
  Text.trim (['\n'].intercalate kept)

/-- The reply of `spawn_assistant_turn`. -/
def replyOf : Except Text Text → Text
  | .ok text => sanitizeAssistantReply text
  | .error err => "Error: ".toList ++ err

/-! ## The panel -/

/-- A request to the provider that blocks on a thread. `serial` is not in the code: the number of the
request. -/
structure Turn where
  requestId : ℕ
  fullPrompt : Text
  serial : ℕ
  deriving DecidableEq

/-- The panel with its input field and the requests that run. `begun` and `current` are not in the
code: how many requests there were, and which of them is neither answered, cancelled, cleared nor
superseded. -/
structure AssistantPanel where
  state : AssistantState
  promptInput : Text
  turns : List Turn
  begun : ℕ
  current : Option ℕ

/-- What the surroundings say when a prompt is sent: the selection of the focused terminal, and whether
the assistant is enabled. -/
structure Surroundings where
  selection : Option Text
  enabled : Bool

/-- The events of the panel. -/
inductive Event
  /-- The user edits the prompt. -/
  | edit (text : Text)
  /-- The user sends the prompt (the enter key, or the button). -/
  | send (around : Surroundings)
  /-- The user sends the prompt of a message again. -/
  | resend (prompt : Text) (around : Surroundings)
  /-- The user cancels. -/
  | cancel
  /-- The user clears the conversation. -/
  | clear
  /-- The user deletes a message. -/
  | delete (ix : ℕ)
  /-- The user attaches the selection to prompts, or does so no longer. -/
  | toggleSelection
  /-- A conversation is restored. -/
  | restore (messages : List AssistantMessage) (draft : Text)
  /-- A request ends. -/
  | completed (turn : Turn) (result : Except Text Text)

namespace AssistantPanel

variable (p : AssistantPanel)

/-- The panel at the start. -/
def new : AssistantPanel where
  state := .default
  promptInput := []
  turns := []
  begun := 0
  current := none

/-- `prompt_has_sendable_text`. -/
def promptHasSendableText (prompt : Text) : Bool := Text.trim prompt ≠ []

/-- `send_prompt_text`, with `finish_disabled_request` and the start of `spawn_assistant_turn`. -/
def sendPromptText (prompt : Text) (around : Surroundings) : AssistantPanel :=
  if p.state.inFlight then p
  else if !promptHasSendableText prompt then p
  else
    let prompt := Text.trim prompt
    let selection := if p.state.attachSelection then around.selection.getD [] else []
    let begin := (p.state.push .user prompt).beginRequest
    let fullPrompt := assistantSystemPrompt ++ "\n\n".toList ++ composeFullPrompt prompt selection
    if !around.enabled then
      { p with
        state := ((begin.2.push .assistant "Assistant.Message.Disabled".toList).finishRequest begin.1).2
        begun := p.begun + 1 }
    else
      { p with
        state := begin.2
        turns := p.turns ++ [{ requestId := begin.1, fullPrompt, serial := p.begun }]
        begun := p.begun + 1
        current := some p.begun }

/-- `send`. -/
def send (around : Surroundings) : AssistantPanel :=
  let prompt := p.promptInput
  if !promptHasSendableText prompt then p
  else { p with promptInput := [] }.sendPromptText (Text.trim prompt) around

/-- `cancel`. -/
def cancel : AssistantPanel :=
  let cancel := p.state.cancelRequest
  if cancel.1 then
    { p with
      state := cancel.2.push .system "Assistant.Message.Cancelled".toList
      current := none }
  else p

/-- The end of `spawn_assistant_turn`. -/
def completed (turn : Turn) (result : Except Text Text) : AssistantPanel :=
  let p := { p with current := if p.current = some turn.serial then none else p.current }
  let finish := p.state.finishRequest turn.requestId
  if !finish.1 then p
  else { p with state := finish.2.push .assistant (replyOf result) }

/-- A step of the panel, where the event is possible. -/
def step (p : AssistantPanel) : Event → Option AssistantPanel
  | .edit text => some { p with promptInput := text }
  | .send around => some (p.send around)
  | .resend prompt around => some (p.sendPromptText prompt around)
  | .cancel => some p.cancel
  | .clear => some { p with state := p.state.clear, current := none }
  | .delete ix => some { p with state := { p.state with messages := p.state.messages.eraseIdx ix } }
  | .toggleSelection =>
    some { p with state := { p.state with attachSelection := !p.state.attachSelection } }
  | .restore messages draft =>
    some { p with
      state := { p.state.clear with messages := messages }
      promptInput := draft
      current := none }
  | .completed turn result =>
    if turn ∈ p.turns then some ({ p with turns := p.turns.erase turn }.completed turn result)
    else none

/-! ## Prompts and replies -/

/-- A prompt becomes one message of the user, with one request; what else is added is no prompt. -/
def Taken (p p' : AssistantPanel) (prompt : Text) : Prop :=
  p'.begun = p.begun + 1 ∧ ∃ rest, p'.state.messages
    = p.state.messages ++ { role := .user, content := Text.trim prompt } :: rest ∧
      ∀ message ∈ rest, message.role ≠ .user

/-- The prompts of the conversation. -/
def prompts (p : AssistantPanel) : List AssistantMessage :=
  p.state.messages.filter fun message => message.role = .user

/-- A prompt that is sent is taken or stays in the input field, a reply becomes a message exactly when
its request is the current one, and nothing else makes prompts or requests. -/
def Conserves (p : AssistantPanel) : Event → AssistantPanel → Prop
  | .send _, p' => promptHasSendableText p.promptInput = true →
      p.Taken p' p.promptInput ∨
        (p'.promptInput = p.promptInput ∧ p'.state.messages = p.state.messages ∧ p'.begun = p.begun)
  | .resend prompt _, p' => promptHasSendableText prompt = true → p.Taken p' prompt
  | .completed turn result, p' => p'.begun = p.begun ∧ (Text.trim (replyOf result) ≠ [] →
      p'.state.messages =
        if p.current = some turn.serial then
          p.state.messages ++ [{ role := .assistant, content := Text.trim (replyOf result) }]
        else p.state.messages)
  | .restore messages _, p' => p'.begun = p.begun ∧ p'.state.messages = messages
  | _, p' => p'.begun = p.begun ∧ p'.prompts.Sublist p.prompts

/-- At most one of the requests that run is in flight, and there is one when the panel says so. -/
structure OneInFlight (p : AssistantPanel) : Prop where
  unique : ∀ t ∈ p.turns, ∀ u ∈ p.turns, p.state.activeRequestId = some t.requestId →
    p.state.activeRequestId = some u.requestId → t = u
  inFlight : p.state.inFlight = true ↔ ∃ t ∈ p.turns, p.state.activeRequestId = some t.requestId

/-- No request is in flight, and none that still runs has the number that is next. -/
def Free (p : AssistantPanel) (around : Surroundings) : Prop :=
  p.state.inFlight = false ∧
    (around.enabled = true → ∀ turn ∈ p.turns, turn.requestId ≠ p.state.nextRequestId)

/-- A prompt that is not blank is sent only when no request is in flight. -/
def Admits (p : AssistantPanel) : Event → Prop
  | .send around => promptHasSendableText p.promptInput = true → p.Free around
  | .resend prompt around => promptHasSendableText prompt = true → p.Free around
  | _ => True

instance (p : AssistantPanel) (around : Surroundings) : Decidable (p.Free around) :=
  inferInstanceAs (Decidable (_ ∧ _))

instance (p : AssistantPanel) : ∀ event, Decidable (p.Admits event)
  | .send around => inferInstanceAs (Decidable (_ → p.Free around))
  | .resend _ around => inferInstanceAs (Decidable (_ → p.Free around))
  | .edit _ | .cancel | .clear | .delete _ | .toggleSelection | .restore _ _ | .completed _ _ =>
    inferInstanceAs (Decidable True)

/-- The active request is the current one, and the requests that run differ in their numbers. -/
structure Sound (p : AssistantPanel) : Prop where
  flag : p.state.inFlight = p.state.activeRequestId.isSome
  active : ∀ id, p.state.activeRequestId = some id →
    ∃ turn ∈ p.turns, turn.requestId = id ∧ p.current = some turn.serial
  idle : p.state.activeRequestId = none → p.current = none
  ids : (p.turns.map (·.requestId)).Nodup
  serials : (p.turns.map (·.serial)).Nodup
  begun : ∀ turn ∈ p.turns, turn.serial < p.begun

variable {p p' : AssistantPanel}

theorem Sound.active_iff (h : p.Sound) {turn : Turn} (hturn : turn ∈ p.turns) :
    p.state.activeRequestId = some turn.requestId ↔ p.current = some turn.serial := by
  constructor
  · intro hactive
    obtain ⟨other, hother, hid, hcurrent⟩ := h.active _ hactive
    rwa [List.inj_on_of_nodup_map h.ids hturn hother hid.symm]
  · intro hcurrent
    rcases hactive : p.state.activeRequestId with _ | id
    · rw [h.idle hactive] at hcurrent
      cases hcurrent
    · obtain ⟨other, hother, rfl, hserial⟩ := h.active id hactive
      rw [hcurrent] at hserial
      rw [List.inj_on_of_nodup_map h.serials hturn hother (Option.some.inj hserial)]

theorem Sound.oneInFlight (h : p.Sound) : p.OneInFlight where
  unique t ht u hu hat hau :=
    List.inj_on_of_nodup_map h.ids ht hu (Option.some.inj (hat.symm.trans hau))
  inFlight := by
    rw [h.flag]
    constructor
    · intro hsome
      obtain ⟨id, hid⟩ := Option.isSome_iff_exists.mp hsome
      obtain ⟨turn, hturn, rfl, -⟩ := h.active id hid
      exact ⟨turn, hturn, hid⟩
    · rintro ⟨turn, -, hactive⟩
      rw [hactive]
      rfl

/-! ## What a step does -/

theorem push_text {s : AssistantState} {role : AssistantRole} {content : Text}
    (h : Text.trim content ≠ []) :
    s.push role content
      = { s with messages := s.messages ++ [{ role, content := Text.trim content }] } := if_neg h

theorem sendable_iff {prompt : Text} :
    promptHasSendableText prompt = true ↔ Text.trim prompt ≠ [] := by
  simp [promptHasSendableText]

/-- A prompt that is sent when no request is in flight. -/
theorem sendPromptText_of_free {prompt : Text} {around : Surroundings}
    (hprompt : promptHasSendableText prompt = true) (hfree : p.Free around) (h : p.Sound) :
    (p.sendPromptText prompt around).Sound ∧ p.Taken (p.sendPromptText prompt around) prompt := by
  have hne := sendable_iff.mp hprompt
  have hidle : p.state.activeRequestId = none := by
    rw [← Option.not_isSome_iff_eq_none, ← h.flag, hfree.1]
    exact Bool.false_ne_true
  have hpush := @push_text p.state .user (Text.trim prompt) (by rwa [Text.trim_trim])
  rw [Text.trim_trim] at hpush
  unfold sendPromptText
  rw [if_neg (by rw [hfree.1]; exact Bool.false_ne_true), if_neg (by simp [hprompt])]
  simp only [hpush]
  by_cases henabled : around.enabled = true
  -- a request is begun, under an id that is not in use
  · rw [if_neg (by simp [henabled])]
    refine ⟨⟨rfl, ?_, nofun, ?_, ?_, ?_⟩, rfl, [], rfl, nofun⟩
    · intro id hid
      exact ⟨_, List.mem_append_right _ (List.mem_singleton_self _), Option.some.inj hid, rfl⟩
    · rw [List.map_append]
      refine h.ids.append (List.nodup_singleton _) fun id hid hnew => ?_
      obtain ⟨turn, hturn, rfl⟩ := List.mem_map.mp hid
      exact hfree.2 henabled turn hturn (List.mem_singleton.mp hnew)
    · rw [List.map_append]
      refine h.serials.append (List.nodup_singleton _) fun serial hserial hnew => ?_
      obtain ⟨turn, hturn, rfl⟩ := List.mem_map.mp hserial
      exact (h.begun turn hturn).ne (List.mem_singleton.mp hnew)
    · intro turn hturn
      rcases List.mem_append.mp hturn with hturn | hturn
      · exact Nat.lt_succ_of_lt (h.begun turn hturn)
      · obtain rfl := List.mem_singleton.mp hturn
        exact Nat.lt_succ_self _
  -- the assistant is off: the request ends at once with a message that says so
  · rw [if_pos (by simp [henabled])]
    have hdisabled : Text.trim "Assistant.Message.Disabled".toList ≠ [] := by decide +kernel
    unfold AssistantState.beginRequest AssistantState.finishRequest
    simp only [push_text hdisabled]
    rw [if_neg (not_not.mpr rfl)]
    refine ⟨⟨rfl, nofun, fun _ => h.idle hidle, h.ids, h.serials,
      fun turn hturn => Nat.lt_succ_of_lt (h.begun turn hturn)⟩, rfl,
      [{ role := .assistant, content := Text.trim "Assistant.Message.Disabled".toList }],
      List.append_assoc _ _ _, by simp⟩

theorem send_of_free {around : Surroundings} (hfree : promptHasSendableText p.promptInput = true →
    p.Free around) (h : p.Sound) :
    (p.send around).Sound ∧ p.Conserves (.send around) (p.send around) := by
  unfold send
  by_cases hprompt : promptHasSendableText p.promptInput = true
  · rw [if_neg (by simp [hprompt])]
    have hcleared : { p with promptInput := [] : AssistantPanel }.Sound :=
      ⟨h.flag, h.active, h.idle, h.ids, h.serials, h.begun⟩
    have htrimmed : promptHasSendableText (Text.trim p.promptInput) = true := by
      rw [sendable_iff, Text.trim_trim]
      exact sendable_iff.mp hprompt
    have hfree' : { p with promptInput := [] : AssistantPanel }.Free around := hfree hprompt
    obtain ⟨hsound, hbegun, rest, hmessages, hrest⟩ :=
      sendPromptText_of_free htrimmed hfree' hcleared
    rw [Text.trim_trim] at hmessages
    exact ⟨hsound, fun _ => .inl ⟨hbegun, rest, hmessages, hrest⟩⟩
  · rw [if_pos (by simp [hprompt])]
    exact ⟨h, fun hsendable => absurd hsendable hprompt⟩

theorem resend_of_free {prompt : Text} {around : Surroundings}
    (hfree : promptHasSendableText prompt = true → p.Free around) (h : p.Sound) :
    (p.sendPromptText prompt around).Sound ∧
      p.Conserves (.resend prompt around) (p.sendPromptText prompt around) := by
  by_cases hprompt : promptHasSendableText prompt = true
  · obtain ⟨hsound, htaken⟩ := sendPromptText_of_free hprompt (hfree hprompt) h
    exact ⟨hsound, fun _ => htaken⟩
  · have hsame : p.sendPromptText prompt around = p := by
      unfold sendPromptText
      split
      · rfl
      · exact if_pos (by simp [hprompt])
    rw [hsame]
    exact ⟨h, fun hsendable => absurd hsendable hprompt⟩

theorem prompts_append {s : List AssistantMessage} {message : AssistantMessage}
    (h : message.role ≠ .user) :
    (s ++ [message]).filter (fun message => message.role = .user)
      = s.filter fun message => message.role = .user := by
  rw [List.filter_append, List.filter_cons_of_neg (by simpa using h), List.filter_nil,
    List.append_nil]

theorem cancel_sound (h : p.Sound) : p.cancel.Sound ∧ p.Conserves .cancel p.cancel := by
  have hcancelled : Text.trim "Assistant.Message.Cancelled".toList ≠ [] := by decide +kernel
  unfold cancel AssistantState.cancelRequest
  by_cases hflag : p.state.inFlight = true
  · simp only [hflag, Bool.not_true, if_true, Bool.false_eq_true, if_false, push_text hcancelled]
    refine ⟨⟨rfl, nofun, fun _ => rfl, h.ids, h.serials, h.begun⟩, rfl, ?_⟩
    show List.Sublist (List.filter _ (p.state.messages ++ [_])) _
    rw [prompts_append]
    · exact List.Sublist.refl _
    · exact nofun
  · rw [Bool.not_eq_true] at hflag
    simp only [hflag, Bool.not_false, if_true, Bool.false_eq_true, if_false]
    exact ⟨h, rfl, List.Sublist.refl _⟩

theorem finishRequest_of_active {s : AssistantState} {requestId : ℕ}
    (h : s.activeRequestId = some requestId) :
    s.finishRequest requestId = (true, { s with inFlight := false, activeRequestId := none }) :=
  if_neg (not_not.mpr h)

theorem finishRequest_of_not_active {s : AssistantState} {requestId : ℕ}
    (h : s.activeRequestId ≠ some requestId) : s.finishRequest requestId = (false, s) := if_pos h

theorem turns_completed (turn : Turn) (result : Except Text Text) :
    (p.completed turn result).turns = p.turns := by
  unfold completed
  simp only
  split <;> rfl

theorem completed_sound {turn : Turn} {result : Except Text Text} (h : p.Sound)
    (hturn : turn ∈ p.turns) :
    ({ p with turns := p.turns.erase turn }.completed turn result).Sound ∧
      p.Conserves (.completed turn result)
        ({ p with turns := p.turns.erase turn }.completed turn result) := by
  have hids : ((p.turns.erase turn).map (·.requestId)).Nodup :=
    h.ids.sublist (List.erase_sublist.map _)
  have hserials : ((p.turns.erase turn).map (·.serial)).Nodup :=
    h.serials.sublist (List.erase_sublist.map _)
  have hbegun : ∀ other ∈ p.turns.erase turn, other.serial < p.begun := fun other hother =>
    h.begun other (List.mem_of_mem_erase hother)
  unfold completed
  -- the reply to the active request is shown, and one to another request is dropped
  by_cases hactive : p.state.activeRequestId = some turn.requestId
  · have hcurrent := (h.active_iff hturn).mp hactive
    simp only [finishRequest_of_active hactive, Bool.not_true, Bool.false_eq_true, if_false,
      hcurrent, if_true]
    have hreply (s : AssistantState) : (s.push .assistant (replyOf result)).inFlight = s.inFlight ∧
        (s.push .assistant (replyOf result)).activeRequestId = s.activeRequestId := by
      unfold AssistantState.push
      simp only
      split <;> exact ⟨rfl, rfl⟩
    refine ⟨⟨?_, ?_, fun _ => rfl, hids, hserials, hbegun⟩, rfl, fun hne => ?_⟩
    · rw [(hreply _).1, (hreply _).2]
      rfl
    · rw [(hreply _).2]
      exact nofun
    · rw [push_text hne, if_pos hcurrent]
  · have hcurrent := (h.active_iff hturn).not.mp hactive
    simp only [finishRequest_of_not_active hactive, Bool.not_false, if_true, hcurrent, if_false]
    refine ⟨⟨h.flag, fun id hid => ?_, h.idle, hids, hserials, hbegun⟩, rfl,
      fun _ => (if_neg hcurrent).symm⟩
    obtain ⟨other, hother, rfl, hother'⟩ := h.active id hid
    have hne : other ≠ turn := fun heq => hactive (heq ▸ hid)
    exact ⟨other, (List.mem_erase_of_ne hne).mpr hother, rfl, hother'⟩

/-- A step keeps the requests apart and conserves the conversation, when prompts are sent only while no
request is in flight. -/
theorem step_sound {event : Event} (h : p.Sound) (hadmits : p.Admits event)
    (hstep : step p event = some p') : p'.Sound ∧ p.Conserves event p' := by
  cases event with
  | edit text =>
    cases hstep
    exact ⟨⟨h.flag, h.active, h.idle, h.ids, h.serials, h.begun⟩, rfl, List.Sublist.refl _⟩
  | send around =>
    cases hstep
    exact send_of_free hadmits h
  | resend prompt around =>
    cases hstep
    exact resend_of_free hadmits h
  | cancel =>
    cases hstep
    exact cancel_sound h
  | clear =>
    cases hstep
    exact ⟨⟨rfl, nofun, fun _ => rfl, h.ids, h.serials, h.begun⟩, rfl, List.nil_sublist _⟩
  | delete ix =>
    cases hstep
    exact ⟨⟨h.flag, h.active, h.idle, h.ids, h.serials, h.begun⟩, rfl,
      (List.eraseIdx_sublist _ _).filter _⟩
  | toggleSelection =>
    cases hstep
    exact ⟨⟨h.flag, h.active, h.idle, h.ids, h.serials, h.begun⟩, rfl, List.Sublist.refl _⟩
  | restore messages draft =>
    cases hstep
    exact ⟨⟨rfl, nofun, fun _ => rfl, h.ids, h.serials, h.begun⟩, rfl, rfl⟩
  | completed turn result =>
    simp only [step] at hstep
    split at hstep
    · next hturn =>
      cases hstep
      exact completed_sound h hturn
    · cases hstep

theorem sound_new : new.Sound :=
  ⟨rfl, nofun, fun _ => rfl, List.nodup_nil, List.nodup_nil, nofun⟩

/-- In every run in which prompts are sent only while no request is in flight, at most one request is
in flight and every step conserves the conversation. -/
theorem conversation_conserved {es : List Event} {event : Event}
    (h : Run (Guarded (ofPartial step) Admits) new (es ++ [event]) p') :
    p'.OneInFlight ∧ ∃ p, Run (Guarded (ofPartial step) Admits) new es p ∧ step p event = some p' ∧
      p.Conserves event p' := by
  obtain ⟨p, hrun, hadmits, hstep⟩ := h.last
  have hsound : p.Sound := hrun.invariant sound_new
    fun _ _ _ _ _ ih ⟨hadmits, hstep⟩ => (step_sound ih hadmits hstep).1
  obtain ⟨hsound', hconserves⟩ := step_sound hsound hadmits hstep
  exact ⟨hsound'.oneInFlight, p, hrun, hstep, hconserves⟩

/-- Surroundings without a selection. -/
def enabled : Surroundings where
  selection := none
  enabled := true

/-- A prompt, its reply and another prompt. -/
def asked : List Event :=
  [.edit "ls".toList, .send enabled,
    .completed ⟨1, assistantSystemPrompt ++ "\n\n".toList ++ "ls".toList, 0⟩ (.ok "done".toList),
    .edit "pwd".toList]

/-- The prompt of `asked` begins the request that its reply answers. -/
theorem turns_asked :
    (({ new with promptInput := "ls".toList } : AssistantPanel).send enabled).turns =
      [⟨1, assistantSystemPrompt ++ "\n\n".toList ++ "ls".toList, 0⟩] := by
  have htrim : Text.trim "ls".toList = "ls".toList := by decide +kernel
  have hsendable : promptHasSendableText "ls".toList = true := by decide +kernel
  unfold send
  simp only [hsendable, htrim]
  unfold sendPromptText
  simp only [hsendable, htrim]
  rfl

theorem conversation_conserved_asked : ∃ p', Run (Guarded (ofPartial step) Admits) new
      (asked ++ [.send enabled]) p' ∧
    p'.OneInFlight ∧ ∃ p, Run (Guarded (ofPartial step) Admits) new asked p ∧
      step p (.send enabled) = some p' ∧ p.Conserves (.send enabled) p' := by
  have hedited : Run (Guarded (ofPartial step) Admits) new [.edit "ls".toList] _ :=
    .next .start ⟨trivial, rfl⟩
  obtain ⟨p, turn, hsent, hturns, hevents⟩ : ∃ p turn,
      Run (Guarded (ofPartial step) Admits) new [.edit "ls".toList, .send enabled] p ∧
        p.turns = [turn] ∧ asked =
          [.edit "ls".toList, .send enabled, .completed turn (.ok "done".toList),
            .edit "pwd".toList] :=
    ⟨_, _, .next hedited ⟨fun _ => ⟨rfl, fun _ => nofun⟩, rfl⟩, turns_asked, rfl⟩
  have hreplied : Run (Guarded (ofPartial step) Admits) new
      [.edit "ls".toList, .send enabled, .completed turn (.ok "done".toList)] _ :=
    .next hsent ⟨trivial, if_pos (by rw [hturns]; exact List.mem_singleton_self _)⟩
  -- the reply leaves no request, so that the next prompt may be sent
  have hnone : ({ p with turns := p.turns.erase turn }.completed turn (.ok "done".toList)).turns =
      [] := by
    rw [turns_completed, hturns, List.erase_cons_head]
  have hidle := (@conversation_conserved _ [.edit "ls".toList, .send enabled] _ hreplied).1.inFlight
  generalize AssistantPanel.completed _ _ _ = p at hreplied hnone hidle
  have hasked : Run (Guarded (ofPartial step) Admits) new asked
      { p with promptInput := "pwd".toList } := by
    rw [hevents]
    exact .next hreplied ⟨trivial, rfl⟩
  have hrun : Run (Guarded (ofPartial step) Admits) new (asked ++ [.send enabled])
      ({ p with promptInput := "pwd".toList }.send enabled) := by
    refine .next hasked ⟨fun _ => ⟨?_, ?_⟩, rfl⟩
    · rw [← Bool.not_eq_true]
      intro hflight
      obtain ⟨other, hother, -⟩ := hidle.mp hflight
      rw [hnone] at hother
      cases hother
    · intro _ other hother
      rw [hnone] at hother
      cases hother
  exact ⟨_, hrun, conversation_conserved hrun⟩

/-- The prompt that is sent while the reply is awaited is lost. -/
theorem not_conserved_inFlight : ¬ ∀ (es : List Event) (event : Event) (p' : AssistantPanel),
    Run (ofPartial step) new (es ++ [event]) p' →
      p'.OneInFlight ∧ ∃ p, Run (ofPartial step) new es p ∧ step p event = some p' ∧
        p.Conserves event p' := by
  intro h
  have hwaiting : Run (ofPartial step) new
      [.edit "ls".toList, .send enabled, .edit "pwd".toList] _ := run_ofPartial_iff.mpr rfl
  have hsent : Run (ofPartial step) new
      ([.edit "ls".toList, .send enabled, .edit "pwd".toList] ++ [.send enabled]) _ :=
    run_ofPartial_iff.mpr rfl
  obtain ⟨-, p, hrun, -, hconserves⟩ := h _ _ _ hsent
  obtain rfl := run_ofPartial_unique hrun hwaiting
  rcases hconserves (by decide +kernel) with htaken | ⟨hstays, -, -⟩
  · exact absurd htaken.1 (by decide +kernel)
  · exact absurd hstays (by decide +kernel)

end AssistantPanel

end Termua.Assistant
