import Mathlib
import Termua.Lib.Overlay
import Termua.Lib.Run
import Termua.Lib.Text
import Termua.Settings.Sections

/-!
# Key bindings of the terminal

`apply_terminal_keybindings` (termua/src/settings.rs) over the bindings that gpui_term makes at the
start (crates/gpui_term/src/lib.rs). The keymap only grows; what disables the old keys of an action is
put in with the action's own keys, one action after the other. A key that the settings give to an
action stays disabled when an action further down the order had it before (`Undisturbed`).
-/

namespace Termua.Settings

open Serde (Text)
open Transition (Run Guarded ofFun)

/-! ## Actions and their default keys -/

/-- The actions of the terminal with key bindings. -/
inductive TerminalAction
  | copy | paste | selectAll | clear | search | searchNext | searchPrevious | increaseFontSize
  | decreaseFontSize | resetFontSize
  deriving DecidableEq

/-- The operating systems that the default keys differ on. -/
inductive Platform
  | macos | other
  deriving DecidableEq

namespace TerminalAction

/-- The actions in the order in which their bindings are applied. -/
def all : List TerminalAction :=
  [copy, paste, selectAll, clear, search, searchNext, searchPrevious, increaseFontSize,
    decreaseFontSize, resetFontSize]

/-- The place of the action in this order. -/
def order (action : TerminalAction) : ℕ := all.idxOf action

/-- The default keystrokes: `DEFAULT_COPY` to `DEFAULT_FONT_RESET`. -/
def defaultKeystrokes : Platform → TerminalAction → List Text
  | .macos, copy => ["cmd-c".toList]
  | .macos, paste => ["cmd-v".toList]
  | .macos, selectAll => ["cmd-a".toList]
  | .macos, clear => ["cmd-k".toList]
  | .macos, search => ["cmd-f".toList]
  | .macos, searchNext => ["cmd-g".toList]
  | .macos, searchPrevious => ["cmd-shift-g".toList]
  | .macos, increaseFontSize => ["cmd-+".toList, "cmd-=".toList]
  | .macos, decreaseFontSize => ["cmd--".toList]
  | .macos, resetFontSize => ["cmd-0".toList]
  | .other, copy => ["ctrl-shift-c".toList]
  | .other, paste => ["ctrl-shift-v".toList]
  | .other, selectAll => ["ctrl-shift-a".toList]
  | .other, clear => ["ctrl-shift-k".toList]
  | .other, search => ["ctrl-shift-f".toList]
  | .other, searchNext => ["ctrl-g".toList]
  | .other, searchPrevious => ["ctrl-shift-g".toList]
  | .other, increaseFontSize => ["ctrl-+".toList, "ctrl-=".toList]
  | .other, decreaseFontSize => ["ctrl--".toList]
  | .other, resetFontSize => ["ctrl-0".toList]

end TerminalAction

/-- The override of an action. -/
def TerminalKeyBindings.override (kb : TerminalKeyBindings) : TerminalAction → Option Text
  | .copy => kb.copy
  | .paste => kb.paste
  | .selectAll => kb.selectAll
  | .clear => kb.clear
  | .search => kb.search
  | .searchNext => kb.searchNext
  | .searchPrevious => kb.searchPrevious
  | .increaseFontSize => kb.increaseFontSize
  | .decreaseFontSize => kb.decreaseFontSize
  | .resetFontSize => kb.resetFontSize

/-- The bindings that `init` of gpui_term makes for the context of the terminal. -/
def initialKeys : Platform → List (Text × TerminalAction)
  | .macos =>
    [("cmd-a".toList, .selectAll), ("cmd-v".toList, .paste), ("cmd-c".toList, .copy),
      ("cmd-k".toList, .clear), ("cmd-f".toList, .search), ("cmd-g".toList, .searchNext),
      ("cmd-shift-g".toList, .searchPrevious), ("cmd-+".toList, .increaseFontSize),
      ("cmd-=".toList, .increaseFontSize), ("cmd--".toList, .decreaseFontSize),
      ("cmd-0".toList, .resetFontSize)]
  | .other =>
    [("ctrl-shift-a".toList, .selectAll), ("ctrl-shift-v".toList, .paste),
      ("ctrl-shift-c".toList, .copy), ("ctrl-shift-k".toList, .clear),
      ("ctrl-shift-f".toList, .search), ("ctrl-g".toList, .searchNext),
      ("ctrl-shift-g".toList, .searchPrevious), ("ctrl-+".toList, .increaseFontSize),
      ("ctrl-=".toList, .increaseFontSize), ("ctrl--".toList, .decreaseFontSize),
      ("ctrl-0".toList, .resetFontSize)]

theorem mem_initialKeys {platform : Platform} {text : Text} {action : TerminalAction} :
    (text, action) ∈ initialKeys platform ↔ text ∈ action.defaultKeystrokes platform := by
  cases platform <;> cases action <;> simp [initialKeys, TerminalAction.defaultKeystrokes]

/-! ## Model -/

/-- The overrides that were applied (`AppliedTerminalKeybindings`), and the bindings of the context of
the terminal in the order in which they were added; `none` is `NoAction`. -/
structure Keymap (κ : Type) where
  applied : TerminalAction → Option Text
  bindings : List (κ × Option TerminalAction)

section Model

variable {κ : Type} (parse : Text → Option κ) (platform : Platform)

/-- `load_user_keybinding`, for the keystrokes of the binding. -/
def loadUserKeybinding (keystrokes : Text) : Option κ :=
  let keystrokes := Text.trim keystrokes
  if keystrokes = [] then none else parse keystrokes

/-- `bind_keys` with one `KeyBinding::new` for each text. Only texts that parse come here: the
default keystrokes, and overrides that were applied. -/
def bindKeys (texts : List Text) (action : Option TerminalAction)
    (bindings : List (κ × Option TerminalAction)) : List (κ × Option TerminalAction) :=
  bindings ++ (texts.filterMap parse).map (·, action)

/-- The override without blanks around it, if there is one. -/
def nextOverride (keystrokes : Option Text) : Option Text :=
  (keystrokes.map Text.trim).filter (· ≠ [])

/-- `apply_terminal_binding`. -/
def applyTerminalBinding (kb : TerminalKeyBindings) (s : Keymap κ) (action : TerminalAction) :
    Keymap κ :=
  let next := nextOverride (kb.override action)
  if s.applied action = next then s
  else if next.any fun candidate => (loadUserKeybinding parse candidate).isNone then s
  else
    let defaults := action.defaultKeystrokes platform
    let disabled := bindKeys parse (s.applied action).toList none s.bindings
    { applied := Function.update s.applied action next
      bindings :=
        match next with
        | some keystrokes =>
          bindKeys parse defaults none disabled
            ++ ((loadUserKeybinding parse keystrokes).map (·, some action)).toList
        | none => bindKeys parse defaults (some action) disabled }

/-- `apply_terminal_keybindings`. -/
def applyTerminalKeybindings (s : Keymap κ) (kb : TerminalKeyBindings) : Keymap κ :=
  TerminalAction.all.foldl (applyTerminalBinding parse platform kb) s

/-- The keymap before the first settings. -/
def initialKeymap : Keymap κ where
  applied _ := none
  bindings := (initialKeys platform).filterMap fun (text, action) =>
    (parse text).map (·, some action)

/-- The keys that an override gives to an action, or its default keys. -/
def keysOf (action : TerminalAction) : Option Text → List κ
  | some keystrokes => (parse keystrokes).toList
  | none => (action.defaultKeystrokes platform).filterMap parse

/-- The settings give the key to the action. -/
def Assigned (kb : TerminalKeyBindings) (action : TerminalAction) (key : κ) : Prop :=
  key ∈ keysOf parse platform action (nextOverride (kb.override action))

/-- The overrides of the settings parse. -/
def AllParse (kb : TerminalKeyBindings) : Prop :=
  ∀ action, ∀ keystrokes ∈ nextOverride (kb.override action), (parse keystrokes).isSome

/-- The settings assign no key to two actions. -/
def NoConflict (kb : TerminalKeyBindings) : Prop :=
  ∀ a b key, Assigned parse platform kb a key → Assigned parse platform kb b key → a = b

end Model

/-! ## What one call does -/

section Effect

variable {κ : Type} [DecidableEq κ] (parse : Text → Option κ) (platform : Platform)
  (kb : TerminalKeyBindings) (s : Keymap κ)

/-- The call changes the bindings of the action. -/
def Updates (action : TerminalAction) : Prop :=
  s.applied action ≠ nextOverride (kb.override action) ∧
    ∀ keystrokes ∈ nextOverride (kb.override action), (parse keystrokes).isSome

instance (action : TerminalAction) : Decidable (Updates parse kb s action) :=
  inferInstanceAs (Decidable (_ ∧ _))

/-- The override that is applied to the action after the call. -/
def appliedAfter (action : TerminalAction) : Option Text :=
  if Updates parse kb s action then nextOverride (kb.override action) else s.applied action

/-- The keys that are disabled before the action gets its own. -/
def disabledKeys (action : TerminalAction) : List κ :=
  ((s.applied action).toList ++
    if (nextOverride (kb.override action)).isSome then action.defaultKeystrokes platform
    else []).filterMap parse

/-- The call disables the key for the action. -/
def Disables (action : TerminalAction) (key : κ) : Prop :=
  Updates parse kb s action ∧ key ∈ disabledKeys parse platform kb s action

/-- The call binds the key to the action. -/
def Binds (action : TerminalAction) (key : κ) : Prop :=
  Updates parse kb s action ∧ Assigned parse platform kb action key

variable {parse platform kb s}

omit [DecidableEq κ] in
theorem loadUserKeybinding_next {o : Option Text} {keystrokes : Text}
    (h : nextOverride o = some keystrokes) :
    loadUserKeybinding parse keystrokes = parse keystrokes := by
  obtain ⟨hmap, hne⟩ := Option.filter_eq_some_iff.mp h
  obtain ⟨text, -, rfl⟩ := Option.map_eq_some_iff.mp hmap
  unfold loadUserKeybinding
  simp only [Text.trim_trim]
  exact if_neg (of_decide_eq_true hne)

omit [DecidableEq κ] in
theorem any_isNone_iff {o : Option Text} :
    ((nextOverride o).any fun candidate => (loadUserKeybinding parse candidate).isNone) = true ↔
      ¬ ∀ keystrokes ∈ nextOverride o, (parse keystrokes).isSome := by
  rcases h : nextOverride o with _ | keystrokes
  · simp
  · simp [loadUserKeybinding_next h]

/-- `apply_terminal_binding` for an action whose bindings change. -/
theorem apply_of_updates {action : TerminalAction} (h : Updates parse kb s action) :
    (applyTerminalBinding parse platform kb s action).applied
        = Function.update s.applied action (nextOverride (kb.override action)) ∧
      ∀ key, Overlay.current (applyTerminalBinding parse platform kb s action).bindings key
        = if key ∈ keysOf parse platform action (nextOverride (kb.override action)) then some action
          else if key ∈ disabledKeys parse platform kb s action then none
          else Overlay.current s.bindings key := by
  unfold applyTerminalBinding
  simp only
  rw [if_neg h.1, if_neg (any_isNone_iff.not.mpr (not_not.mpr h.2))]
  refine ⟨rfl, fun key => ?_⟩
  unfold disabledKeys keysOf
  rcases hnext : nextOverride (kb.override action) with _ | keystrokes
  · simp only [bindKeys, Overlay.current_append, Option.isSome_none, if_false, List.append_nil,
      Bool.false_eq_true]
  · have hload : loadUserKeybinding parse keystrokes = _ := loadUserKeybinding_next hnext
    obtain ⟨own, hown⟩ := Option.isSome_iff_exists.mp (h.2 _ hnext)
    simp only [hload, hown, Option.map_some, Option.toList_some, Option.isSome_some, if_true,
      bindKeys, Overlay.current_concat, Overlay.current_append, List.filterMap_append,
      List.mem_append, List.mem_singleton, eq_comm (a := key)]
    by_cases hold : key ∈ (s.applied action).toList.filterMap parse <;>
      by_cases hdefault : key ∈ (action.defaultKeystrokes platform).filterMap parse <;>
        simp only [hold, hdefault, or_true, true_or, or_self, if_true, if_false]

omit [DecidableEq κ] in
theorem apply_of_not_updates {action : TerminalAction} (h : ¬ Updates parse kb s action) :
    applyTerminalBinding parse platform kb s action = s := by
  unfold applyTerminalBinding
  simp only
  by_cases heq : s.applied action = nextOverride (kb.override action)
  · exact if_pos heq
  · rw [if_neg heq]
    exact if_pos (any_isNone_iff.mpr fun hall => h ⟨heq, hall⟩)

variable (parse platform kb s) in
/-- The value of a key when the bindings of some of the actions were applied: the last of them that
binds or disables the key decides. -/
inductive Decided (done : List TerminalAction) (key : κ) : Option TerminalAction → Prop
  | bound (b : TerminalAction) (mem : b ∈ done) (binds : Binds parse platform kb s b key) :
      Decided done key (some b)
  | disabled (c : TerminalAction) (mem : c ∈ done) (disables : Disables parse platform kb s c key)
      (last : ∀ b ∈ done, Binds parse platform kb s b key → b.order < c.order) :
      Decided done key none
  | untouched (h : ∀ c ∈ done, ¬ Binds parse platform kb s c key ∧
      ¬ Disables parse platform kb s c key) : Decided done key (Overlay.current s.bindings key)

variable {done : List TerminalAction} {d : TerminalAction} {key : κ} {v : Option TerminalAction}

theorem Decided.skip (h : Decided parse platform kb s done key v)
    (hbinds : ¬ Binds parse platform kb s d key) (hdisables : ¬ Disables parse platform kb s d key) :
    Decided parse platform kb s (done ++ [d]) key v := by
  cases h with
  | bound b mem binds => exact .bound b (List.mem_append_left _ mem) binds
  | disabled c mem disables last =>
    refine .disabled c (List.mem_append_left _ mem) disables fun b hb hbinds' => ?_
    rcases List.mem_append.mp hb with hb | hb
    · exact last b hb hbinds'
    · exact absurd (List.mem_singleton.mp hb ▸ hbinds') hbinds
  | untouched h =>
    refine .untouched fun c hc => ?_
    rcases List.mem_append.mp hc with hc | hc
    · exact h c hc
    · exact List.mem_singleton.mp hc ▸ ⟨hbinds, hdisables⟩

variable (parse platform kb s) in
/-- What the call did when the bindings of some of the actions were applied. -/
structure Done (done : List TerminalAction) (t : Keymap κ) : Prop where
  applied : ∀ action, t.applied action
    = if action ∈ done then appliedAfter parse kb s action else s.applied action
  current : ∀ key, Decided parse platform kb s done key (Overlay.current t.bindings key)

theorem Done.apply {t : Keymap κ} (h : Done parse platform kb s done t)
    (hd : ∀ b ∈ done, b.order < d.order) :
    Done parse platform kb s (done ++ [d]) (applyTerminalBinding parse platform kb t d) := by
  -- the action was not looked at yet, so its keys are those of before the call
  have hsame : t.applied d = s.applied d := by
    rw [h.applied, if_neg fun hmem => lt_irrefl _ (hd d hmem)]
  have hupdates : Updates parse kb t d ↔ Updates parse kb s d := by
    unfold Updates
    rw [hsame]
  have hdisabled : disabledKeys parse platform kb t d = disabledKeys parse platform kb s d := by
    unfold disabledKeys
    rw [hsame]
  by_cases hup : Updates parse kb t d
  · obtain ⟨happlied, hcurrent⟩ := @apply_of_updates _ _ parse platform _ _ _ hup
    have hup' := hupdates.mp hup
    constructor
    · intro action
      rw [happlied]
      by_cases haction : action = d
      · subst haction
        rw [Function.update_self, if_pos (by simp)]
        exact (if_pos hup').symm
      · rw [Function.update_of_ne haction, h.applied]
        simp [haction]
    -- a key is bound, unbound or left alone, and what was done to it last counts
    · intro key
      rw [hcurrent, hdisabled]
      split_ifs with hbind hdis
      · exact .bound d (by simp) ⟨hup', hbind⟩
      · refine .disabled d (by simp) ⟨hup', hdis⟩ fun b hb hbinds => ?_
        rcases List.mem_append.mp hb with hb | hb
        · exact hd b hb
        · exact absurd (List.mem_singleton.mp hb ▸ hbinds).2 hbind
      · exact (h.current key).skip (fun hb => hbind hb.2) fun hc => hdis hc.2
  -- it is up to date and changes nothing
  · rw [apply_of_not_updates hup]
    have hup' := hupdates.not.mp hup
    constructor
    · intro action
      rw [h.applied]
      by_cases haction : action = d
      · subst haction
        rw [← h.applied, hsame, if_pos (by simp)]
        exact (if_neg hup').symm
      · simp [haction]
    · exact fun key => (h.current key).skip (fun hb => hup' hb.1) fun hc => hup' hc.1

/-- What a whole call does. -/
theorem done_all : Done parse platform kb s TerminalAction.all
    (applyTerminalKeybindings parse platform s kb) := by
  have hfold (actions : List TerminalAction)
      (hsorted : actions.Pairwise fun b d => b.order < d.order) :
      Done parse platform kb s actions
        (actions.foldl (applyTerminalBinding parse platform kb) s) := by
    induction actions using List.reverseRecOn with
    | nil => exact ⟨fun _ => rfl, fun _ => .untouched nofun⟩
    | append_singleton actions d ih =>
      obtain ⟨hinit, -, hlast⟩ := List.pairwise_append.mp hsorted
      rw [List.foldl_append]
      exact (ih hinit).apply fun b hb => hlast b hb d (List.mem_singleton_self d)
  exact hfold _ (by decide)

end Effect

/-! ## Runs -/

section Runs

variable {κ : Type} [DecidableEq κ] (parse : Text → Option κ) (platform : Platform)

/-- No key that an action has after the call stays disabled: where the call disables a key for an
action, the key is bound again, for this action or for one further down the order. -/
def Undisturbed (s : Keymap κ) (kb : TerminalKeyBindings) : Prop :=
  ∀ c key, Disables parse platform kb s c key →
    (∃ a, key ∈ keysOf parse platform a (appliedAfter parse kb s a)) →
      ∃ b, c.order ≤ b.order ∧ Binds parse platform kb s b key

/-- The bindings follow the overrides that were applied: a key is bound to an action that has it, and
every key that an action has is bound. -/
structure Follows (s : Keymap κ) : Prop where
  sound : ∀ key a, Overlay.current s.bindings key = some a →
    key ∈ keysOf parse platform a (s.applied a)
  bound : ∀ key a, key ∈ keysOf parse platform a (s.applied a) →
    ∃ b, Overlay.current s.bindings key = some b

variable {parse platform} {s : Keymap κ} {kb : TerminalKeyBindings}

theorem mem_all (action : TerminalAction) : action ∈ TerminalAction.all := by
  cases action <;> decide

theorem applied_call (action : TerminalAction) :
    (applyTerminalKeybindings parse platform s kb).applied action
      = appliedAfter parse kb s action := by
  have hdone : Done parse platform kb s TerminalAction.all _ := done_all
  rw [hdone.applied, if_pos (mem_all action)]

omit [DecidableEq κ] in
theorem keysOf_after {action : TerminalAction} {key : κ} (hup : Updates parse kb s action) :
    key ∈ keysOf parse platform action (appliedAfter parse kb s action) ↔
      Assigned parse platform kb action key := by
  unfold appliedAfter Assigned
  rw [if_pos hup]

omit [DecidableEq κ] in
/-- An action whose bindings change has its old keys disabled. -/
theorem disables_old {action : TerminalAction} {key : κ} (hup : Updates parse kb s action)
    (hkey : key ∈ keysOf parse platform action (s.applied action)) :
    Disables parse platform kb s action key := by
  refine ⟨hup, ?_⟩
  unfold disabledKeys
  rw [List.filterMap_append]
  rcases hold : s.applied action with _ | old
  · rw [hold] at hkey
    have hsome : (nextOverride (kb.override action)).isSome := by
      rw [Option.isSome_iff_ne_none]
      exact fun hnone => hup.1 (hold.trans hnone.symm)
    rw [if_pos hsome]
    exact List.mem_append_right _ hkey
  · rw [hold] at hkey
    refine List.mem_append_left _ (List.mem_filterMap.mpr ⟨old, by simp, ?_⟩)
    simpa [keysOf] using hkey

theorem follows_initial : Follows parse platform (initialKeymap parse platform) where
  sound key a h := by
    obtain ⟨⟨text, action⟩, hmem, heq⟩ := List.mem_filterMap.mp (Overlay.mem_of_current h)
    obtain ⟨k, hk, heq⟩ := Option.map_eq_some_iff.mp heq
    cases heq
    exact List.mem_filterMap.mpr ⟨text, mem_initialKeys.mp hmem, hk⟩
  bound key a h := by
    obtain ⟨text, hmem, hparse⟩ := List.mem_filterMap.mp h
    refine Overlay.exists_current ?_ ⟨(key, some a), ?_, rfl⟩
    · intro entry he
      obtain ⟨_, -, heq⟩ := List.mem_filterMap.mp he
      obtain ⟨_, -, rfl⟩ := Option.map_eq_some_iff.mp heq
      rfl
    · exact List.mem_filterMap.mpr ⟨(text, a), mem_initialKeys.mpr hmem, by simp [hparse]⟩

theorem Follows.call (h : Follows parse platform s) (hok : Undisturbed parse platform s kb) :
    Follows parse platform (applyTerminalKeybindings parse platform s kb) where
  sound key a hcurrent := by
    have hdecided : Decided parse platform kb s TerminalAction.all key _ := done_all.current key
    rw [applied_call]
    generalize Overlay.current (applyTerminalKeybindings parse platform s kb).bindings key = v
      at hcurrent hdecided
    -- what the call did to the key last: bound it, unbound it, or nothing
    cases hdecided with
    | bound b _ binds =>
      cases hcurrent
      exact (keysOf_after binds.1).mpr binds.2
    | disabled => cases hcurrent
    | untouched hnone =>
      have hold := h.sound key a hcurrent
      by_cases hup : Updates parse kb s a
      · exact absurd (disables_old hup hold) (hnone a (mem_all a)).2
      · unfold appliedAfter
        rwa [if_neg hup]
  bound key a hkey := by
    have hdecided : Decided parse platform kb s TerminalAction.all key _ := done_all.current key
    rw [applied_call] at hkey
    generalize Overlay.current (applyTerminalKeybindings parse platform s kb).bindings key = v
      at hdecided ⊢
    cases hdecided with
    | bound b => exact ⟨b, rfl⟩
    -- an unbound key that an action has would have been bound later
    | disabled c _ disables last =>
      obtain ⟨b, hle, hbinds⟩ := hok c key disables ⟨a, hkey⟩
      exact absurd (last b (mem_all b) hbinds) (not_lt.mpr hle)
    | untouched hnone =>
      have hup : ¬ Updates parse kb s a := fun hup =>
        (hnone a (mem_all a)).1 ⟨hup, (keysOf_after hup).mp hkey⟩
      unfold appliedAfter at hkey
      rw [if_neg hup] at hkey
      exact h.bound key a hkey

theorem follows_run {es : List TerminalKeyBindings}
    (h : Run (Guarded (ofFun (applyTerminalKeybindings parse platform)) (Undisturbed parse platform))
      (initialKeymap parse platform) es s) : Follows parse platform s :=
  h.invariant follows_initial fun _ _ _ _ _ hfollows ⟨hok, hstep⟩ => hstep ▸ hfollows.call hok

omit [DecidableEq κ] in
theorem appliedAfter_of_allParse (h : AllParse parse kb) (action : TerminalAction) :
    appliedAfter parse kb s action = nextOverride (kb.override action) := by
  unfold appliedAfter
  by_cases hup : Updates parse kb s action
  · exact if_pos hup
  · rw [if_neg hup]
    by_contra hne
    exact hup ⟨hne, h action⟩

/-- In a run whose calls leave no key disabled that an action has, the keys that are bound to the
actions after the last call are those of its settings, if these parse and assign no key twice. -/
theorem bound_iff_assigned {es : List TerminalKeyBindings}
    (h : Run (Guarded (ofFun (applyTerminalKeybindings parse platform)) (Undisturbed parse platform))
      (initialKeymap parse platform) (es ++ [kb]) s)
    (hparse : AllParse parse kb) (hconflict : NoConflict parse platform kb) (key : κ)
    (action : TerminalAction) :
    Overlay.current s.bindings key = some action ↔ Assigned parse platform kb action key := by
  have hfollows := follows_run h
  have happlied (a : TerminalAction) : s.applied a = nextOverride (kb.override a) := by
    obtain ⟨m, -, -, rfl⟩ := h.last
    rw [applied_call, appliedAfter_of_allParse hparse]
  have hsound (a : TerminalAction) (hcurrent : Overlay.current s.bindings key = some a) :
      Assigned parse platform kb a key := by
    have hkey := hfollows.sound key a hcurrent
    rwa [happlied] at hkey
  constructor
  · exact hsound action
  · intro hassigned
    obtain ⟨b, hb⟩ := hfollows.bound key action (by rwa [happlied])
    rwa [hconflict action b key hassigned (hsound b hb)]

omit [DecidableEq κ] in
theorem noConflict_of_all (h : ∀ a ∈ TerminalAction.all, ∀ b ∈ TerminalAction.all,
    ∀ key ∈ keysOf parse platform a (nextOverride (kb.override a)),
      key ∈ keysOf parse platform b (nextOverride (kb.override b)) → a = b) :
    NoConflict parse platform kb :=
  fun a b key ha hb => h a (mem_all a) b (mem_all b) key ha hb

/-- Copying on the default key of pasting, and the other way. -/
def swapped : TerminalKeyBindings :=
  { TerminalKeyBindings.default with
    copy := some "ctrl-shift-v".toList, paste := some "ctrl-shift-c".toList }

/-- Pasting takes the key of copying out again, when it disables its default key. -/
theorem not_bound_swapped : ¬ ∀ (κ : Type) (_ : DecidableEq κ) (parse : Text → Option κ)
    (platform : Platform) (es : List TerminalKeyBindings) (kb : TerminalKeyBindings) (s : Keymap κ),
    Run (ofFun (applyTerminalKeybindings parse platform)) (initialKeymap parse platform)
        (es ++ [kb]) s →
      AllParse parse kb → NoConflict parse platform kb → ∀ key action,
        Overlay.current s.bindings key = some action ↔ Assigned parse platform kb action key := by
  intro h
  have hconflict : NoConflict some .other swapped := noConflict_of_all (by decide +kernel)
  have hbound := (h Text inferInstance some .other [] swapped _ (.next .start rfl) (fun _ _ _ => rfl)
    hconflict "ctrl-shift-v".toList .copy).mpr (by
      show _ ∈ keysOf some .other .copy (nextOverride (swapped.override .copy))
      decide +kernel)
  revert hbound
  decide +kernel

omit [DecidableEq κ] in
/-- No key that is disabled belongs to an action afterwards. -/
theorem undisturbed_of_all (h : ∀ c ∈ TerminalAction.all, ∀ key ∈ disabledKeys parse platform kb s c,
    Updates parse kb s c → ∀ a ∈ TerminalAction.all,
      key ∉ keysOf parse platform a (appliedAfter parse kb s a)) : Undisturbed parse platform s kb :=
  fun c key hdisables ⟨a, ha⟩ =>
    absurd ha (h c (mem_all c) key hdisables.2 hdisables.1 a (mem_all a))

/-- Copying on a key of its own. -/
def ownKey : TerminalKeyBindings :=
  { TerminalKeyBindings.default with copy := some "ctrl-shift-x".toList }

/-- Copying on its default key, and pasting on a key of its own. -/
def pasteKey : TerminalKeyBindings :=
  { TerminalKeyBindings.default with paste := some "ctrl-shift-y".toList }

/-- The key that copying had is free when the override is cleared, and the default key is back. -/
theorem bound_iff_assigned_ownKey :
    ∃ s, Run (Guarded (ofFun (applyTerminalKeybindings some .other)) (Undisturbed some .other))
        (initialKeymap some .other) ([ownKey] ++ [pasteKey]) s ∧
      (Overlay.current s.bindings "ctrl-shift-c".toList = some .copy ↔
        Assigned some .other pasteKey .copy "ctrl-shift-c".toList) ∧
      (Overlay.current s.bindings "ctrl-shift-x".toList = some .copy ↔
        Assigned some .other pasteKey .copy "ctrl-shift-x".toList) ∧
      Assigned some .other pasteKey .copy "ctrl-shift-c".toList := by
  have hfirst : Undisturbed some .other (initialKeymap some .other) ownKey :=
    undisturbed_of_all (by decide +kernel)
  have hsecond : Undisturbed some .other
      (applyTerminalKeybindings some .other (initialKeymap some .other) ownKey) pasteKey :=
    undisturbed_of_all (by decide +kernel)
  have hconflict : NoConflict some .other pasteKey := noConflict_of_all (by decide +kernel)
  have hrun : Run (Guarded (ofFun (applyTerminalKeybindings some .other)) (Undisturbed some .other))
      (initialKeymap some .other) ([ownKey] ++ [pasteKey]) _ :=
    .next (.next .start ⟨hfirst, rfl⟩) ⟨hsecond, rfl⟩
  have hbound := bound_iff_assigned hrun (fun _ _ _ => rfl) hconflict
  refine ⟨_, hrun, hbound _ .copy, hbound _ .copy, ?_⟩
  show _ ∈ keysOf some .other .copy (nextOverride (pasteKey.override .copy))
  decide +kernel

end Runs

end Termua.Settings
