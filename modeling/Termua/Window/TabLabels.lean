import Mathlib
import Termua.Lib.Fresh
import Termua.Lib.Run
import Termua.Lib.Serde
import Termua.Session.Form

/-!
# The labels of new tabs

How `main_window/actions/terminal.rs` names a new terminal tab, with `dedupe_tab_label` of `ssh/mod.rs`
and `local_terminal_panel_tab_name` of `panel/terminal_panel.rs`. A label is a base with a number that
counts the tabs of this base; labels are drawn until no open tab carries the one that was drawn. The
counters are kept apart from the tabs, and a counter is a natural number here where the code's has the
width of a word.

A terminal tab is a terminal panel, or an error panel that holds the state of a terminal.
-/

namespace Termua.Window

open Transition (Run ofPartial run_ofPartial_iff)
open Session (Text shellDisplayName)
open Serde (TextMap)
open Fresh (firstFree candidate exists_firstFree notMem_of_firstFree)

/-! ## The labels -/

/-- How many labels of each base were drawn; a base that the map does not have was never drawn. -/
abbrev LabelCounts := Text → ℕ

/-- The base, with the number from the second one on. -/
def numbered (base : Text) (n : ℕ) : Text :=
  if n = 1 then base else base ++ ' ' :: Nat.toDigits 10 n

/-- The next label of the base. -/
def nextNumbered (base : Text) (counts : LabelCounts) : Text × LabelCounts :=
  (numbered base (counts base + 1), Function.update counts base (counts base + 1))

/-- `dedupe_tab_label`. -/
def dedupeTabLabel (base : Text) (counts : LabelCounts) : Text × LabelCounts :=
  let base := Text.trim base
  nextNumbered (if base = [] then "ssh".toList else base) counts

/-- `PanelKind`. -/
inductive PanelKind
  | local | ssh | serial | recorder
  deriving DecidableEq

/-- `terminal_panel_tab_name`. -/
def terminalPanelTabName (kind : PanelKind) (id : ℕ) : Text :=
  let name := match kind with
    | .local => "local "
    | .ssh => "ssh "
    | .serial => "serial "
    | .recorder => "recorder "
  name.toList ++ Nat.toDigits 10 id

/-- `pick_shell_program_from_env`. -/
def pickShellProgramFromEnv (env : TextMap) : Option Text :=
  (((env.lookup Session.termuaShell).or (env.lookup "SHELL".toList)).map Text.trim).filter (· ≠ [])

/-- `local_shell_display_name_from_env`, with `Path::file_name` as a parameter. -/
def localShellDisplayNameFromEnv (fileName : Text → Option Text) (env : TextMap) : Option Text :=
  ((pickShellProgramFromEnv env).map (shellDisplayName fileName)).filter fun name =>
    Text.trim name ≠ []

/-- `local_terminal_panel_tab_name`. -/
def localTerminalPanelTabName (fileName : Text → Option Text) (env : TextMap) (id : ℕ)
    (counts : LabelCounts) : Text × LabelCounts :=
  match localShellDisplayNameFromEnv fileName env with
  | none => (terminalPanelTabName .local id, counts)
  | some base => nextNumbered base counts

/-! ## The window -/

/-- `SshErrorPanel`, with the label in the terminal's state that it may hold. -/
structure SshErrorPanel where
  id : ℕ
  terminalState : Option Text
  deriving DecidableEq

/-- A panel of the dock. -/
inductive DockPanel
  | terminal (id : ℕ) (tabLabel : Text)
  | sshError (panel : SshErrorPanel)
  | other
  deriving DecidableEq

/-- The id of a terminal's panel. -/
def DockPanel.id : DockPanel → Option ℕ
  | .terminal id _ => some id
  | .sshError panel => some panel.id
  | .other => none

/-- The label of a terminal tab. -/
def DockPanel.tabLabel : DockPanel → Option Text
  | .terminal _ tabLabel => some tabLabel
  | .sshError panel => panel.terminalState
  | .other => none

/-- What `TermuaWindow` names its tabs from: the panels of all tabs and the counters. -/
structure TabbedWindow where
  panels : List DockPanel
  nextTerminalId : ℕ
  localTabLabelCounts : LabelCounts
  sshTabLabelCounts : LabelCounts

namespace TabbedWindow

variable (w : TabbedWindow)

/-- The window before a layout is loaded. -/
def new : TabbedWindow where
  panels := []
  nextTerminalId := 1
  localTabLabelCounts _ := 0
  sshTabLabelCounts _ := 0

/-- `occupied_terminal_ids`. -/
def occupiedTerminalIds : List ℕ := w.panels.filterMap DockPanel.id

/-- `occupied_terminal_tab_labels`. -/
def occupiedTerminalTabLabels : List Text := w.panels.filterMap DockPanel.tabLabel

/-- The first id from `id` on that no panel has. -/
def unoccupiedId (id : ℕ) : Option ℕ :=
  (firstFree (fun id => (id, id + 1)) w.occupiedTerminalIds (w.occupiedTerminalIds.length + 1)
    id).map (·.1)

/-- `take_next_terminal_id`. -/
def takeNextTerminalId : Option (ℕ × TabbedWindow) :=
  (w.unoccupiedId w.nextTerminalId).map fun id => (id, { w with nextTerminalId := id + 1 })

/-- `next_unoccupied_tab_label`, with the counters that the closure counts in. One draw more than there
are labels of open tabs is looked at, and no draw behind it. -/
def nextUnoccupiedTabLabel (nextCandidate : LabelCounts → Text × LabelCounts)
    (counts : LabelCounts) : Option (Text × LabelCounts) :=
  firstFree nextCandidate w.occupiedTerminalTabLabels (w.occupiedTerminalTabLabels.length + 1) counts

/-- `next_local_tab_label`. -/
def nextLocalTabLabel (fileName : Text → Option Text) (env : TextMap) (id : ℕ) :
    Option (Text × TabbedWindow) :=
  let labels := localTerminalPanelTabName fileName env id
  let label :=
    -- a label from the id is returned as it is
    if localShellDisplayNameFromEnv fileName env = none then some (labels w.localTabLabelCounts)
    else w.nextUnoccupiedTabLabel labels w.localTabLabelCounts
  label.map fun label => (label.1, { w with localTabLabelCounts := label.2 })

/-- `next_ssh_tab_label`. -/
def nextSshTabLabel (name : Text) : Option (Text × TabbedWindow) :=
  (w.nextUnoccupiedTabLabel (dedupeTabLabel name) w.sshTabLabelCounts).map fun label =>
    (label.1, { w with sshTabLabelCounts := label.2 })

/-- `add_panel`. -/
def addPanel (panel : DockPanel) : TabbedWindow := { w with panels := w.panels ++ [panel] }

/-- `replace_ssh_restore_panel`: in the place of the panel, or behind the others if it was closed. -/
def replaceSshRestorePanel (old : SshErrorPanel) (panel : DockPanel) : TabbedWindow :=
  if .sshError old ∈ w.panels then { w with panels := w.panels.replace (.sshError old) panel }
  else w.addPanel panel

/-- `reset_next_terminal_id`. -/
def resetNextTerminalId : Option TabbedWindow :=
  (w.unoccupiedId 1).map fun id => { w with nextTerminalId := id }

/-- `reset_terminal_tab_label_counts`. -/
def resetTerminalTabLabelCounts : TabbedWindow :=
  { w with localTabLabelCounts := fun _ => 0, sshTabLabelCounts := fun _ => 0 }

/-- What is done to the tabs of the window. -/
inductive Event
  /-- A local terminal is opened. -/
  | openLocal (env : TextMap)
  /-- A terminal is opened that is named by its kind and id. -/
  | openNamed (kind : PanelKind)
  /-- An SSH session is connected, for a tab that waits for it or for a new one. -/
  | sshConnected (name : Text) (replacement : Option SshErrorPanel)
  /-- An SSH session for which no tab waits fails. -/
  | sshFailed (name : Text)
  /-- A panel that is no terminal is opened. -/
  | openOther
  /-- The panel at an index is closed. -/
  | close (index : ℕ)
  /-- A layout has been loaded (`wire_restored_terminal_panels`). -/
  | restore (panels : List DockPanel)

/-- One event. -/
def step (fileName : Text → Option Text) (w : TabbedWindow) : Event → Option TabbedWindow
  | .openLocal env => do
    let (id, w) ← w.takeNextTerminalId
    let (tabLabel, w) ← w.nextLocalTabLabel fileName env id
    return w.addPanel (.terminal id tabLabel)
  | .openNamed kind => do
    let (id, w) ← w.takeNextTerminalId
    return w.addPanel (.terminal id (terminalPanelTabName kind id))
  | .sshConnected name replacement => do
    let (tabLabel, w) ← ((replacement.bind (·.terminalState)).map fun label => (label, w)).or
      (w.nextSshTabLabel name)
    let (id, w) ← w.takeNextTerminalId
    return match replacement with
      | some old => w.replaceSshRestorePanel old (.terminal id tabLabel)
      | none => w.addPanel (.terminal id tabLabel)
  | .sshFailed name => do
    let (id, w) ← w.takeNextTerminalId
    let (tabLabel, w) ← w.nextSshTabLabel name
    return w.addPanel (.sshError ⟨id, some tabLabel⟩)
  | .openOther => some (w.addPanel .other)
  | .close index => some { w with panels := w.panels.eraseIdx index }
  | .restore panels =>
    ({ w with panels } : TabbedWindow).resetNextTerminalId.map resetTerminalTabLabelCounts

/-! ## Every search ends -/

end TabbedWindow

/-- Labels of one base with different numbers are different. -/
theorem numbered_injective (base : Text) : Function.Injective (numbered base) := by
  have hlonger (n : ℕ) : base ++ ' ' :: Nat.toDigits 10 n ≠ base := by
    intro h
    have hlength := congrArg List.length h
    simp at hlength
  intro n m h
  unfold numbered at h
  split_ifs at h with hn hm hm
  · exact hn.trans hm.symm
  · exact absurd h.symm (hlonger m)
  · exact absurd h (hlonger n)
  · have hdigits : Nat.toDigits 10 n = Nat.toDigits 10 m :=
      (List.cons.inj (List.append_cancel_left h)).2
    rw [← Nat.ofDigitChars_ten_toDigits (n := n), hdigits, Nat.ofDigitChars_ten_toDigits]

/-- The labels of a base are drawn in the order of their numbers. -/
theorem candidate_nextNumbered (base : Text) (counts : LabelCounts) (n : ℕ) :
    candidate (nextNumbered base) counts n = numbered base (counts base + 1 + n) := by
  induction n generalizing counts with
  | zero => rfl
  | succ n ih =>
    show candidate (nextNumbered base) (nextNumbered base counts).2 n = _
    rw [ih]
    have hcount : (nextNumbered base counts).2 base = counts base + 1 := Function.update_self ..
    rw [hcount]
    congr 1
    omega

theorem candidate_nextNumbered_injective (base : Text) (counts : LabelCounts) :
    Function.Injective (candidate (nextNumbered base) counts) := by
  intro n m h
  rw [candidate_nextNumbered, candidate_nextNumbered] at h
  have := numbered_injective base h
  omega

/-- The ids that are tried are the numbers from the first one on. -/
theorem candidate_succ (id n : ℕ) : candidate (fun id : ℕ => (id, id + 1)) id n = id + n := by
  induction n generalizing id with
  | zero => rfl
  | succ n ih =>
    show candidate _ (id + 1) n = _
    rw [ih]
    omega

namespace TabbedWindow

variable {w : TabbedWindow} {fileName : Text → Option Text}

theorem exists_unoccupiedId (w : TabbedWindow) (id : ℕ) : ∃ free, w.unoccupiedId id = some free := by
  have hinj : Function.Injective (candidate (fun id : ℕ => (id, id + 1)) id) := by
    intro n m h
    simp only [candidate_succ] at h
    omega
  obtain ⟨found, hfound⟩ := exists_firstFree w.occupiedTerminalIds hinj
  exact ⟨found.1, by rw [unoccupiedId, hfound, Option.map_some]⟩

theorem exists_takeNextTerminalId (w : TabbedWindow) :
    ∃ taken, w.takeNextTerminalId = some taken := by
  obtain ⟨id, hid⟩ := w.exists_unoccupiedId w.nextTerminalId
  exact ⟨_, by rw [takeNextTerminalId, hid, Option.map_some]⟩

/-- The labels of a base are searched to the end, and what is found is on no open tab. -/
theorem exists_nextUnoccupiedTabLabel (w : TabbedWindow) (base : Text) (counts : LabelCounts) :
    ∃ label, w.nextUnoccupiedTabLabel (nextNumbered base) counts = some label ∧
      label.1 ∉ w.occupiedTerminalTabLabels := by
  obtain ⟨label, hlabel⟩ := exists_firstFree w.occupiedTerminalTabLabels
    (candidate_nextNumbered_injective base counts)
  exact ⟨label, hlabel, notMem_of_firstFree hlabel⟩

/-- A label for an SSH session is found, and no open tab carries it. -/
theorem exists_nextSshTabLabel (w : TabbedWindow) (name : Text) :
    ∃ label w', w.nextSshTabLabel name = some (label, w') ∧
      label ∉ w.occupiedTerminalTabLabels := by
  obtain ⟨label, hlabel, hfree⟩ := w.exists_nextUnoccupiedTabLabel
    (if Text.trim name = [] then "ssh".toList else Text.trim name) w.sshTabLabelCounts
  refine ⟨label.1, { w with sshTabLabelCounts := label.2 }, ?_, hfree⟩
  unfold nextSshTabLabel
  -- drawing from the name is drawing from its base
  have hdraw : w.nextUnoccupiedTabLabel (dedupeTabLabel name) w.sshTabLabelCounts = some label :=
    hlabel
  rw [hdraw, Option.map_some]

/-- A local terminal is named by its id where the environment names no shell. -/
theorem nextLocalTabLabel_of_none {env : TextMap} (id : ℕ)
    (henv : localShellDisplayNameFromEnv fileName env = none) :
    w.nextLocalTabLabel fileName env id = some (terminalPanelTabName .local id, w) := by
  unfold nextLocalTabLabel localTerminalPanelTabName
  rw [henv]
  rfl

/-- A label from the name of the shell is found, and no open tab carries it. -/
theorem exists_nextLocalTabLabel {env : TextMap} (w : TabbedWindow) (id : ℕ)
    (henv : localShellDisplayNameFromEnv fileName env ≠ none) :
    ∃ label w', w.nextLocalTabLabel fileName env id = some (label, w') ∧
      label ∉ w.occupiedTerminalTabLabels := by
  obtain ⟨base, hbase⟩ := Option.ne_none_iff_exists'.mp henv
  obtain ⟨label, hlabel, hfree⟩ := w.exists_nextUnoccupiedTabLabel base w.localTabLabelCounts
  have hlabels : localTerminalPanelTabName fileName env id = nextNumbered base := by
    funext counts
    unfold localTerminalPanelTabName
    rw [hbase]
  refine ⟨label.1, { w with localTabLabelCounts := label.2 }, ?_, hfree⟩
  unfold nextLocalTabLabel
  simp only [if_neg henv, hlabels]
  rw [hlabel, Option.map_some]

/-- A label for a local terminal is found; it is free where the environment names a shell, or where no
open tab carries the label from the id. -/
theorem exists_nextLocalTabLabel_iff (w : TabbedWindow) (fileName : Text → Option Text)
    (env : TextMap) (id : ℕ) :
    ∃ label w', w.nextLocalTabLabel fileName env id = some (label, w') ∧
      (label ∉ w.occupiedTerminalTabLabels ↔
        localShellDisplayNameFromEnv fileName env ≠ none ∨
          "local ".toList ++ Nat.toDigits 10 id ∉ w.occupiedTerminalTabLabels) := by
  by_cases henv : localShellDisplayNameFromEnv fileName env = none
  · refine ⟨_, w, nextLocalTabLabel_of_none id henv, ?_⟩
    constructor
    · exact fun hfree => .inr hfree
    · rintro (hne | hfree)
      · exact absurd henv hne
      · exact hfree
  · obtain ⟨label, w', hlabel, hfree⟩ := w.exists_nextLocalTabLabel id henv
    exact ⟨label, w', hlabel, fun _ => .inl henv, fun _ => hfree⟩

/-- No event hangs the window. -/
theorem exists_step (w : TabbedWindow) (fileName : Text → Option Text) (event : Event) :
    ∃ w', step fileName w event = some w' := by
  cases event with
  | openLocal env =>
    obtain ⟨⟨id, w₁⟩, hid⟩ := w.exists_takeNextTerminalId
    obtain ⟨label, w₂, hlabel, -⟩ := w₁.exists_nextLocalTabLabel_iff fileName env id
    refine ⟨w₂.addPanel (.terminal id label), ?_⟩
    simp [step, hid, hlabel]
  | openNamed kind =>
    obtain ⟨⟨id, w₁⟩, hid⟩ := w.exists_takeNextTerminalId
    refine ⟨w₁.addPanel (.terminal id (terminalPanelTabName kind id)), ?_⟩
    simp [step, hid]
  | sshConnected name replacement =>
    obtain ⟨⟨label, w₁⟩, hlabel⟩ :
        ∃ found, ((replacement.bind (·.terminalState)).map fun label => (label, w)).or
          (w.nextSshTabLabel name) = some found := by
      rcases replacement.bind (·.terminalState) with _ | label
      · obtain ⟨label, w₁, hlabel, -⟩ := w.exists_nextSshTabLabel name
        exact ⟨_, hlabel⟩
      · exact ⟨_, rfl⟩
    obtain ⟨⟨id, w₂⟩, hid⟩ := w₁.exists_takeNextTerminalId
    exact ⟨_, by simp only [step, hlabel, hid, Option.bind_eq_bind, Option.bind_some]; rfl⟩
  | sshFailed name =>
    obtain ⟨⟨id, w₁⟩, hid⟩ := w.exists_takeNextTerminalId
    obtain ⟨label, w₂, hlabel, -⟩ := w₁.exists_nextSshTabLabel name
    refine ⟨w₂.addPanel (.sshError ⟨id, some label⟩), ?_⟩
    simp [step, hid, hlabel]
  | openOther => exact ⟨_, rfl⟩
  | close index => exact ⟨_, rfl⟩
  | restore panels =>
    obtain ⟨id, hid⟩ := ({ w with panels } : TabbedWindow).exists_unoccupiedId 1
    simp [step, resetNextTerminalId, hid]

/-- Every sequence of events is run to its end. -/
theorem exists_run (fileName : Text → Option Text) (events : List Event) :
    ∃ w, Run (ofPartial (step fileName)) new events w := by
  induction events using List.reverseRecOn with
  | nil => exact ⟨new, .start⟩
  | append_singleton events event ih =>
    obtain ⟨w, hw⟩ := ih
    obtain ⟨w', hw'⟩ := w.exists_step fileName event
    exact ⟨w', .next hw hw'⟩

/-- Whatever was done to the tabs, a label is found for every session and for every local terminal. The
one for a session is on no open tab; the one for a local terminal is on none exactly where its
environment names a shell, or no open tab has the label that is made of its id. -/
theorem tabLabels_unoccupied_iff (fileName : Text → Option Text) (events : List Event) :
    ∃ w, Run (ofPartial (step fileName)) new events w ∧
      (∀ name, ∃ label w', w.nextSshTabLabel name = some (label, w') ∧
        label ∉ w.occupiedTerminalTabLabels) ∧
      ∀ env id, ∃ label w', w.nextLocalTabLabel fileName env id = some (label, w') ∧
        (label ∉ w.occupiedTerminalTabLabels ↔
          localShellDisplayNameFromEnv fileName env ≠ none ∨
            "local ".toList ++ Nat.toDigits 10 id ∉ w.occupiedTerminalTabLabels) := by
  obtain ⟨w, hw⟩ := exists_run fileName events
  exact ⟨w, hw, w.exists_nextSshTabLabel, w.exists_nextLocalTabLabel_iff fileName⟩

/-- A session of the name `local 2` takes the first id, and the local terminal behind it the second. -/
theorem occupied_localTwo : ∃ w id w₁ label w₂,
    Run (ofPartial (step fun program => some program)) new [.sshConnected "local 2".toList none] w ∧
      w.takeNextTerminalId = some (id, w₁) ∧
      w₁.nextLocalTabLabel (fun program => some program) ∅ id = some (label, w₂) ∧
      label ∈ w₁.occupiedTerminalTabLabels :=
  ⟨_, _, _, _, _, run_ofPartial_iff.mpr rfl, rfl, rfl, by decide⟩

end TabbedWindow

end Termua.Window
