import Mathlib
import Termua.Window.Sidebar

/-!
# Reloads of the sessions

At most one load runs, with the sidebar's epoch; it started after the last request, or a request is
pending. When none runs, the sessions of the sidebar are those of a load that started after the last
request and succeeded (`Reloads.Sound`). So no request is lost (`reload_not_lost`).
-/

namespace Termua.Window

open Transition (Run ofPartial exists_run_of_any)
open Session (Session Text)

/-! ## Requests and loads of a run -/

/-- The event asks for a reload: a call of `reload`, or the end of a deletion. -/
def SessionsWindow.Event.isRequest : SessionsWindow.Event → Bool
  | .reload => true
  | .deleted _ _ => true
  | _ => false

/-- The sessions of a load that ends with success, with the number of requests at its start. -/
def SessionsWindow.Event.succeeded : SessionsWindow.Event → Option (ℕ × List Session)
  | .loaded load (.ok sessions) => some (load.started, sessions)
  | _ => none

/-- What the successful loads of a run said, each with the number of requests at its start: the load
of the sidebar's creation, then those that ended since. -/
def succeeded (result : Except Unit (List Session)) (es : List SessionsWindow.Event) :
    List (ℕ × List Session) :=
  (result.toOption.map fun sessions => (0, sessions)).toList ++ es.filterMap (·.succeeded)

theorem succeeded_subset_append (result : Except Unit (List Session))
    (es : List SessionsWindow.Event) (e : SessionsWindow.Event) :
    succeeded result es ⊆ succeeded result (es ++ [e]) := by
  rw [succeeded, succeeded, List.filterMap_append, ← List.append_assoc]
  exact List.subset_append_left _ _

theorem mem_succeeded_loaded (result : Except Unit (List Session))
    (es : List SessionsWindow.Event) (load : Load) (sessions : List Session) :
    (load.started, sessions) ∈ succeeded result (es ++ [.loaded load (.ok sessions)]) := by
  rw [succeeded, List.filterMap_append]
  exact List.mem_append_right _ (List.mem_append_right _ (List.mem_singleton.mpr rfl))

/-! ## The invariant -/

/-- What of the window has to do with reloads. -/
structure Reloads where
  epoch : ℕ
  inFlight : Bool
  pending : Bool
  error : Option SessionsSidebarError
  loads : List Load
  requests : ℕ
  sessions : List Session

/-- The reloads of a window. -/
def SessionsWindow.reloads (w : SessionsWindow) : Reloads where
  epoch := w.sidebar.reloadEpoch
  inFlight := w.sidebar.reloadInFlight
  pending := w.sidebar.reloadPending
  error := w.sidebar.error
  loads := w.loads
  requests := w.requests
  sessions := w.sidebar.sessions

namespace Reloads

/-- No load runs; the sessions are those of a successful load that started after the last request, or
the error of the load is shown. -/
structure Idle (said : List (ℕ × List Session)) (r : Reloads) : Prop where
  inFlight : r.inFlight = false
  pending : r.pending = false
  loads : r.loads = []
  shown : (r.requests, r.sessions) ∈ said ∨ r.error = some .loadSessions

/-- One load runs; it started after the last request, or a request is pending. -/
structure Busy (r : Reloads) (started : ℕ) : Prop where
  inFlight : r.inFlight = true
  loads : r.loads = [{ epoch := r.epoch, started }]
  last : r.pending = false → started = r.requests

/-- The invariant of the reloads, where the successful loads said `said`. -/
def Sound (said : List (ℕ × List Session)) (r : Reloads) : Prop :=
  r.Idle said ∨ ∃ started, r.Busy started

/-- The flag says whether a load runs, and at most one does. -/
def Single (r : Reloads) : Prop :=
  (r.inFlight = false ∧ r.loads = []) ∨
    (r.inFlight = true ∧ ∃ started, r.loads = [{ epoch := r.epoch, started }])

variable {said said' : List (ℕ × List Session)}

theorem Sound.mono {r : Reloads} (h : r.Sound said) (hsubset : said ⊆ said') : r.Sound said' :=
  h.imp_left fun hidle =>
    ⟨hidle.inFlight, hidle.pending, hidle.loads, hidle.shown.imp_left (hsubset ·)⟩

theorem Sound.single {r : Reloads} (h : r.Sound said) : r.Single := by
  rcases h with hidle | ⟨started, hbusy⟩
  · exact .inl ⟨hidle.inFlight, hidle.loads⟩
  · exact .inr ⟨hbusy.inFlight, started, hbusy.loads⟩

end Reloads

namespace SessionsWindow

variable {w w' : SessionsWindow} {said : List (ℕ × List Session)}

/-! ## Steps that leave the reloads alone -/

@[simp]
theorem reloads_addTab (w : SessionsWindow) (kind : TabKind) (sessionId : Option ℤ) :
    (w.addTab kind sessionId).reloads = w.reloads := rfl

@[simp]
theorem reloads_clearConnectingSession (w : SessionsWindow) (sessionId : Option ℤ) :
    (w.clearConnectingSession sessionId).reloads = w.reloads := by
  cases sessionId <;> rfl

@[simp]
theorem reloads_replaceTab (w : SessionsWindow) (old : ℕ) (sessionId : Option ℤ) :
    (w.replaceTab old sessionId).reloads = w.reloads := by
  unfold replaceTab
  split <;> rfl

@[simp]
theorem reloads_finish (w : SessionsWindow) (attempt : Attempt) (result : SshResult) :
    (w.finishAddSshTerminalTask attempt result).reloads = w.reloads := by
  unfold finishAddSshTerminalTask
  cases result <;> cases attempt.replacement <;> simp

@[simp]
theorem reloads_openSavedSshSessionAt (w : SessionsWindow) (session : Session) (sessionId : ℤ)
    (replacement : Option ℕ) :
    (w.openSavedSshSessionAt session sessionId replacement).reloads = w.reloads := by
  unfold openSavedSshSessionAt
  split
  · rfl
  · split <;> rfl

@[simp]
theorem reloads_openSessionById (w : SessionsWindow) (id : ℤ)
    (answer : Except Unit (Option Session)) :
    (w.openSessionById id answer).reloads = w.reloads := by
  unfold openSessionById
  split
  · split <;> simp
  · rfl

theorem reloads_click (itemId : Text) (sessionId : ℤ) (shouldOpen : Bool)
    (h : step w (.click itemId sessionId shouldOpen) = some w') : w'.reloads = w.reloads := by
  unfold step at h
  obtain rfl := Option.some.inj h
  unfold SessionsSidebarView.handleSessionClick
  simp only
  split_ifs <;> rfl

theorem reloads_delete (id : ℤ) (h : step w (.delete id) = some w') : w'.reloads = w.reloads := by
  unfold step at h
  obtain rfl := Option.some.inj h
  unfold SessionsSidebarView.deleteSessionById
  split_ifs <;> rfl

@[simp]
theorem reloads_restoreSshPanel (w : SessionsWindow) (tab : Tab)
    (answer : Except Unit (Option Session)) : (w.restoreSshPanel tab answer).reloads = w.reloads := by
  unfold restoreSshPanel
  split
  · simp
  · rfl

/-! ## Requests and the ends of loads -/

/-- A call for a reload starts a load after the requests so far, or leaves one pending. -/
theorem sound_start (h : w.reloads.Single) :
    (w.withLoad w.sidebar.startReloadSessionsAsync).reloads.Sound said := by
  unfold SessionsSidebarView.startReloadSessionsAsync
  rcases h with ⟨hflag, hloads⟩ | ⟨hflag, started, hloads⟩
  · rw [if_neg (by rw [show w.sidebar.reloadInFlight = false from hflag]; exact Bool.false_ne_true)]
    refine .inr ⟨w.requests, rfl, ?_, fun _ => rfl⟩
    show w.loads ++ _ = _
    rw [show w.loads = [] from hloads]
    rfl
  · change w.sidebar.reloadInFlight = true at hflag
    rw [if_pos hflag]
    refine .inr ⟨started, hflag, ?_, nofun⟩
    show w.loads ++ [] = _
    rw [List.append_nil]
    exact hloads

theorem sound_reload (h : w.reloads.Sound said) (hstep : step w .reload = some w') :
    w'.reloads.Sound said := by
  obtain rfl := Option.some.inj hstep
  exact sound_start (w := { w with requests := w.requests + 1 }) h.single

theorem sound_deleted {id : ℤ} {result : Except Text Unit} (h : w.reloads.Sound said)
    (hstep : step w (.deleted id result) = some w') : w'.reloads.Sound said := by
  simp only [step] at hstep
  split at hstep
  · obtain rfl := Option.some.inj hstep
    unfold SessionsSidebarView.deleted
    refine sound_start (w := { w with
      sidebar := _, deletions := w.deletions.erase id, requests := w.requests + 1 }) ?_
    cases result <;> exact h.single
  · cases hstep

theorem sound_loaded {load : Load} {result : Except Unit (List Session)} (h : w.reloads.Sound said)
    (hsaid : ∀ sessions, result = .ok sessions → (load.started, sessions) ∈ said)
    (hstep : step w (.loaded load result) = some w') : w'.reloads.Sound said := by
  simp only [step] at hstep
  split at hstep
  · next hmem =>
    obtain rfl := Option.some.inj hstep
    rcases h with hidle | ⟨started, hflag, hloads, hlast⟩
    · rw [show w.loads = [] from hidle.loads] at hmem
      exact absurd hmem List.not_mem_nil
    · change w.loads = [{ epoch := w.sidebar.reloadEpoch, started }] at hloads
      rw [hloads] at hmem
      obtain rfl := List.mem_singleton.mp hmem
      have herase : w.loads.erase { epoch := w.sidebar.reloadEpoch, started } = [] := by
        rw [hloads, List.erase_cons_head]
      unfold SessionsSidebarView.loaded
      rw [herase, if_neg (not_not.mpr rfl)]
      by_cases hpending : w.sidebar.reloadPending = true
      · cases result <;>
        · simp only
          rw [if_pos hpending]
          exact sound_start (w := { w with
            sidebar := _, loads := [] }) (.inl ⟨rfl, rfl⟩)
      · -- nothing was asked for since the load started
        have hstarted : started = w.requests := hlast (Bool.eq_false_of_not_eq_true hpending)
        cases result with
        | error _ =>
          simp only
          rw [if_neg hpending]
          exact .inl ⟨rfl, Bool.eq_false_of_not_eq_true hpending, rfl, .inr rfl⟩
        | ok sessions =>
          simp only
          rw [if_neg hpending]
          exact .inl ⟨rfl, Bool.eq_false_of_not_eq_true hpending, rfl,
            .inl (hstarted ▸ hsaid sessions rfl)⟩
  · cases hstep

/-- Taking away the message of an operation leaves the error of a load. -/
theorem sound_clear (h : w.reloads.Sound said) :
    { w with sidebar := w.sidebar.clearOperationError : SessionsWindow }.reloads.Sound said := by
  unfold SessionsSidebarView.clearOperationError
  split
  · next message herror =>
    rcases h with hidle | ⟨started, hbusy⟩
    · refine .inl ⟨hidle.inFlight, hidle.pending, hidle.loads, hidle.shown.imp id fun hload => ?_⟩
      exact absurd (herror.symm.trans hload) nofun
    · exact .inr ⟨started, hbusy.inFlight, hbusy.loads, hbusy.last⟩
  · exact h

/-- Every step but a message of an operation keeps the invariant. -/
theorem sound_step {event : Event} (h : w.reloads.Sound said) (hstep : step w event = some w')
    (hsaid : ∀ load sessions, event = .loaded load (.ok sessions) → (load.started, sessions) ∈ said)
    (hmessage : ∀ message, event ≠ .showError message) : w'.reloads.Sound said := by
  -- a click, an opened session and a connection leave the reloads alone
  cases event with
  | click => exact (reloads_click _ _ _ hstep).symm ▸ h
  | reload => exact sound_reload h hstep
  | loaded load result =>
    exact sound_loaded h (fun sessions heq => hsaid load sessions (by rw [heq])) hstep
  | delete => exact (reloads_delete _ hstep).symm ▸ h
  | deleted => exact sound_deleted h hstep
  | showError message => exact absurd rfl (hmessage message)
  | clearOperationError =>
    simp only [step] at hstep
    obtain rfl := Option.some.inj hstep
    exact sound_clear h
  | openSession answer =>
    simp only [step] at hstep
    split at hstep
    · cases hstep
    · obtain rfl := Option.some.inj hstep
      rwa [reloads_openSessionById]
  | restore tab answer =>
    simp only [step] at hstep
    split at hstep
    · obtain rfl := Option.some.inj hstep
      rwa [reloads_restoreSshPanel]
    · cases hstep
  | connect => cases hstep; exact h
  | closeTab => cases hstep; exact h
  | finished attempt result =>
    simp only [step] at hstep
    split at hstep
    · obtain rfl := Option.some.inj hstep
      rwa [reloads_finish]
    · cases hstep

/-- The counter counts the requests. -/
theorem requests_step {event : Event} (hstep : step w event = some w') :
    w'.requests = w.requests + if event.isRequest then 1 else 0 := by
  -- only `reload` and the end of a deletion ask for the sessions
  cases event with
  | click => exact congrArg Reloads.requests (reloads_click _ _ _ hstep)
  | delete => exact congrArg Reloads.requests (reloads_delete _ hstep)
  | openSession answer =>
    simp only [step] at hstep
    split at hstep
    · cases hstep
    · obtain rfl := Option.some.inj hstep
      exact congrArg Reloads.requests (reloads_openSessionById _ _ _)
  | restore tab answer =>
    simp only [step] at hstep
    split at hstep
    · obtain rfl := Option.some.inj hstep
      exact congrArg Reloads.requests (reloads_restoreSshPanel _ _ _)
    · cases hstep
  | finished attempt result =>
    simp only [step] at hstep
    split at hstep
    · obtain rfl := Option.some.inj hstep
      exact congrArg Reloads.requests (reloads_finish _ _ _)
    · cases hstep
  | loaded | deleted =>
    simp only [step] at hstep
    split at hstep
    · obtain rfl := Option.some.inj hstep
      rfl
    · cases hstep
  | reload | showError | clearOperationError | connect | closeTab =>
    cases hstep
    rfl

theorem requests_eq {result : Except Unit (List Session)} {tabs : List Tab} {next : ℕ}
    {es : List Event} (h : Run (ofPartial step) (new result tabs next) es w) :
    w.requests = es.countP (·.isRequest) := by
  refine h.historyInvariant (I := fun es w => w.requests = es.countP (·.isRequest)) rfl ?_
  intro es w event w' _ ih hstep
  rw [requests_step hstep, ih, List.countP_append, List.countP_singleton]

/-- At most one load of the sessions runs; when none runs, the sessions of the sidebar are those of a
successful load that started after the last request, or the error of the load is shown. -/
theorem reload_not_lost {result : Except Unit (List Session)} {tabs : List Tab} {next : ℕ}
    {es : List Event} (h : Run (ofPartial step) (new result tabs next) es w)
    (hmessage : ∀ message, .showError message ∉ es) :
    w.loads.length ≤ 1 ∧ (w.loads = [] →
      (es.countP (·.isRequest), w.sidebar.sessions) ∈ succeeded result es ∨
        w.sidebar.error = some .loadSessions) := by
  have hsound : w.reloads.Sound (succeeded result es) := by
    refine h.historyInvariant (I := fun es w => (∀ message, .showError message ∉ es) →
      w.reloads.Sound (succeeded result es)) (fun _ => ?_) ?_ hmessage
    · refine .inl ⟨rfl, rfl, rfl, ?_⟩
      cases result with
      | error _ => exact .inr rfl
      | ok sessions => exact .inl (List.mem_singleton.mpr rfl)
    · intro es w event w' _ ih hstep hnone
      have hbefore := ih fun message hmem => hnone message (List.mem_append_left _ hmem)
      refine sound_step (hbefore.mono (succeeded_subset_append result es event)) hstep ?_
        fun message heq => hnone message ?_
      · rintro load sessions rfl
        exact mem_succeeded_loaded result es load sessions
      · exact List.mem_append_right _ (List.mem_singleton.mpr heq.symm)
  rw [← requests_eq h]
  rcases hsound with hidle | ⟨started, hbusy⟩
  · have hloads : w.loads = [] := hidle.loads
    exact ⟨by simp [hloads], fun _ => hidle.shown⟩
  · have hloads : w.loads = _ := hbusy.loads
    refine ⟨by simp [hloads], fun hnone => absurd (hloads.symm.trans hnone) (by simp)⟩

/-- A local session as it is stored. -/
def storedSession : Session where
  id := 7
  protocol := .local
  groupPath := []
  label := "shell".toList
  backend := .alacritty
  env := none

/-- Two reloads are asked for, the session is stored between their loads. -/
def reloadTwice : List Event :=
  [.reload, .reload, .loaded ⟨1, 1⟩ (.ok []), .loaded ⟨2, 2⟩ (.ok [storedSession])]

theorem reload_not_lost_twice : ∃ w, Run (ofPartial step) (new (.ok []) [] 0) reloadTwice w ∧
    (w.loads.length ≤ 1 ∧ (w.loads = [] →
      (2, w.sidebar.sessions) ∈ [(0, []), (1, []), (2, [storedSession])] ∨
        w.sidebar.error = some .loadSessions)) ∧
    w.loads = [] ∧ w.sidebar.sessions = [storedSession] := by
  obtain ⟨w, hrun, hw⟩ := exists_run_of_any (new (.ok []) [] 0) reloadTwice (f := step)
    (p := fun w => w.loads = [] ∧ w.sidebar.sessions = [storedSession]) (by decide +kernel)
  exact ⟨w, hrun, reload_not_lost hrun (by simp [reloadTwice]), of_decide_eq_true hw⟩

end SessionsWindow

end Termua.Window
