import Mathlib
import Termua.Window.Sidebar

/-!
# Sessions that are being connected

A session is marked as connecting by the click that asks for it; the mark goes when the connection is
made or fails, but not when the window finds nothing to connect to. So the marks are right in every run
whose requests lead to a connection, or meet another of the same session (`connecting_inFlight`).
-/

namespace Termua.Window

open Transition (Run Guarded ofPartial exists_run_of_any)
open Session (Session Text)

namespace SessionsWindow

variable {w w' : SessionsWindow}

/-- An attempt to open the session is under way: it is asked for, or connecting. -/
def InFlight (w : SessionsWindow) (id : ℤ) : Prop :=
  id ∈ w.openSession ∨ ∃ attempt ∈ w.attempts, attempt.sessionId = some id

/-- Every session that is marked as connecting is under way. -/
def Marked (w : SessionsWindow) : Prop :=
  ∀ id ∈ w.sidebar.connectingSessionIds, w.InFlight id

/-- What the store says leads to a connection. -/
def Connects (answer : Except Unit (Option Session)) : Prop :=
  ∃ session, answer = .ok (some session) ∧ session.protocol = .ssh ∧ session.sshHost.isSome ∧
    missingPassword session = false

/-- A request for a session that is marked leads to a connection, or another attempt to open the
session is under way. -/
def Opens (w : SessionsWindow) : Event → Prop
  | .openSession answer => ∀ id rest, w.openSession = id :: rest →
      id ∈ w.sidebar.connectingSessionIds →
        Connects answer ∨ { w with openSession := rest : SessionsWindow }.InFlight id
  | _ => True

/-! ## What a step does to the marks -/

theorem marked_click {itemId : Text} {sessionId : ℤ} {shouldOpen : Bool} (h : w.Marked)
    (hstep : step w (.click itemId sessionId shouldOpen) = some w') : w'.Marked := by
  unfold step at hstep
  obtain rfl := Option.some.inj hstep
  have hkeep {id : ℤ} (request : List ℤ) (hid : w.InFlight id) (sidebar : SessionsSidebarView) :
      { w with sidebar, openSession := w.openSession ++ request : SessionsWindow }.InFlight id :=
    hid.imp_left (List.mem_append_left _)
  intro id hid
  unfold SessionsSidebarView.handleSessionClick at hid ⊢
  simp only at hid ⊢
  split_ifs at hid ⊢
  · exact hkeep [] (h id hid) _
  · rcases Finset.mem_insert.mp hid with rfl | hid
    · exact .inl (List.mem_append_right _ (List.mem_singleton_self _))
    · exact hkeep [sessionId] (h id hid) _
  · exact hkeep [sessionId] (h id hid) _
  · exact hkeep [] (h id hid) _

/-- The sidebar marks no other sessions, and nothing that is under way ends. -/
theorem Marked.mono (h : w.Marked)
    (hmarks : w'.sidebar.connectingSessionIds ⊆ w.sidebar.connectingSessionIds)
    (hopen : w'.openSession = w.openSession) (hattempts : ∀ a ∈ w.attempts, a ∈ w'.attempts) :
    w'.Marked := by
  intro id hid
  rcases h id (hmarks hid) with hid | ⟨attempt, ha, hid⟩
  · exact .inl (hopen ▸ hid)
  · exact .inr ⟨attempt, hattempts attempt ha, hid⟩

theorem marks_delete (this : SessionsSidebarView) (id : ℤ) :
    (this.deleteSessionById id).1.connectingSessionIds ⊆ this.connectingSessionIds := by
  unfold SessionsSidebarView.deleteSessionById
  split
  · exact Finset.Subset.refl _
  · exact Finset.erase_subset _ _

theorem marks_startReload (this : SessionsSidebarView) :
    this.startReloadSessionsAsync.1.connectingSessionIds = this.connectingSessionIds := by
  unfold SessionsSidebarView.startReloadSessionsAsync
  split <;> rfl

theorem marks_loaded (this : SessionsSidebarView) (epoch : ℕ) (result : Except Unit (List Session)) :
    (this.loaded epoch result).1.connectingSessionIds = this.connectingSessionIds := by
  unfold SessionsSidebarView.loaded
  split
  · rfl
  · cases result <;>
    · simp only
      split
      · exact marks_startReload _
      · rfl

theorem marks_deleted (this : SessionsSidebarView) (id : ℤ) (result : Except Text Unit) :
    (this.deleted id result).1.connectingSessionIds = this.connectingSessionIds := by
  unfold SessionsSidebarView.deleted
  rw [marks_startReload]
  cases result <;> rfl

/-- Opening a saved session marks nothing and only adds an attempt. -/
theorem openSavedSshSessionAt_cases (w : SessionsWindow) (session : Session) (sessionId : ℤ)
    (replacement : Option ℕ) :
    (w.openSavedSshSessionAt session sessionId replacement = w ∧
      ¬ (session.sshHost.isSome ∧ missingPassword session = false)) ∨
    (w.openSavedSshSessionAt session sessionId replacement
        = w.addSshTerminalWithParamsAt (some sessionId) replacement ∧
      session.sshHost.isSome ∧ missingPassword session = false) := by
  unfold openSavedSshSessionAt
  rcases session.sshHost with _ | host
  · exact .inl ⟨rfl, by simp⟩
  · by_cases hpassword : missingPassword session = true
    · exact .inl ⟨if_pos hpassword, by simp [hpassword]⟩
    · exact .inr ⟨if_neg hpassword, rfl, Bool.eq_false_of_not_eq_true hpassword⟩

theorem connects_ok {session : Session} : Connects (.ok (some session)) ↔
    session.protocol = .ssh ∧ session.sshHost.isSome ∧ missingPassword session = false := by
  constructor
  · rintro ⟨_, heq, hconnects⟩
    cases heq
    exact hconnects
  · exact fun hconnects => ⟨session, rfl, hconnects⟩

/-- What the window does with a request: it connects, or nothing at all. -/
theorem openSessionById_cases (w : SessionsWindow) (id : ℤ)
    (answer : Except Unit (Option Session)) :
    (w.openSessionById id answer = w ∧ ¬ Connects answer) ∨
    (w.openSessionById id answer = w.addSshTerminalWithParamsAt (some id) none ∧ Connects answer) := by
  unfold openSessionById
  split
  · next session =>
    rw [connects_ok]
    rcases hprotocol : session.protocol with _ | _ | _
    · exact .inl ⟨rfl, by simp⟩
    · rcases w.openSavedSshSessionAt_cases session id none with ⟨heq, hnot⟩ | ⟨heq, hyes⟩
      · exact .inl ⟨heq, fun hconnects => hnot hconnects.2⟩
      · exact .inr ⟨heq, rfl, hyes⟩
    · exact .inl ⟨rfl, by simp⟩
  · next hnone => exact .inl ⟨rfl, fun ⟨session, heq, _⟩ => hnone session heq⟩

theorem marked_openSession {answer : Except Unit (Option Session)} (h : w.Marked)
    (hstep : step w (.openSession answer) = some w') (hopens : w.Opens (.openSession answer)) :
    w'.Marked := by
  simp only [step] at hstep
  split at hstep
  · cases hstep
  · next id rest hopen =>
    obtain rfl := Option.some.inj hstep
    have hrest {other : ℤ} (hother : w.InFlight other) :
        other = id ∨ { w with openSession := rest : SessionsWindow }.InFlight other := by
      rcases hother with hother | hother
      · rw [hopen] at hother
        exact (List.mem_cons.mp hother).imp_right .inl
      · exact .inr (.inr hother)
    rcases openSessionById_cases { w with openSession := rest } id answer with
      ⟨heq, hnot⟩ | ⟨heq, -⟩
    · rw [heq]
      intro other hother
      rcases hrest (h other hother) with rfl | hother'
      · exact (hopens other rest hopen hother).resolve_left hnot
      · exact hother'
    · rw [heq]
      intro other hother
      rcases hrest (h other hother) with rfl | hother' | ⟨attempt, ha, hother'⟩
      · exact .inr ⟨_, List.mem_append_right _ (List.mem_singleton_self _), rfl⟩
      · exact .inl hother'
      · exact .inr ⟨attempt, List.mem_append_left _ ha, hother'⟩

theorem marked_restore (h : w.Marked) (tab : Tab) (answer : Except Unit (Option Session)) :
    (w.restoreSshPanel tab answer).Marked := by
  unfold restoreSshPanel
  split
  · next sessionId session _ =>
    rcases w.openSavedSshSessionAt_cases session sessionId (some tab.id) with ⟨heq, -⟩ | ⟨heq, -⟩
    · rwa [heq]
    · rw [heq]
      exact h.mono (Finset.Subset.refl _) rfl fun _ ha => List.mem_append_left _ ha
  · exact h

theorem clear_effect (w : SessionsWindow) (sessionId : Option ℤ) :
    (∀ id, id ∈ (w.clearConnectingSession sessionId).sidebar.connectingSessionIds ↔
        sessionId ≠ some id ∧ id ∈ w.sidebar.connectingSessionIds) ∧
      (w.clearConnectingSession sessionId).openSession = w.openSession ∧
      (w.clearConnectingSession sessionId).attempts = w.attempts := by
  rcases sessionId with _ | sessionId
  · exact ⟨fun id => by simp [clearConnectingSession], rfl, rfl⟩
  · refine ⟨fun id => ?_, rfl, rfl⟩
    refine Finset.mem_erase.trans (and_congr_left fun _ => ?_)
    rw [ne_comm, ne_eq, ne_eq, Option.some.injEq]

/-- However a connection ends, its session is no longer marked and nothing else changes. -/
theorem finish_effect (w : SessionsWindow) (attempt : Attempt) (result : SshResult) :
    (∀ id, id ∈ (w.finishAddSshTerminalTask attempt result).sidebar.connectingSessionIds ↔
        attempt.sessionId ≠ some id ∧ id ∈ w.sidebar.connectingSessionIds) ∧
      (w.finishAddSshTerminalTask attempt result).openSession = w.openSession ∧
      (w.finishAddSshTerminalTask attempt result).attempts = w.attempts := by
  have hreplace (old : ℕ) : (w.replaceTab old attempt.sessionId).sidebar = w.sidebar ∧
      (w.replaceTab old attempt.sessionId).openSession = w.openSession ∧
      (w.replaceTab old attempt.sessionId).attempts = w.attempts := by
    unfold replaceTab
    split <;> exact ⟨rfl, rfl, rfl⟩
  unfold finishAddSshTerminalTask
  cases result with
  | connected =>
    rcases attempt.replacement with _ | old
    · exact clear_effect _ _
    · obtain ⟨hsidebar, hopen, hattempts⟩ := hreplace old
      have hclear := clear_effect (w.replaceTab old attempt.sessionId) attempt.sessionId
      rwa [hsidebar, hopen, hattempts] at hclear
  | hostKeyMismatch => exact clear_effect w _
  | failed =>
    rcases attempt.replacement with _ | old
    · exact clear_effect _ _
    · exact clear_effect w _

theorem marked_finished {attempt : Attempt} {result : SshResult} (h : w.Marked)
    (hstep : step w (.finished attempt result) = some w') : w'.Marked := by
  simp only [step] at hstep
  split at hstep
  · obtain rfl := Option.some.inj hstep
    obtain ⟨hmarks, hopen, hattempts⟩ :=
      finish_effect { w with attempts := w.attempts.erase attempt } attempt result
    intro id hid
    obtain ⟨hne, hid⟩ := (hmarks id).mp hid
    rcases h id hid with hid | ⟨other, hother, hid⟩
    · exact .inl (by rw [hopen]; exact hid)
    · have hdiffers : other ≠ attempt := fun heq => hne (heq ▸ hid)
      have hstays : other ∈ w.attempts.erase attempt := (List.mem_erase_of_ne hdiffers).mpr hother
      exact .inr ⟨other, by rw [hattempts]; exact hstays, hid⟩
  · cases hstep

/-- Every step at which the requests are met keeps the marks right. -/
theorem marked_step {event : Event} (h : w.Marked) (hstep : step w event = some w')
    (hopens : w.Opens event) : w'.Marked := by
  -- only opening, restoring and the end of an attempt touch what is connecting
  cases event with
  | click => exact marked_click h hstep
  | reload =>
    obtain rfl := Option.some.inj hstep
    exact h.mono (marks_startReload _).subset rfl fun _ ha => ha
  | loaded load result =>
    simp only [step] at hstep
    split at hstep
    · obtain rfl := Option.some.inj hstep
      exact h.mono (marks_loaded _ _ _).subset rfl fun _ ha => ha
    · cases hstep
  | delete id =>
    simp only [step] at hstep
    obtain rfl := Option.some.inj hstep
    exact h.mono (marks_delete _ _) rfl fun _ ha => ha
  | deleted id result =>
    simp only [step] at hstep
    split at hstep
    · obtain rfl := Option.some.inj hstep
      exact h.mono (marks_deleted _ _ _).subset rfl fun _ ha => ha
    · cases hstep
  | showError => cases hstep; exact h
  | clearOperationError =>
    simp only [step] at hstep
    obtain rfl := Option.some.inj hstep
    refine h.mono ?_ rfl fun _ ha => ha
    unfold SessionsSidebarView.clearOperationError
    split <;> exact Finset.Subset.refl _
  | openSession => exact marked_openSession h hstep hopens
  | restore tab answer =>
    simp only [step] at hstep
    split at hstep
    · obtain rfl := Option.some.inj hstep
      exact marked_restore h tab answer
    · cases hstep
  | connect =>
    cases hstep
    exact h.mono (Finset.Subset.refl _) rfl fun _ ha => List.mem_append_left _ ha
  | closeTab => cases hstep; exact h
  | finished => exact marked_finished h hstep

/-- In a run whose requests for marked sessions lead to connections, or meet other attempts, a session
is marked as connecting only while an attempt to open it is under way; one that is not under way can be
opened again. -/
theorem connecting_inFlight {result : Except Unit (List Session)} {tabs : List Tab} {next : ℕ}
    {es : List Event} (h : Run (Guarded (ofPartial step) Opens) (new result tabs next) es w) :
    (∀ id ∈ w.sidebar.connectingSessionIds, w.InFlight id) ∧
      ∀ itemId id, ¬ w.InFlight id → ∃ w', step w (.click itemId id true) = some w' ∧
        w'.openSession = w.openSession ++ [id] := by
  have hmarked : w.Marked :=
    h.invariant (I := Marked) (fun _ hid => absurd hid (Finset.notMem_empty _))
      fun _ _ _ _ _ ih ⟨hopens, hstep⟩ => marked_step ih hstep hopens
  refine ⟨hmarked, fun itemId id hnone => ⟨_, rfl, ?_⟩⟩
  have hconnecting : w.sidebar.isConnecting id = false :=
    decide_eq_false fun hmem => hnone (hmarked id hmem)
  have hrequest : (w.sidebar.handleSessionClick itemId id true).2 = some id := by
    unfold SessionsSidebarView.handleSessionClick
    simp only [if_true]
    rw [if_neg]
    · split <;> rfl
    · exact fun hboth => Bool.false_ne_true
        (hconnecting.symm.trans ((Bool.and_eq_true _ _).mp hboth).2)
  show w.openSession ++ (w.sidebar.handleSessionClick itemId id true).2.toList = _
  rw [hrequest]
  rfl

/-- A saved SSH session. -/
def savedSession (password : Option Text) : Session where
  id := 1
  protocol := .ssh
  groupPath := []
  label := "prod".toList
  backend := .alacritty
  env := none
  sshHost := some "example.com".toList
  sshAuthType := some .password
  sshPassword := password

/-- A session is opened by a click, with its password. -/
def opened : List Event :=
  [.click "session:ssh:1".toList 1 true,
    .openSession (.ok (some (savedSession (some "secret".toList)))), .finished ⟨some 1, none⟩ .connected]

theorem connecting_inFlight_opened : ∃ w,
    Run (Guarded (ofPartial step) Opens) (new (.ok []) [] 0) opened w ∧
      (∀ id ∈ w.sidebar.connectingSessionIds, w.InFlight id) ∧
        ∀ itemId id, ¬ w.InFlight id → ∃ w', step w (.click itemId id true) = some w' ∧
          w'.openSession = w.openSession ++ [id] := by
  obtain ⟨w, hrun, -⟩ := exists_run_of_any (new (.ok []) [] 0) opened (f := step)
    (p := fun _ => true) (by decide +kernel)
  have hopens : ∀ event ∈ opened, ∀ m : SessionsWindow, m.Opens event := by
    intro event hevent m
    simp only [opened, List.mem_cons, List.not_mem_nil, or_false] at hevent
    rcases hevent with rfl | rfl | rfl
    · trivial
    · exact fun _ _ _ _ => .inl ⟨_, rfl, rfl, rfl, by decide +kernel⟩
    · trivial
  have hguarded : Run (Guarded (ofPartial step) Opens) _ opened w :=
    hrun.guard fun i event m hi _ => hopens event (List.mem_of_getElem? hi) m
  exact ⟨w, hguarded, connecting_inFlight hguarded⟩

/-- Without its password the session is marked for good. -/
theorem not_inFlight_missingPassword : ¬ ∀ (result : Except Unit (List Session)) (tabs : List Tab)
    (next : ℕ) (es : List Event) (w : SessionsWindow),
    Run (ofPartial step) (new result tabs next) es w →
      ∀ id ∈ w.sidebar.connectingSessionIds, w.InFlight id := by
  intro h
  obtain ⟨w, hrun, hw⟩ := exists_run_of_any (new (.ok []) [] 0)
    [.click "session:ssh:1".toList 1 true, .openSession (.ok (some (savedSession none)))] (f := step)
    (p := fun w => 1 ∈ w.sidebar.connectingSessionIds ∧ w.openSession = [] ∧ w.attempts = [])
    (by decide +kernel)
  obtain ⟨hmark, hopen, hattempts⟩ := of_decide_eq_true hw
  rcases h _ _ _ _ w hrun 1 hmark with hid | ⟨attempt, ha, -⟩
  · rw [hopen] at hid
    exact List.not_mem_nil hid
  · rw [hattempts] at ha
    exact List.not_mem_nil ha

end SessionsWindow

end Termua.Window
