import Mathlib
import Termua.Lib.Run
import Termua.Lib.Text
import Termua.Session.Load

/-!
# The sidebar of the sessions and the opening of saved sessions

`SessionsSidebarView` (termua/src/panel/sessions_sidebar) and what the main window does with its
requests (window/main_window/actions/ssh.rs and terminal.rs), as one system: the loads, the deletions
and the connections that run in the background end in any order and with any outcome. The tree of the
sidebar, dialogs, messages in panels and terminals that are not SSH are left out.
-/

namespace Termua.Window

open Session (Session Text)

/-! ## The sidebar -/

/-- `SessionsSidebarError`. -/
inductive SessionsSidebarError
  | loadSessions
  | operation (message : Text)
  deriving DecidableEq

/-- `SessionsSidebarView`. -/
structure SessionsSidebarView where
  error : Option SessionsSidebarError
  reloadEpoch : ℕ
  reloadInFlight : Bool
  reloadPending : Bool
  selectedItemId : Text
  hoveredSessionId : Option ℤ
  connectingSessionIds : Finset ℤ
  deletingSessionIds : Finset ℤ
  sessions : List Session

/-- `str::parse` to an `i64`. -/
def parseI64 (text : Text) : Option ℤ :=
  let (sign, digits) :=
    match text with
    | '-' :: digits => (-1, digits)
    | '+' :: digits => (1, digits)
    | digits => ((1 : ℤ), digits)
  if digits = [] ∨ !digits.all Char.isDigit then none
  else (some (sign * Nat.ofDigitChars 10 digits 0)).filter fun n => -2 ^ 63 ≤ n ∧ n < 2 ^ 63

/-- `parse_session_id`: what stands behind the second colon of a session's item. -/
def parseSessionId (itemId : Text) : Option ℤ :=
  match itemId.dropPrefix? "session:".toList with
  | none => none
  | some id =>
    match id.dropWhile (· ≠ ':') with
    | ':' :: id => parseI64 id
    | _ => none

namespace SessionsSidebarView

variable (this : SessionsSidebarView)

/-- `SessionsSidebarView::new`, with what `load_all_sessions` says. -/
def new (result : Except Unit (List Session)) : SessionsSidebarView where
  error := match result with
    | .ok _ => none
    | .error _ => some .loadSessions
  reloadEpoch := 0
  reloadInFlight := false
  reloadPending := false
  selectedItemId := []
  hoveredSessionId := none
  connectingSessionIds := ∅
  deletingSessionIds := ∅
  sessions := result.toOption.getD []

/-- `show_error`. -/
def showError (message : Text) : SessionsSidebarView := { this with error := some (.operation message) }

/-- `clear_operation_error`. -/
def clearOperationError : SessionsSidebarView :=
  match this.error with
  | some (.operation _) => { this with error := none }
  | _ => this

/-- `is_connecting`. -/
def isConnecting (sessionId : ℤ) : Bool := sessionId ∈ this.connectingSessionIds

/-- `set_connecting`. -/
def setConnecting (sessionId : ℤ) (connecting : Bool) : SessionsSidebarView :=
  { this with
    connectingSessionIds :=
      if connecting then insert sessionId this.connectingSessionIds
      else this.connectingSessionIds.erase sessionId }

/-- The item is that of an SSH session. -/
def isSshItem (itemId : Text) : Bool := "session:ssh:".toList.isPrefixOf itemId

/-- `handle_session_click`, and the session that is to be opened. -/
def handleSessionClick (itemId : Text) (sessionId : ℤ) (shouldOpen : Bool) :
    SessionsSidebarView × Option ℤ :=
  let this := { this with selectedItemId := itemId, hoveredSessionId := some sessionId }
  if shouldOpen then
    if isSshItem itemId && this.isConnecting sessionId then (this, none)
    else if isSshItem itemId then (this.setConnecting sessionId true, some sessionId)
    else (this, some sessionId)
  else (this, none)

/-- `start_reload_sessions_async`, and the epoch of the load that starts. -/
def startReloadSessionsAsync : SessionsSidebarView × Option ℕ :=
  if this.reloadInFlight then ({ this with reloadPending := true }, none)
  else
    let epoch := min (this.reloadEpoch + 1) (2 ^ 64 - 1)
    ({ this with reloadEpoch := epoch, reloadInFlight := true, reloadPending := false }, some epoch)

/-- The end of a load in `start_reload_sessions_async`, and the epoch of the load that follows it. -/
def loaded (epoch : ℕ) (result : Except Unit (List Session)) : SessionsSidebarView × Option ℕ :=
  if this.reloadEpoch ≠ epoch then (this, none)
  else
    let this := { this with reloadInFlight := false }
    let this :=
      match result with
      | .ok sessions =>
        { this with
          error := if this.error = some SessionsSidebarError.loadSessions then none else this.error
          sessions := sessions }
      | .error _ => { this with error := some .loadSessions }
    if this.reloadPending then this.startReloadSessionsAsync else (this, none)

/-- `delete_session_by_id`, and whether a deletion starts. -/
def deleteSessionById (id : ℤ) : SessionsSidebarView × Bool :=
  if id ∈ this.deletingSessionIds then (this, false)
  else
    ({ this with
      deletingSessionIds := insert id this.deletingSessionIds
      connectingSessionIds := this.connectingSessionIds.erase id
      selectedItemId :=
        if parseSessionId this.selectedItemId = some id then [] else this.selectedItemId }, true)

/-- The end of a deletion in `delete_session_by_id`, and the epoch of the load that starts. -/
def deleted (id : ℤ) (result : Except Text Unit) : SessionsSidebarView × Option ℕ :=
  let this := { this with deletingSessionIds := this.deletingSessionIds.erase id }
  let this :=
    match result with
    | .ok () => this
    | .error err =>
      this.showError ("Failed to delete session ".toList ++ (toString id).toList ++ ": ".toList ++ err)
  this.startReloadSessionsAsync

end SessionsSidebarView

/-! ## The window -/

/-- A load of the sessions: the epoch it has, and how many requests there were when it started (which
the code does not count). -/
structure Load where
  epoch : ℕ
  started : ℕ
  deriving DecidableEq

/-- What a tab shows: an SSH terminal, or the panel that says why there is none (`SshErrorPanel`). -/
inductive TabKind
  | terminal | sshError
  deriving DecidableEq

/-- A tab for an SSH session. -/
structure Tab where
  id : ℕ
  kind : TabKind
  sessionId : Option ℤ
  deriving DecidableEq

/-- A connection that is made in the background, for a saved session or for none, and the tab that its
terminal replaces. -/
structure Attempt where
  sessionId : Option ℤ
  replacement : Option ℕ
  deriving DecidableEq

/-- What comes of a connection: a terminal, a mismatch of the host's key, or another failure. -/
inductive SshResult
  | connected | hostKeyMismatch | failed
  deriving DecidableEq

/-- The window with its sidebar, the tasks in the background and the requests of the sidebar that are
not handled yet. `requests` is not in the code: how many reloads were asked for. -/
structure SessionsWindow where
  sidebar : SessionsSidebarView
  loads : List Load
  requests : ℕ
  deletions : List ℤ
  openSession : List ℤ
  attempts : List Attempt
  tabs : List Tab
  nextTerminalId : ℕ

namespace SessionsWindow

variable (w : SessionsWindow)

/-- The window at the start, where the sessions were loaded at once and the tabs were restored. -/
def new (result : Except Unit (List Session)) (tabs : List Tab) (nextTerminalId : ℕ) :
    SessionsWindow where
  sidebar := .new result
  loads := []
  requests := 0
  deletions := []
  openSession := []
  attempts := []
  tabs := tabs
  nextTerminalId := nextTerminalId

/-- The window with the sidebar after a call, and with the load that the call starts. -/
def withLoad (call : SessionsSidebarView × Option ℕ) : SessionsWindow :=
  { w with
    sidebar := call.1
    loads := w.loads ++ (call.2.map fun epoch => { epoch, started := w.requests }).toList }

/-- The password that a saved session connects with is missing. -/
def missingPassword (session : Session) : Bool :=
  session.sshAuthType = some .password && session.sshPassword.getD [] = []

/-- `add_ssh_terminal_with_params_at`. -/
def addSshTerminalWithParamsAt (sessionId : Option ℤ) (replacement : Option ℕ) : SessionsWindow :=
  { w with attempts := w.attempts ++ [{ sessionId, replacement }] }

/-- `open_saved_ssh_session_at`. -/
def openSavedSshSessionAt (session : Session) (sessionId : ℤ) (replacement : Option ℕ) :
    SessionsWindow :=
  match session.sshHost with
  | none => w
  | some _ =>
    if missingPassword session then w
    else w.addSshTerminalWithParamsAt (some sessionId) replacement

/-- `open_session_by_id`, with what `load_session` says. -/
def openSessionById (id : ℤ) (answer : Except Unit (Option Session)) : SessionsWindow :=
  match answer with
  | .ok (some session) =>
    match session.protocol with
    | .ssh => w.openSavedSshSessionAt session id none
    | .local => w
    | .serial => w
  | _ => w

/-- `clear_connecting_session`. -/
def clearConnectingSession (sessionId : Option ℤ) : SessionsWindow :=
  match sessionId with
  | none => w
  | some sessionId => { w with sidebar := w.sidebar.setConnecting sessionId false }

/-- A tab behind the others, with an id of its own. -/
def addTab (kind : TabKind) (sessionId : Option ℤ) : SessionsWindow :=
  { w with
    tabs := w.tabs ++ [{ id := w.nextTerminalId, kind, sessionId }]
    nextTerminalId := w.nextTerminalId + 1 }

/-- `replace_ssh_restore_panel`: in the place of the tab, or behind the others if it was closed. -/
def replaceTab (old : ℕ) (sessionId : Option ℤ) : SessionsWindow :=
  if old ∈ w.tabs.map (·.id) then
    { w with
      tabs := w.tabs.map fun tab =>
        if tab.id = old then { id := w.nextTerminalId, kind := .terminal, sessionId } else tab
      nextTerminalId := w.nextTerminalId + 1 }
  else w.addTab .terminal sessionId

/-- `finish_add_ssh_terminal_task`. -/
def finishAddSshTerminalTask (attempt : Attempt) (result : SshResult) : SessionsWindow :=
  match result with
  | .connected =>
    match attempt.replacement with
    | some old => (w.replaceTab old attempt.sessionId).clearConnectingSession attempt.sessionId
    | none => (w.addTab .terminal attempt.sessionId).clearConnectingSession attempt.sessionId
  | .hostKeyMismatch => w.clearConnectingSession attempt.sessionId
  | .failed =>
    match attempt.replacement with
    | some _ => w.clearConnectingSession attempt.sessionId
    | none => (w.addTab .sshError attempt.sessionId).clearConnectingSession attempt.sessionId

/-- `restore_pending_ssh_panels` for one tab, with what `load_session` says. -/
def restoreSshPanel (tab : Tab) (answer : Except Unit (Option Session)) : SessionsWindow :=
  match tab.sessionId, answer with
  | some sessionId, .ok (some session) =>
    w.openSavedSshSessionAt session sessionId (some tab.id)
  | _, _ => w

/-- The events of the window. -/
inductive Event
  /-- The user clicks on a session. -/
  | click (itemId : Text) (sessionId : ℤ) (shouldOpen : Bool)
  /-- A reload is asked for (`reload`). -/
  | reload
  /-- A load ends. -/
  | loaded (load : Load) (result : Except Unit (List Session))
  /-- The user deletes a session. -/
  | delete (id : ℤ)
  /-- A deletion ends. -/
  | deleted (id : ℤ) (result : Except Text Unit)
  /-- An operation elsewhere failed. -/
  | showError (message : Text)
  /-- An operation elsewhere succeeded. -/
  | clearOperationError
  /-- The window handles the first request of the sidebar, with what the store says. -/
  | openSession (answer : Except Unit (Option Session))
  /-- The window restores the tab of a session, with what the store says. -/
  | restore (tab : Tab) (answer : Except Unit (Option Session))
  /-- The window connects to a host that is not saved. -/
  | connect
  /-- The user closes a tab. -/
  | closeTab (id : ℕ)
  /-- A connection is made or fails. -/
  | finished (attempt : Attempt) (result : SshResult)

/-- A step of the window, where the event is possible. -/
def step (w : SessionsWindow) : Event → Option SessionsWindow
  | .click itemId sessionId shouldOpen =>
    let call := w.sidebar.handleSessionClick itemId sessionId shouldOpen
    some { w with sidebar := call.1, openSession := w.openSession ++ call.2.toList }
  | .reload =>
    let w := { w with requests := w.requests + 1 }
    some (w.withLoad w.sidebar.startReloadSessionsAsync)
  | .loaded load result =>
    if load ∈ w.loads then
      let w := { w with loads := w.loads.erase load }
      some (w.withLoad (w.sidebar.loaded load.epoch result))
    else none
  | .delete id =>
    let call := w.sidebar.deleteSessionById id
    some { w with sidebar := call.1, deletions := w.deletions ++ if call.2 then [id] else [] }
  | .deleted id result =>
    if id ∈ w.deletions then
      let w := { w with deletions := w.deletions.erase id, requests := w.requests + 1 }
      some (w.withLoad (w.sidebar.deleted id result))
    else none
  | .showError message => some { w with sidebar := w.sidebar.showError message }
  | .clearOperationError => some { w with sidebar := w.sidebar.clearOperationError }
  | .openSession answer =>
    match w.openSession with
    | [] => none
    | id :: rest => some ({ w with openSession := rest }.openSessionById id answer)
  | .restore tab answer =>
    if tab ∈ w.tabs ∧ tab.kind = .sshError then some (w.restoreSshPanel tab answer) else none
  | .connect => some (w.addSshTerminalWithParamsAt none none)
  | .closeTab id => some { w with tabs := w.tabs.filter (·.id ≠ id) }
  | .finished attempt result =>
    if attempt ∈ w.attempts then
      some ({ w with attempts := w.attempts.erase attempt }.finishAddSshTerminalTask attempt result)
    else none

end SessionsWindow

end Termua.Window
