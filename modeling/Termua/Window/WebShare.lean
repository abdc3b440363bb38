import Mathlib
import Termua.Lib.Run
import Termua.Web.Server

/-!
# The shares of a window

The part of `TermuaWindow` that starts and stops web shares: `window/main_window/actions.rs`,
`window/main_window/state.rs` and the session lock of `lock_screen/mod.rs`.

`step` takes one step: an action of the user, the completion of a bind, a change of the session lock
together with its observer (which runs before anything else can), the closing of a tab, the
one-second loop that watches a share, or a step of one of the servers. The clock, the platform's
authentication and the network are free: a bind may succeed or fail, and a share may be found idle
at any time.
-/

namespace Termua.Window

open Termua.Cast (TerminalScreen)
open Termua.Web (Server)

/-- `gpui::EntityId`, here of a terminal. -/
abbrev EntityId := ℕ

/-- The number of a start of a share: of the task that binds the server, and of the server. -/
abbrev ServerId := ℕ

/-! ## The session lock -/

/-- `LockState` without its clock and its authenticator. -/
structure LockState where
  supported : Bool
  userEnabled : Bool
  locked : Bool
  deriving DecidableEq, Repr

namespace LockState

/-- `LockState::new_default`. -/
def newDefault (supported : Bool) : LockState where
  supported := supported
  userEnabled := true
  locked := false

/-- `LockState::locking_enabled`. -/
def lockingEnabled (s : LockState) : Bool := s.supported && s.userEnabled

/-- `LockState::set_user_enabled`. -/
def setUserEnabled (s : LockState) (enabled : Bool) : LockState :=
  let s := { s with userEnabled := enabled }
  if !s.lockingEnabled then { s with locked := false } else s

/-- `LockState::lock_now`. -/
def lockNow (s : LockState) : Bool × LockState :=
  if !s.lockingEnabled then (false, s) else (true, { s with locked := true })

/-- `LockState::try_unlock`, where `verified` is what the authenticator says of the password. -/
def tryUnlock (s : LockState) (verified : Except Unit Bool) : Except Unit Bool × LockState :=
  if !s.locked then (.ok true, s)
  else
    match verified with
    | .error error => (.error error, s)
    | .ok true => (.ok true, { s with locked := false })
    | .ok false => (.ok false, s)

end LockState

/-! ## The indicator -/

/-- `WebShareStatus`. -/
structure WebShareStatus where
  url : String
  clientCount : ℕ
  deriving DecidableEq, Repr

/-- `WebShareIndicator`. -/
abbrev WebShareIndicator := Std.ExtTreeMap EntityId WebShareStatus

namespace WebShareIndicator

/-- `WebShareIndicator::activate`. -/
def activate (s : WebShareIndicator) (terminal : EntityId) (url : String) : WebShareIndicator :=
  s.insert terminal { url := url, clientCount := 0 }

/-- `WebShareIndicator::deactivate`. -/
def deactivate (s : WebShareIndicator) (terminal : EntityId) : WebShareIndicator :=
  s.erase terminal

/-- `WebShareIndicator::clear`. -/
def clear (_ : WebShareIndicator) : WebShareIndicator := ∅

/-- `WebShareIndicator::is_active_for`. -/
def isActiveFor (s : WebShareIndicator) (terminal : EntityId) : Bool := s.contains terminal

/-- `WebShareIndicator::set_client_count`. -/
def setClientCount (s : WebShareIndicator) (terminal : EntityId) (clientCount : ℕ) :
    Bool × WebShareIndicator :=
  match s[terminal]? with
  | none => (false, s)
  | some status =>
    if status.clientCount = clientCount then (false, s)
    else (true, s.insert terminal { status with clientCount := clientCount })

@[simp] theorem isActiveFor_activate (s : WebShareIndicator) (terminal t : EntityId)
    (url : String) :
    (s.activate terminal url).isActiveFor t = (decide (terminal = t) || s.isActiveFor t) := by
  simp [isActiveFor, activate, Std.ExtTreeMap.contains_insert, Bool.beq_eq_decide_eq]

@[simp] theorem isActiveFor_deactivate (s : WebShareIndicator) (terminal t : EntityId) :
    (s.deactivate terminal).isActiveFor t = (!decide (terminal = t) && s.isActiveFor t) := by
  by_cases h : terminal = t <;> simp [isActiveFor, deactivate, Std.ExtTreeMap.contains_erase, h]

@[simp] theorem isActiveFor_clear (s : WebShareIndicator) (t : EntityId) :
    s.clear.isActiveFor t = false := by
  simp [isActiveFor, clear]

/-- Counting clients shows and hides nothing. -/
@[simp] theorem isActiveFor_setClientCount (s : WebShareIndicator) (terminal t : EntityId)
    (clientCount : ℕ) : (s.setClientCount terminal clientCount).2.isActiveFor t =
      s.isActiveFor t := by
  rw [setClientCount]
  split
  · rfl
  · next status hstatus =>
    split
    · rfl
    · by_cases heq : terminal = t
      · subst heq
        have hmem : terminal ∈ s := Std.ExtTreeMap.mem_iff_isSome_getElem?.mpr (by simp [hstatus])
        simpa [isActiveFor] using hmem
      · simp [isActiveFor, Std.ExtTreeMap.contains_insert, heq]

end WebShareIndicator

/-! ## The window -/

/-- `WebShareEntry`. -/
structure WebShareEntry where
  server : ServerId
  tabLabel : String
  deriving DecidableEq, Repr

/-- `WebShareToggleAction`. -/
inductive WebShareToggleAction
  | start
  | stop
  | wait
  deriving DecidableEq, Repr

/-- `web_share_toggle_action`. -/
def webShareToggleAction (active starting : Bool) : WebShareToggleAction :=
  if active then .stop else if starting then .wait else .start

/-- How far `bind_with_manager` is in a task. -/
inductive BindResult
  | running
  | ok
  | error
  deriving DecidableEq, Repr

/-- The task that starts a share, until it has handled the result of `bind_with_manager`. -/
structure Binding where
  terminal : EntityId
  tabLabel : String
  token : String
  snapshot : TerminalScreen
  result : BindResult

/-- A server that was bound, with the terminal it was bound for. -/
structure BoundServer where
  terminal : EntityId
  server : Server

/-- `WebShareServer::shutdown`. -/
def BoundServer.shutdown (bound : BoundServer) : BoundServer :=
  { bound with server := bound.server.shutdown }

/-- What `TermuaWindow` has to do with shares.

`servers` holds every server that was ever bound, `bindings` the tasks that have not handled their
result yet, and `expiring` the shares whose one-second loop runs. -/
structure TermuaWindow where
  lock : LockState
  lastObservedLocked : Option Bool
  webShares : Std.ExtTreeMap EntityId WebShareEntry
  webShareIndicator : WebShareIndicator
  webSharesStarting : Finset EntityId
  bindings : ServerId → Option Binding
  servers : ServerId → Option BoundServer
  expiring : Finset ServerId
  nextServer : ServerId

/-- A step of the window. -/
inductive Event
  /-- The action `ShareTerminalWeb` on the focused terminal. -/
  | toggle (terminal : EntityId) (tabLabel token : String) (snapshot : TerminalScreen)
  /-- `bind_with_manager` returns. -/
  | bound (server : ServerId) (ok : Bool)
  /-- The task of a share handles the result of `bind_with_manager`. -/
  | complete (server : ServerId) (url : String)
  | lockNow
  | tryUnlock (verified : Except Unit Bool)
  | setUserEnabled (enabled : Bool)
  /-- The panel of a terminal is closed. -/
  | panelClosed (terminal : EntityId)
  /-- The layout of the dock has changed, and it has the tabs of these terminals. -/
  | layoutChanged (openTerminals : Finset EntityId)
  /-- One turn of the loop that watches a share. -/
  | tick (server : ServerId)
  /-- The loop that watches a share ends. -/
  | expire (server : ServerId)
  /-- A step of a server. -/
  | server (server : ServerId) (event : Web.Event)

namespace TermuaWindow

/-- A window that has just been opened. -/
def new (lock : LockState) : TermuaWindow where
  lock := lock
  lastObservedLocked := some lock.locked
  webShares := ∅
  webShareIndicator := ∅
  webSharesStarting := ∅
  bindings _ := none
  servers _ := none
  expiring := ∅
  nextServer := 0

/-- `shutdown` of a server. -/
def shutdownServer (w : TermuaWindow) (server : ServerId) : TermuaWindow :=
  { w with
    servers := Function.update w.servers server ((w.servers server).map BoundServer.shutdown) }

/-- `stop_web_share_for_terminal`. -/
def stopWebShareForTerminal (w : TermuaWindow) (terminal : EntityId) :
    Option WebShareEntry × TermuaWindow :=
  let share := w.webShares[terminal]?
  let w :=
    { w with
      webSharesStarting := w.webSharesStarting.erase terminal
      webShares := w.webShares.erase terminal }
  let w := match share with
    | some share => w.shutdownServer share.server
    | none => w
  (share, { w with webShareIndicator := w.webShareIndicator.deactivate terminal })

/-- `stop_web_share_for_terminal` for one terminal after the other. -/
def stopWebShares (w : TermuaWindow) (terminals : List EntityId) : TermuaWindow :=
  terminals.foldl (fun w terminal => (w.stopWebShareForTerminal terminal).2) w

/-- `stop_web_shares_without_tabs`. -/
def stopWebSharesWithoutTabs (w : TermuaWindow) (openTerminals : Finset EntityId) :
    TermuaWindow :=
  let staleShares := w.webShares.keys.filter (· ∉ openTerminals)
  let w := w.stopWebShares staleShares
  { w with webSharesStarting := w.webSharesStarting.filter (· ∈ openTerminals) }

/-- `on_share_terminal_web`. -/
def onShareTerminalWeb (w : TermuaWindow) (terminal : EntityId) (tabLabel token : String)
    (snapshot : TerminalScreen) : TermuaWindow :=
  if w.lock.locked then w
  else
    match webShareToggleAction (w.webShares.contains terminal)
      (decide (terminal ∈ w.webSharesStarting)) with
    | .stop => (w.stopWebShareForTerminal terminal).2
    | .wait => w
    | .start =>
      { w with
        webSharesStarting := insert terminal w.webSharesStarting
        bindings := Function.update w.bindings w.nextServer
          (some ⟨terminal, tabLabel, token, snapshot, .running⟩)
        nextServer := w.nextServer + 1 }

/-- `bind_with_manager` returns. -/
def bindReturns (w : TermuaWindow) (server : ServerId) (binding : Binding) (ok : Bool) :
    TermuaWindow :=
  if ok then
    { w with
      servers := Function.update w.servers server
        (some ⟨binding.terminal, .bind binding.token binding.snapshot⟩)
      bindings := Function.update w.bindings server (some { binding with result := .ok }) }
  else { w with bindings := Function.update w.bindings server (some { binding with result := .error }) }

/-- What the task of `on_share_terminal_web` does with the result of `bind_with_manager`. -/
def completeBinding (w : TermuaWindow) (server : ServerId) (binding : Binding) (url : String) :
    TermuaWindow :=
  let w := { w with bindings := Function.update w.bindings server none }
  if binding.terminal ∉ w.webSharesStarting then
    if binding.result = .ok then w.shutdownServer server else w
  else
    let w := { w with webSharesStarting := w.webSharesStarting.erase binding.terminal }
    if binding.result ≠ .ok then w
    else if w.lock.locked then w.shutdownServer server
    else
      { w with
        webShares := w.webShares.insert binding.terminal ⟨server, binding.tabLabel⟩
        webShareIndicator := w.webShareIndicator.activate binding.terminal url
        expiring := insert server w.expiring }

/-- The turn of the loop that watches a share: `set_client_count`. -/
def tick (w : TermuaWindow) (bound : BoundServer) : TermuaWindow :=
  { w with
    webShareIndicator :=
      (w.webShareIndicator.setClientCount bound.terminal bound.server.clients.card).2 }

/-- What follows the loop that watches a share. -/
def expire (w : TermuaWindow) (server : ServerId) (bound : BoundServer) : TermuaWindow :=
  let w := { w with expiring := w.expiring.erase server }.shutdownServer server
  if w.webShares[bound.terminal]?.any (·.server = server) then
    { w with
      webShares := w.webShares.erase bound.terminal
      webShareIndicator := w.webShareIndicator.deactivate bound.terminal }
  else w

/-- `shutdown` of one server after the other. -/
def shutdownServers (w : TermuaWindow) (servers : List ServerId) : TermuaWindow :=
  servers.foldl shutdownServer w

/-- The observer of `install_lock_state_subscription`. -/
def observeLockState (w : TermuaWindow) : TermuaWindow :=
  if w.lastObservedLocked = some w.lock.locked then w
  else
    let w := { w with lastObservedLocked := some w.lock.locked }
    if w.lock.locked then
      let shares : List (EntityId × WebShareEntry) := w.webShares.toList
      let w := { w with webShares := ∅ }
      let w := w.shutdownServers (shares.map fun (_, share) => share.server)
      { w with webShareIndicator := w.webShareIndicator.clear, webSharesStarting := ∅ }
    else w

/-- One step; `none` when it is not possible. -/
def step (w : TermuaWindow) : Event → Option TermuaWindow
  | .toggle terminal tabLabel token snapshot =>
    some (w.onShareTerminalWeb terminal tabLabel token snapshot)
  | .bound server ok =>
    (w.bindings server).bind fun binding =>
      if binding.result = .running then some (w.bindReturns server binding ok) else none
  | .complete server url =>
    (w.bindings server).bind fun binding =>
      if binding.result ≠ .running then some (w.completeBinding server binding url) else none
  | .lockNow => some { w with lock := w.lock.lockNow.2 }.observeLockState
  | .tryUnlock verified => some { w with lock := (w.lock.tryUnlock verified).2 }.observeLockState
  | .setUserEnabled enabled =>
    some { w with lock := w.lock.setUserEnabled enabled }.observeLockState
  | .panelClosed terminal => some (w.stopWebShareForTerminal terminal).2
  | .layoutChanged openTerminals => some (w.stopWebSharesWithoutTabs openTerminals)
  | .tick server =>
    (w.servers server).bind fun bound => if server ∈ w.expiring then some (w.tick bound) else none
  | .expire server =>
    (w.servers server).bind fun bound =>
      if server ∈ w.expiring then some (w.expire server bound) else none
  | .server server event =>
    (w.servers server).bind fun bound =>
      -- only the window shuts a server down
      match event with
      | .shutdown => none
      | event => (bound.server.step event).map fun next =>
        { w with servers := Function.update w.servers server (some { bound with server := next }) }

/-- The steps `es` lead from a window that has just been opened to `w`. -/
def Reaches (lock : LockState) (es : List Event) (w : TermuaWindow) : Prop :=
  Transition.Run (Transition.ofPartial step) (new lock) es w

end TermuaWindow

end Termua.Window
