import Mathlib
import Termua.Lib.Table
import Termua.Web.Step
import Termua.Window.WebShare

/-!
# The life of a share

A server is bound by a task, which registers it in `webShares` or shuts it down; it stays registered
until the window, the session lock or its own one-second loop shuts it down. `ShareInv` is what
holds in every state of the window: an open server is either that of the entry of its terminal or
still in the hands of its task.
-/

namespace Termua.Window

open Table (update_some_eq_some update_none_eq_some update_none_eq_none)

namespace TermuaWindow

/-- The server is registered for the terminal. -/
def Registered (w : TermuaWindow) (server : ServerId) (terminal : EntityId) : Prop :=
  ∃ share, w.webShares[terminal]? = some share ∧ share.server = server

/-- The server is bound, and its task has not handled that yet. -/
def InHand (w : TermuaWindow) (server : ServerId) : Prop :=
  ∃ binding, w.bindings server = some binding ∧ binding.result = .ok

/-- The server was bound for the terminal and is not shut down. -/
def Live (w : TermuaWindow) (server : ServerId) (terminal : EntityId) : Prop :=
  ∃ bound, w.servers server = some bound ∧ bound.terminal = terminal ∧ bound.server.closed = false

/-- What holds in every state of a window. -/
structure ShareInv (w : TermuaWindow) : Prop where
  observed : w.lastObservedLocked = some w.lock.locked
  locked : w.lock.locked = true → w.webShares = ∅ ∧ w.webSharesStarting = ∅
  starting : ∀ terminal ∈ w.webSharesStarting, w.webShares[terminal]? = none
  shown : ∀ terminal, w.webShareIndicator.isActiveFor terminal = w.webShares.contains terminal
  registered : ∀ server terminal, w.Registered server terminal →
    w.bindings server = none ∧ w.Live server terminal
  live : ∀ server terminal, w.Live server terminal → w.Registered server terminal ∨ w.InHand server
  inHand : ∀ server binding, w.bindings server = some binding → binding.result = .ok →
    w.Live server binding.terminal
  unbound : ∀ server binding, w.bindings server = some binding → binding.result ≠ .ok →
    w.servers server = none
  expiring : ∀ server ∈ w.expiring, w.bindings server = none ∧ w.servers server ≠ none
  fresh : ∀ server, w.nextServer ≤ server → w.bindings server = none ∧ w.servers server = none

section Step

variable {w : TermuaWindow}

/-! ## Servers that are shut down -/

/-- Who is live after a server was shut down. -/
theorem live_shutdownServer_iff {server other : ServerId} {terminal : EntityId} :
    (w.shutdownServer server).Live other terminal ↔ other ≠ server ∧ w.Live other terminal := by
  by_cases heq : other = server
  · subst heq
    refine iff_of_false ?_ fun h => h.1 rfl
    rintro ⟨bound, hbound, -, hclosed⟩
    simp only [shutdownServer, Function.update_self] at hbound
    obtain ⟨before, -, rfl⟩ := Option.map_eq_some_iff.mp hbound
    simp [BoundServer.shutdown] at hclosed
  · simp [Live, shutdownServer, heq]

theorem servers_shutdownServer_eq_none {server other : ServerId} :
    (w.shutdownServer server).servers other = none ↔ w.servers other = none := by
  by_cases heq : other = server
  · subst heq; simp [shutdownServer]
  · simp [shutdownServer, heq]

/-- Who is live after several servers were shut down. -/
theorem live_shutdownServers_iff {servers : List ServerId} {other : ServerId}
    {terminal : EntityId} :
    (w.shutdownServers servers).Live other terminal ↔ other ∉ servers ∧ w.Live other terminal := by
  induction servers generalizing w with
  | nil => simp [shutdownServers]
  | cons server servers ih =>
    rw [shutdownServers, List.foldl_cons, ← shutdownServers, ih, live_shutdownServer_iff,
      List.mem_cons, not_or]
    tauto

/-- Shutting servers down changes nothing but the servers. -/
theorem shutdownServers_eq (servers : List ServerId) :
    ∃ after, w.shutdownServers servers = { w with servers := after } ∧
      ∀ other, after other = none ↔ w.servers other = none := by
  induction servers generalizing w with
  | nil => exact ⟨w.servers, rfl, fun _ => Iff.rfl⟩
  | cons server servers ih =>
    obtain ⟨after, heq, hnone⟩ := @ih (w.shutdownServer server)
    exact ⟨after, heq, fun other => (hnone other).trans servers_shutdownServer_eq_none⟩

/-! ## Shares that are stopped -/

/-- Stopping a share changes the entry, the indicator and the start of its terminal, and servers. -/
theorem stopWebShareForTerminal_eq (terminal : EntityId) :
    ∃ after, (w.stopWebShareForTerminal terminal).2 =
        { w with
          webSharesStarting := w.webSharesStarting.erase terminal
          webShares := w.webShares.erase terminal
          webShareIndicator := w.webShareIndicator.deactivate terminal
          servers := after } ∧
      ∀ other, after other = none ↔ w.servers other = none := by
  rw [stopWebShareForTerminal]
  cases w.webShares[terminal]? with
  | none => exact ⟨w.servers, rfl, fun _ => Iff.rfl⟩
  | some share => exact ⟨_, rfl, fun _ => servers_shutdownServer_eq_none⟩

/-- Stopping a share shuts down the server that is registered for the terminal. -/
theorem live_stopWebShareForTerminal_iff {terminal t : EntityId} {server : ServerId} :
    (w.stopWebShareForTerminal terminal).2.Live server t ↔
      ¬ w.Registered server terminal ∧ w.Live server t := by
  rw [stopWebShareForTerminal]
  cases hshare : w.webShares[terminal]? with
  | none =>
    have hnot : ¬ w.Registered server terminal := by simp [Registered, hshare]
    exact ⟨fun h => ⟨hnot, h⟩, fun h => h.2⟩
  | some share =>
    have hregistered : w.Registered server terminal ↔ share.server = server := by
      simp [Registered, hshare]
    have hlive := @live_shutdownServer_iff w share.server server t
    rw [hregistered, eq_comm]
    exact hlive

/-- The entries of the other terminals stay. -/
theorem getElem?_erase_eq_some {terminal t : EntityId} {share : WebShareEntry} :
    (w.webShares.erase terminal)[t]? = some share ↔
      terminal ≠ t ∧ w.webShares[t]? = some share := by
  rw [Std.ExtTreeMap.getElem?_erase]
  by_cases heq : terminal = t <;> simp [heq]

/-- Stopping a share keeps the invariant. -/
theorem ShareInv.stopWebShareForTerminal (h : ShareInv w) (terminal : EntityId) :
    ShareInv (w.stopWebShareForTerminal terminal).2 := by
  have hlive := fun server t => @live_stopWebShareForTerminal_iff w terminal t server
  obtain ⟨after, heq, hnone⟩ := w.stopWebShareForTerminal_eq terminal
  rw [heq] at hlive ⊢
  refine
    { h with
      locked := fun hlocked => ?_
      starting := fun t ht => ?_
      shown := fun t => ?_
      registered := fun server t hregistered => ?_
      live := fun server t hl => ?_
      inHand := fun server binding hbinding hok => ?_
      unbound := fun server binding hbinding hok => (hnone server).mpr (h.unbound _ _ hbinding hok)
      expiring := fun server hserver =>
        ⟨(h.expiring server hserver).1, fun hn => (h.expiring server hserver).2 ((hnone server).mp hn)⟩
      fresh := fun server hserver =>
        ⟨(h.fresh server hserver).1, (hnone server).mpr (h.fresh server hserver).2⟩ }
  · obtain ⟨hshares, hstarting⟩ := h.locked hlocked
    exact ⟨by simp [hshares], by simp [hstarting]⟩
  · obtain ⟨hne, hmem⟩ := Finset.mem_erase.mp ht
    simp [Std.ExtTreeMap.getElem?_erase, h.starting t hmem]
  · by_cases heq : terminal = t <;> simp [Std.ExtTreeMap.contains_erase, heq, h.shown]
  · obtain ⟨share, hshare, rfl⟩ := hregistered
    obtain ⟨hne, hshare⟩ := getElem?_erase_eq_some.mp hshare
    obtain ⟨hbinding, hl⟩ := h.registered share.server t ⟨share, hshare, rfl⟩
    refine ⟨hbinding, (hlive _ _).mpr ⟨fun hother => hne ?_, hl⟩⟩
    -- a server is registered for its own terminal only
    obtain ⟨bound, hbound, rfl, -⟩ := (h.registered _ _ hother).2
    obtain ⟨bound', hbound', rfl, -⟩ := hl
    rw [Option.some.inj (hbound.symm.trans hbound')]
  · obtain ⟨hnot, hl⟩ := (hlive server t).mp hl
    refine (h.live server t hl).imp_left fun ⟨share, hshare, hserver⟩ => ?_
    have hne : terminal ≠ t := by
      rintro rfl
      exact hnot ⟨share, hshare, hserver⟩
    exact ⟨share, getElem?_erase_eq_some.mpr ⟨hne, hshare⟩, hserver⟩
  · refine (hlive _ _).mpr ⟨fun hregistered => ?_, h.inHand server binding hbinding hok⟩
    rw [(h.registered _ _ hregistered).1] at hbinding
    cases hbinding

/-- Stopping shares one after the other keeps the invariant. -/
theorem ShareInv.stopWebShares (h : ShareInv w) (terminals : List EntityId) :
    ShareInv (w.stopWebShares terminals) := by
  induction terminals generalizing w with
  | nil => exact h
  | cons terminal terminals ih => exact ih (h.stopWebShareForTerminal terminal)

/-- Forgetting starts keeps the invariant. -/
theorem ShareInv.forgetStarts (h : ShareInv w) {starting : Finset EntityId}
    (hstarting : starting ⊆ w.webSharesStarting) :
    ShareInv { w with webSharesStarting := starting } :=
  { h with
    locked := fun hlocked =>
      ⟨(h.locked hlocked).1, Finset.subset_empty.mp ((h.locked hlocked).2 ▸ hstarting)⟩
    starting := fun t ht => h.starting t (hstarting ht) }

/-- Stopping the shares without tabs keeps the invariant. -/
theorem ShareInv.stopWebSharesWithoutTabs (h : ShareInv w) (openTerminals : Finset EntityId) :
    ShareInv (w.stopWebSharesWithoutTabs openTerminals) :=
  (h.stopWebShares _).forgetStarts (Finset.filter_subset _ _)

/-! ## The other steps -/

/-- Changing the session lock, with its observer, keeps the invariant. -/
theorem ShareInv.changeLock (h : ShareInv w) (lock : LockState) :
    ShareInv { w with lock := lock }.observeLockState := by
  rw [observeLockState]
  -- the observer compares with what it saw last
  by_cases hsame : w.lock.locked = lock.locked
  · rw [if_pos (by rw [h.observed, hsame])]
    exact
      { h with
        observed := by rw [h.observed, hsame]
        locked := fun hlocked => h.locked (hsame.trans hlocked) }
  · rw [if_neg (by rw [h.observed]; simpa using hsame)]
    -- unlocking brings no share back; locking shuts every registered server down
    cases hlocked : lock.locked with
    | false =>
      simp only [hlocked, Bool.false_eq_true, if_false]
      exact
        { h with
          observed := by simp [hlocked]
          locked := by simp [hlocked] }
    | true =>
      simp only [hlocked, if_true]
      generalize hw : ({ w with
        lock := lock, lastObservedLocked := some true, webShares := ∅ } : TermuaWindow) = w'
      generalize hservers : List.map _ w.webShares.toList = servers
      have hlive : ∀ server terminal, (w'.shutdownServers servers).Live server terminal ↔
          server ∉ servers ∧ w.Live server terminal := by
        intro server terminal
        rw [live_shutdownServers_iff, ← hw]
        rfl
      -- every server that was registered is shut down
      have hmem : ∀ server terminal, w.Registered server terminal → server ∈ servers := by
        rintro server terminal ⟨share, hshare, rfl⟩
        rw [← hservers, List.mem_map]
        exact ⟨(terminal, share), Std.ExtTreeMap.mem_toList_iff_getElem?_eq_some.mpr hshare, rfl⟩
      obtain ⟨after, heq, hnone⟩ := @shutdownServers_eq w' servers
      rw [heq] at hlive ⊢
      subst hw
      -- a server that a task still has in hand is not one of them
      have hfree : ∀ server binding, w.bindings server = some binding → server ∉ servers := by
        intro server binding hbinding hserver
        rw [← hservers, List.mem_map] at hserver
        obtain ⟨⟨terminal, share⟩, hshare, rfl⟩ := hserver
        rw [Std.ExtTreeMap.mem_toList_iff_getElem?_eq_some] at hshare
        rw [(h.registered _ _ ⟨share, hshare, rfl⟩).1] at hbinding
        cases hbinding
      exact
        { h with
          observed := by simp [hlocked]
          locked := fun _ => ⟨rfl, rfl⟩
          starting := by simp
          shown := by simp
          registered := by simp [Registered]
          live := fun server terminal hl => by
            obtain ⟨hserver, hl⟩ := (hlive server terminal).mp hl
            exact .inr ((h.live server terminal hl).resolve_left fun hregistered =>
              hserver (hmem server terminal hregistered))
          inHand := fun server binding hbinding hok =>
            (hlive _ _).mpr ⟨hfree server binding hbinding, h.inHand server binding hbinding hok⟩
          unbound := fun server binding hbinding hok =>
            (hnone server).mpr (h.unbound server binding hbinding hok)
          expiring := fun server hserver =>
            ⟨(h.expiring server hserver).1,
              fun hn => (h.expiring server hserver).2 ((hnone server).mp hn)⟩
          fresh := fun server hserver =>
            ⟨(h.fresh server hserver).1, (hnone server).mpr (h.fresh server hserver).2⟩ }

theorem webShareToggleAction_eq_start {active starting : Bool} :
    webShareToggleAction active starting = .start ↔ active = false ∧ starting = false := by
  cases active <;> cases starting <;> simp [webShareToggleAction]

/-- A live server has a number that was given out. -/
theorem ShareInv.ne_nextServer (h : ShareInv w) {server : ServerId} {terminal : EntityId}
    (hlive : w.Live server terminal) : server ≠ w.nextServer := by
  rintro rfl
  obtain ⟨bound, hbound, -⟩ := hlive
  rw [(h.fresh _ le_rfl).2] at hbound
  cases hbound

/-- Toggling the share of a terminal keeps the invariant. -/
theorem ShareInv.onShareTerminalWeb (h : ShareInv w) (terminal : EntityId)
    (tabLabel token : String) (snapshot : Cast.TerminalScreen) :
    ShareInv (w.onShareTerminalWeb terminal tabLabel token snapshot) := by
  rw [TermuaWindow.onShareTerminalWeb]
  split
  · exact h
  next hunlocked =>
  split
  · exact h.stopWebShareForTerminal terminal
  · exact h
  next haction =>
  obtain ⟨hactive, -⟩ := webShareToggleAction_eq_start.mp haction
  -- the new server has a number that nobody has
  have hexpiring : ∀ server ∈ w.expiring, server ≠ w.nextServer := by
    rintro server hserver rfl
    exact (h.expiring _ hserver).2 (h.fresh _ le_rfl).2
  exact
    { h with
      locked := fun hlocked => absurd hlocked hunlocked
      starting := fun t ht => by
        rcases Finset.mem_insert.mp ht with rfl | ht
        · exact Std.ExtTreeMap.getElem?_eq_none_of_contains_eq_false hactive
        · exact h.starting t ht
      registered := fun server t hregistered => by
        obtain ⟨hbinding, hlive⟩ := h.registered server t hregistered
        exact ⟨(Function.update_of_ne (h.ne_nextServer hlive) _ _).trans hbinding, hlive⟩
      live := fun server t hlive => (h.live server t hlive).imp_right fun ⟨binding, hbinding, hok⟩ =>
        ⟨binding, (Function.update_of_ne (h.ne_nextServer hlive) _ _).trans hbinding, hok⟩
      inHand := fun server binding hbinding hok => by
        rcases update_some_eq_some hbinding with ⟨rfl, rfl⟩ | ⟨-, hbinding⟩
        · cases hok
        · exact h.inHand server binding hbinding hok
      unbound := fun server binding hbinding hok => by
        rcases update_some_eq_some hbinding with ⟨rfl, rfl⟩ | ⟨-, hbinding⟩
        · exact (h.fresh _ le_rfl).2
        · exact h.unbound server binding hbinding hok
      expiring := fun server hserver =>
        ⟨(Function.update_of_ne (hexpiring server hserver) _ _).trans (h.expiring server hserver).1,
          (h.expiring server hserver).2⟩
      fresh := fun server hserver => by
        have hlt : w.nextServer < server := hserver
        exact ⟨(Function.update_of_ne hlt.ne' _ _).trans (h.fresh server hlt.le).1,
          (h.fresh server hlt.le).2⟩ }

/-- A server that no bind is about is not the one of a bind. -/
theorem ne_of_bindings_eq_none {server other : ServerId} {binding : Binding}
    (hbinding : w.bindings server = some binding) (hnone : w.bindings other = none) :
    other ≠ server := by
  rintro rfl
  rw [hnone] at hbinding
  cases hbinding

/-- A bind that fails keeps the invariant. -/
theorem ShareInv.bindFails (h : ShareInv w) {server : ServerId} {binding : Binding}
    (hbinding : w.bindings server = some binding) (hrunning : binding.result = .running) :
    ShareInv (w.bindReturns server binding false) := by
  have hold := fun {other} => @ne_of_bindings_eq_none w server other binding hbinding
  -- the task was still binding, so it has no server in hand
  have hnotInHand : ¬ w.InHand server := by
    rintro ⟨other, hother, hok⟩
    obtain rfl := Option.some.inj (hbinding.symm.trans hother)
    rw [hrunning] at hok
    cases hok
  rw [TermuaWindow.bindReturns, if_neg Bool.false_ne_true]
  exact
    { h with
      registered := fun other t hregistered => by
        obtain ⟨hnone, hlive⟩ := h.registered other t hregistered
        exact ⟨(Function.update_of_ne (hold hnone) _ _).trans hnone, hlive⟩
      live := fun other t hlive =>
        (h.live other t hlive).imp_right fun ⟨b, hb, hok⟩ => by
          have hne : other ≠ server := by
            rintro rfl
            exact hnotInHand ⟨b, hb, hok⟩
          exact ⟨b, (Function.update_of_ne hne _ _).trans hb, hok⟩
      inHand := fun other b hb hok => by
        rcases update_some_eq_some hb with ⟨rfl, rfl⟩ | ⟨-, hb⟩
        · cases hok
        · exact h.inHand other b hb hok
      unbound := fun other b hb hok => by
        rcases update_some_eq_some hb with ⟨rfl, rfl⟩ | ⟨-, hb⟩
        · exact h.unbound other binding hbinding (by simp [hrunning])
        · exact h.unbound other b hb hok
      expiring := fun other hother => by
        obtain ⟨hnone, hsome⟩ := h.expiring other hother
        exact ⟨(Function.update_of_ne (hold hnone) _ _).trans hnone, hsome⟩
      fresh := fun other hother => by
        obtain ⟨hnone, hservers⟩ := h.fresh other hother
        exact ⟨(Function.update_of_ne (hold hnone) _ _).trans hnone, hservers⟩ }

/-- A bind that succeeds keeps the invariant. -/
theorem ShareInv.bindSucceeds (h : ShareInv w) {server : ServerId} {binding : Binding}
    (hbinding : w.bindings server = some binding) :
    ShareInv (w.bindReturns server binding true) := by
  have hold := fun {other} => @ne_of_bindings_eq_none w server other binding hbinding
  rw [TermuaWindow.bindReturns, if_pos rfl]
  have hlive : ∀ other t, other ≠ server → w.Live other t →
      ∃ bound, Function.update w.servers server
          (some ⟨binding.terminal, .bind binding.token binding.snapshot⟩) other = some bound ∧
        bound.terminal = t ∧ bound.server.closed = false := by
    rintro other t hne ⟨bound, hbound, hlive⟩
    -- the task has the server in hand, which runs from now on; all others are as before
    exact ⟨bound, (Function.update_of_ne hne _ _).trans hbound, hlive⟩
  exact
    { h with
      registered := fun other t hregistered => by
        obtain ⟨hnone, hl⟩ := h.registered other t hregistered
        exact ⟨(Function.update_of_ne (hold hnone) _ _).trans hnone, hlive other t (hold hnone) hl⟩
      live := fun other t ⟨bound, hbound, hl⟩ => by
        rcases update_some_eq_some hbound with ⟨rfl, -⟩ | ⟨hne, hbound⟩
        · exact .inr ⟨_, Function.update_self _ _ _, rfl⟩
        · exact (h.live other t ⟨bound, hbound, hl⟩).imp_right fun ⟨b, hb, hok⟩ =>
            ⟨b, (Function.update_of_ne hne _ _).trans hb, hok⟩
      inHand := fun other b hb hok => by
        rcases update_some_eq_some hb with ⟨rfl, rfl⟩ | ⟨hne, hb⟩
        · exact ⟨_, Function.update_self _ _ _, rfl, rfl⟩
        · exact hlive other _ hne (h.inHand other b hb hok)
      unbound := fun other b hb hok => by
        rcases update_some_eq_some hb with ⟨rfl, rfl⟩ | ⟨hne, hb⟩
        · exact absurd rfl hok
        · exact (Function.update_of_ne hne _ _).trans (h.unbound other b hb hok)
      expiring := fun other hother => by
        obtain ⟨hnone, hsome⟩ := h.expiring other hother
        have hne := hold hnone
        exact ⟨(Function.update_of_ne hne _ _).trans hnone,
          fun hservers => hsome ((Function.update_of_ne hne _ _).symm.trans hservers)⟩
      fresh := fun other hother => by
        obtain ⟨hnone, hservers⟩ := h.fresh other hother
        have hne := hold hnone
        exact ⟨(Function.update_of_ne hne _ _).trans hnone,
          (Function.update_of_ne hne _ _).trans hservers⟩ }

/-- A bind that returns keeps the invariant. -/
theorem ShareInv.bindReturns (h : ShareInv w) {server : ServerId} {binding : Binding}
    (hbinding : w.bindings server = some binding) (hrunning : binding.result = .running)
    (ok : Bool) : ShareInv (w.bindReturns server binding ok) := by
  cases ok with
  | false => exact h.bindFails hbinding hrunning
  | true => exact h.bindSucceeds hbinding

/-! ### Completing a bind -/

/-- A task that ends with its server shut down, or with none, keeps the invariant. -/
theorem ShareInv.dropBinding (h : ShareInv w) {server : ServerId} {binding : Binding}
    (hbinding : w.bindings server = some binding) {after : ServerId → Option BoundServer}
    (hnone : ∀ other, after other = none ↔ w.servers other = none)
    (hlive : ∀ other t, { w with servers := after }.Live other t ↔ other ≠ server ∧ w.Live other t) :
    ShareInv { w with bindings := Function.update w.bindings server none, servers := after } :=
  { h with
    registered := fun other t hregistered => by
      obtain ⟨hn, hl⟩ := h.registered other t hregistered
      have hne : other ≠ server := by
        rintro rfl
        rw [hn] at hbinding
        cases hbinding
      exact ⟨update_none_eq_none hn, (hlive other t).mpr ⟨hne, hl⟩⟩
    live := fun other t hl => by
      obtain ⟨hne, hl⟩ := (hlive other t).mp hl
      exact (h.live other t hl).imp_right fun ⟨b, hb, hok⟩ =>
        ⟨b, (Function.update_of_ne hne _ _).trans hb, hok⟩
    inHand := fun other b hb hok => by
      obtain ⟨hne, hb⟩ := update_none_eq_some hb
      exact (hlive other _).mpr ⟨hne, h.inHand other b hb hok⟩
    unbound := fun other b hb hok =>
      (hnone other).mpr (h.unbound other b (update_none_eq_some hb).2 hok)
    expiring := fun other hother =>
      ⟨update_none_eq_none (h.expiring other hother).1,
        fun hn => (h.expiring other hother).2 ((hnone other).mp hn)⟩
    fresh := fun other hother =>
      ⟨update_none_eq_none (h.fresh other hother).1, (hnone other).mpr (h.fresh other hother).2⟩ }

/-- A task that shuts its server down keeps the invariant. -/
theorem ShareInv.dropServer (h : ShareInv w) {server : ServerId} {binding : Binding}
    (hbinding : w.bindings server = some binding) :
    ShareInv { w.shutdownServer server with
      bindings := Function.update w.bindings server none } :=
  h.dropBinding hbinding (fun _ => servers_shutdownServer_eq_none)
    fun _ _ => live_shutdownServer_iff

/-- A task that has no server keeps the invariant when it ends. -/
theorem ShareInv.dropError (h : ShareInv w) {server : ServerId} {binding : Binding}
    (hbinding : w.bindings server = some binding) (herror : binding.result ≠ .ok) :
    ShareInv { w with bindings := Function.update w.bindings server none } :=
  h.dropBinding hbinding (fun _ => Iff.rfl) fun other t => by
    refine ⟨fun hl => ⟨?_, hl⟩, fun hl => hl.2⟩
    rintro rfl
    obtain ⟨bound, hbound, -⟩ := hl
    rw [h.unbound other binding hbinding herror] at hbound
    cases hbound

/-- A task that registers its server keeps the invariant. -/
theorem ShareInv.register (h : ShareInv w) {server : ServerId} {binding : Binding}
    (hbinding : w.bindings server = some binding) (hok : binding.result = .ok)
    (hstarting : binding.terminal ∈ w.webSharesStarting) (hunlocked : w.lock.locked = false)
    (url : String) :
    ShareInv
      { w with
        bindings := Function.update w.bindings server none
        webSharesStarting := w.webSharesStarting.erase binding.terminal
        webShares := w.webShares.insert binding.terminal ⟨server, binding.tabLabel⟩
        webShareIndicator := w.webShareIndicator.activate binding.terminal url
        expiring := insert server w.expiring } := by
  have hlive : w.Live server binding.terminal := h.inHand server binding hbinding hok
  have hfree : w.webShares[binding.terminal]? = none := h.starting _ hstarting
  have hentry : ∀ t share,
      (w.webShares.insert binding.terminal ⟨server, binding.tabLabel⟩)[t]? = some share ↔
        binding.terminal = t ∧ share = ⟨server, binding.tabLabel⟩ ∨ w.webShares[t]? = some share := by
    intro t share
    rw [Std.ExtTreeMap.getElem?_insert]
    by_cases heq : binding.terminal = t
    · subst heq
      simp [hfree, eq_comm]
    · simp [heq]
  -- the terminal was starting, so no other server is registered for it
  exact
    { h with
      locked := fun hlocked => by
        rw [hunlocked] at hlocked
        cases hlocked
      starting := fun t ht => by
        obtain ⟨hne, ht⟩ := Finset.mem_erase.mp ht
        simp [Std.ExtTreeMap.getElem?_insert, hne.symm, h.starting t ht]
      shown := fun t => by
        simp [h.shown, Std.ExtTreeMap.contains_insert, Bool.beq_eq_decide_eq]
      registered := fun other t hregistered => by
        obtain ⟨share, hshare, rfl⟩ := hregistered
        rcases (hentry t share).mp hshare with ⟨rfl, rfl⟩ | hshare
        · exact ⟨Function.update_self _ _ _, hlive⟩
        · obtain ⟨hn, hl⟩ := h.registered _ t ⟨share, hshare, rfl⟩
          exact ⟨update_none_eq_none hn, hl⟩
      live := fun other t hl => by
        rcases h.live other t hl with ⟨share, hshare, hserver⟩ | ⟨b, hb, hok⟩
        · exact .inl ⟨share, (hentry t share).mpr (.inr hshare), hserver⟩
        -- the server in hand is now the registered one, and the others stay in hand
        · by_cases heq : other = server
          · subst heq
            obtain ⟨bound, hbound, rfl, -⟩ := hl
            obtain ⟨bound', hbound', hterminal, -⟩ := hlive
            obtain rfl := Option.some.inj (hbound.symm.trans hbound')
            exact .inl ⟨_, (hentry _ _).mpr (.inl ⟨hterminal.symm, rfl⟩), rfl⟩
          · exact .inr ⟨b, (Function.update_of_ne heq _ _).trans hb, hok⟩
      inHand := fun other b hb hok => h.inHand other b (update_none_eq_some hb).2 hok
      unbound := fun other b hb hok => h.unbound other b (update_none_eq_some hb).2 hok
      expiring := fun other hother => by
        rcases Finset.mem_insert.mp hother with rfl | hother
        · obtain ⟨bound, hbound, -⟩ := hlive
          exact ⟨Function.update_self _ _ _, by simp [hbound]⟩
        · exact ⟨update_none_eq_none (h.expiring other hother).1, (h.expiring other hother).2⟩
      fresh := fun other hother =>
        ⟨update_none_eq_none (h.fresh other hother).1, (h.fresh other hother).2⟩ }

/-- Completing a bind keeps the invariant. -/
theorem ShareInv.completeBinding (h : ShareInv w) {server : ServerId} {binding : Binding}
    (hbinding : w.bindings server = some binding) (url : String) :
    ShareInv (w.completeBinding server binding url) := by
  rw [TermuaWindow.completeBinding]
  by_cases hstarting : binding.terminal ∈ w.webSharesStarting
  · rw [if_neg (not_not_intro hstarting)]
    by_cases hok : binding.result = .ok
    · rw [if_neg (not_not_intro hok)]
      cases hlocked : w.lock.locked with
      | true => exact (h.dropServer hbinding).forgetStarts (Finset.erase_subset _ _)
      | false => exact h.register hbinding hok hstarting hlocked url
    · rw [if_pos hok]
      exact (h.dropError hbinding hok).forgetStarts (Finset.erase_subset _ _)
  · rw [if_pos hstarting]
    by_cases hok : binding.result = .ok
    · rw [if_pos hok]
      exact h.dropServer hbinding
    · rw [if_neg hok]
      exact h.dropError hbinding hok

/-! ### The loop that watches a share, and the servers -/

/-- Steps of servers that neither bind nor shut down one keep the invariant. -/
theorem ShareInv.changeServers (h : ShareInv w) {after : ServerId → Option BoundServer}
    (hnone : ∀ other, after other = none ↔ w.servers other = none)
    (hlive : ∀ other t, { w with servers := after }.Live other t ↔ w.Live other t) :
    ShareInv { w with servers := after } :=
  { h with
    registered := fun other t hregistered =>
      ⟨(h.registered other t hregistered).1, (hlive other t).mpr (h.registered other t hregistered).2⟩
    live := fun other t hl => h.live other t ((hlive other t).mp hl)
    inHand := fun other b hb hok => (hlive other _).mpr (h.inHand other b hb hok)
    unbound := fun other b hb hok => (hnone other).mpr (h.unbound other b hb hok)
    expiring := fun other hother =>
      ⟨(h.expiring other hother).1, fun hn => (h.expiring other hother).2 ((hnone other).mp hn)⟩
    fresh := fun other hother =>
      ⟨(h.fresh other hother).1, (hnone other).mpr (h.fresh other hother).2⟩ }

/-- The loops that watch shares may end. -/
theorem ShareInv.forgetExpiring (h : ShareInv w) {expiring : Finset ServerId}
    (hexpiring : expiring ⊆ w.expiring) : ShareInv { w with expiring := expiring } :=
  { h with expiring := fun other hother => h.expiring other (hexpiring hother) }

/-- The end of the loop that watches a share keeps the invariant. -/
theorem ShareInv.expire (h : ShareInv w) {server : ServerId} {bound : BoundServer}
    (hbound : w.servers server = some bound) (hexpiring : server ∈ w.expiring) :
    ShareInv (w.expire server bound) := by
  rw [TermuaWindow.expire]
  split
  · next hany =>
    obtain ⟨share, hshare, hserver⟩ := (Option.any_eq_true _ _).mp hany
    obtain rfl : share.server = server := by simpa using hserver
    have hshare : w.webShares[bound.terminal]? = some share := hshare
    have hnot : bound.terminal ∉ w.webSharesStarting := by
      intro hstarting
      rw [h.starting _ hstarting] at hshare
      cases hshare
    -- what is registered is stopped like by the window
    have hstop := h.stopWebShareForTerminal bound.terminal
    rw [TermuaWindow.stopWebShareForTerminal, hshare, Finset.erase_eq_of_notMem hnot] at hstop
    exact hstop.forgetExpiring (Finset.erase_subset _ _)
  · next hnot =>
    have hdead : ∀ t, ¬ w.Live server t := by
      intro t hlive
      have hown : bound.terminal = t := by
        obtain ⟨bound', hbound', rfl, -⟩ := hlive
        rw [Option.some.inj (hbound.symm.trans hbound')]
      rcases h.live server t hlive with ⟨share, hshare, hserver⟩ | ⟨b, hb, -⟩
      · refine hnot ((Option.any_eq_true _ _).mpr ⟨share, ?_, by simpa using hserver⟩)
        rw [hown]
        exact hshare
      · rw [(h.expiring server hexpiring).1] at hb
        cases hb
    refine (h.changeServers (fun _ => servers_shutdownServer_eq_none) fun other t => ?_).forgetExpiring
      (Finset.erase_subset _ _)
    refine live_shutdownServer_iff.trans ⟨fun hl => hl.2, fun hl => ⟨?_, hl⟩⟩
    rintro rfl
    exact hdead t hl

/-- A step of a server keeps the invariant. -/
theorem ShareInv.serverStep (h : ShareInv w) {server : ServerId} {bound : BoundServer}
    (hbound : w.servers server = some bound) {e : Web.Event} (he : e ≠ .shutdown)
    {next : Web.Server} (hstep : bound.server.step e = some next) :
    ShareInv { w with
      servers := Function.update w.servers server (some { bound with server := next }) } := by
  have hclosed : next.closed = bound.server.closed := Web.Server.closed_step hstep he
  refine h.changeServers (fun other => ?_) fun other t => ?_
  · rw [Function.update_apply]
    split
    · next heq => simp [heq, hbound]
    · rfl
  · by_cases heq : other = server
    · subst heq
      simp [Live, hbound, hclosed]
    · simp [Live, heq]

/-- One step of the window keeps the invariant. -/
theorem ShareInv.step (h : ShareInv w) {e : Event} {w' : TermuaWindow} (hstep : w.step e = some w') :
    ShareInv w' := by
  cases e with
  | toggle terminal tabLabel token snapshot =>
    cases hstep
    exact h.onShareTerminalWeb terminal tabLabel token snapshot
  | bound server ok =>
    obtain ⟨binding, hbinding, hstep⟩ := Option.bind_eq_some_iff.mp hstep
    split_ifs at hstep with hrunning
    cases hstep
    exact h.bindReturns hbinding hrunning ok
  | complete server url =>
    obtain ⟨binding, hbinding, hstep⟩ := Option.bind_eq_some_iff.mp hstep
    split_ifs at hstep
    cases hstep
    exact h.completeBinding hbinding url
  | lockNow =>
    cases hstep
    exact h.changeLock _
  | tryUnlock verified =>
    cases hstep
    exact h.changeLock _
  | setUserEnabled enabled =>
    cases hstep
    exact h.changeLock _
  | panelClosed terminal =>
    cases hstep
    exact h.stopWebShareForTerminal terminal
  | layoutChanged openTerminals =>
    cases hstep
    exact h.stopWebSharesWithoutTabs openTerminals
  | tick server =>
    obtain ⟨bound, hbound, hstep⟩ := Option.bind_eq_some_iff.mp hstep
    split_ifs at hstep
    cases hstep
    exact { h with shown := fun t => by simp [tick, h.shown] }
  | expire server =>
    obtain ⟨bound, hbound, hstep⟩ := Option.bind_eq_some_iff.mp hstep
    split_ifs at hstep with hexpiring
    cases hstep
    exact h.expire hbound hexpiring
  | server server event =>
    obtain ⟨bound, hbound, hstep⟩ := Option.bind_eq_some_iff.mp hstep
    split at hstep
    · cases hstep
    · next hevent =>
      obtain ⟨next, hnext, rfl⟩ := Option.map_eq_some_iff.mp hstep
      exact h.serverStep hbound hevent hnext

/-- What holds in every state reached. -/
theorem shareInv_of_reaches {lock : LockState} {es : List Event} (h : Reaches lock es w) :
    ShareInv w := by
  refine Transition.Run.invariant (I := ShareInv) ?_ (fun _ _ _ _ _ hinv hstep => hinv.step hstep) h
  exact
    { observed := rfl
      locked := fun _ => ⟨rfl, rfl⟩
      starting := fun _ ht => absurd ht (Finset.notMem_empty _)
      shown := fun _ => rfl
      registered := by simp [new, Registered]
      live := by simp [new, Live]
      inHand := by simp [new]
      unbound := by simp [new]
      expiring := fun _ hserver => absurd hserver (Finset.notMem_empty _)
      fresh := fun _ _ => ⟨rfl, rfl⟩ }

end Step

/-- Once no bind is pending: the terminals shown as shared are those of `webShares`, no terminal has
two live servers, every server that is not in `webShares` is shut down, and no server is live while
the session is locked. -/
theorem share_lifecycle (lock : LockState) (es : List Event) (w : TermuaWindow)
    (h : Reaches lock es w) (hpending : ∀ server, w.bindings server = none) :
    (∀ terminal, w.webShareIndicator.isActiveFor terminal = w.webShares.contains terminal) ∧
      (∀ terminal server other, w.Live server terminal → w.Live other terminal → server = other) ∧
      (∀ server bound, w.servers server = some bound →
        (∀ (terminal : EntityId) (share : WebShareEntry), w.webShares[terminal]? = some share →
          share.server ≠ server) →
        bound.server.closed = true) ∧
      (w.lock.locked = true → ∀ terminal server, ¬ w.Live server terminal) := by
  have hinv := shareInv_of_reaches h
  have hregistered : ∀ server terminal, w.Live server terminal → w.Registered server terminal := by
    intro server terminal hlive
    refine (hinv.live server terminal hlive).resolve_right ?_
    rintro ⟨binding, hbinding, -⟩
    rw [hpending] at hbinding
    cases hbinding
  refine ⟨hinv.shown, ?_, ?_, ?_⟩
  · intro terminal server other hserver hother
    obtain ⟨share, hshare, rfl⟩ := hregistered _ _ hserver
    obtain ⟨share', hshare', rfl⟩ := hregistered _ _ hother
    rw [Option.some.inj (hshare.symm.trans hshare')]
  · intro server bound hbound hnot
    by_contra hopen
    obtain ⟨share, hshare, hserver⟩ :=
      hregistered server bound.terminal ⟨bound, hbound, rfl, by simpa using hopen⟩
    exact hnot _ share hshare hserver
  · intro hlocked terminal server hlive
    obtain ⟨share, hshare, -⟩ := hregistered _ _ hlive
    rw [(hinv.locked hlocked).1] at hshare
    simp at hshare

/-- A terminal is shared, the session is locked while a second share of another terminal is being
bound, and unlocked before that bind completes. -/
def lockedWhileBinding : List Event :=
  [.toggle 7 "shell" "token" (Cast.letterScreen 'a'), .bound 0 true, .complete 0 "url",
    .toggle 8 "ssh" "token" (Cast.letterScreen 'b'), .lockNow, .bound 1 true, .tryUnlock (.ok true),
    .complete 1 "url"]

/-- The lock shut the first server down, and the task of the second one did so with its own. -/
theorem share_lifecycle_lockedWhileBinding :
    ∃ w, Reaches (.newDefault true) lockedWhileBinding w ∧
      ∀ server bound, w.servers server = some bound → bound.server.closed = true := by
  obtain ⟨w, hrun, hw⟩ : ∃ w, Reaches (.newDefault true) lockedWhileBinding w ∧
      (decide (w.nextServer = 2) && (w.bindings 0).isNone && (w.bindings 1).isNone &&
        w.webShares.isEmpty) = true :=
    Transition.exists_run_of_any _ _ (by decide +kernel)
  simp only [Bool.and_eq_true, decide_eq_true_eq, Option.isNone_iff_eq_none,
    Std.ExtTreeMap.isEmpty_iff] at hw
  obtain ⟨⟨⟨hnext, hzero⟩, hone⟩, hempty⟩ := hw
  have hpending : ∀ server, w.bindings server = none := by
    intro server
    rcases Nat.lt_or_ge server 2 with hlt | hge
    · interval_cases server
      · exact hzero
      · exact hone
    · exact ((shareInv_of_reaches hrun).fresh server (hnext ▸ hge)).1
  refine ⟨w, hrun, fun server bound hbound => ?_⟩
  obtain ⟨-, -, hclosed, -⟩ := share_lifecycle _ _ _ hrun hpending
  exact hclosed server bound hbound (by simp [hempty])

end TermuaWindow

end Termua.Window
