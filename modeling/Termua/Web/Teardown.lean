import Mathlib
import Termua.Web.Sharing

/-!
# What a connection leaves behind

When the loop of `serve_websocket` is left by a break, the code behind it removes the client. The
error operator returns past that code: a failed read or write leaves the client in `clients` and in
`access`, possibly as the controller, until a broadcast finds its queue closed. `gone_iff_break_or_dropped` says
which ended connections left nothing behind.
-/

namespace Termua.Web

open Termua.Cast (TerminalScreen letterScreen)

namespace Server

/-- Nothing is left of the client: it is neither sent broadcasts, nor has it access, nor does it
hold control, nor is a request of it pending. -/
def Gone (s : Server) (client : ClientId) : Prop :=
  client ∉ s.clients ∧ client ∉ s.access.clients ∧ s.access.controller ≠ some client ∧
    ∀ request : ControlRequestId, s.access.pending[request]? ≠ some client

/-- A client without access left nothing behind. -/
theorem SharingInv.gone_iff {s : Server} (h : s.SharingInv) (client : ClientId) :
    s.Gone client ↔ client ∉ s.access.clients := by
  constructor
  · exact fun hgone => hgone.2.1
  · intro hmem
    exact ⟨fun hc => hmem (h.clients_subset hc), hmem,
      fun hc => hmem (h.access.controller_mem client hc),
      fun request hr => hmem (h.access.pending_mem request client hr)⟩

/-- In every state reached, an authenticated connection that has ended left nothing behind exactly
when it ended by a break or the broadcaster dropped the client. -/
theorem gone_iff_break_or_dropped (token : String) (snapshot : TerminalScreen) (es : List Event) (s : Server)
    (h : Reaches token snapshot es s) (client : ClientId) (conn : Connection)
    (hconn : s.connections client = some conn) (hauth : conn.authenticated = true) (exit : Exit)
    (htask : conn.task = .ended exit) :
    s.Gone client ↔ exit.isBreak = true ∨ conn.dropped = true := by
  have hinv := sharingInv_of_reaches h
  rw [hinv.gone_iff, hinv.mem_access_iff hconn, Connection.isMember, Connection.isCleaned, hauth,
    htask]
  cases conn.dropped <;> cases hbreak : exit.isBreak <;> simp [hbreak]

/-- A client that is given control and whose connection then fails while it is read. -/
def failedController : List Event :=
  [.accept 1 "peer", .receive 1 (.authenticate "secret"), .receive 1 .requestControl,
    .controlSent 1, .takeControlRequest, .approveControl 1, .exit 1 .readError]

/-- A client whose connection is closed by a close frame. -/
def closedConnection : List Event :=
  [.accept 1 "peer", .receive 1 (.authenticate "secret"), .exit 1 .closeFrame, .cleanUp 1]

/-- The connection of a client, if it is authenticated and has ended so. -/
def endedBy (s : Server) (client : ClientId) (exit : Exit) : Bool :=
  (s.connections client).any fun conn => conn.authenticated && conn.task = .ended exit

/-- A connection that was closed left nothing behind. -/
theorem gone_closedConnection :
    ∃ s, Reaches "secret" (letterScreen 'a') closedConnection s ∧ s.Gone 1 := by
  obtain ⟨s, hrun, hended⟩ : ∃ s, Reaches "secret" (letterScreen 'a') closedConnection s ∧
      s.endedBy 1 .closeFrame = true := Transition.exists_run_of_any _ _ (by decide +kernel)
  obtain ⟨conn, hconn, hended⟩ := (Option.any_eq_true _ _).mp hended
  rw [Bool.and_eq_true, decide_eq_true_eq] at hended
  exact ⟨s, hrun, (gone_iff_break_or_dropped _ _ _ s hrun 1 conn hconn hended.1 _ hended.2).mpr (.inl rfl)⟩

/-- The controller whose connection failed is still the controller, and broadcasts are still sent
to it. -/
theorem not_gone_failedController :
    ∃ s, Reaches "secret" (letterScreen 'a') failedController s ∧
      s.endedBy 1 .readError = true ∧ 1 ∈ s.clients ∧ 1 ∈ s.access.clients ∧
      s.access.controller = some 1 ∧ ¬ s.Gone 1 := by
  obtain ⟨s, hrun, hs⟩ : ∃ s, Reaches "secret" (letterScreen 'a') failedController s ∧
      (s.endedBy 1 .readError && decide (1 ∈ s.clients) && decide (1 ∈ s.access.clients) &&
        decide (s.access.controller = some 1)) = true :=
    Transition.exists_run_of_any _ _ (by decide +kernel)
  simp only [Bool.and_eq_true, decide_eq_true_eq] at hs
  obtain ⟨⟨⟨hended, hclients⟩, haccess⟩, hcontroller⟩ := hs
  exact ⟨s, hrun, hended, hclients, haccess, hcontroller, fun hgone => hgone.1 hclients⟩

end Server

end Termua.Web
