import Mathlib
import Termua.Web.Sent

/-!
# Whether clients know that they hold control

`broadcast_access` tells each client with a `try_send` whether it holds control, and ignores a full
queue, where the broadcaster disconnects the client. A client that is slow when its control changes
is never told.

`lastAccess_of_announces` is the exact other side: when every connected client whose control a step
changes has room in its queue, the last access message sent to a connected client is true.
-/

namespace Termua.Web

open Termua.Cast (TerminalScreen letterScreen)

/-- What the last access message among the messages says. -/
def lastAccess (messages : List Message) : Option Bool :=
  (messages.filterMap fun | .access control => some control | _ => none).getLast?

@[simp] theorem lastAccess_append_access (messages : List Message) (control : Bool) :
    lastAccess (messages ++ [.access control]) = some control := by
  simp [lastAccess]

@[simp] theorem lastAccess_append_screen (messages : List Message) (screen : ScreenMessage) :
    lastAccess (messages ++ [.screen screen]) = lastAccess messages := by
  simp [lastAccess]

@[simp] theorem lastAccess_append_controlRequest (messages : List Message) (status : String) :
    lastAccess (messages ++ [.controlRequest status]) = lastAccess messages := by
  simp [lastAccess]

namespace Server

/-- Every connected client whose control the step changes has room in its queue. -/
def Announces (s : Server) (e : Event) : Prop :=
  ∀ client conn, s.Connected client conn → s.ChangesControl client e →
    conn.messages.queue.length < 64

/-- The last access message sent to each connected client is true. -/
def Told (s : Server) : Prop :=
  ∀ client conn, s.Connected client conn →
    lastAccess conn.sent = some (s.access.canInput client)

/-- A step that announces what it changes leaves every client told. -/
theorem Told.step {s s' : Server} {e : Event} (hinv : s.SharingInv) (h : s.Told)
    (hannounces : s.Announces e) (hstep : s.step e = some s') : s'.Told := by
  intro client conn' hconn'
  cases clientStep hinv hstep hconn' with
  | joined _ hsent _ hcontrol =>
    rw [hsent, hcontrol]
    rfl
  | kept hconn hsent _ hcontrol =>
    rw [hsent, hcontrol]
    exact h client _ hconn
  | answered hconn hsent _ hcontrol =>
    rw [hsent, hcontrol, ← h client _ hconn, Connection.sent_post]
    split
    · exact lastAccess_append_controlRequest _ _
    · rfl
  | @told conn hconn hsent _ hcontrol =>
    rw [hsent, Connection.sent_post]
    split
    · exact lastAccess_append_access _ _
    · next hfull =>
      rcases hcontrol with heq | hchange
      · rw [heq]
        exact h client _ hconn
      · have hroom := hannounces client conn hconn hchange
        simp [Connection.isSome_trySend, hconn.live, hroom] at hfull
  | updated _ hconn hsent _ hcontrol =>
    rw [hsent, hcontrol, ← h client _ hconn]
    exact lastAccess_append_screen _ _

/-- In every run that announces what it changes, when the queue of a connected client is empty, the
last access message written to it is true. -/
theorem lastAccess_of_announces (token : String) (snapshot : TerminalScreen) (es : List Event)
    (s : Server) (h : ReachesWhere Announces token snapshot es s) (client : ClientId)
    (conn : Connection) (hconn : s.Connected client conn) (hempty : conn.messages.queue = []) :
    lastAccess conn.written = some (s.access.canInput client) := by
  have htold : s.Told := by
    refine Transition.Run.invariant (I := Told) ?_ ?_ h
    · intro client conn hconn
      exact absurd hconn.mem (Finset.notMem_empty _)
    · rintro _ s e s' hrun htold ⟨hannounces, hstep⟩
      exact htold.step (sharingInv_of_reaches hrun.unguard) hannounces hstep
  have := htold client conn hconn
  rwa [Connection.sent, hempty, List.append_nil] at this

/-- A step sends a client at most two messages. -/
theorem length_sent_le {token : String} {snapshot : TerminalScreen} {es : List Event} {s : Server}
    (h : Reaches token snapshot es s) :
    ∀ client conn, s.Connected client conn → conn.sent.length ≤ 2 * es.length := by
  induction h with
  | start => exact fun client conn hconn => absurd hconn.mem (Finset.notMem_empty _)
  | next hrun hstep ih =>
    intro client conn' hconn'
    have hpost : ∀ (conn : Connection) (message : Message),
        (conn.post message).sent.length ≤ conn.sent.length + 1 := by
      intro conn message
      rw [Connection.sent_post]
      split <;> simp
    rw [List.length_append, List.length_singleton]
    cases clientStep (sharingInv_of_reaches hrun) hstep hconn' with
    | joined _ hsent _ _ => simp [hsent]
    | kept hconn hsent _ _ =>
      have := ih client _ hconn
      rw [hsent]
      omega
    | answered hconn hsent _ _ | told hconn hsent _ _ =>
      have := ih client _ hconn
      rw [hsent]
      exact (hpost _ _).trans (by omega)
    | updated _ hconn hsent _ _ =>
      have := ih client _ hconn
      simp [hsent]
      omega

/-- A client that is given control and gets everything that was sent to it. -/
def promptClient : List Event :=
  [.accept 1 "peer", .receive 1 (.authenticate "secret"), .receive 1 .requestControl,
    .controlSent 1, .write 1, .write 1, .approveControl 1, .write 1]

/-- A client that asks for control over and over, is given control while its queue is full, and then
gets everything that was sent to it. -/
def slowClient : List Event :=
  [.accept 1 "peer", .receive 1 (.authenticate "secret"), .receive 1 .requestControl,
    .controlSent 1] ++ List.replicate 62 (.receive 1 .requestControl) ++ [.approveControl 1] ++
    List.replicate 64 (.write 1)

/-- What was written to a connected client whose queue is empty. -/
def writtenTo (s : Server) (client : ClientId) : Option (List Message) :=
  (s.connections client).bind fun conn =>
    if client ∈ s.clients ∧ conn.isEnded = false ∧ conn.messages.queue = [] then some conn.written
    else none

theorem writtenTo_eq_some {s : Server} {client : ClientId} {written : List Message}
    (h : s.writtenTo client = some written) :
    ∃ conn, s.Connected client conn ∧ conn.messages.queue = [] ∧ conn.written = written := by
  obtain ⟨conn, hconn, h⟩ := Option.bind_eq_some_iff.mp h
  split_ifs at h with hlive
  exact ⟨conn, ⟨hlive.1, hconn, hlive.2.1⟩, hlive.2.2, Option.some.inj h⟩

/-- A client that is given control while there is room in its queue is told so. -/
theorem lastAccess_of_announces_promptClient :
    ∃ s conn, ReachesWhere Announces "secret" (letterScreen 'a') promptClient s ∧
      s.Connected 1 conn ∧ s.access.canInput 1 = true ∧ lastAccess conn.written = some true := by
  obtain ⟨s, hrun, hs⟩ : ∃ s, Reaches "secret" (letterScreen 'a') promptClient s ∧
      ((s.writtenTo 1).isSome && s.access.canInput 1) = true :=
    Transition.exists_run_of_any _ _ (by decide +kernel)
  rw [Bool.and_eq_true] at hs
  obtain ⟨written, hwritten⟩ := Option.isSome_iff_exists.mp hs.1
  obtain ⟨conn, hconn, hempty, -⟩ := writtenTo_eq_some hwritten
  have hguarded : ReachesWhere Announces "secret" (letterScreen 'a') promptClient s := by
    apply hrun.guard
    intro i e m hi hm client conn hconn _
    -- no more messages were sent than a queue has room for
    have hle := length_sent_le hm client conn hconn
    rw [List.length_take, Connection.sent, List.length_append] at hle
    have hlength : promptClient.length = 8 := rfl
    omega
  refine ⟨s, conn, hguarded, hconn, hs.2, ?_⟩
  rw [lastAccess_of_announces _ _ _ _ hguarded 1 conn hconn hempty, hs.2]

/-- A client whose queue was full when it was given control has got everything that was sent to it,
and was told that it has no control. -/
theorem lastAccess_slowClient :
    ∃ s conn, Reaches "secret" (letterScreen 'a') slowClient s ∧ s.Connected 1 conn ∧
      conn.messages.queue = [] ∧ s.access.canInput 1 = true ∧
      lastAccess conn.written = some false := by
  obtain ⟨s, hrun, hs⟩ : ∃ s, Reaches "secret" (letterScreen 'a') slowClient s ∧
      (decide ((s.writtenTo 1).map lastAccess = some (some false)) && s.access.canInput 1) = true :=
    Transition.exists_run_of_any _ _ (by decide +kernel)
  rw [Bool.and_eq_true, decide_eq_true_eq] at hs
  obtain ⟨written, hwritten, hlast⟩ := Option.map_eq_some_iff.mp hs.1
  obtain ⟨conn, hconn, hempty, rfl⟩ := writtenTo_eq_some hwritten
  exact ⟨s, conn, hrun, hconn, hempty, hs.2, hlast⟩

end Server

end Termua.Web
