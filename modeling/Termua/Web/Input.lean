import Mathlib
import Termua.Web.Step

/-!
# Input after the loss of control

Whether a client may send input is asked when its message is handled; the input is written to the
terminal when the consumer gets to it, and nobody asks again. Input that is `InFlight` between the
two is written even when its client has lost control.

`typed_held` is the exact other side: when no step takes control away from a client that has input
in flight, and none accepts input after the shutdown, everything is written while its client holds
control.
-/

namespace Termua.Web

open Termua.Cast (TerminalScreen letterScreen)

namespace Server

/-- Accepted input that was not written to the terminal yet: in the channel, in the hands of the
consumer, or waiting for room in the channel. -/
def InFlight (s : Server) (input : WebInput) : Prop :=
  input ∈ s.input.queue ∨ s.consumer = .holding input ∨
    ∃ client conn, s.connections client = some conn ∧ conn.task = .sendingInput input

/-- The steps that take control away from `client` if it holds it. -/
def LosesControl (s : Server) (client : ClientId) : Event → Prop
  | .revokeControl | .shutdown => True
  | .receive c .releaseControl => c = client
  | .cleanUp c => c = client
  | .broadcast => client ∈ s.failed
  | .approveControl request =>
    ∃ c ∈ s.access.clients, s.access.pending[request]? = some c ∧ c ≠ client
  | _ => False

/-- The steps that leave control with every client that has input in flight, and accept no input
after the shutdown. -/
def KeepsControl (s : Server) (e : Event) : Prop :=
  (∀ input, s.InFlight input → ¬ s.LosesControl input.clientId e) ∧
    (s.closed = true → ∀ client data, e = .receive client (.input data) →
      s.access.canInput client = false)

/-! ## What is in flight -/

section InFlight

variable {s : Server} {input : WebInput}

/-- Only the channel, the consumer and the tasks matter. -/
theorem InFlight.congr {t : Server} (h : t.InFlight input) (hinput : t.input = s.input)
    (hconsumer : t.consumer = s.consumer) (hconnections : t.connections = s.connections) :
    s.InFlight input := by
  rw [InFlight, ← hinput, ← hconsumer, ← hconnections]
  exact h

theorem InFlight.of_set {client : ClientId} {conn : Connection}
    (h : (s.set client conn).InFlight input) :
    s.InFlight input ∨ conn.task = .sendingInput input := by
  rcases h with h | h | ⟨c, conn', hconn', htask⟩
  · exact .inl (.inl h)
  · exact .inl (.inr (.inl h))
  · rw [connections_set, Function.update_apply] at hconn'
    split at hconn'
    · obtain rfl := Option.some.inj hconn'
      exact .inr htask
    · exact .inl (.inr (.inr ⟨c, conn', hconn', htask⟩))

/-- A connection that is replaced by one whose task does not wait to send input. -/
theorem InFlight.of_set_of_ne {client : ClientId} {conn : Connection}
    (h : (s.set client conn).InFlight input) (htask : ∀ input, conn.task ≠ .sendingInput input) :
    s.InFlight input :=
  h.of_set.resolve_right (htask input)

theorem InFlight.of_broadcastAccess (h : s.broadcastAccess.InFlight input) : s.InFlight input := by
  rcases h with h | h | ⟨c, conn, hconn, htask⟩
  · exact .inl h
  · exact .inr (.inl h)
  · simp only [broadcastAccess] at hconn
    split at hconn
    · obtain ⟨conn', hconn', rfl⟩ := Option.map_eq_some_iff.mp hconn
      exact .inr (.inr ⟨c, conn', hconn', by simpa using htask⟩)
    · exact .inr (.inr ⟨c, conn, hconn, htask⟩)

theorem InFlight.of_broadcast (h : s.broadcast.InFlight input) : s.InFlight input := by
  rcases h with h | h | ⟨c, conn', hconn', htask⟩
  · exact .inl h
  · exact .inr (.inl h)
  · obtain ⟨conn, hconn⟩ := exists_connections_of_broadcast hconn'
    refine .inr (.inr ⟨c, conn, hconn, ?_⟩)
    rcases connections_broadcast hconn with
      ⟨_, heq⟩ | ⟨_, _, sent, hsent, heq⟩ | ⟨_, heq⟩ <;>
      obtain rfl := Option.some.inj (hconn'.symm.trans heq)
    · exact htask
    · obtain ⟨-, messages, -, rfl⟩ := Connection.trySend_eq_some hsent
      exact htask
    · exact htask

/-- Input comes in flight only when it is accepted from a client that may send input. -/
theorem inFlight_step {s' : Server} {e : Event} (hstep : s.step e = some s')
    (h : s'.InFlight input) :
    s.InFlight input ∨
      ∃ data, e = .receive input.clientId (.input data) ∧
        s.access.canInput input.clientId = true := by
  -- input is in a task, in the queue or with the consumer, and moves on from one to the next
  cases step_cases hstep with
  | accept _ => exact .inl (h.of_set_of_ne (by simp [Connection.new]))
  | ignored _ => exact .inl h
  | authenticateFailed _ _ _ _ => exact .inl (h.of_set_of_ne (by simp))
  | authenticated _ htask _ htoken =>
    rw [authenticate] at h
    simp only [ShareAccess.connect, ne_eq, htoken, not_true_eq_false, if_false] at h
    exact .inl ((h.of_set_of_ne (by simp [htask])).congr rfl rfl rfl)
  | requested _ _ _ _ => exact .inl ((h.of_set_of_ne (by simp)).congr rfl rfl rfl)
  | refused _ htask _ => exact .inl (h.of_set_of_ne (by simp [htask]))
  | released _ _ _ => exact .inl (h.of_broadcastAccess.congr rfl rfl rfl)
  -- the only way in: `receive` asks for control first
  | @input client conn data _ _ _ hcan =>
    rcases h.of_set with h | htask
    · exact .inl h
    · obtain rfl : _ = input := by simpa using htask
      exact .inr ⟨data, rfl, hcan⟩
  | controlSent _ _ _ => exact .inl ((h.of_set_of_ne (by simp)).congr rfl rfl rfl)
  -- from the task into the queue
  | @inputSent client conn input' queue hconn htask hsend =>
    refine .inl ?_
    rcases h.of_set_of_ne (by simp) with h | h | h
    · rw [(Channel.trySend_eq_some.mp hsend).2, List.mem_append, List.mem_singleton] at h
      rcases h with h | rfl
      · exact .inl h
      · exact .inr (.inr ⟨client, conn, hconn, htask⟩)
    · exact .inr (.inl h)
    · exact .inr (.inr h)
  | write _ htask _ => exact .inl (h.of_set_of_ne (by simp [htask]))
  | @exit client conn exit _ _ _ =>
    rw [Server.exit] at h
    refine .inl (h.of_set_of_ne fun input => ?_)
    dsimp only
    split <;> simp
  | cleanUp _ _ =>
    exact .inl ((InFlight.of_set_of_ne h (by simp)).of_broadcastAccess.congr rfl rfl rfl)
  -- from the queue to the consumer
  | takeInput _ hrecv =>
    have hqueue := Channel.recv_eq_some.mp hrecv
    refine .inl ?_
    rcases h with h | h | h
    · exact .inl (by rw [hqueue]; exact List.mem_cons_of_mem _ h)
    · obtain rfl : _ = input := by simpa using h
      exact .inl (by simp [hqueue])
    · exact .inr (.inr h)
  | writeInput _ =>
    rcases h with h | h | h
    · exact .inl (.inl h)
    · cases h
    · exact .inl (.inr (.inr h))
  | stopConsumer =>
    rcases h with h | h | h
    · exact .inl (.inl h)
    · cases h
    · exact .inl (.inr (.inr h))
  | approved _ _ => exact .inl (h.of_broadcastAccess.congr rfl rfl rfl)
  | revoked _ => exact .inl (h.of_broadcastAccess.congr rfl rfl rfl)
  | notRevoked _ => exact .inl h
  | shutdownAgain _ => exact .inl h
  | sameSnapshot => exact .inl h
  | broadcast _ => exact .inl h.of_broadcast
  | _ => exact .inl (h.congr rfl rfl rfl)

end InFlight

/-! ## Who holds control -/

section Control

variable {s : Server} {client : ClientId}

theorem holdsControl_iff :
    s.holdsControl client = true ↔ s.closed = false ∧ s.access.controller = some client := by
  simp [holdsControl, ShareAccess.canInput]

/-- A client keeps control through a step that does not take it away. -/
theorem holdsControl_step {s' : Server} {e : Event} (hstep : s.step e = some s')
    (h : s.holdsControl client = true) (hkeep : ¬ s.LosesControl client e) :
    s'.holdsControl client = true := by
  rw [holdsControl_iff] at h ⊢
  obtain ⟨hclosed, hcontrol⟩ := h
  have hcall : ∀ call : AccessEvent, ¬ s.access.TakesAway client call →
      s.closed = false ∧ (s.access.apply call).controller = some client :=
    fun call hcall => ⟨hclosed, ShareAccess.controller_apply_of_not_takesAway hcontrol hcall⟩
  cases step_cases hstep with
  | authenticated _ _ _ htoken =>
    rw [authenticate]
    simp only [ShareAccess.connect, ne_eq, htoken, not_true_eq_false, if_false]
    exact ⟨hclosed, hcontrol⟩
  | requested _ _ _ _ => exact hcall (.requestControl _) id
  | released _ _ _ => exact hcall (.releaseControl _) hkeep
  | cleanUp _ _ => exact hcall (.disconnect _) hkeep
  | approved _ _ => exact hcall (.approve _) hkeep
  | notApproved _ => exact hcall (.approve _) hkeep
  | denied => exact hcall (.deny _) id
  | revoked _ => exact absurd trivial hkeep
  | shutdown => exact absurd trivial hkeep
  | broadcast _ =>
    have hnot : client ∉ s.failed := hkeep
    exact ⟨hclosed, by simp [ShareAccess.disconnectAll, hcontrol, hnot]⟩
  | _ => exact ⟨hclosed, hcontrol⟩

/-- Only the consumer writes to the terminal, and it writes what it holds. -/
theorem typed_step {s' : Server} {e : Event} (hstep : s.step e = some s') :
    s'.typed = s.typed ∨ ∃ input, s.consumer = .holding input ∧
      s'.typed = s.typed ++ [(input, s.holdsControl input.clientId)] := by
  cases step_cases hstep with
  | authenticated _ _ _ _ =>
    rw [authenticate]
    split <;> exact .inl rfl
  | writeInput hconsumer => exact .inr ⟨_, hconsumer, rfl⟩
  | _ => exact .inl rfl

/-- In every run that leaves control with the clients that have input in flight, input is written
to the terminal only while its client holds control. -/
theorem typed_held (token : String) (snapshot : TerminalScreen) (es : List Event) (s : Server)
    (h : ReachesWhere KeepsControl token snapshot es s) :
    ∀ typed ∈ s.typed, typed.2 = true := by
  -- whoever has input in flight holds control, so every write finds its client in control
  suffices hinv : (∀ input, s.InFlight input → s.holdsControl input.clientId = true) ∧
      ∀ typed ∈ s.typed, typed.2 = true from hinv.2
  refine Transition.Run.invariant (I := fun s => (∀ input, s.InFlight input →
    s.holdsControl input.clientId = true) ∧ ∀ typed ∈ s.typed, typed.2 = true) ?_ ?_ h
  · refine ⟨fun input hinput => ?_, by simp [bind]⟩
    simp [InFlight, bind] at hinput
  · rintro _ s e s' - ⟨hheld, htyped⟩ ⟨hkeep, hstep⟩
    refine ⟨fun input hinput => ?_, ?_⟩
    · rcases inFlight_step hstep hinput with hbefore | ⟨data, rfl, hcan⟩
      · exact holdsControl_step hstep (hheld input hbefore) (hkeep.1 input hbefore)
      · have hopen : s.closed = false := by
          rw [Bool.eq_false_iff]
          intro hclosed
          simp [hkeep.2 hclosed _ data rfl] at hcan
        exact holdsControl_step hstep (by simp [holdsControl, hopen, hcan]) id
    · rcases typed_step hstep with heq | ⟨input, hconsumer, heq⟩ <;> rw [heq]
      · exact htyped
      · have hwritten := hheld input (.inr (.inl hconsumer))
        simpa [hwritten] using htyped

/-- Nothing is in flight before the first input message. -/
theorem not_inFlight {token : String} {snapshot : TerminalScreen} {es : List Event}
    (h : Reaches token snapshot es s) (hes : ∀ client data, .receive client (.input data) ∉ es)
    (input : WebInput) : ¬ s.InFlight input := by
  induction h with
  | start => simp [InFlight, bind]
  | next _ hstep ih =>
    intro hinput
    rcases inFlight_step hstep hinput with hbefore | ⟨data, rfl, -⟩
    · exact ih (fun client data hmem => hes client data (List.mem_append_left _ hmem)) hbefore
    · exact hes input.clientId data (by simp)

/-- A client that is given control and sends input, and the input reaches the terminal. -/
def typedInput : List Event :=
  [.accept 1 "peer", .receive 1 (.authenticate "secret"), .receive 1 .requestControl,
    .controlSent 1, .approveControl 1, .receive 1 (.input "x"), .inputSent 1, .takeInput,
    .writeInput]

/-- The same client when control is revoked while its input is in the channel. -/
def revokedInput : List Event :=
  [.accept 1 "peer", .receive 1 (.authenticate "secret"), .receive 1 .requestControl,
    .controlSent 1, .approveControl 1, .receive 1 (.input "x"), .inputSent 1, .revokeControl,
    .takeInput, .writeInput]

end Control

/-- The input of a client that keeps control is written while it holds control. -/
theorem typed_held_typedInput :
    ∃ s, ReachesWhere KeepsControl "secret" (letterScreen 'a') typedInput s ∧
      ∀ typed ∈ s.typed, typed.2 = true := by
  obtain ⟨s, hrun, -⟩ : ∃ s, Reaches "secret" (letterScreen 'a') typedInput s ∧ true = true :=
    Transition.exists_run_of_any _ _ (by decide +kernel)
  have hguarded : ReachesWhere KeepsControl "secret" (letterScreen 'a') typedInput s := by
    refine hrun.guard fun i e m hi hm => ?_
    have hlt : i < 9 := (List.getElem?_eq_some_iff.mp hi).1
    have hopen : m.closed = false := by
      have hany : ((typedInput.take i).foldlM step (bind "secret" (letterScreen 'a'))).any
          (fun m => !m.closed) = true := by
        interval_cases i <;> decide +kernel
      rw [Transition.run_ofPartial_iff.mp hm] at hany
      simpa using hany
    refine ⟨fun input hinput => ?_, fun hclosed => by simp [hopen] at hclosed⟩
    -- only the approval could take control away, and nothing is in flight yet
    by_cases hfour : i = 4
    · exact absurd hinput (not_inFlight hm (by simp [hfour, typedInput]) input)
    · interval_cases i <;> cases hi <;> first | exact id | exact absurd rfl hfour
  exact ⟨s, hguarded, typed_held _ _ _ _ hguarded⟩

/-- Input that was in the channel when control was revoked is written to the terminal. -/
theorem typed_after_revoke :
    ∃ s, Reaches "secret" (letterScreen 'a') revokedInput s ∧
      s.typed = [(⟨1, [120]⟩, false)] ∧ s.access.canInput 1 = false := by
  obtain ⟨s, hrun, hs⟩ : ∃ s, Reaches "secret" (letterScreen 'a') revokedInput s ∧
      (decide (s.typed = [(⟨1, [120]⟩, false)]) && !s.access.canInput 1) = true :=
    Transition.exists_run_of_any _ _ (by decide +kernel)
  simp only [Bool.and_eq_true, decide_eq_true_eq, Bool.not_eq_true'] at hs
  exact ⟨s, hrun, hs⟩

end Server

end Termua.Web
