import Mathlib
import Termua.Web.Server

/-!
# What a step of the server can do

`Step` lists the steps of the server with the cases of a client's message told apart, and
`step_cases` is the inversion that the invariants of the server are proved by.
-/

namespace Termua.Web

open Termua.Cast (TerminalScreen)

namespace Server

/-- The steps of the server, with the cases of `receive` told apart. -/
inductive Step (s : Server) : Event → Server → Prop
  | accept {client : ClientId} {peer : String} (hfresh : s.connections client = none) :
      Step s (.accept client peer) (s.set client (.new peer))
  | ignored {client : ClientId} {message : ClientMessage} {conn : Connection}
      (hconn : s.connections client = some conn) : Step s (.receive client message) s
  | authenticateFailed {client : ClientId} {token : String} {conn : Connection}
      (hconn : s.connections client = some conn) (htask : conn.task = .ready)
      (hauth : conn.authenticated = false) (htoken : token ≠ s.access.token) :
      Step s (.receive client (.authenticate token))
        (s.set client { conn with task := .leaving .invalidToken })
  | authenticated {client : ClientId} {token : String} {conn : Connection}
      (hconn : s.connections client = some conn) (htask : conn.task = .ready)
      (hauth : conn.authenticated = false) (htoken : token = s.access.token) :
      Step s (.receive client (.authenticate token)) (s.authenticate client conn token)
  | requested {client : ClientId} {conn : Connection} {request : ControlRequestId}
      (hconn : s.connections client = some conn) (htask : conn.task = .ready)
      (hauth : conn.authenticated = true)
      (hok : (s.access.requestControl client).1 = .ok request) :
      Step s (.receive client .requestControl)
        ({ s with access := (s.access.requestControl client).2 }.set client
          { conn with task := .sendingControl ⟨request, client, conn.peer⟩ })
  | refused {client : ClientId} {conn : Connection} {status : String}
      (hconn : s.connections client = some conn) (htask : conn.task = .ready)
      (hauth : conn.authenticated = true) :
      Step s (.receive client .requestControl)
        (s.set client (conn.post (.controlRequest status)))
  | released {client : ClientId} {conn : Connection} (hconn : s.connections client = some conn)
      (hauth : conn.authenticated = true) (hcontrol : s.access.controller = some client) :
      Step s (.receive client .releaseControl)
        { s with access := (s.access.releaseControl client).2 }.broadcastAccess
  | input {client : ClientId} {conn : Connection} {data : String}
      (hconn : s.connections client = some conn) (htask : conn.task = .ready)
      (hauth : conn.authenticated = true) (hcan : s.access.canInput client = true) :
      Step s (.receive client (.input data))
        (s.set client { conn with task := .sendingInput ⟨client, data.toUTF8.toList⟩ })
  | controlSent {client : ClientId} {conn : Connection} {request : ControlRequest}
      {control : Channel ControlRequest 16} (hconn : s.connections client = some conn)
      (htask : conn.task = .sendingControl request)
      (hsend : s.control.trySend request = some control) :
      Step s (.controlSent client)
        ({ s with control := control }.set client { conn with task := .ready })
  | inputSent {client : ClientId} {conn : Connection} {input : WebInput}
      {queue : Channel WebInput 256} (hconn : s.connections client = some conn)
      (htask : conn.task = .sendingInput input) (hsend : s.input.trySend input = some queue) :
      Step s (.inputSent client)
        ({ s with input := queue }.set client { conn with task := .ready })
  | write {client : ClientId} {conn : Connection} {message : Message}
      {messages : Channel Message 64} (hconn : s.connections client = some conn)
      (htask : conn.task = .ready) (hrecv : conn.messages.recv = some (message, messages)) :
      Step s (.write client)
        (s.set client { conn with messages := messages, written := conn.written ++ [message] })
  | exit {client : ClientId} {conn : Connection} {exit : Exit}
      (hconn : s.connections client = some conn) (htask : conn.task = .ready)
      (hexit : exit ≠ .invalidToken) : Step s (.exit client exit) (s.exit client conn exit)
  | cleanUp {client : ClientId} {conn : Connection} {exit : Exit}
      (hconn : s.connections client = some conn) (htask : conn.task = .leaving exit) :
      Step s (.cleanUp client) (s.cleanUp client conn exit)
  | takeControlRequest {request : ControlRequest} {control : Channel ControlRequest 16}
      (hrecv : s.control.recv = some (request, control)) :
      Step s .takeControlRequest { s with control := control }
  | takeInput {input : WebInput} {queue : Channel WebInput 256} (hconsumer : s.consumer = .waiting)
      (hrecv : s.input.recv = some (input, queue)) :
      Step s .takeInput { s with input := queue, consumer := .holding input }
  | writeInput {input : WebInput} (hconsumer : s.consumer = .holding input) :
      Step s .writeInput
        { s with
          consumer := .waiting
          typed := s.typed ++ [(input, s.holdsControl input.clientId)] }
  | stopConsumer : Step s .stopConsumer { s with consumer := .stopped }
  | approved {request : ControlRequestId} {client : ClientId}
      (hpending : s.access.pending[request]? = some client) (hclient : client ∈ s.access.clients) :
      Step s (.approveControl request)
        { s with access := (s.access.approve request).2 }.broadcastAccess
  | notApproved {request : ControlRequestId} (herror : (s.access.approve request).1 ≠ .ok ()) :
      Step s (.approveControl request) { s with access := (s.access.approve request).2 }
  | denied {request : ControlRequestId} :
      Step s (.denyControl request) { s with access := s.access.deny request }
  | revoked {client : ClientId} (hcontrol : s.access.controller = some client) :
      Step s .revokeControl { s with access := s.access.revokeControl.2 }.broadcastAccess
  | notRevoked (hcontrol : s.access.controller = none) : Step s .revokeControl s
  | shutdown : Step s .shutdown { s with closed := true, clients := ∅ }
  | shutdownAgain (hclosed : s.closed = true) : Step s .shutdown s
  | setSnapshot {snapshot : TerminalScreen} (hne : s.snapshot ≠ snapshot) :
      Step s (.setSnapshot snapshot)
        { s with snapshot := snapshot, notifying := s.notifying + 1 }
  | sameSnapshot : Step s (.setSnapshot s.snapshot) s
  | notify (hnotifying : 0 < s.notifying) :
      Step s .notify
        { s with notifying := s.notifying - 1, tokens := (s.tokens.trySend ()).getD s.tokens }
  | recvToken {tokens : Channel Unit 1} (hphase : s.broadcaster = .waiting)
      (hrecv : s.tokens.recv = some ((), tokens)) :
      Step s .recvToken { s with tokens := tokens, broadcaster := .sleeping }
  | wake (hphase : s.broadcaster = .sleeping) : Step s .wake { s with broadcaster := .draining }
  | drainToken {tokens : Channel Unit 1} (hphase : s.broadcaster = .draining)
      (hrecv : s.tokens.recv = some ((), tokens)) :
      Step s .drainToken { s with tokens := tokens }
  | drained (hphase : s.broadcaster = .draining) (hempty : s.tokens.queue = []) :
      Step s .drained { s with broadcaster := .ready }
  | broadcast (hphase : s.broadcaster = .ready) : Step s .broadcast s.broadcast

/-- The cases of a message of a client. -/
theorem receive_cases {s : Server} {client : ClientId} {conn : Connection}
    (hconn : s.connections client = some conn) (htask : conn.task = .ready)
    (message : ClientMessage) :
    Step s (.receive client message) (s.receive client conn message) := by
  -- before the token only `authenticate` is looked at, and after it everything else
  cases hauth : conn.authenticated with
  | false =>
    cases message with
    | authenticate token =>
      simp only [receive, hauth, Bool.false_eq_true, if_false]
      by_cases htoken : token = s.access.token
      · exact .authenticated hconn htask hauth htoken
      · simp only [authenticate, ShareAccess.connect, ne_eq, htoken, not_false_eq_true, if_true]
        exact .authenticateFailed hconn htask hauth htoken
    | _ =>
      simp only [receive, hauth, Bool.false_eq_true, if_false]
      exact .ignored hconn
  | true =>
    cases message with
    | requestControl =>
      rw [show s.receive client conn .requestControl = _ from if_pos hauth, requestControl]
      split
      · -- the request is registered, and the task waits for room in the queue of the owner
        next request access heq =>
        have hok : (s.access.requestControl client).1 = .ok request := by rw [heq]
        have haccess : access = (s.access.requestControl client).2 := by rw [heq]
        rw [haccess]
        exact .requested hconn htask hauth hok
      -- an error changes nothing, and the client is told of some of them
      all_goals
        next heq =>
          rw [ShareAccess.requestControl_error heq]
          first | exact .refused hconn htask hauth | exact .ignored hconn
    | releaseControl =>
      rw [show s.receive client conn .releaseControl = _ from if_pos hauth, releaseControl]
      by_cases hcontrol : s.access.controller = some client
      · have hrelease : s.access.releaseControl client =
            (true, (s.access.releaseControl client).2) := by
          simp [ShareAccess.releaseControl, hcontrol]
        rw [hrelease]
        exact .released hconn hauth hcontrol
      · have hrelease : s.access.releaseControl client = (false, s.access) := by
          simp [ShareAccess.releaseControl, hcontrol]
        rw [hrelease]
        exact .ignored hconn
    | input data =>
      rw [show s.receive client conn (.input data) = _ from if_pos hauth, receiveInput]
      split
      · next hcan => exact .input hconn htask hauth hcan
      · exact .ignored hconn
    | authenticate token =>
      rw [show s.receive client conn (.authenticate token) = _ from if_pos hauth]
      exact .ignored hconn
    | activity => exact .ignored hconn
    | other => exact .ignored hconn

/-- The cases of an approval: broadcast where it succeeds. -/
theorem approveControl_cases (s : Server) (request : ControlRequestId) :
    Step s (.approveControl request) (s.approveControl request) := by
  rw [approveControl]
  split
  · next error access heq =>
    have haccess : access = (s.access.approve request).2 := by rw [heq]
    rw [haccess]
    exact .notApproved (by rw [heq]; simp)
  · next _ access heq =>
    obtain ⟨client, hpending, hclient⟩ := ShareAccess.approve_ok (s := s.access) (r := request)
      (by rw [heq])
    have haccess : access = (s.access.approve request).2 := by rw [heq]
    rw [haccess]
    exact .approved hpending hclient

/-- The cases of a revocation: broadcast where there was a controller. -/
theorem revokeControl_cases (s : Server) : Step s .revokeControl s.revokeControl := by
  rw [revokeControl]
  cases hcontrol : s.access.controller with
  | none =>
    have hrevoke : s.access.revokeControl = (false, s.access) := by
      simp [ShareAccess.revokeControl, ← hcontrol]
    rw [hrevoke]
    exact .notRevoked hcontrol
  | some client =>
    have hrevoke : s.access.revokeControl = (true, s.access.revokeControl.2) := by
      simp [ShareAccess.revokeControl, hcontrol]
    rw [hrevoke]
    exact .revoked hcontrol

/-- The cases of a shutdown: the first one closes. -/
theorem shutdown_cases (s : Server) : Step s .shutdown s.shutdown := by
  rw [shutdown]
  split
  · next hclosed => exact .shutdownAgain hclosed
  · exact .shutdown

/-- The cases of a snapshot: a broadcast is due where it is a new one. -/
theorem setSnapshot_cases (s : Server) (snapshot : TerminalScreen) :
    Step s (.setSnapshot snapshot) (s.setSnapshot snapshot) := by
  rw [setSnapshot]
  split
  · next heq => subst heq; exact .sameSnapshot
  · next hne => exact .setSnapshot hne

/-- The cases of a step. -/
theorem step_cases {s s' : Server} {e : Event} (h : s.step e = some s') : Step s e s' := by
  cases e with
  -- a new connection, under a number that no connection has
  | accept client peer =>
    simp only [step] at h
    split at h
    · next hfresh => cases h; exact .accept hfresh
    · cases h
  -- the turns of a client's task: each asks that the client is connected and where its task stands
  | receive client message =>
    obtain ⟨conn, hconn, h⟩ := Option.bind_eq_some_iff.mp h
    split_ifs at h with htask
    cases h
    exact receive_cases hconn htask message
  | controlSent client =>
    obtain ⟨conn, hconn, h⟩ := Option.bind_eq_some_iff.mp h
    split at h
    · next htask =>
      obtain ⟨control, hsend, rfl⟩ := Option.map_eq_some_iff.mp h
      exact .controlSent hconn htask hsend
    · cases h
  | inputSent client =>
    obtain ⟨conn, hconn, h⟩ := Option.bind_eq_some_iff.mp h
    split at h
    · next htask =>
      obtain ⟨queue, hsend, rfl⟩ := Option.map_eq_some_iff.mp h
      exact .inputSent hconn htask hsend
    · cases h
  | write client =>
    obtain ⟨conn, hconn, h⟩ := Option.bind_eq_some_iff.mp h
    split_ifs at h with htask
    obtain ⟨⟨message, messages⟩, hrecv, rfl⟩ := Option.map_eq_some_iff.mp h
    exact .write hconn htask hrecv
  | exit client exit =>
    obtain ⟨conn, hconn, h⟩ := Option.bind_eq_some_iff.mp h
    split_ifs at h with hexit
    cases h
    refine .exit hconn hexit.1 ?_
    -- a wrong token is an exit of `receive` alone
    rintro rfl
    exact absurd hexit.2 (by simp [canExit])
  | cleanUp client =>
    obtain ⟨conn, hconn, h⟩ := Option.bind_eq_some_iff.mp h
    split at h
    · next htask => cases h; exact .cleanUp hconn htask
    · cases h
  -- the owner's side: the queues that it empties and the consumer of the input
  | takeControlRequest =>
    obtain ⟨⟨request, control⟩, hrecv, rfl⟩ := Option.map_eq_some_iff.mp h
    exact .takeControlRequest hrecv
  | takeInput =>
    simp only [step] at h
    split_ifs at h with hconsumer
    obtain ⟨⟨input, queue⟩, hrecv, rfl⟩ := Option.map_eq_some_iff.mp h
    exact .takeInput hconsumer hrecv
  | writeInput =>
    simp only [step] at h
    split at h
    · next hconsumer => cases h; exact .writeInput hconsumer
    · cases h
  | stopConsumer => cases h; exact .stopConsumer
  -- the calls of the owner, which never wait
  | approveControl request =>
    cases h
    exact approveControl_cases s request
  | denyControl request => cases h; exact .denied
  | revokeControl =>
    cases h
    exact revokeControl_cases s
  | shutdown =>
    cases h
    exact shutdown_cases s
  | setSnapshot snapshot =>
    cases h
    exact setSnapshot_cases s snapshot
  -- the broadcaster, from phase to phase
  | notify =>
    simp only [step] at h
    split_ifs at h with hnotifying
    cases h
    exact .notify hnotifying
  | recvToken =>
    simp only [step] at h
    split_ifs at h with hphase
    obtain ⟨⟨_, tokens⟩, hrecv, rfl⟩ := Option.map_eq_some_iff.mp h
    exact .recvToken hphase hrecv
  | wake =>
    simp only [step] at h
    split_ifs at h with hphase
    cases h
    exact .wake hphase
  | drainToken =>
    simp only [step] at h
    split_ifs at h with hphase
    obtain ⟨⟨_, tokens⟩, hrecv, rfl⟩ := Option.map_eq_some_iff.mp h
    exact .drainToken hphase hrecv
  | drained =>
    simp only [step] at h
    split_ifs at h with hphase
    cases h
    exact .drained hphase.1 hphase.2
  | broadcast =>
    simp only [step] at h
    split_ifs at h with hphase
    cases h
    exact .broadcast hphase

/-- Only `shutdown` closes a server, and nothing opens it again. -/
theorem closed_step {s s' : Server} {e : Event} (h : s.step e = some s') (he : e ≠ .shutdown) :
    s'.closed = s.closed := by
  cases step_cases h with
  | authenticated =>
    rw [authenticate]
    split <;> rfl
  | shutdown => exact absurd rfl he
  | _ => rfl

@[simp] theorem closed_shutdown (s : Server) : s.shutdown.closed = true := by
  rw [shutdown]
  split
  · assumption
  · rfl

/-! ## What a broadcaster iteration does to a connection -/

section Broadcast

variable {s : Server} {client : ClientId} {conn : Connection}

@[simp] theorem access_broadcast : s.broadcast.access = s.access.disconnectAll s.failed := rfl

/-- The clients that a broadcaster iteration fails to send to. -/
theorem mem_failed_iff (hconn : s.connections client = some conn) :
    client ∈ s.failed ↔ client ∈ s.clients ∧ conn.trySend s.updateMessage = none := by
  simp [failed, hconn]

theorem connections_broadcast_of_none (hconn : s.connections client = none) :
    s.broadcast.connections client = none := by
  simp [broadcast, hconn]

theorem exists_connections_of_broadcast {conn' : Connection}
    (hconn' : s.broadcast.connections client = some conn') :
    ∃ conn, s.connections client = some conn := by
  cases hconn : s.connections client with
  | none => simp [connections_broadcast_of_none hconn] at hconn'
  | some conn => exact ⟨conn, rfl⟩

/-- A client is left alone, sent the update, or dropped. -/
theorem connections_broadcast (hconn : s.connections client = some conn) :
    (client ∉ s.clients ∧ s.broadcast.connections client = some conn) ∨
      (client ∈ s.clients ∧ client ∉ s.failed ∧ ∃ sent, conn.trySend s.updateMessage = some sent ∧
        s.broadcast.connections client = some { sent with mirrored := some s.snapshot }) ∨
      (client ∈ s.failed ∧ s.broadcast.connections client = some { conn with dropped := true }) := by
  by_cases hmem : client ∈ s.clients
  · cases hsent : conn.trySend s.updateMessage with
    | none =>
      exact .inr (.inr ⟨(mem_failed_iff hconn).mpr ⟨hmem, hsent⟩, by
        simp [broadcast, hmem, hconn, hsent]⟩)
    | some sent =>
      refine .inr (.inl ⟨hmem, fun hfailed => ?_, sent, rfl, by
        simp [broadcast, hmem, hconn, hsent]⟩)
      simp [((mem_failed_iff hconn).mp hfailed).2] at hsent
  · exact .inl ⟨hmem, by simp [broadcast, hmem, hconn]⟩

end Broadcast

end Server

end Termua.Web
