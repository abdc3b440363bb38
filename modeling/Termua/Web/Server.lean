import Mathlib
import Termua.Lib.Channel
import Termua.Lib.Run
import Termua.Cast.Serialize
import Termua.Web.Access

/-!
# The web share server

`WebShareServer` of `termua/src/web/mod.rs` with everything that runs beside it: the task
`serve_websocket` of each client, the broadcaster task, the window's calls, and the task of
`window/main_window/actions.rs` that writes the clients' input to the terminal.

`step` takes one step of one of them. What the source does while it holds the state's lock is one
step, and so is what it does between two `await`s; everything else interleaves. A task that waits
for room in a channel stays where it is until its step is possible. The network is free: a client
may send any message at any time, and its connection may fail at any time.
-/

namespace Termua.Web

open Termua.Cast (TerminalScreen serializeTerminalScreenAnsi serializeTerminalScreenUpdateAnsi)

/-! ## Messages -/

/-- `ControlRequest`. -/
structure ControlRequest where
  requestId : ControlRequestId
  clientId : ClientId
  peer : String
  deriving DecidableEq, Repr

/-- `WebInput`. -/
structure WebInput where
  clientId : ClientId
  data : List UInt8
  deriving DecidableEq, Repr

/-- `ClientMessage`; `other` is a frame that is no text or does not parse as one of the others. -/
inductive ClientMessage
  | authenticate (token : String)
  | activity
  | requestControl
  | releaseControl
  | input (data : String)
  | other
  deriving DecidableEq, Repr

/-- The contents of a screen message. -/
structure ScreenMessage where
  kind : ℕ
  columns : ℕ
  rows : ℕ
  lineNumbers : List (Option ℕ)
  selection : Option (ℕ × ℕ × ℕ)
  ansi : List Char
  deriving DecidableEq, Repr

/-- A message to a client: those of `access_message`, `control_request_message` and
`screen_message`. -/
inductive Message
  | access (control : Bool)
  | controlRequest (status : String)
  | screen (message : ScreenMessage)
  deriving DecidableEq, Repr

/-- `screen_message`. -/
def screenMessage (kind : ℕ) (screen : TerminalScreen) (ansi : List Char) : Message :=
  .screen
    { kind := kind
      columns := screen.columns
      rows := screen.rows
      lineNumbers := screen.lineNumbers
      selection := screen.selection
      ansi := ansi }

/-! ## Connections -/

/-- How `serve_websocket` leaves its loop: the first four break out of it, the last two return
through the error operator. -/
inductive Exit
  | closeFrame
  | endOfStream
  | invalidToken
  | outgoingClosed
  | readError
  | writeError
  deriving DecidableEq, Repr

/-- Whether the code behind the loop runs. -/
def Exit.isBreak : Exit → Bool
  | .closeFrame | .endOfStream | .invalidToken | .outgoingClosed => true
  | .readError | .writeError => false

/-- Where the task of a connection is: at the `select!`, waiting for room in a channel, behind the
loop, or at its end. -/
inductive Task
  | ready
  | sendingControl (request : ControlRequest)
  | sendingInput (input : WebInput)
  | leaving (exit : Exit)
  | ended (exit : Exit)
  deriving DecidableEq, Repr

/-- A connection: the local variables of `serve_websocket` and the channel of its
`ClientConnection`, with what was written to the socket.

`mirrored` and `dropped` are not in the source and no step looks at them: the screen that the last
screen message was made from, and whether the broadcaster removed the client. -/
structure Connection where
  peer : String
  authenticated : Bool
  messages : Channel Message 64
  written : List Message
  task : Task
  mirrored : Option TerminalScreen
  dropped : Bool

namespace Connection

/-- A connection before its first message. -/
def new (peer : String) : Connection where
  peer := peer
  authenticated := false
  messages := .empty
  written := []
  task := .ready
  mirrored := none
  dropped := false

/-- Whether the task has returned; the receiver of its channel is gone then. -/
def isEnded (conn : Connection) : Bool :=
  match conn.task with
  | .ended _ => true
  | _ => false

/-- `messages.try_send`. -/
def trySend (conn : Connection) (message : Message) : Option Connection :=
  if conn.isEnded then none
  else (conn.messages.trySend message).map fun messages => { conn with messages := messages }

/-- `let _ = messages.try_send(message)`. -/
def post (conn : Connection) (message : Message) : Connection :=
  (conn.trySend message).getD conn

/-- Everything that was sent to the client, oldest first. -/
def sent (conn : Connection) : List Message := conn.written ++ conn.messages.queue

/-- A message that is sent goes behind the others, and nothing else changes. -/
theorem trySend_eq_some {conn conn' : Connection} {message : Message}
    (h : conn.trySend message = some conn') :
    conn.isEnded = false ∧ ∃ messages : Channel Message 64,
      messages.queue = conn.messages.queue ++ [message] ∧
        conn' = { conn with messages := messages } := by
  rw [trySend] at h
  split_ifs at h with hended
  obtain ⟨messages, hmessages, rfl⟩ := Option.map_eq_some_iff.mp h
  exact ⟨by simpa using hended, messages, (Channel.trySend_eq_some.mp hmessages).2, rfl⟩

/-- A message that is posted changes the queue at most. -/
theorem post_eq (conn : Connection) (message : Message) :
    ∃ messages : Channel Message 64, conn.post message = { conn with messages := messages } := by
  rw [post]
  cases h : conn.trySend message with
  | none => exact ⟨conn.messages, rfl⟩
  | some conn' =>
    obtain ⟨-, messages, -, rfl⟩ := trySend_eq_some h
    exact ⟨messages, rfl⟩

@[simp] theorem task_post (conn : Connection) (message : Message) :
    (conn.post message).task = conn.task := by
  obtain ⟨messages, h⟩ := conn.post_eq message
  rw [h]

@[simp] theorem authenticated_post (conn : Connection) (message : Message) :
    (conn.post message).authenticated = conn.authenticated := by
  obtain ⟨messages, h⟩ := conn.post_eq message
  rw [h]

@[simp] theorem mirrored_post (conn : Connection) (message : Message) :
    (conn.post message).mirrored = conn.mirrored := by
  obtain ⟨messages, h⟩ := conn.post_eq message
  rw [h]

@[simp] theorem dropped_post (conn : Connection) (message : Message) :
    (conn.post message).dropped = conn.dropped := by
  obtain ⟨messages, h⟩ := conn.post_eq message
  rw [h]

@[simp] theorem isEnded_post (conn : Connection) (message : Message) :
    (conn.post message).isEnded = conn.isEnded := by
  rw [isEnded, isEnded, task_post]

/-- A message can be sent while the task runs and there is room. -/
theorem isSome_trySend (conn : Connection) (message : Message) :
    (conn.trySend message).isSome = (!conn.isEnded && decide (conn.messages.queue.length < 64)) := by
  rw [trySend]
  split
  · next h => simp [h]
  · next h =>
    rw [Option.isSome_map, Channel.trySend]
    split <;> simp_all

/-- What was sent after a message was posted. -/
theorem sent_post (conn : Connection) (message : Message) :
    (conn.post message).sent =
      if (conn.trySend message).isSome then conn.sent ++ [message] else conn.sent := by
  rw [post]
  cases h : conn.trySend message with
  | none => rfl
  | some conn' =>
    obtain ⟨-, messages, hqueue, rfl⟩ := trySend_eq_some h
    simp [sent, hqueue]

/-- The queue after a message was posted, when there was room. -/
theorem queue_post_of_room {conn : Connection} (hlive : conn.isEnded = false)
    (hroom : conn.messages.queue.length < 64) (message : Message) :
    (conn.post message).messages.queue = conn.messages.queue ++ [message] := by
  have hsome : (conn.trySend message).isSome := by simp [isSome_trySend, hlive, hroom]
  obtain ⟨conn', hconn'⟩ := Option.isSome_iff_exists.mp hsome
  obtain ⟨-, messages, hqueue, rfl⟩ := trySend_eq_some hconn'
  simp [post, hconn', hqueue]

end Connection

/-! ## The server -/

/-- Where the broadcaster task is in its loop. -/
inductive Broadcaster
  | waiting
  | sleeping
  | draining
  | ready
  deriving DecidableEq, Repr

/-- Where the task is that writes the input to the terminal. -/
inductive Consumer
  | waiting
  | holding (input : WebInput)
  | stopped
  deriving DecidableEq, Repr

/-- `ServerState` and everything around it.

`typed` is not in the source: the input written to the terminal, each with whether its client held
control at that moment. -/
structure Server where
  access : ShareAccess
  snapshot : TerminalScreen
  broadcastScreen : TerminalScreen
  clients : Finset ClientId
  control : Channel ControlRequest 16
  input : Channel WebInput 256
  closed : Bool
  connections : ClientId → Option Connection
  /-- The calls of `update_snapshot` that have set the snapshot and not yet sent the token. -/
  notifying : ℕ
  tokens : Channel Unit 1
  broadcaster : Broadcaster
  consumer : Consumer
  typed : List (WebInput × Bool)

/-- A step of the server: which task takes it, and what the network or the user chose. -/
inductive Event
  /-- A client connects; its id was never used before. -/
  | accept (client : ClientId) (peer : String)
  | receive (client : ClientId) (message : ClientMessage)
  /-- The control request that the task holds found room. -/
  | controlSent (client : ClientId)
  /-- The input that the task holds found room. -/
  | inputSent (client : ClientId)
  /-- The oldest message of the queue is written to the socket. -/
  | write (client : ClientId)
  | exit (client : ClientId) (exit : Exit)
  /-- The code behind the loop of `serve_websocket`. -/
  | cleanUp (client : ClientId)
  | takeControlRequest
  | takeInput
  | writeInput
  /-- The terminal is gone and the consumer's loop ends. -/
  | stopConsumer
  | approveControl (request : ControlRequestId)
  | denyControl (request : ControlRequestId)
  | revokeControl
  | shutdown
  /-- The first half of `update_snapshot`, under the lock. -/
  | setSnapshot (snapshot : TerminalScreen)
  /-- The second half of `update_snapshot`: `try_send`. -/
  | notify
  | recvToken
  | wake
  | drainToken
  | drained
  /-- The rest of the broadcaster's iteration, under the lock. -/
  | broadcast

namespace Server

/-- `bind_with_manager`. -/
def bind (token : String) (snapshot : TerminalScreen) : Server where
  access := .new token
  snapshot := snapshot
  broadcastScreen := snapshot
  clients := ∅
  control := .empty
  input := .empty
  closed := false
  connections _ := none
  notifying := 0
  tokens := .empty
  broadcaster := .waiting
  consumer := .waiting
  typed := []

/-- Replace a connection. -/
def set (s : Server) (client : ClientId) (conn : Connection) : Server :=
  { s with connections := Function.update s.connections client (some conn) }

@[simp] theorem connections_set (s : Server) (client : ClientId) (conn : Connection) :
    (s.set client conn).connections = Function.update s.connections client (some conn) := rfl

@[simp] theorem access_set (s : Server) (client : ClientId) (conn : Connection) :
    (s.set client conn).access = s.access := rfl

@[simp] theorem clients_set (s : Server) (client : ClientId) (conn : Connection) :
    (s.set client conn).clients = s.clients := rfl

/-- `broadcast_access`. -/
def broadcastAccess (s : Server) : Server :=
  { s with
    connections := fun client =>
      if client ∈ s.clients then
        (s.connections client).map fun conn => conn.post (.access (s.access.canInput client))
      else s.connections client }

@[simp] theorem access_broadcastAccess (s : Server) : s.broadcastAccess.access = s.access := rfl

@[simp] theorem clients_broadcastAccess (s : Server) : s.broadcastAccess.clients = s.clients := rfl

/-! ### `serve_websocket` -/

/-- `ClientMessage::Authenticate` on a connection that is not authenticated. -/
def authenticate (s : Server) (client : ClientId) (conn : Connection) (token : String) : Server :=
  match s.access.connect token client with
  | (.error _, access) =>
    { s with access := access }.set client { conn with task := .leaving .invalidToken }
  | (.ok _, access) =>
    let conn := conn.post (.access false)
    let conn := conn.post (screenMessage 0 s.snapshot (serializeTerminalScreenAnsi s.snapshot))
    { s with access := access, clients := insert client s.clients }.set client
      { conn with authenticated := true, mirrored := some s.snapshot }

/-- `ClientMessage::RequestControl`. -/
def requestControl (s : Server) (client : ClientId) (conn : Connection) : Server :=
  match s.access.requestControl client with
  | (.ok request, access) =>
    { s with access := access }.set client
      { conn with task := .sendingControl ⟨request, client, conn.peer⟩ }
  | (.error .controllerAlreadyActive, access) =>
    { s with access := access }.set client (conn.post (.controlRequest "unavailable"))
  | (.error .requestAlreadyPending, access) =>
    { s with access := access }.set client (conn.post (.controlRequest "pending"))
  | (.error _, access) => { s with access := access }

/-- `ClientMessage::ReleaseControl`. -/
def releaseControl (s : Server) (client : ClientId) : Server :=
  match s.access.releaseControl client with
  | (true, access) => { s with access := access }.broadcastAccess
  | (false, access) => { s with access := access }

/-- `ClientMessage::Input`. -/
def receiveInput (s : Server) (client : ClientId) (conn : Connection) (data : String) : Server :=
  if s.access.canInput client then
    s.set client { conn with task := .sendingInput ⟨client, data.toUTF8.toList⟩ }
  else s

/-- A message of the client, as the loop of `serve_websocket` handles it. -/
def receive (s : Server) (client : ClientId) (conn : Connection) : ClientMessage → Server
  | .authenticate token => if conn.authenticated then s else s.authenticate client conn token
  | .activity => s
  | .requestControl => if conn.authenticated then s.requestControl client conn else s
  | .releaseControl => if conn.authenticated then s.releaseControl client else s
  | .input data => if conn.authenticated then s.receiveInput client conn data else s
  | .other => s

/-- Whether the loop of `serve_websocket` may end so: a write fails only when there is something to
write, and an invalid token is found by `authenticate`. -/
def canExit (conn : Connection) : Exit → Bool
  | .closeFrame | .endOfStream | .outgoingClosed | .readError => true
  | .writeError => !conn.messages.queue.isEmpty
  | .invalidToken => false

/-- The loop ends: a break goes to the code behind it, an error returns. -/
def exit (s : Server) (client : ClientId) (conn : Connection) (exit : Exit) : Server :=
  s.set client { conn with task := if exit.isBreak then .leaving exit else .ended exit }

/-- The code behind the loop of `serve_websocket`. -/
def cleanUp (s : Server) (client : ClientId) (conn : Connection) (exit : Exit) : Server :=
  ({ s with
      clients := s.clients.erase client
      access := s.access.disconnect client }.broadcastAccess).set client
    { conn with task := .ended exit }

/-! ### The window's calls -/

/-- `approve_control`. -/
def approveControl (s : Server) (request : ControlRequestId) : Server :=
  match s.access.approve request with
  | (.error _, access) => { s with access := access }
  | (.ok _, access) => { s with access := access }.broadcastAccess

/-- `deny_control`. -/
def denyControl (s : Server) (request : ControlRequestId) : Server :=
  { s with access := s.access.deny request }

/-- `revoke_control`. -/
def revokeControl (s : Server) : Server :=
  match s.access.revokeControl with
  | (true, access) => { s with access := access }.broadcastAccess
  | (false, access) => { s with access := access }

/-- `shutdown`. -/
def shutdown (s : Server) : Server :=
  if s.closed then s else { s with closed := true, clients := ∅ }

/-- `update_snapshot` up to the end of its lock. -/
def setSnapshot (s : Server) (snapshot : TerminalScreen) : Server :=
  if s.snapshot = snapshot then s
  else { s with snapshot := snapshot, notifying := s.notifying + 1 }

/-! ### The broadcaster -/

/-- The message of a broadcaster iteration. -/
def updateMessage (s : Server) : Message :=
  screenMessage 2 s.snapshot (serializeTerminalScreenUpdateAnsi s.broadcastScreen s.snapshot)

/-- The clients that a broadcaster iteration cannot send to. -/
def failed (s : Server) : Finset ClientId :=
  s.clients.filter fun client =>
    (s.connections client).all fun conn => (conn.trySend s.updateMessage).isNone

/-- The locked part of a broadcaster iteration. -/
def broadcast (s : Server) : Server :=
  { s with
    broadcastScreen := s.snapshot
    clients := s.clients \ s.failed
    access := s.access.disconnectAll s.failed
    connections := fun client =>
      if client ∈ s.clients then
        (s.connections client).map fun conn =>
          match conn.trySend s.updateMessage with
          | some conn => { conn with mirrored := some s.snapshot }
          | none => { conn with dropped := true }
      else s.connections client
    broadcaster := .waiting }

/-! ### Steps -/

/-- Whether a client's input is welcome: it holds control of a share that is not shut down. -/
def holdsControl (s : Server) (client : ClientId) : Bool := !s.closed && s.access.canInput client

/-- A step of the task of a connection, when there is one. -/
def onTask (s : Server) (client : ClientId) (f : Connection → Option Server) : Option Server :=
  (s.connections client).bind f

/-- One step; `none` when it is not possible. -/
def step (s : Server) : Event → Option Server
  | .accept client peer =>
    match s.connections client with
    | none => some (s.set client (.new peer))
    | some _ => none
  | .receive client message =>
    s.onTask client fun conn =>
      if conn.task = .ready then some (s.receive client conn message) else none
  | .controlSent client =>
    s.onTask client fun conn =>
      match conn.task with
      | .sendingControl request => (s.control.trySend request).map fun control =>
        { s with control := control }.set client { conn with task := .ready }
      | _ => none
  | .inputSent client =>
    s.onTask client fun conn =>
      match conn.task with
      | .sendingInput input => (s.input.trySend input).map fun queue =>
        { s with input := queue }.set client { conn with task := .ready }
      | _ => none
  | .write client =>
    s.onTask client fun conn =>
      if conn.task = .ready then
        conn.messages.recv.map fun (message, messages) =>
          s.set client { conn with messages := messages, written := conn.written ++ [message] }
      else none
  | .exit client exit =>
    s.onTask client fun conn =>
      if conn.task = .ready ∧ canExit conn exit then some (s.exit client conn exit) else none
  | .cleanUp client =>
    s.onTask client fun conn =>
      match conn.task with
      | .leaving exit => some (s.cleanUp client conn exit)
      | _ => none
  | .takeControlRequest => s.control.recv.map fun (_, control) => { s with control := control }
  | .takeInput =>
    if s.consumer = .waiting then
      s.input.recv.map fun (input, queue) => { s with input := queue, consumer := .holding input }
    else none
  | .writeInput =>
    match s.consumer with
    | .holding input =>
      some { s with
        consumer := .waiting
        typed := s.typed ++ [(input, s.holdsControl input.clientId)] }
    | _ => none
  | .stopConsumer => some { s with consumer := .stopped }
  | .approveControl request => some (s.approveControl request)
  | .denyControl request => some (s.denyControl request)
  | .revokeControl => some s.revokeControl
  | .shutdown => some s.shutdown
  | .setSnapshot snapshot => some (s.setSnapshot snapshot)
  | .notify =>
    if 0 < s.notifying then
      some { s with notifying := s.notifying - 1, tokens := (s.tokens.trySend ()).getD s.tokens }
    else none
  | .recvToken =>
    if s.broadcaster = .waiting then
      s.tokens.recv.map fun (_, tokens) => { s with tokens := tokens, broadcaster := .sleeping }
    else none
  | .wake => if s.broadcaster = .sleeping then some { s with broadcaster := .draining } else none
  | .drainToken =>
    if s.broadcaster = .draining then
      s.tokens.recv.map fun (_, tokens) => { s with tokens := tokens }
    else none
  | .drained =>
    if s.broadcaster = .draining ∧ s.tokens.queue = [] then some { s with broadcaster := .ready }
    else none
  | .broadcast => if s.broadcaster = .ready then some s.broadcast else none

/-- The steps `es` lead from a fresh server to `s`. -/
def Reaches (token : String) (snapshot : TerminalScreen) (es : List Event) (s : Server) : Prop :=
  Transition.Run (Transition.ofPartial step) (bind token snapshot) es s

/-- The steps `es`, each taken where `ok` holds, lead from a fresh server to `s`. -/
def ReachesWhere (ok : Server → Event → Prop) (token : String) (snapshot : TerminalScreen)
    (es : List Event) (s : Server) : Prop :=
  Transition.Run (Transition.Guarded (Transition.ofPartial step) ok) (bind token snapshot) es s

end Server

end Termua.Web
