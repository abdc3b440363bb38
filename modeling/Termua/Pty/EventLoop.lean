import Mathlib
import Termua.Lib.Run

/-!
# The event loop of a local terminal

`alacritty_terminal/src/event_loop.rs`. Senders put messages into a channel and then notify the poller; the
loop waits for the poller, takes the messages that are there, reads what the program has written and
writes what was typed, and registers for writing as long as something is left. The steps of the senders
interleave freely with those of the loop. What the PTY answers to a read or a write is given with the step;
the timeout of a synchronized update and the bytes that the parser holds back for one are left out.
-/

namespace Termua.Pty

/-- `WindowSize`. -/
structure WindowSize where
  numLines : ℕ
  numCols : ℕ
  cellWidth : ℕ
  cellHeight : ℕ
  deriving DecidableEq, Repr

/-- `Msg`. -/
inductive Msg where
  | input (bytes : List UInt8)
  | shutdown
  | resize (size : WindowSize)
  deriving DecidableEq, Repr

/-- The bytes that a message brings. -/
def Msg.bytes : Msg → List UInt8
  | .input bytes => bytes
  | _ => []

/-- The size that a message brings. -/
def Msg.size? : Msg → Option WindowSize
  | .resize size => some size
  | _ => none

/-- `Notifier::notify`: the message that is sent. -/
def notify (bytes : List UInt8) : Option Msg := if bytes.isEmpty then none else some (.input bytes)

/-! ## Writing -/

/-- `Writing`. -/
structure Writing where
  source : List UInt8
  written : ℕ
  deriving DecidableEq, Repr

namespace Writing

/-- `Writing::new`. -/
def new (source : List UInt8) : Writing := ⟨source, 0⟩

/-- `advance`. -/
def advance (w : Writing) (n : ℕ) : Writing := { w with written := w.written + n }

/-- `remaining_bytes`. -/
def remainingBytes (w : Writing) : List UInt8 := w.source.drop w.written

/-- `finished`. -/
def finished (w : Writing) : Bool := w.source.length ≤ w.written

end Writing

/-- `State`. -/
structure State where
  writeList : List (List UInt8) := []
  writing : Option Writing := none
  deriving DecidableEq, Repr

namespace State

variable (s : State)

/-- `goto_next`. -/
def gotoNext : State := ⟨s.writeList.tail, s.writeList.head?.map Writing.new⟩

/-- `ensure_next`. -/
def ensureNext : State := if s.writing.isNone then s.gotoNext else s

/-- `take_current`. -/
def takeCurrent : Option Writing × State := (s.writing, { s with writing := none })

/-- `set_current`. -/
def setCurrent (new : Option Writing) : State := { s with writing := new }

/-- `needs_write`. -/
def needsWrite : Bool := s.writing.isSome || !s.writeList.isEmpty

/-- The bytes that are still to be written. -/
def pending : List UInt8 := (s.writing.map Writing.remainingBytes).getD [] ++ s.writeList.flatten

end State

/-- What the PTY answers to a write: how many bytes it takes, at most those it is given, or an error;
`blocked` is for the errors that a later write may not have. -/
inductive WriteAnswer where
  | ok (n : ℕ)
  | blocked
  | failed
  deriving DecidableEq, Repr

/-- The loops of `pty_write`, with the item that is being written and the bytes that the PTY has taken so
far, and whether they end without an error; `none` where more answers are needed. -/
def writeLoop : List WriteAnswer → Writing → State → List UInt8 → Option (Bool × State × List UInt8)
  | [], _, _, _ => none
  | .ok n :: answers, current, s, output =>
    let n := min n current.remainingBytes.length
    if n = 0 then some (true, s.setCurrent (some current), output)
    else
      let output := output ++ current.remainingBytes.take n
      let current := current.advance n
      if current.finished then
        match s.gotoNext.takeCurrent with
        | (none, s) => some (true, s, output)
        | (some current, s) => writeLoop answers current s output
      else writeLoop answers current s output
  | .blocked :: _, current, s, output => some (true, s.setCurrent (some current), output)
  | .failed :: _, current, s, output => some (false, s.setCurrent (some current), output)

/-- `pty_write`. -/
def ptyWrite (answers : List WriteAnswer) (s : State) (output : List UInt8) :
    Option (Bool × State × List UInt8) :=
  match s.ensureNext.takeCurrent with
  | (none, s) => some (true, s, output)
  | (some current, s) => writeLoop answers current s output

/-! ## Reading -/

/-- What the PTY answers to a read: bytes, none of them at its end, or an error. -/
inductive ReadAnswer where
  | ok (bytes : List UInt8)
  | blocked
  | eio
  | failed
  deriving DecidableEq, Repr

/-- A turn of the loop of `pty_read`: the answer to its read, and whether nobody else holds the terminal. -/
structure ReadTurn where
  answer : ReadAnswer
  free : Bool
  deriving DecidableEq, Repr

/-- How `pty_read` ends. -/
inductive ReadEnd where
  | done
  | eio
  | failed
  deriving DecidableEq, Repr

/-- The bytes that were read from the PTY and those that the terminal has got. -/
structure Flow where
  read : List UInt8 := []
  parsed : List UInt8 := []
  deriving DecidableEq, Repr

/-- `READ_BUFFER_SIZE`. -/
def readBufferSize : ℕ := 0x100000

/-- `MAX_LOCKED_READ`. -/
def maxLockedRead : ℕ := 65535

/-- The read of a turn, with the bytes of the buffer that the terminal has not got: those that are there
after it, or how the loop ends. A read fills the buffer at most. -/
def readOnce (answer : ReadAnswer) (unprocessed : List UInt8) (f : Flow) :
    (ReadEnd ⊕ List UInt8) × Flow :=
  match answer with
  | .ok bytes =>
    let got := bytes.take (readBufferSize - unprocessed.length)
    if got.isEmpty && unprocessed.isEmpty then (.inl .done, f)
    else (.inr (unprocessed ++ got), { f with read := f.read ++ got })
  | .blocked => (if unprocessed.isEmpty then .inl .done else .inr unprocessed, f)
  | .eio => (.inl .eio, f)
  | .failed => (.inl .failed, f)

/-- The loop of `pty_read`, with the bytes of the buffer that the terminal has not got, the number of bytes
that it has got, and whether the terminal is held; `none` where more turns are needed. -/
def readLoop : List ReadTurn → List UInt8 → ℕ → Bool → Flow → Option (ReadEnd × Flow)
  | [], _, _, _, _ => none
  | turn :: turns, unprocessed, processed, held, f =>
    match readOnce turn.answer unprocessed f with
    | (.inl e, f) => some (e, f)
    | (.inr unprocessed, f) =>
      -- at the size of the buffer the loop waits for the terminal
      if held || turn.free || readBufferSize ≤ unprocessed.length then
        let f := { f with parsed := f.parsed ++ unprocessed }
        let processed := processed + unprocessed.length
        if maxLockedRead ≤ processed then some (.done, f) else readLoop turns [] processed true f
      else readLoop turns unprocessed processed false f

/-- `pty_read`. -/
def ptyRead (turns : List ReadTurn) (f : Flow) : Option (ReadEnd × Flow) := readLoop turns [] 0 false f

/-! ## The loop -/

/-- An event of the poller. -/
inductive PollEvent where
  | child (exited : Bool)
  | pty (interrupt readable writable : Bool)
  deriving DecidableEq, Repr

/-- Where the loop is: it waits for the poller, takes messages, handles events, or has ended. -/
inductive Phase where
  | waiting
  | draining (events : List PollEvent)
  | handling (events : List PollEvent)
  | stopped
  deriving DecidableEq, Repr

/-- `EventLoop` and the locals of `spawn`, with the channel, the number of senders between their two steps,
whether the poller is notified, and what the PTY has got. -/
structure EventLoop where
  drainOnExit : Bool
  channel : List Msg := []
  peeked : Option Msg := none
  announcing : ℕ := 0
  notified : Bool := false
  phase : Phase := .waiting
  state : State := {}
  writable : Bool := false
  output : List UInt8 := []
  sizes : List WindowSize := []
  flow : Flow := {}
  deriving DecidableEq, Repr

namespace EventLoop

variable (l : EventLoop)

/-- `PeekableReceiver::peek`, what it leaves. -/
def peek : EventLoop :=
  if l.peeked.isNone then { l with peeked := l.channel.head?, channel := l.channel.tail } else l

/-- `PeekableReceiver::recv`. -/
def recv : Option Msg × EventLoop :=
  if l.peeked.isSome then (l.peeked, { l with peeked := none })
  else (l.channel.head?, { l with channel := l.channel.tail })

/-- The messages that were sent and not taken. -/
def queued : List Msg := l.peeked.toList ++ l.channel

/-- What `drain_recv_channel` does with a message. -/
def receive (events : List PollEvent) : Msg → EventLoop
  | .input bytes => { l with state := { l.state with writeList := l.state.writeList ++ [bytes] }
                             phase := .draining events }
  | .resize size => { l with sizes := l.sizes ++ [size], phase := .draining events }
  | .shutdown => { l with phase := .stopped }

/-- What the loop does for an event of the PTY that can be written to. -/
def write (answers : List WriteAnswer) : Option EventLoop := do
  let (ok, state, output) ← ptyWrite answers l.state l.output
  return { l with state, output, phase := if ok then l.phase else .stopped }

/-- What the loop does for an event. -/
def handle (turns : List ReadTurn) (answers : List WriteAnswer) : PollEvent → Option EventLoop
  | .child false => some l
  | .child true =>
    if l.drainOnExit then do
      let (_, flow) ← ptyRead turns l.flow
      return { l with flow, phase := .stopped }
    else some { l with phase := .stopped }
  | .pty true _ _ => some l
  | .pty false false writable => if writable then l.write answers else some l
  | .pty false true writable => do
    let (e, flow) ← ptyRead turns l.flow
    let l := { l with flow }
    match e with
    | .eio => some l
    | .failed => some { l with phase := .stopped }
    | .done => if writable then l.write answers else some l

/-- A step: of a sender, which sends and then notifies, or of the loop. -/
inductive Event where
  | send (msg : Msg)
  | notify
  | wake (events : List PollEvent)
  | pollFailed
  | recv
  | handle (turns : List ReadTurn) (answers : List WriteAnswer)
  | rearm
  deriving DecidableEq, Repr

/-- What a step does, `none` where it is not one the loop is at. -/
def step (l : EventLoop) : Event → Option EventLoop
  | .send msg => some { l with channel := l.channel ++ [msg], announcing := l.announcing + 1 }
  | .notify =>
    if 0 < l.announcing then some { l with announcing := l.announcing - 1, notified := true } else none
  | .wake events =>
    match l.phase with
    | .waiting =>
      let l := { l with notified := false }
      if events.isEmpty then
        let l := l.peek
        if l.peeked.isNone then some l else some { l with phase := .draining [] }
      else some { l with phase := .draining events }
    | _ => none
  | .pollFailed =>
    match l.phase with
    | .waiting => some { l with phase := .stopped }
    | _ => none
  | .recv =>
    match l.phase with
    | .draining events =>
      match l.recv with
      | (none, l) => some { l with phase := .handling events }
      | (some msg, l) => some (l.receive events msg)
    | _ => none
  | .handle turns answers =>
    match l.phase with
    | .handling (event :: events) => { l with phase := .handling events }.handle turns answers event
    | _ => none
  | .rearm =>
    match l.phase with
    | .handling [] => some { l with writable := l.state.needsWrite, phase := .waiting }
    | _ => none

/-- The loop when it is spawned. -/
def spawn (drainOnExit : Bool) : EventLoop := { drainOnExit }

/-- The messages that were sent in a run. -/
def sent (es : List Event) : List Msg :=
  es.filterMap fun e => match e with
    | .send msg => some msg
    | _ => none

end EventLoop

end Termua.Pty
