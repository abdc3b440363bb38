import Mathlib
import Termua.Pty.EventLoop

/-!
# Delivery to a local terminal

What was typed reaches the program once, whole and in order, whatever the PTY takes at a time and however
senders and the loop interleave (`delivered_in_order`): a byte that was sent is written, waits to be written,
or waits in the channel. When the loop waits and nothing will wake it, nothing is left. What the program
writes reaches the terminal in order, and all of it unless a read fails while the terminal is taken
(`read_in_order`).
-/

namespace Termua.Pty

open Transition

/-! ## One write -/

theorem State.pending_gotoNext (s : State) :
    s.gotoNext.pending = s.writeList.flatten := by
  unfold State.gotoNext State.pending
  rcases s.writeList with _ | ⟨bytes, rest⟩ <;> rfl

theorem State.pending_of_not_needsWrite {s : State} (h : s.needsWrite = false) : s.pending = [] := by
  obtain ⟨writeList, writing⟩ := s
  unfold State.needsWrite at h
  unfold State.pending
  simp only [Bool.or_eq_false_iff, Option.isSome_eq_false_iff, Option.isNone_iff_eq_none,
    Bool.not_eq_false', List.isEmpty_iff] at h
  rw [h.1, h.2]
  rfl

/-- What is taken of the current item and what remains of it are what remained of it. -/
theorem Writing.take_remainingBytes (w : Writing) (n : ℕ) :
    w.remainingBytes.take n ++ (w.advance n).remainingBytes = w.remainingBytes := by
  show _ ++ w.source.drop (w.written + n) = _
  rw [← List.drop_drop]
  exact List.take_append_drop n _

theorem Writing.remainingBytes_of_finished {w : Writing} (h : w.finished = true) :
    w.remainingBytes = [] :=
  List.drop_eq_nil_of_le (of_decide_eq_true h)

/-- A write moves bytes from what is pending to what the PTY has got. -/
theorem writeLoop_pending {answers : List WriteAnswer} {current : Writing} {s s' : State}
    {output output' : List UInt8} {ok : Bool}
    (h : writeLoop answers current s output = some (ok, s', output')) :
    output' ++ s'.pending = output ++ (current.remainingBytes ++ s.writeList.flatten) := by
  induction answers generalizing current s output with
  | nil => cases h
  | cons answer answers ih =>
    -- an item that is put back is pending as it was
    have hback {ok' : Bool} (h : some (ok', s.setCurrent (some current), output) =
        some (ok, s', output')) :
        output' ++ s'.pending = output ++ (current.remainingBytes ++ s.writeList.flatten) := by
      cases h
      rfl
    cases answer with
    | blocked => exact hback h
    | failed => exact hback h
    | ok n =>
      simp only [writeLoop] at h
      generalize min n current.remainingBytes.length = n at h
      have htake := current.take_remainingBytes n
      split at h
      · exact hback h
      · split at h
        · next hfinished =>
          -- the item is done, and the next one comes from the list
          rw [Writing.remainingBytes_of_finished hfinished, List.append_nil] at htake
          rcases hlist : s.writeList with _ | ⟨bytes, rest⟩
          · simp only [State.gotoNext, State.takeCurrent, hlist, List.head?_nil, Option.map_none] at h
            cases h
            rw [htake]
            show _ ++ ([] ++ []) = output ++ (current.remainingBytes ++ [])
            simp
          · simp only [State.gotoNext, State.takeCurrent, hlist, List.head?_cons, Option.map_some,
              List.tail_cons] at h
            rw [ih h, htake, List.append_assoc]
            rfl
        · rw [ih h, List.append_assoc, ← List.append_assoc (current.remainingBytes.take n), htake]

theorem State.pending_ensureNext (s : State) : s.ensureNext.pending = s.pending := by
  unfold State.ensureNext
  split
  · next hnone =>
    rw [State.pending_gotoNext]
    unfold State.pending
    rw [Option.isNone_iff_eq_none.mp hnone]
    rfl
  · rfl

theorem ptyWrite_pending {answers : List WriteAnswer} {s s' : State} {output output' : List UInt8}
    {ok : Bool} (h : ptyWrite answers s output = some (ok, s', output')) :
    output' ++ s'.pending = output ++ s.pending := by
  rw [← s.pending_ensureNext]
  unfold ptyWrite State.takeCurrent at h
  rcases hwriting : s.ensureNext.writing with _ | current
  · rw [hwriting] at h
    cases h
    unfold State.pending
    rw [hwriting]
  · rw [hwriting] at h
    rw [writeLoop_pending h]
    unfold State.pending
    rw [hwriting]
    rfl

/-! ## One read -/

/-- A turn with a failing read. -/
def ReadTurn.Fails (turn : ReadTurn) : Prop := turn.answer = .eio ∨ turn.answer = .failed

/-- A read leaves its bytes in the buffer, or the loop ends without one. -/
theorem readOnce_cases (answer : ReadAnswer) (unprocessed : List UInt8) (f : Flow) :
    (∃ got, readOnce answer unprocessed f = (.inr (unprocessed ++ got), { f with read := f.read ++ got })) ∨
      ∃ e, readOnce answer unprocessed f = (.inl e, f) ∧
        (unprocessed ≠ [] → answer = .eio ∨ answer = .failed) := by
  cases answer with
  | ok bytes =>
    unfold readOnce
    simp only
    split
    · next hempty =>
      rw [Bool.and_eq_true, List.isEmpty_iff, List.isEmpty_iff] at hempty
      exact .inr ⟨.done, rfl, fun hne => absurd hempty.2 hne⟩
    · exact .inl ⟨_, rfl⟩
  | blocked =>
    rcases unprocessed with _ | ⟨b, bytes⟩
    · exact .inr ⟨.done, rfl, fun hne => absurd rfl hne⟩
    · refine .inl ⟨[], ?_⟩
      rw [List.append_nil, List.append_nil]
      rfl
  | eio => exact .inr ⟨.eio, rfl, fun _ => .inl rfl⟩
  | failed => exact .inr ⟨.failed, rfl, fun _ => .inr rfl⟩

/-- The terminal gets what is read, up to bytes that are lost when a read fails; these had to wait for the
terminal. -/
theorem readLoop_flow {turns : List ReadTurn} {unprocessed : List UInt8} {processed : ℕ} {held : Bool}
    {f f' : Flow} {e : ReadEnd} (h : readLoop turns unprocessed processed held f = some (e, f')) :
    ∃ got parsed lost, f'.read = f.read ++ got ∧ f'.parsed = f.parsed ++ parsed ∧
      unprocessed ++ got = parsed ++ lost ∧
      (lost ≠ [] → (∃ turn ∈ turns, turn.Fails) ∧
        (unprocessed ≠ [] ∨ ∃ turn ∈ turns, turn.free = false)) := by
  induction turns generalizing unprocessed processed held f with
  | nil => cases h
  | cons turn turns ih =>
    unfold readLoop at h
    obtain ⟨got, hread⟩ | ⟨e', hread, hfails⟩ := readOnce_cases turn.answer unprocessed f
    · simp only [hread] at h
      split at h
      · -- the terminal gets the buffer
        split at h
        · cases h
          exact ⟨got, unprocessed ++ got, [], rfl, rfl, (List.append_nil _).symm, fun hne => absurd rfl hne⟩
        · obtain ⟨got', parsed, lost, hread', hparsed, hbytes, hlost⟩ := ih h
          refine ⟨got ++ got', unprocessed ++ got ++ parsed, lost, ?_, ?_, ?_, fun hne => ?_⟩
          · rw [hread', List.append_assoc]
          · rw [hparsed, List.append_assoc]
          · rw [List.nil_append] at hbytes
            rw [hbytes]
            simp only [List.append_assoc]
          · obtain ⟨⟨failed, hmem, hfailed⟩, hnil | ⟨taken, hmem', htaken⟩⟩ := hlost hne
            · exact absurd rfl hnil
            · exact ⟨⟨failed, List.mem_cons_of_mem _ hmem, hfailed⟩,
                .inr ⟨taken, List.mem_cons_of_mem _ hmem', htaken⟩⟩
      · -- the buffer waits for the terminal
        next htaken =>
        simp only [Bool.or_eq_true, not_or, Bool.not_eq_true] at htaken
        obtain ⟨got', parsed, lost, hread', hparsed, hbytes, hlost⟩ := ih h
        refine ⟨got ++ got', parsed, lost, ?_, hparsed, ?_, fun hne => ?_⟩
        · rw [hread', List.append_assoc]
        · rw [← hbytes, List.append_assoc]
        · obtain ⟨⟨failed, hmem, hfailed⟩, -⟩ := hlost hne
          exact ⟨⟨failed, List.mem_cons_of_mem _ hmem, hfailed⟩,
            .inr ⟨turn, List.mem_cons_self, htaken.1.2⟩⟩
    · simp only [hread] at h
      cases h
      refine ⟨[], [], unprocessed, (List.append_nil _).symm, (List.append_nil _).symm, ?_, fun hne => ?_⟩
      · rw [List.append_nil, List.nil_append]
      · exact ⟨⟨turn, List.mem_cons_self, hfails hne⟩, .inl hne⟩

/-! ## Steps -/

namespace EventLoop

variable {l l' : EventLoop} {e : Event} {es : List Event}

/-- What a step does to the messages, the bytes and the phase. -/
inductive Step (l : EventLoop) : Event → EventLoop → Prop
  | send (msg : Msg) :
      Step l (.send msg) { l with channel := l.channel ++ [msg], announcing := l.announcing + 1 }
  | notify : Step l .notify { l with announcing := l.announcing - 1, notified := true }
  | idle (hempty : l.queued = []) : Step l (.wake []) { l with notified := false }
  | wake {events : List PollEvent} {peeked : Option Msg} {channel : List Msg}
      (hphase : l.phase = .waiting) (hqueued : peeked.toList ++ channel = l.queued) :
      Step l (.wake events) { l with peeked, channel, notified := false, phase := .draining events }
  | pollFailed : Step l .pollFailed { l with phase := .stopped }
  | drained {events : List PollEvent} (hempty : l.queued = []) :
      Step l .recv { l with phase := .handling events }
  | recv {events : List PollEvent} {msg : Msg} {peeked : Option Msg} {channel : List Msg}
      (hphase : l.phase = .draining events) (hqueued : l.queued = msg :: (peeked.toList ++ channel)) :
      Step l .recv ({ l with peeked, channel }.receive events msg)
  | read {turns : List ReadTurn} {answers : List WriteAnswer} {event : PollEvent}
      {events : List PollEvent} {flow : Flow} {phase : Phase}
      (hphase : l.phase = .handling (event :: events))
      (hflow : flow = l.flow ∨ ∃ r, ptyRead turns l.flow = some (r, flow))
      (hend : phase = .handling events ∨ phase = .stopped) :
      Step l (.handle turns answers) { l with flow, phase }
  | write {turns : List ReadTurn} {answers : List WriteAnswer} {event : PollEvent}
      {events : List PollEvent} {flow : Flow} {ok : Bool} {state : State} {output : List UInt8}
      (hphase : l.phase = .handling (event :: events))
      (hflow : flow = l.flow ∨ ∃ r, ptyRead turns l.flow = some (r, flow))
      (hwrite : ptyWrite answers l.state l.output = some (ok, state, output)) :
      Step l (.handle turns answers)
        { l with flow, state, output, phase := if ok then .handling events else .stopped }
  | rearm (hphase : l.phase = .handling []) :
      Step l .rearm { l with writable := l.state.needsWrite, phase := .waiting }

/-- A look at the channel takes nothing from it, and finds nothing in an empty one only. -/
theorem peek_eq (l : EventLoop) :
    l.peek = { l with peeked := l.peek.peeked, channel := l.peek.channel } ∧
      l.peek.peeked.toList ++ l.peek.channel = l.queued ∧
      (l.peek.peeked.isNone = true → l.peek = l ∧ l.queued = []) := by
  obtain ⟨drainOnExit, channel, peeked, announcing, notified, phase, state, writable, output, sizes,
    flow⟩ := l
  rcases peeked with _ | msg
  · rcases channel with _ | ⟨msg, rest⟩
    · exact ⟨rfl, rfl, fun _ => ⟨rfl, rfl⟩⟩
    · exact ⟨rfl, rfl, fun h => by cases h⟩
  · exact ⟨rfl, rfl, fun h => by cases h⟩

/-- The first message that waits is taken. -/
theorem recv_eq (l : EventLoop) :
    l.recv = (none, l) ∧ l.queued = [] ∨
      ∃ msg peeked channel, l.recv = (some msg, { l with peeked, channel }) ∧
        l.queued = msg :: (peeked.toList ++ channel) := by
  obtain ⟨drainOnExit, channel, peeked, announcing, notified, phase, state, writable, output, sizes,
    flow⟩ := l
  rcases peeked with _ | msg
  · rcases channel with _ | ⟨msg, rest⟩
    · exact .inl ⟨rfl, rfl⟩
    · exact .inr ⟨msg, none, rest, rfl, rfl⟩
  · exact .inr ⟨msg, none, channel, rfl, rfl⟩

theorem handle_spec {turns : List ReadTurn} {answers : List WriteAnswer} {event : PollEvent}
    {events : List PollEvent} (hphase : l.phase = .handling (event :: events))
    (h : { l with phase := .handling events }.handle turns answers event = some l') :
    Step l (.handle turns answers) l' := by
  have hwrite {flow : Flow} (hflow : flow = l.flow ∨ ∃ r, ptyRead turns l.flow = some (r, flow))
      (h : EventLoop.write { l with phase := .handling events, flow } answers = some l') :
      Step l (.handle turns answers) l' := by
    unfold EventLoop.write at h
    simp only [Option.bind_eq_bind, Option.bind_eq_some_iff] at h
    obtain ⟨⟨ok, state, output⟩, hx, h⟩ := h
    obtain rfl := Option.some.inj h
    exact .write hphase hflow hx
  -- the child has exited or not; the PTY hung up or not, and can be read or not
  rcases event with ⟨_ | _⟩ | ⟨_ | _, _ | _, writable⟩
  · obtain rfl := Option.some.inj h
    exact .read hphase (.inl rfl) (.inl rfl)
  · simp only [handle] at h
    split at h
    · simp only [Option.bind_eq_bind, Option.bind_eq_some_iff] at h
      obtain ⟨x, hx, h⟩ := h
      obtain rfl := Option.some.inj h
      exact .read hphase (.inr ⟨x.1, hx⟩) (.inr rfl)
    · obtain rfl := Option.some.inj h
      exact .read hphase (.inl rfl) (.inr rfl)
  · simp only [handle] at h
    split at h
    · exact hwrite (.inl rfl) h
    · obtain rfl := Option.some.inj h
      exact .read hphase (.inl rfl) (.inl rfl)
  · simp only [handle, Option.bind_eq_bind, Option.bind_eq_some_iff] at h
    obtain ⟨x, hx, h⟩ := h
    split at h
    · obtain rfl := Option.some.inj h
      exact .read hphase (.inr ⟨x.1, hx⟩) (.inl rfl)
    · obtain rfl := Option.some.inj h
      exact .read hphase (.inr ⟨x.1, hx⟩) (.inr rfl)
    · split at h
      · exact hwrite (.inr ⟨x.1, hx⟩) h
      · obtain rfl := Option.some.inj h
        exact .read hphase (.inr ⟨x.1, hx⟩) (.inl rfl)
  · obtain rfl := Option.some.inj h
    exact .read hphase (.inl rfl) (.inl rfl)
  · obtain rfl := Option.some.inj h
    exact .read hphase (.inl rfl) (.inl rfl)

theorem step_spec (h : l.step e = some l') : Step l e l' := by
  cases e with
  | send msg =>
    obtain rfl := Option.some.inj h
    exact .send msg
  | notify =>
    simp only [step] at h
    split at h
    · obtain rfl := Option.some.inj h
      exact .notify
    · cases h
  -- without events the wake-up is for the channel; `peek` may find it empty again
  | wake events =>
    simp only [step] at h
    split at h
    · next hphase =>
      split at h
      · next hevents =>
        rw [List.isEmpty_iff] at hevents
        subst hevents
        obtain ⟨hpeek, hqueued, hnone⟩ := peek_eq { l with notified := false }
        split at h
        · next hpeeked =>
          obtain ⟨hself, hempty⟩ := hnone hpeeked
          obtain rfl := Option.some.inj h
          rw [hself]
          exact .idle hempty
        · obtain rfl := Option.some.inj h
          rw [hpeek]
          exact .wake hphase hqueued
      · obtain rfl := Option.some.inj h
        exact .wake hphase rfl
    · cases h
  | pollFailed =>
    simp only [step] at h
    split at h
    · obtain rfl := Option.some.inj h
      exact .pollFailed
    · cases h
  -- what is peeked comes before what is in the channel
  | recv =>
    simp only [step] at h
    split at h
    · next hphase =>
      obtain ⟨hrecv, hempty⟩ | ⟨msg, peeked, channel, hrecv, hqueued⟩ := l.recv_eq
      · rw [hrecv] at h
        obtain rfl := Option.some.inj h
        exact .drained hempty
      · rw [hrecv] at h
        obtain rfl := Option.some.inj h
        exact .recv hphase hqueued
    · cases h
  | handle turns answers =>
    simp only [step] at h
    split at h
    · next hphase => exact handle_spec hphase h
    · cases h
  | rearm =>
    simp only [step] at h
    split at h
    · next hphase =>
      obtain rfl := Option.some.inj h
      exact .rearm hphase
    · cases h

/-! ## The account -/

/-- The bytes that were written, wait to be written, or wait in the channel. -/
def bytes (l : EventLoop) : List UInt8 :=
  l.output ++ (l.state.pending ++ l.queued.flatMap Msg.bytes)

/-- The sizes that the PTY has got or that wait in the channel. -/
def allSizes (l : EventLoop) : List WindowSize := l.sizes ++ l.queued.filterMap Msg.size?

theorem sent_concat (es : List Event) (e : Event) : sent (es ++ [e]) = sent es ++ sent [e] :=
  List.filterMap_append

/-- A message that is taken brings its bytes to what is to be written. -/
theorem receive_pending (l : EventLoop) (events : List PollEvent) (msg : Msg) :
    (l.receive events msg).state.pending = l.state.pending ++ msg.bytes := by
  cases msg with
  | input bytes =>
    show (l.state.writing.map Writing.remainingBytes).getD [] ++ (l.state.writeList ++ [bytes]).flatten =
      (l.state.writing.map Writing.remainingBytes).getD [] ++ l.state.writeList.flatten ++ bytes
    rw [List.flatten_append, List.flatten_singleton, List.append_assoc]
  | resize size => exact (List.append_nil _).symm
  | shutdown => exact (List.append_nil _).symm

theorem receive_sizes (l : EventLoop) (events : List PollEvent) (msg : Msg) :
    (l.receive events msg).sizes = l.sizes ++ [msg].filterMap Msg.size? := by
  cases msg with
  | resize size => rfl
  | _ => exact (List.append_nil _).symm

theorem receive_rest (l : EventLoop) (events : List PollEvent) (msg : Msg) :
    (l.receive events msg).output = l.output ∧ (l.receive events msg).queued = l.queued := by
  cases msg <;> exact ⟨rfl, rfl⟩

/-- A message that is taken from the channel stays in the account. -/
theorem receive_bytes {msg : Msg} {peeked : Option Msg} {channel : List Msg} (events : List PollEvent)
    (hqueued : l.queued = msg :: (peeked.toList ++ channel)) :
    ({ l with peeked, channel }.receive events msg).bytes = l.bytes ∧
      ({ l with peeked, channel }.receive events msg).allSizes = l.allSizes := by
  obtain ⟨houtput, hrest⟩ := receive_rest { l with peeked, channel } events msg
  have hrest' : ({ l with peeked, channel }.receive events msg).queued = peeked.toList ++ channel := hrest
  unfold bytes allSizes
  rw [houtput, receive_pending, receive_sizes, hrest', hqueued]
  refine ⟨?_, ?_⟩
  · rw [List.flatMap_cons, List.append_assoc]
  · rw [List.append_assoc, ← List.filterMap_append]
    rfl

/-- Nothing that was sent leaves the account, and nothing enters it twice. -/
theorem Step.accounts (h : Step l e l') :
    l'.bytes = l.bytes ++ (sent [e]).flatMap Msg.bytes ∧
      l'.allSizes = l.allSizes ++ (sent [e]).filterMap Msg.size? := by
  -- all steps but one send nothing
  have hquiet {m : EventLoop} (h : m.bytes = l.bytes ∧ m.allSizes = l.allSizes) :
      m.bytes = l.bytes ++ [] ∧ m.allSizes = l.allSizes ++ [] := by
    rw [List.append_nil, List.append_nil]
    exact h
  cases h with
  | send msg =>
    unfold bytes allSizes queued
    simp only [List.flatMap_append, List.filterMap_append, List.append_assoc]
    exact ⟨rfl, rfl⟩
  | wake hphase hqueued =>
    apply hquiet
    unfold bytes allSizes
    rw [← hqueued]
    exact ⟨rfl, rfl⟩
  | @recv events msg peeked channel hphase hqueued => exact hquiet (receive_bytes events hqueued)
  | @write turns answers event events flow ok state output hphase hflow hwrite =>
    refine hquiet ⟨?_, rfl⟩
    show output ++ (state.pending ++ l.queued.flatMap Msg.bytes) = _
    rw [← List.append_assoc, ptyWrite_pending hwrite, List.append_assoc]
    rfl
  | notify => exact hquiet ⟨rfl, rfl⟩
  | idle hempty => exact hquiet ⟨rfl, rfl⟩
  | pollFailed => exact hquiet ⟨rfl, rfl⟩
  | drained hempty => exact hquiet ⟨rfl, rfl⟩
  | read hphase hflow hend => exact hquiet ⟨rfl, rfl⟩
  | rearm hphase => exact hquiet ⟨rfl, rfl⟩

/-! ## Waking up -/

/-- The channel has been drained since the loop woke up. -/
def Drained : Phase → Prop
  | .waiting | .handling _ => True
  | .draining _ | .stopped => False

/-- While it waits the loop is registered for writing if something is left to write, and a message that came
after the draining is announced. -/
structure Awake (l : EventLoop) : Prop where
  writable : l.phase = .waiting → l.writable = l.state.needsWrite
  announced : Drained l.phase → l.queued ≠ [] → l.notified = true ∨ 0 < l.announcing

theorem Awake.of_not_drained (h : ¬Drained l.phase) : l.Awake :=
  ⟨fun hwaiting => absurd (by rw [hwaiting]; trivial) h, fun hdrained => absurd hdrained h⟩

/-- In a phase of handling only the messages matter. -/
theorem Awake.of_handling (events : List PollEvent) (hphase : l.phase = .handling events)
    (hannounced : l.queued ≠ [] → l.notified = true ∨ 0 < l.announcing) : l.Awake :=
  ⟨fun hwaiting => (by rw [hphase] at hwaiting; cases hwaiting), fun _ => hannounced⟩

theorem Awake.of_step (h : l.Awake) (hs : Step l e l') : l'.Awake := by
  cases hs with
  | send msg => exact ⟨h.writable, fun _ _ => .inr (Nat.succ_pos _)⟩
  | notify => exact ⟨h.writable, fun _ _ => .inl rfl⟩
  | idle hempty =>
    -- the notification that is taken was for messages that are gone
    exact ⟨h.writable, fun _ hne => absurd hempty hne⟩
  | wake hphase hqueued => exact .of_not_drained id
  | pollFailed => exact .of_not_drained id
  | @drained events hempty => exact .of_handling events rfl fun hne => absurd hempty hne
  | @recv events msg peeked channel hphase hqueued => cases msg <;> exact .of_not_drained id
  | read hphase hflow hend =>
    obtain rfl | rfl := hend
    · exact .of_handling _ rfl (h.announced (by rw [hphase]; trivial))
    · exact .of_not_drained id
  | @write turns answers event events flow ok state output hphase hflow hwrite =>
    cases ok
    · exact .of_not_drained id
    · exact .of_handling events rfl (h.announced (by rw [hphase]; trivial))
  | rearm hphase => exact ⟨fun _ => rfl, fun _ => h.announced (by rw [hphase]; trivial)⟩

/-! ## Runs -/

theorem run_accounts {drainOnExit : Bool} (h : Run (ofPartial step) (spawn drainOnExit) es l) :
    l.bytes = (sent es).flatMap Msg.bytes ∧ l.allSizes = (sent es).filterMap Msg.size? := by
  refine h.historyInvariant (I := fun es l =>
    l.bytes = (sent es).flatMap Msg.bytes ∧ l.allSizes = (sent es).filterMap Msg.size?) ⟨rfl, rfl⟩ ?_
  intro es l e l' _ hI hs
  obtain ⟨hbytes, hsizes⟩ := (step_spec hs).accounts
  rw [sent_concat, List.flatMap_append, List.filterMap_append, hbytes, hsizes, hI.1, hI.2]
  exact ⟨rfl, rfl⟩

/-- What the PTY has got is a first part of what was sent, in the order in which it was sent. When the loop
waits, no sender is between its two steps, the poller is not notified and the PTY is not registered for
writing, so that nothing will wake the loop for a message, everything that was sent has arrived. -/
theorem delivered_in_order {drainOnExit : Bool}
    (h : Run (ofPartial step) (spawn drainOnExit) es l) :
    l.output <+: (sent es).flatMap Msg.bytes ∧ l.sizes <+: (sent es).filterMap Msg.size? ∧
      (l.phase = .waiting → l.announcing = 0 → l.notified = false → l.writable = false →
        l.output = (sent es).flatMap Msg.bytes ∧ l.sizes = (sent es).filterMap Msg.size?) := by
  obtain ⟨hbytes, hsizes⟩ := run_accounts h
  have hawake : l.Awake := h.invariant
    ⟨fun _ => rfl, fun _ hne => absurd rfl hne⟩ fun _ _ _ _ _ hI hs => hI.of_step (step_spec hs)
  rw [← hbytes, ← hsizes]
  refine ⟨List.prefix_append _ _, List.prefix_append _ _, fun hwaiting hnone hquiet hidle => ?_⟩
  have hempty : l.queued = [] := by
    by_contra hne
    obtain hnotified | hannouncing := hawake.announced (by rw [hwaiting]; trivial) hne
    · rw [hquiet] at hnotified
      cases hnotified
    · omega
  have hpending := State.pending_of_not_needsWrite ((hawake.writable hwaiting).symm.trans hidle)
  unfold bytes allSizes
  rw [hempty, hpending]
  exact ⟨(List.append_nil _).symm, (List.append_nil _).symm⟩

/-- Two inputs and a new size are sent, the PTY has no room in the middle of the first, and in the next
round it takes what is left; then nothing will wake the loop. -/
theorem delivered_in_order_blocked :
    ∃ l, Run (ofPartial step) (spawn false)
        [.send (.input [1, 2, 3]), .send (.resize ⟨24, 80, 8, 16⟩), .notify, .wake [], .recv, .recv,
          .recv, .rearm, .wake [.pty false false true], .send (.input [4]), .recv, .recv,
          .handle [] [.ok 2, .blocked], .notify, .notify, .rearm,
          .wake [.pty false false true], .recv, .handle [] [.ok 8, .ok 8], .rearm] l ∧
      l.output <+: [1, 2, 3, 4] ∧ l.sizes <+: [⟨24, 80, 8, 16⟩] ∧
      (l.phase = .waiting ∧ l.announcing = 0 ∧ l.notified = false ∧ l.writable = false) ∧
      l.output = [1, 2, 3, 4] ∧ l.sizes = [⟨24, 80, 8, 16⟩] := by
  obtain ⟨l, hrun, hl⟩ := exists_run_of_any (p := fun l => l.phase == .waiting && l.announcing == 0 &&
      l.notified == false && l.writable == false) (spawn false)
    [.send (.input [1, 2, 3]), .send (.resize ⟨24, 80, 8, 16⟩), .notify, .wake [], .recv, .recv,
      .recv, .rearm, .wake [.pty false false true], .send (.input [4]), .recv, .recv,
      .handle [] [.ok 2, .blocked], .notify, .notify, .rearm,
      .wake [.pty false false true], .recv, .handle [] [.ok 8, .ok 8], .rearm] (f := step) (by decide)
  simp only [Bool.and_eq_true, beq_iff_eq] at hl
  obtain ⟨⟨⟨hwaiting, hnone⟩, hquiet⟩, hidle⟩ := hl
  obtain ⟨houtput, hsizes, harrived⟩ := delivered_in_order hrun
  exact ⟨l, hrun, houtput, hsizes, ⟨hwaiting, hnone, hquiet, hidle⟩, harrived hwaiting hnone hquiet hidle⟩

/-- The terminal gets bytes in the order in which they were read, and all of them unless a read failed in a
round in which the terminal was taken. -/
theorem read_in_order {drainOnExit : Bool} (h : Run (ofPartial step) (spawn drainOnExit) es l) :
    l.flow.parsed.Sublist l.flow.read ∧ (l.flow.parsed ≠ l.flow.read →
      ∃ turns answers, .handle turns answers ∈ es ∧ (∃ turn ∈ turns, turn.Fails) ∧
        ∃ turn ∈ turns, turn.free = false) := by
  refine h.historyInvariant (I := fun es l => l.flow.parsed.Sublist l.flow.read ∧
    (l.flow.parsed ≠ l.flow.read → ∃ turns answers, .handle turns answers ∈ es ∧
      (∃ turn ∈ turns, turn.Fails) ∧ ∃ turn ∈ turns, turn.free = false))
    ⟨List.Sublist.refl _, fun hne => absurd rfl hne⟩ ?_
  intro es l e l' _ hI hs
  -- a step that reads nothing
  have hquiet : l.flow.parsed.Sublist l.flow.read ∧ (l.flow.parsed ≠ l.flow.read →
      ∃ turns answers, .handle turns answers ∈ es ++ [e] ∧ (∃ turn ∈ turns, turn.Fails) ∧
        ∃ turn ∈ turns, turn.free = false) := by
    refine ⟨hI.1, fun hne => ?_⟩
    obtain ⟨turns, answers, hmem, hfails⟩ := hI.2 hne
    exact ⟨turns, answers, List.mem_append_left _ hmem, hfails⟩
  have hread {turns : List ReadTurn} {answers : List WriteAnswer} {flow : Flow}
      (he : e = .handle turns answers)
      (hflow : flow = l.flow ∨ ∃ r, ptyRead turns l.flow = some (r, flow)) :
      flow.parsed.Sublist flow.read ∧ (flow.parsed ≠ flow.read →
        ∃ turns answers, .handle turns answers ∈ es ++ [e] ∧ (∃ turn ∈ turns, turn.Fails) ∧
          ∃ turn ∈ turns, turn.free = false) := by
    obtain rfl | ⟨r, hr⟩ := hflow
    · exact hquiet
    obtain ⟨got, parsed, lost, hgot, hparsed, hbytes, hlost⟩ := readLoop_flow hr
    rw [List.nil_append] at hbytes
    rw [hgot, hparsed, hbytes]
    refine ⟨hI.1.append (List.sublist_append_left _ _), fun hne => ?_⟩
    -- what is lost was read in a round whose last read failed
    by_cases hnone : lost = []
    · subst hnone
      rw [List.append_nil] at hne
      exact hquiet.2 fun heq => hne (by rw [heq])
    · obtain ⟨hfails, hnil | htaken⟩ := hlost hnone
      · exact absurd rfl hnil
      · exact ⟨turns, answers, List.mem_append_right _ (by rw [he]; exact List.mem_singleton_self _),
          hfails, htaken⟩
  have hstep := step_spec hs
  cases hstep with
  | read hphase hflow hend => exact hread rfl hflow
  | write hphase hflow hwrite => exact hread rfl hflow
  | @recv events msg peeked channel hphase hqueued => cases msg <;> exact hquiet
  | _ => exact hquiet

/-- A read finds the terminal taken, and the next one fails. -/
theorem read_in_order_eio :
    ∃ (es : List Event) (l : EventLoop), Run (ofPartial step) (spawn false) es l ∧
      l.flow.parsed = [1] ∧ l.flow.parsed.Sublist l.flow.read ∧ (l.flow.parsed ≠ l.flow.read →
        ∃ turns answers, .handle turns answers ∈ es ∧ (∃ turn ∈ turns, turn.Fails) ∧
          ∃ turn ∈ turns, turn.free = false) := by
  obtain ⟨l, hrun, hparsed⟩ := exists_run_of_any (p := fun l => l.flow.parsed == [1]) (spawn false)
    [.wake [.pty false true false], .recv,
      .handle [⟨.ok [1], true⟩, ⟨.blocked, true⟩] [], .rearm, .wake [.pty false true false], .recv,
      .handle [⟨.ok [2], false⟩, ⟨.eio, false⟩] []] (f := step) (by decide)
  exact ⟨_, l, hrun, eq_of_beq hparsed, read_in_order hrun⟩

end EventLoop

end Termua.Pty
