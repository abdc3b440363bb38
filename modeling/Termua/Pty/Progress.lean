import Mathlib
import Termua.Pty.Delivery

/-!
# Progress of the event loop

As long as no empty input is sent, a PTY that takes something at every write gets everything in one round
(`writes_everything`). An empty input ends that: the PTY takes nothing of it, which the loop cannot tell from
a PTY that has no room, and nothing that is sent after it is ever written (`empty_input_hangs`). This is why
`Notifier::notify` sends no empty input.
-/

namespace Termua.Pty

open Transition

/-! ## Without empty inputs -/

/-- Something is left to write of every item. -/
structure State.Fed (s : State) : Prop where
  writing : ∀ w, s.writing = some w → w.remainingBytes ≠ []
  writeList : ∀ bytes ∈ s.writeList, bytes ≠ []

theorem Writing.remainingBytes_of_not_finished {w : Writing} (h : ¬w.finished = true) :
    w.remainingBytes ≠ [] := by
  unfold Writing.finished at h
  rw [decide_eq_true_eq, not_le] at h
  exact List.ne_nil_of_length_pos (by rw [Writing.remainingBytes, List.length_drop]; omega)

theorem State.Fed.gotoNext {s : State} (h : ∀ bytes ∈ s.writeList, bytes ≠ []) : s.gotoNext.Fed := by
  refine ⟨fun w hw => ?_, fun bytes hbytes => h bytes (List.mem_of_mem_tail hbytes)⟩
  obtain ⟨bytes, hhead, rfl⟩ := Option.map_eq_some_iff.mp hw
  exact h bytes (List.mem_of_mem_head? hhead)

theorem writeLoop_fed {answers : List WriteAnswer} {current : Writing} {s s' : State}
    {output output' : List UInt8} {ok : Bool} (hcurrent : current.remainingBytes ≠ [])
    (hlist : ∀ bytes ∈ s.writeList, bytes ≠ [])
    (h : writeLoop answers current s output = some (ok, s', output')) : s'.Fed := by
  induction answers generalizing current s output with
  | nil => cases h
  | cons answer answers ih =>
    have hback {ok' : Bool} (h : some (ok', s.setCurrent (some current), output) =
        some (ok, s', output')) : s'.Fed := by
      cases h
      exact ⟨fun w hw => Option.some.inj hw ▸ hcurrent, hlist⟩
    cases answer with
    | blocked => exact hback h
    | failed => exact hback h
    | ok n =>
      simp only [writeLoop] at h
      split at h
      · exact hback h
      · split at h
        · have hfed := State.Fed.gotoNext hlist
          rcases hnext : s.gotoNext.writing with _ | next
          · simp only [State.takeCurrent, hnext] at h
            cases h
            exact ⟨fun w hw => (by cases hw), hfed.writeList⟩
          · simp only [State.takeCurrent, hnext] at h
            exact ih (s := ⟨s.gotoNext.writeList, none⟩) (hfed.writing next hnext) hfed.writeList h
        · next hleft => exact ih (Writing.remainingBytes_of_not_finished hleft) hlist h

/-- A PTY that takes something at every write gets everything. -/
theorem writeLoop_drains {answers : List WriteAnswer} {current : Writing} {s : State}
    {output : List UInt8} (hok : ∀ answer ∈ answers, ∃ n, 0 < n ∧ answer = .ok n)
    (hcurrent : current.remainingBytes ≠ []) (hlist : ∀ bytes ∈ s.writeList, bytes ≠ [])
    (hlen : (current.remainingBytes ++ s.writeList.flatten).length ≤ answers.length) :
    ∃ s', writeLoop answers current s output =
      some (true, s', output ++ (current.remainingBytes ++ s.writeList.flatten)) ∧
      s'.needsWrite = false := by
  -- on the answers: each takes a byte at least, and there are as many answers as bytes
  induction answers generalizing current s output with
  | nil =>
    rw [List.length_append, List.length_nil] at hlen
    exact absurd (List.eq_nil_of_length_eq_zero (by omega)) hcurrent
  | cons answer answers ih =>
    obtain ⟨n, hn, rfl⟩ := hok answer List.mem_cons_self
    have hrest : ∀ answer ∈ answers, ∃ n, 0 < n ∧ answer = .ok n :=
      fun a ha => hok a (List.mem_cons_of_mem _ ha)
    have hpos : 0 < current.remainingBytes.length := List.length_pos_iff.mpr hcurrent
    have hmin : 0 < min n current.remainingBytes.length := by omega
    have htake := current.take_remainingBytes (min n current.remainingBytes.length)
    have htaken : (current.remainingBytes.take (min n current.remainingBytes.length)).length =
        min n current.remainingBytes.length := by
      rw [List.length_take]
      omega
    unfold writeLoop
    simp only
    generalize min n current.remainingBytes.length = n at hmin htake htaken
    rw [List.length_append, ← htake, List.length_append, htaken, List.length_cons] at hlen
    rw [if_neg (by omega)]
    split
    · next hfinished =>
      rw [Writing.remainingBytes_of_finished hfinished, List.append_nil] at htake
      -- the item is written; the next one, where there is one, is not empty
      rcases hwrites : s.writeList with _ | ⟨bytes, rest⟩
      · refine ⟨⟨[], none⟩, ?_, rfl⟩
        simp only [State.gotoNext, State.takeCurrent, hwrites, List.head?_nil, Option.map_none,
          List.tail_nil, List.flatten_nil, List.append_nil]
        rw [htake]
      · have hnext : (Writing.new bytes).remainingBytes = bytes := rfl
        rw [hwrites] at hlist hlen
        obtain ⟨s', hs', hdone⟩ := @ih (Writing.new bytes) ⟨rest, none⟩
          (output ++ current.remainingBytes.take n) hrest
          (hlist bytes List.mem_cons_self) (fun b hb => hlist b (List.mem_cons_of_mem _ hb))
          (by
            show (bytes ++ rest.flatten).length ≤ answers.length
            rw [List.length_append]
            rw [List.flatten_cons, List.length_append] at hlen
            omega)
        refine ⟨s', ?_, hdone⟩
        simp only [State.gotoNext, State.takeCurrent, hwrites, List.head?_cons, Option.map_some,
          List.tail_cons]
        rw [hs', hnext, htake, List.append_assoc]
        rfl
    -- the item goes on from where the PTY stopped
    · next hleft =>
      obtain ⟨s', hs', hdone⟩ := @ih (current.advance n) s
        (output ++ current.remainingBytes.take n) hrest
        (Writing.remainingBytes_of_not_finished hleft) hlist
        (by
          rw [List.length_append]
          omega)
      refine ⟨s', ?_, hdone⟩
      rw [hs', List.append_assoc, ← List.append_assoc (current.remainingBytes.take n), htake]

theorem State.Fed.ensureNext {s : State} (hs : s.Fed) : s.ensureNext.Fed := by
  unfold State.ensureNext
  split
  · exact .gotoNext hs.writeList
  · exact hs

theorem ptyWrite_fed {answers : List WriteAnswer} {s s' : State} {output output' : List UInt8}
    {ok : Bool} (hs : s.Fed) (h : ptyWrite answers s output = some (ok, s', output')) : s'.Fed := by
  have hensure := hs.ensureNext
  unfold ptyWrite State.takeCurrent at h
  rcases hwriting : s.ensureNext.writing with _ | current
  · rw [hwriting] at h
    cases h
    exact ⟨fun w hw => (by cases hw), hensure.writeList⟩
  · rw [hwriting] at h
    exact writeLoop_fed (s := ⟨s.ensureNext.writeList, none⟩) (hensure.writing current hwriting)
      hensure.writeList h

theorem State.writeList_of_ensureNext {s : State} (h : s.ensureNext.writing = none) :
    s.ensureNext.writeList = [] := by
  unfold State.ensureNext at h ⊢
  split at h
  · next hnone =>
    rw [if_pos hnone]
    have hhead := Option.map_eq_none_iff.mp h
    show s.writeList.tail = []
    rw [List.head?_eq_none_iff.mp hhead]
    rfl
  · next hsome =>
    rw [h] at hsome
    exact absurd rfl hsome

theorem ptyWrite_drains {answers : List WriteAnswer} {s : State} (output : List UInt8) (hs : s.Fed)
    (hok : ∀ answer ∈ answers, ∃ n, 0 < n ∧ answer = .ok n)
    (hlen : s.pending.length ≤ answers.length) :
    ∃ s', ptyWrite answers s output = some (true, s', output ++ s.pending) ∧
      s'.needsWrite = false := by
  have hensure := hs.ensureNext
  rw [← s.pending_ensureNext] at hlen ⊢
  unfold ptyWrite State.takeCurrent
  rcases hwriting : s.ensureNext.writing with _ | current
  · have hlist := State.writeList_of_ensureNext hwriting
    refine ⟨⟨[], none⟩, ?_, rfl⟩
    unfold State.pending
    rw [hwriting, hlist]
    simp
  · have hpending : s.ensureNext.pending = current.remainingBytes ++ s.ensureNext.writeList.flatten := by
      unfold State.pending
      rw [hwriting]
      rfl
    rw [hpending] at hlen ⊢
    exact writeLoop_drains (s := ⟨s.ensureNext.writeList, none⟩) hok
      (hensure.writing current hwriting) hensure.writeList hlen

theorem ptyWrite_written {answers : List WriteAnswer} {s s' : State} {output output' : List UInt8}
    {ok : Bool} (hs : s.needsWrite = false) (h : ptyWrite answers s output = some (ok, s', output')) :
    s'.needsWrite = false := by
  obtain ⟨writeList, writing⟩ := s
  simp only [State.needsWrite, Bool.or_eq_false_iff, Option.isSome_eq_false_iff, Option.isNone_iff_eq_none,
    Bool.not_eq_false', List.isEmpty_iff] at hs
  obtain ⟨rfl, rfl⟩ := hs
  cases h
  rfl

namespace EventLoop

variable {l l' m : EventLoop} {e : Event} {es : List Event}

/-- No item that waits anywhere is empty. -/
structure Fed (l : EventLoop) : Prop where
  state : l.state.Fed
  queued : ∀ msg ∈ l.queued, msg ≠ .input []

theorem Fed.of_step (h : l.Fed) (hsend : e ≠ .send (.input [])) (hs : Step l e l') : l'.Fed := by
  cases hs with
  | send msg =>
    refine ⟨h.state, fun msg' hmem => ?_⟩
    have hmem' : msg' ∈ l.peeked.toList ++ (l.channel ++ [msg]) := hmem
    rw [← List.append_assoc, List.mem_append, List.mem_singleton] at hmem'
    obtain hmem' | rfl := hmem'
    · exact h.queued msg' hmem'
    · exact fun heq => hsend (congrArg Event.send heq)
  | wake hphase hqueued => exact ⟨h.state, fun msg hmem => h.queued msg (hqueued ▸ hmem)⟩
  | @recv events msg peeked channel hphase hqueued =>
    have hmsgs := h.queued
    rw [hqueued] at hmsgs
    have hrest : ∀ msg' ∈ peeked.toList ++ channel, msg' ≠ .input [] :=
      fun msg' hmem => hmsgs msg' (List.mem_cons_of_mem _ hmem)
    cases msg with
    | input bytes =>
      refine ⟨⟨h.state.writing, fun bytes' hmem => ?_⟩, hrest⟩
      have hmem' : bytes' ∈ l.state.writeList ++ [bytes] := hmem
      rw [List.mem_append, List.mem_singleton] at hmem'
      obtain hmem' | rfl := hmem'
      · exact h.state.writeList bytes' hmem'
      · exact fun hnil => hmsgs _ List.mem_cons_self (congrArg Msg.input hnil)
    | resize size => exact ⟨h.state, hrest⟩
    | shutdown => exact ⟨h.state, hrest⟩
  | write hphase hflow hwrite => exact ⟨ptyWrite_fed h.state hwrite, h.queued⟩
  | _ => exact ⟨h.state, h.queued⟩

/-- Nothing is left to write, in a round that goes on. -/
structure Written (l : EventLoop) : Prop where
  written : l.state.needsWrite = false
  phase : (∃ events, l.phase = .handling events) ∨ l.phase = .stopped

/-- Messages are taken at the start of a round only, so nothing comes to what is to be written. -/
theorem Written.of_step (h : l.Written) (hs : Step l e l') (he : e ≠ .rearm) : l'.Written := by
  cases hs with
  | send msg => exact ⟨h.written, h.phase⟩
  | notify => exact ⟨h.written, h.phase⟩
  | idle hempty => exact ⟨h.written, h.phase⟩
  | wake hphase hqueued =>
    rcases hphase ▸ h.phase with ⟨events, hhandling⟩ | hstopped
    · cases hhandling
    · cases hstopped
  | pollFailed => exact ⟨h.written, .inr rfl⟩
  | drained hempty => exact ⟨h.written, .inl ⟨_, rfl⟩⟩
  | recv hphase hqueued =>
    rcases hphase ▸ h.phase with ⟨events, hhandling⟩ | hstopped
    · cases hhandling
    · cases hstopped
  | @read turns answers event events flow phase hphase hflow hend =>
    exact ⟨h.written, hend.imp (fun hend => ⟨events, hend⟩) id⟩
  | @write turns answers event events flow ok state output hphase hflow hwrite =>
    refine ⟨ptyWrite_written h.written hwrite, ?_⟩
    cases ok
    · exact .inr rfl
    · exact .inl ⟨events, rfl⟩
  | rearm hphase => exact absurd rfl he

/-- At the end of a round that leaves nothing to write the loop does not ask to be told when it can. -/
theorem Written.rearmed (h : l.Written) (hes : .rearm ∉ es)
    (hrun : Run (ofPartial step) l (es ++ [.rearm]) l') : l'.writable = false := by
  obtain ⟨m, hround, hrearm⟩ := hrun.last
  have hwritten : m.Written := by
    refine hround.historyInvariant (I := fun es m => .rearm ∉ es → m.Written) (fun _ => h) ?_ hes
    intro es m e m' _ hI hs hes
    rw [List.mem_append, List.mem_singleton, not_or] at hes
    exact (hI hes.1).of_step (step_spec hs) (Ne.symm hes.2)
  cases step_spec hrearm with
  | rearm hphase => exact hwritten.written

/-- In any run in which no empty input is sent, a PTY that takes something at every write gets everything
that is pending when it can be written to, also behind reads that end without an error; at the end of the
round the loop does not ask to be told when it can write. -/
theorem writes_everything {drainOnExit : Bool} (h : Run (ofPartial step) (spawn drainOnExit) es l)
    (hsent : ∀ msg ∈ sent es, msg ≠ .input []) {readable : Bool} {events : List PollEvent}
    (hphase : l.phase = .handling (.pty false readable true :: events)) {turns : List ReadTurn}
    (hread : readable = true → ∃ flow, ptyRead turns l.flow = some (.done, flow))
    {answers : List WriteAnswer} (hok : ∀ answer ∈ answers, ∃ n, 0 < n ∧ answer = .ok n)
    (hlen : l.state.pending.length ≤ answers.length) :
    ∃ l', l.step (.handle turns answers) = some l' ∧ l'.output = l.output ++ l.state.pending ∧
      l'.state.needsWrite = false ∧ l'.phase = .handling events ∧
      ∀ es' l'', .rearm ∉ es' → Run (ofPartial step) l' (es' ++ [.rearm]) l'' → l''.writable = false := by
  have hfed : l.Fed := by
    refine h.historyInvariant (I := fun es l => (∀ msg ∈ sent es, msg ≠ .input []) → l.Fed)
      (fun _ => ⟨⟨fun w hw => (by cases hw), fun bytes hmem => (by cases hmem)⟩,
        fun msg hmem => (by cases hmem)⟩) ?_ hsent
    intro es l e l' _ hI hs hsent
    rw [sent_concat] at hsent
    refine (hI fun msg hmem => hsent msg (List.mem_append_left _ hmem)).of_step ?_ (step_spec hs)
    rintro rfl
    exact hsent _ (List.mem_append_right _ (List.mem_singleton_self _)) rfl
  obtain ⟨s', hs', hdone⟩ := ptyWrite_drains l.output hfed.state hok hlen
  -- the reads change nothing that the write looks at
  have hstep {flow : Flow} (hflow : l.step (.handle turns answers) =
      EventLoop.write { l with phase := .handling events, flow } answers) :
      ∃ l', l.step (.handle turns answers) = some l' ∧ l'.output = l.output ++ l.state.pending ∧
        l'.state.needsWrite = false ∧ l'.phase = .handling events ∧
        ∀ es' l'', .rearm ∉ es' → Run (ofPartial step) l' (es' ++ [.rearm]) l'' → l''.writable = false := by
    refine ⟨{ l with state := s', output := l.output ++ l.state.pending, phase := .handling events, flow },
      ?_, rfl, hdone, rfl, fun es' l'' hes' hrun => Written.rearmed ⟨hdone, .inl ⟨events, rfl⟩⟩ hes' hrun⟩
    rw [hflow]
    simp only [EventLoop.write, hs']
    rfl
  cases readable with
  | false => exact @hstep l.flow (by simp only [step, hphase, handle, if_true])
  | true =>
    obtain ⟨flow, hflow⟩ := hread rfl
    refine @hstep flow ?_
    simp only [step, hphase, handle, hflow, Option.bind_eq_bind, Option.bind_some, if_true]

/-- Two inputs are sent, and a PTY that has no room for the first takes both, two bytes at a time, when it
can be read and written to. -/
theorem writes_everything_two :
    ∃ l l' l'' : EventLoop, Run (ofPartial step) (spawn false)
        [.send (.input [1, 2, 3]), .wake [], .recv, .recv, .rearm, .send (.input [4]),
          .wake [.pty false true true], .recv, .recv] l ∧
      l.writable = true ∧ l.state.pending = [1, 2, 3, 4] ∧
      l.step (.handle [⟨.ok [7], true⟩, ⟨.blocked, true⟩] [.ok 2, .ok 2, .ok 2, .ok 2]) = some l' ∧
      l'.output = l.output ++ l.state.pending ∧ l'.state.needsWrite = false ∧
      Run (ofPartial step) l' ([.send (.input [5])] ++ [.rearm]) l'' ∧ l''.writable = false := by
  obtain ⟨l, hrun, hl⟩ := exists_run_of_any (p := fun l =>
      l.phase == .handling [.pty false true true] && l.state.pending == [1, 2, 3, 4] && l.writable &&
        l.flow == {}) (spawn false)
    [.send (.input [1, 2, 3]), .wake [], .recv, .recv, .rearm, .send (.input [4]),
      .wake [.pty false true true], .recv, .recv] (f := step) (by decide)
  simp only [Bool.and_eq_true, beq_iff_eq] at hl
  obtain ⟨⟨⟨hphase, hpending⟩, hwritable⟩, hflow⟩ := hl
  have hanswers : ∀ answer ∈ [.ok 2, .ok 2, .ok 2, .ok 2], ∃ n, 0 < n ∧ answer = WriteAnswer.ok n := by
    simp
  have hread : ptyRead [⟨.ok [7], true⟩, ⟨.blocked, true⟩] l.flow = some (.done, ⟨[7], [7]⟩) := by
    rw [hflow]
    decide
  obtain ⟨l', hl', houtput, hwritten, hphase', hrearm⟩ := writes_everything hrun (by decide) hphase
    (fun _ => ⟨_, hread⟩) hanswers (by rw [hpending]; decide)
  have hround : Run (ofPartial step) l' ([.send (.input [5])] ++ [.rearm])
      { l' with channel := l'.channel ++ [.input [5]], announcing := l'.announcing + 1,
                writable := l'.state.needsWrite, phase := .waiting } := by
    refine .next (.next .start rfl) ?_
    simp only [ofPartial, step, hphase']
  exact ⟨l, l', _, hrun, hwritable, hpending, hl', houtput, hwritten, hround,
    hrearm _ _ (by decide) hround⟩

end EventLoop

/-! ## With an empty input -/

/-- An empty item waits to be written, behind these bytes. -/
def State.Held (s : State) (front : List UInt8) : Prop :=
  (∃ w, s.writing = some w ∧ w.remainingBytes = [] ∧ front = []) ∨
    ∃ items behind, s.writeList = items ++ [] :: behind ∧
      front = (s.writing.map Writing.remainingBytes).getD [] ++ items.flatten

/-- What is behind an empty item stays there. -/
theorem writeLoop_held {answers : List WriteAnswer} {current : Writing} {s s' : State}
    {output output' front : List UInt8} {ok : Bool} (hheld : (s.setCurrent (some current)).Held front)
    (h : writeLoop answers current s output = some (ok, s', output')) :
    ∃ front', s'.Held front' ∧ output' ++ front' = output ++ front := by
  induction answers generalizing current s output front with
  | nil => cases h
  | cons answer answers ih =>
    have hback {ok' : Bool} (h : some (ok', s.setCurrent (some current), output) =
        some (ok, s', output')) : ∃ front', s'.Held front' ∧ output' ++ front' = output ++ front := by
      cases h
      exact ⟨front, hheld, rfl⟩
    cases answer with
    | blocked => exact hback h
    | failed => exact hback h
    | ok n =>
      simp only [writeLoop] at h
      have htake := current.take_remainingBytes (min n current.remainingBytes.length)
      split at h
      · exact hback h
      · next hn =>
        -- something is taken, so the current item is not the empty one
        obtain ⟨w, hw, hempty, -⟩ | ⟨items, behind, hlist, hfront⟩ := hheld
        · obtain rfl := Option.some.inj hw
          rw [hempty] at hn
          exact absurd (Nat.min_zero n) hn
        have hlist' : s.writeList = items ++ [] :: behind := hlist
        have hfront' : front = current.remainingBytes ++ items.flatten := hfront
        subst hfront'
        split at h
        · next hfinished =>
          rw [Writing.remainingBytes_of_finished hfinished, List.append_nil] at htake
          rw [htake] at h
          rcases items with _ | ⟨item, items⟩
          · simp only [State.gotoNext, State.takeCurrent, hlist', List.nil_append, List.head?_cons,
              Option.map_some, List.tail_cons] at h
            obtain ⟨front', hheld', heq⟩ := @ih _ _ _ [] (.inl ⟨_, rfl, rfl, rfl⟩) h
            exact ⟨front', hheld', by rw [heq, List.append_nil, List.flatten_nil, List.append_nil]⟩
          · simp only [State.gotoNext, State.takeCurrent, hlist', List.cons_append, List.head?_cons,
              Option.map_some, List.tail_cons] at h
            obtain ⟨front', hheld', heq⟩ := @ih _ _ _ (item ++ items.flatten)
              (.inr ⟨items, behind, rfl, rfl⟩) h
            exact ⟨front', hheld', by rw [heq, List.append_assoc, List.flatten_cons]⟩
        · obtain ⟨front', hheld', heq⟩ := @ih _ _ _
            ((current.advance (min n current.remainingBytes.length)).remainingBytes ++
              items.flatten) (.inr ⟨items, behind, hlist', rfl⟩) h
          refine ⟨front', hheld', ?_⟩
          rw [heq, List.append_assoc, ← List.append_assoc (current.remainingBytes.take _), htake]

theorem State.Held.ensureNext {s : State} {front : List UInt8} (h : s.Held front) :
    s.ensureNext.Held front := by
  unfold State.ensureNext
  split
  · next hnone =>
    rw [Option.isNone_iff_eq_none] at hnone
    obtain ⟨w, hw, -⟩ | ⟨items, behind, hlist, rfl⟩ := h
    · rw [hw] at hnone
      cases hnone
    · rw [hnone]
      unfold State.gotoNext
      rw [hlist]
      rcases items with _ | ⟨item, items⟩
      · exact .inl ⟨_, rfl, rfl, rfl⟩
      · exact .inr ⟨items, behind, rfl, rfl⟩
  · exact h

theorem ptyWrite_held {answers : List WriteAnswer} {s s' : State} {output output' front : List UInt8}
    {ok : Bool} (hheld : s.Held front) (h : ptyWrite answers s output = some (ok, s', output')) :
    ∃ front', s'.Held front' ∧ output' ++ front' = output ++ front := by
  have hensure := hheld.ensureNext
  unfold ptyWrite State.takeCurrent at h
  rcases hwriting : s.ensureNext.writing with _ | current
  · obtain ⟨w, hw, -⟩ | ⟨items, behind, hlist, -⟩ := hensure
    · rw [hw] at hwriting
      cases hwriting
    · rw [State.writeList_of_ensureNext hwriting] at hlist
      exact absurd hlist (by simp)
  · rw [hwriting] at h
    refine writeLoop_held (s := ⟨s.ensureNext.writeList, none⟩) ?_ h
    unfold State.setCurrent
    rw [← hwriting]
    exact hensure

theorem State.Held.push {s : State} {front : List UInt8} (h : s.Held front) (bytes : List UInt8) :
    ({ s with writeList := s.writeList ++ [bytes] } : State).Held front := by
  obtain hwriting | ⟨items, behind, hlist, hfront⟩ := h
  · exact .inl hwriting
  · refine .inr ⟨items, behind ++ [bytes], ?_, hfront⟩
    rw [hlist, List.append_assoc, List.cons_append]

namespace EventLoop

variable {l l' : EventLoop} {e : Event}

/-- An empty input waits somewhere, behind these bytes. -/
def Held (l : EventLoop) (all : List UInt8) : Prop :=
  (∃ front, l.state.Held front ∧ all = l.output ++ front) ∨
    ∃ front behind, l.queued = front ++ .input [] :: behind ∧
      all = l.output ++ (l.state.pending ++ front.flatMap Msg.bytes)

theorem Held.of_step {all : List UInt8} (h : l.Held all) (hs : Step l e l') : l'.Held all := by
  cases hs with
  | send msg =>
    obtain hstate | ⟨front, behind, hqueued, hall⟩ := h
    · exact .inl hstate
    · refine .inr ⟨front, behind ++ [msg], ?_, hall⟩
      show l.peeked.toList ++ (l.channel ++ [msg]) = _
      rw [← List.append_assoc, show l.peeked.toList ++ l.channel = _ from hqueued, List.append_assoc]
      rfl
  | wake hphase hqueued =>
    obtain hstate | ⟨front, behind, hqueued', hall⟩ := h
    · exact .inl hstate
    · exact .inr ⟨front, behind, hqueued.trans hqueued', hall⟩
  | @recv events msg peeked channel hphase hqueued =>
    obtain ⟨houtput, hrest⟩ := receive_rest { l with peeked, channel } events msg
    obtain ⟨front, hheld, hall⟩ | ⟨front, behind, hqueued', hall⟩ := h
    · refine .inl ⟨front, ?_, ?_⟩
      · cases msg with
        | input bytes => exact hheld.push bytes
        | _ => exact hheld
      · rw [houtput]
        exact hall
    · rw [hqueued] at hqueued'
      rcases front with _ | ⟨msg', front⟩
      · -- the empty input comes to the end of the list
        obtain ⟨rfl, -⟩ := List.cons.inj hqueued'
        exact .inl ⟨l.state.pending, .inr ⟨l.state.writeList, [], rfl, rfl⟩,
          by rw [hall, houtput, List.flatMap_nil, List.append_nil]⟩
      · obtain ⟨rfl, hbehind⟩ := List.cons.inj hqueued'
        refine .inr ⟨front, behind, hrest.trans hbehind, ?_⟩
        rw [hall, houtput, receive_pending, List.flatMap_cons, List.append_assoc]
  | @write turns answers event events flow ok state output hphase hflow hwrite =>
    obtain ⟨front, hheld, hall⟩ | ⟨front, behind, hqueued, hall⟩ := h
    · obtain ⟨front', hheld', heq⟩ := ptyWrite_held hheld hwrite
      exact .inl ⟨front', hheld', hall.trans heq.symm⟩
    · refine .inr ⟨front, behind, hqueued, ?_⟩
      show all = output ++ (state.pending ++ _)
      rw [hall, ← List.append_assoc, ← List.append_assoc, ptyWrite_pending hwrite]
  | notify => exact h
  | idle hempty => exact h
  | pollFailed => exact h
  | drained hempty => exact h
  | read hphase hflow hend => exact h
  | rearm hphase => exact h

/-- Nothing that is sent after an empty input is ever written. -/
theorem empty_input_hangs {drainOnExit : Bool} {before after : List Event}
    (h : Run (ofPartial step) (spawn drainOnExit) (before ++ .send (.input []) :: after) l) :
    l.output <+: (sent before).flatMap Msg.bytes := by
  rw [run_ofPartial_iff, List.foldlM_append, Option.bind_eq_bind, Option.bind_eq_some_iff] at h
  obtain ⟨m, hbefore, hafter⟩ := h
  rw [List.foldlM_cons] at hafter
  have hbytes := (run_accounts (run_ofPartial_iff.mpr hbefore)).1
  have hrun : Run (ofPartial step)
      { m with channel := m.channel ++ [.input []], announcing := m.announcing + 1 } after l :=
    run_ofPartial_iff.mpr hafter
  have hheld : l.Held m.bytes := by
    refine hrun.invariant (I := fun l => l.Held m.bytes) (.inr ⟨m.queued, [], ?_, rfl⟩)
      fun _ _ _ _ _ hI hs => hI.of_step (step_spec hs)
    exact (List.append_assoc ..).symm
  rw [← hbytes]
  obtain ⟨front, -, hall⟩ | ⟨front, behind, -, hall⟩ := hheld
  · rw [hall]
    exact List.prefix_append _ _
  · rw [hall]
    exact List.prefix_append _ _

/-- An input, an empty one and one more are sent, and the PTY takes all it is given. -/
theorem empty_input_hangs_third :
    ∃ l, Run (ofPartial step) (spawn false) ([.send (.input [1])] ++ .send (.input []) ::
        [.send (.input [2]), .wake [.pty false false true], .recv, .recv, .recv, .recv,
          .handle [] [.ok 8, .ok 8, .ok 8]]) l ∧ l.output <+: [1] := by
  obtain ⟨l, hrun, -⟩ := exists_run_of_any (p := fun _ => true) (spawn false)
    ([.send (.input [1])] ++ .send (.input []) ::
      [.send (.input [2]), .wake [.pty false false true], .recv, .recv, .recv, .recv,
        .handle [] [.ok 8, .ok 8, .ok 8]]) (f := step) (by decide)
  exact ⟨l, hrun, empty_input_hangs hrun⟩

end EventLoop

end Termua.Pty
