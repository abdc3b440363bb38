import Mathlib
import Termua.Lib.Entries
import Termua.Upload.Scheduler

/-!
# What the upload loop guarantees

`LoopInv` is the invariant of the loop and its workers. Its clauses count: a worker that is done has
sent one message that ends its file, `active` counts the started workers whose last message the loop
has not handled, and below the limit the queue is empty. At the end all that is left is to read off
that every file was started, ended once, and is in the result exactly when it finished.
-/

namespace Termua.Upload

open Transition

/-! ## The plan -/

section Plan

variable {planned : List PlannedUploadFile} {i : ℕ} {f : PlannedUploadFile}

@[simp] theorem length_enumerate : (enumerate planned).length = planned.length :=
  List.length_mapIdx

theorem getElem?_enumerate : (enumerate planned)[i]? = (planned[i]?).map fun f => (i, f) :=
  List.getElem?_mapIdx

theorem mem_enumerate_iff : (i, f) ∈ enumerate planned ↔ planned[i]? = some f := by
  rw [List.mem_iff_getElem?]
  constructor
  · rintro ⟨j, hj⟩
    rw [getElem?_enumerate, Option.map_eq_some_iff] at hj
    obtain ⟨g, hg, heq⟩ := hj
    obtain ⟨rfl, rfl⟩ := Prod.mk.inj heq
    exact hg
  · intro hf
    exact ⟨i, by rw [getElem?_enumerate, hf]; rfl⟩

/-- The indices of a plan grow along it. -/
theorem pairwise_enumerate : (enumerate planned).Pairwise fun a b => a.1 < b.1 := by
  rw [List.pairwise_iff_getElem]
  intro j k hj hk hjk
  simpa [enumerate] using hjk

end Plan

/-! ## Counting messages -/

section Messages

variable {msgs msgs' : List UploadMsg} {m : UploadMsg} {i : ℕ}

theorem terminals_append : terminals (msgs ++ msgs') = terminals msgs + terminals msgs' :=
  List.countP_append

theorem terminalsOf_append :
    terminalsOf (msgs ++ msgs') i = terminalsOf msgs i + terminalsOf msgs' i :=
  List.countP_append

theorem terminals_of_progress (h : ∀ m ∈ msgs, m.isTerminal = false) : terminals msgs = 0 :=
  List.countP_eq_zero.mpr fun m hm => by simp [h m hm]

theorem terminalsOf_of_progress (h : ∀ m ∈ msgs, m.isTerminal = false) : terminalsOf msgs i = 0 :=
  List.countP_eq_zero.mpr fun m hm => by simp [h m hm]

theorem terminalsOf_of_ne (h : ∀ m ∈ msgs, m.fileIndex ≠ i) : terminalsOf msgs i = 0 :=
  List.countP_eq_zero.mpr fun m hm => by simp [h m hm]

theorem finishedEntry_eq_some {entry : Uploaded} (h : finishedEntry m = some entry) :
    m = .finished entry.1 entry.2.1 entry.2.2 := by
  rcases m with _ | _ | _ | _ <;> cases h
  rfl

theorem terminalsOf_singleton (h : m.isTerminal = true) : terminalsOf [m] m.fileIndex = 1 := by
  simp [terminalsOf, h]

end Messages

namespace UploadLoop

variable {planned : List PlannedUploadFile} {limit : ℕ} {s s' : UploadLoop} {e : Event}

/-- The worker has not sent its last message. -/
def isRunning (w : Worker) : Bool := w.phase ≠ .done

/-- What holds of the loop and its workers between any two steps of theirs. -/
structure LoopInv (planned : List PlannedUploadFile) (limit : ℕ) (s : UploadLoop) : Prop where
  sameLimit : s.limit = limit
  plan : s.started ++ s.queue = enumerate planned
  active : s.active + terminals s.handled = s.workers.length
  bounded : s.active ≤ limit
  ended : terminals (s.handled ++ s.rx) + s.workers.countP isRunning = s.workers.length
  once : ∀ i w, s.workers[i]? = some w →
    terminalsOf (s.handled ++ s.rx) i = if isRunning w then 0 else 1
  named : ∀ m ∈ s.handled ++ s.rx, ∃ w, s.workers[m.fileIndex]? = some w ∧
    m.file = w.file.remoteName
  uploaded : s.uploaded = s.handled.filterMap finishedEntry

/-- The loop has started all it may, and has ended when nothing is active. -/
structure Settled (s : UploadLoop) : Prop where
  full : s.queue ≠ [] → s.active = s.limit
  closed : s.result.isSome ↔ s.active = 0
  result : ∀ r, s.result = some r → r = collect s.uploaded

theorem LoopInv.length_started (h : LoopInv planned limit s) :
    s.workers.length + s.queue.length = planned.length := by
  have := congrArg List.length h.plan
  simpa [started] using this

/-- The `i`th worker has the `i`th file of the plan. -/
theorem LoopInv.worker (h : LoopInv planned limit s) {i : ℕ} {w : Worker}
    (hw : s.workers[i]? = some w) : w.fileIndex = i ∧ planned[i]? = some w.file := by
  have hlt : i < s.started.length := by
    rw [started, List.length_map]
    exact (List.getElem?_eq_some_iff.mp hw).1
  have hget : (enumerate planned)[i]? = some (w.fileIndex, w.file) := by
    rw [← h.plan, List.getElem?_append_left hlt, started, List.getElem?_map, hw]
    rfl
  rw [getElem?_enumerate, Option.map_eq_some_iff] at hget
  obtain ⟨f, hf, heq⟩ := hget
  obtain ⟨rfl, rfl⟩ := Prod.mk.inj heq
  exact ⟨rfl, hf⟩

/-! ## Starting workers -/

/-- One more worker is started. -/
theorem LoopInv.spawn {i : ℕ} {f : PlannedUploadFile} {queue : List (ℕ × PlannedUploadFile)}
    (h : LoopInv planned limit s) (hqueue : s.queue = (i, f) :: queue)
    (hroom : s.active < s.limit) :
    LoopInv planned limit { s with
      queue := queue
      workers := s.workers ++ [⟨i, f, .starting⟩]
      active := s.active + 1 } where
  sameLimit := h.sameLimit
  plan := by
    rw [← h.plan, hqueue]
    simp [started]
  active := by
    have := h.active
    rw [List.length_append]
    show s.active + 1 + terminals s.handled = s.workers.length + 1
    omega
  bounded := by
    have := h.sameLimit
    show s.active + 1 ≤ limit
    omega
  ended := by
    have := h.ended
    rw [List.countP_append, List.length_append]
    show terminals (s.handled ++ s.rx) + (s.workers.countP isRunning + 1) = s.workers.length + 1
    omega
  once := by
    intro j w hw
    rw [List.getElem?_append] at hw
    split at hw
    · exact h.once j w hw
    · next hge =>
      -- no message can name a file that has just been started
      have hj : terminalsOf (s.handled ++ s.rx) j = 0 := by
        refine terminalsOf_of_ne fun m hm hmj => ?_
        obtain ⟨v, hv, -⟩ := h.named m hm
        have := (List.getElem?_eq_some_iff.mp hv).1
        omega
      rw [List.getElem?_singleton] at hw
      split at hw
      · obtain rfl := Option.some.inj hw
        exact hj
      · cases hw
  named := by
    intro m hm
    obtain ⟨w, hw, hfile⟩ := h.named m hm
    refine ⟨w, ?_, hfile⟩
    rw [List.getElem?_append_left (List.getElem?_eq_some_iff.mp hw).1]
    exact hw
  uploaded := h.uploaded

/-- `try_spawn_workers` keeps the invariant and leaves a file in the queue only at the limit. -/
theorem LoopInv.spawnLoop {queue : List (ℕ × PlannedUploadFile)} (h : LoopInv planned limit s)
    (hqueue : s.queue = queue) :
    LoopInv planned limit (UploadLoop.spawnLoop queue s) ∧
      ((UploadLoop.spawnLoop queue s).queue ≠ [] →
        (UploadLoop.spawnLoop queue s).active = limit) ∧
      (UploadLoop.spawnLoop queue s).result = s.result := by
  induction queue generalizing s with
  | nil => exact ⟨h, fun hne => absurd hqueue hne, rfl⟩
  | cons entry queue ih =>
    obtain ⟨i, f⟩ := entry
    unfold UploadLoop.spawnLoop
    split
    · next hroom => exact ih (h.spawn hqueue hroom) rfl
    · next hfull =>
      refine ⟨h, fun _ => ?_, rfl⟩
      have := h.sameLimit
      have := h.bounded
      omega

/-! ## The steps -/

/-- A worker's step. -/
theorem LoopInv.workerStep {i : ℕ} {answer : Answer} (h : LoopInv planned limit s)
    (hs : s.workerStep i answer = some s') : LoopInv planned limit s' := by
  unfold UploadLoop.workerStep at hs
  split at hs
  · next w hw =>
    obtain ⟨⟨w', msgs⟩, hstep, rfl⟩ := Option.map_eq_some_iff.mp hs
    have hsteps := Worker.steps_of_step hstep
    obtain ⟨hindex, -⟩ := h.worker hw
    have hlt : i < s.workers.length := (List.getElem?_eq_some_iff.mp hw).1
    have hrunning : isRunning w = true := by simpa [isRunning] using hsteps.running
    have hnew : (s.workers.set i w')[i]? = some w' := List.getElem?_set_self hlt
    -- the step ends the worker with one terminal message, or sends none
    have hcount : terminals msgs + (if isRunning w' then 1 else 0) = 1 ∧
        terminalsOf msgs i = if isRunning w' then 0 else 1 := by
      by_cases hdone : w'.phase = .done
      · obtain ⟨m, rfl, hm⟩ := hsteps.ends hdone
        have hmi : m.fileIndex = i := (hsteps.names m (List.mem_singleton_self m)).1.trans hindex
        have hone := terminalsOf_singleton hm
        rw [hmi] at hone
        simp [isRunning, hdone, terminals, hm, hone]
      · have hquiet := hsteps.goesOn hdone
        rw [terminals_of_progress hquiet, terminalsOf_of_progress hquiet]
        simp [isRunning, hdone]
    refine
      { sameLimit := h.sameLimit, plan := ?_, active := ?_, bounded := h.bounded, ended := ?_, once := ?_,
        named := ?_, uploaded := h.uploaded }
    · have hstarted : started { s with workers := s.workers.set i w', rx := s.rx ++ msgs } =
          s.started :=
        List.map_set_of_eq hw (by rw [hsteps.fileIndex, hsteps.file])
      rw [hstarted]
      exact h.plan
    · rw [List.length_set]
      exact h.active
    -- ended: a terminal message comes in as its worker goes
    · have hended := h.ended
      have hset := List.countP_set_add (p := isRunning) (b := w') hw
      rw [if_pos hrunning] at hset
      rw [List.length_set, ← List.append_assoc, terminals_append]
      obtain ⟨hone, -⟩ := hcount
      show terminals (s.handled ++ s.rx) + terminals msgs + (s.workers.set i w').countP isRunning =
        s.workers.length
      omega
    -- once: of this worker the one message, of another none
    · intro j v hv
      rw [← List.append_assoc, terminalsOf_append]
      rcases List.getElem?_set_cases hv with ⟨rfl, rfl⟩ | ⟨hne, hv⟩
      · rw [h.once j w hw, if_pos hrunning, hcount.2, Nat.zero_add]
      · have hother : terminalsOf msgs j = 0 := by
          refine terminalsOf_of_ne fun m hm hmj => hne ?_
          rw [← hmj, (hsteps.names m hm).1, hindex]
        rw [h.once j v hv, hother]
        rfl
    · intro m hm
      rw [← List.append_assoc] at hm
      rcases List.mem_append.mp hm with hm | hm
      · obtain ⟨v, hv, hfile⟩ := h.named m hm
        by_cases hmi : m.fileIndex = i
        · rw [hmi] at hv ⊢
          obtain rfl := Option.some.inj (hw.symm.trans hv)
          exact ⟨w', hnew, by rw [hfile, hsteps.file]⟩
        · exact ⟨v, by rw [List.getElem?_set_ne (Ne.symm hmi)]; exact hv, hfile⟩
      · obtain ⟨hmi, hfile⟩ := hsteps.names m hm
        exact ⟨w', by rw [hmi, hindex]; exact hnew, by rw [hfile, hsteps.file]⟩
  · cases hs

/-- While the channel holds a terminal message, its file counts as active. -/
theorem LoopInv.active_pos (h : LoopInv planned limit s) {m : UploadMsg} {rx : List UploadMsg}
    (hrx : s.rx = m :: rx) (hm : m.isTerminal = true) : 0 < s.active := by
  have hended := h.ended
  have hactive := h.active
  have hpos : 0 < terminals s.rx := List.countP_pos_iff.mpr ⟨m, by rw [hrx]; simp, hm⟩
  rw [terminals_append] at hended
  omega

/-- `handle_upload_msg` on the oldest message. -/
theorem LoopInv.handleUploadMsg {m : UploadMsg} {rx : List UploadMsg} {t : UploadLoop}
    {shouldSpawn : Bool} (h : LoopInv planned limit s) (hrx : s.rx = m :: rx)
    (ht : { s with rx := rx, handled := s.handled ++ [m] }.handleUploadMsg m = (t, shouldSpawn)) :
    LoopInv planned limit t ∧ t.result = s.result ∧
      (shouldSpawn = false → t.queue = s.queue ∧ t.active = s.active) := by
  -- handling moves the message from the channel to `handled`
  have hmove : s.handled ++ [m] ++ rx = s.handled ++ s.rx := by rw [hrx]; simp
  have hbounded := h.bounded
  have hactive := h.active
  have hcore : ∀ active uploaded, active + terminals [m] = s.active →
      uploaded = s.uploaded ++ [m].filterMap finishedEntry →
      LoopInv planned limit { s with
        active := active, uploaded := uploaded, rx := rx, handled := s.handled ++ [m] } := by
    intro active uploaded hdec huploaded
    refine
      { sameLimit := h.sameLimit, plan := h.plan, active := ?_, bounded := ?_, ended := ?_,
        once := ?_, named := ?_, uploaded := ?_ }
    · show active + terminals (s.handled ++ [m]) = s.workers.length
      rw [terminals_append]
      omega
    · show active ≤ limit
      omega
    · rw [hmove]
      exact h.ended
    · rw [hmove]
      exact h.once
    · rw [hmove]
      exact h.named
    · show uploaded = (s.handled ++ [m]).filterMap finishedEntry
      rw [List.filterMap_append, ← h.uploaded]
      exact huploaded
  have hpos := h.active_pos hrx
  rcases m with ⟨i, f, sent, total⟩ | ⟨i, f, bytes⟩ | ⟨i, f, sent, total⟩ | ⟨i, f, sent, total, error⟩ <;>
    obtain ⟨rfl, rfl⟩ := Prod.mk.inj ht
  · exact ⟨hcore s.active s.uploaded rfl (by simp [finishedEntry]), rfl, fun _ => ⟨rfl, rfl⟩⟩
  · refine ⟨hcore (s.active - 1) (s.uploaded ++ [(i, f, bytes)]) ?_ rfl, rfl, nofun⟩
    exact Nat.sub_add_cancel (hpos rfl)
  · refine ⟨hcore (s.active - 1) s.uploaded ?_ (by simp [finishedEntry]), rfl, nofun⟩
    exact Nat.sub_add_cancel (hpos rfl)
  · refine ⟨hcore (s.active - 1) s.uploaded ?_ (by simp [finishedEntry]), rfl, nofun⟩
    exact Nat.sub_add_cancel (hpos rfl)

theorem LoopInv.finish (h : LoopInv planned limit s) : LoopInv planned limit s.finish := { h with }

/-- A loop that has ended stays as it is, with nothing active. -/
theorem settled_finish (hfull : s.queue ≠ [] → s.active = s.limit) (hzero : s.active = 0) :
    Settled s.finish where
  full := hfull
  closed := iff_of_true rfl hzero
  result _ hr := (Option.some.inj hr).symm

/-- A loop that goes on. -/
theorem settled_of_pos (hfull : s.queue ≠ [] → s.active = s.limit) (hpos : 0 < s.active)
    (hnone : s.result = none) : Settled s where
  full := hfull
  closed := by simp [hnone, hpos.ne']
  result := by simp [hnone]

theorem LoopInv.check (h : LoopInv planned limit s) (hfull : s.queue ≠ [] → s.active = limit)
    (hnone : s.result = none) : LoopInv planned limit s.check ∧ Settled s.check := by
  have hfull' : s.queue ≠ [] → s.active = s.limit := fun hne => (hfull hne).trans h.sameLimit.symm
  unfold UploadLoop.check
  by_cases hpos : 0 < s.active
  · rw [if_neg (by omega), if_pos hpos]
    exact ⟨h, settled_of_pos hfull' hpos hnone⟩
  · have hzero : s.active = 0 := by omega
    rw [if_neg hpos, ite_self]
    exact ⟨h.finish, settled_finish hfull' hzero⟩

theorem LoopInv.recv (h : LoopInv planned limit s) (hsettled : Settled s)
    (hs : s.recv = some s') : LoopInv planned limit s' ∧ Settled s' := by
  unfold UploadLoop.recv at hs
  split at hs
  · next m rx hnone hrx =>
    generalize ht : UploadLoop.handleUploadMsg _ m = round at hs
    obtain ⟨t, shouldSpawn⟩ := round
    obtain rfl := Option.some.inj hs
    obtain ⟨h', hresult, hquiet⟩ := h.handleUploadMsg hrx ht
    rw [hnone] at hresult
    by_cases hspawn : shouldSpawn = true
    · -- the loop may start more workers
      obtain ⟨h'', hfull, hresult'⟩ := h'.spawnLoop rfl
      rw [if_pos hspawn]
      exact h''.check hfull (hresult'.trans hresult)
    · obtain ⟨hqueue, hactive⟩ := hquiet (by simpa using hspawn)
      rw [if_neg hspawn]
      refine h'.check (fun hne => ?_) hresult
      rw [hqueue] at hne
      exact hactive.trans ((hsettled.full hne).trans h.sameLimit)
  · cases hs

theorem loopInv_start (planned : List PlannedUploadFile) (limit : ℕ) :
    LoopInv planned limit (start planned limit) ∧ Settled (start planned limit) := by
  have hinit : LoopInv planned limit (prepare planned limit) :=
    { sameLimit := rfl, plan := rfl, active := rfl, bounded := Nat.zero_le _, ended := rfl,
      once := by simp [prepare], named := by simp [prepare], uploaded := rfl }
  obtain ⟨h, hfull, hnone⟩ := hinit.spawnLoop rfl
  have hfull' := fun hne => (hfull hne).trans h.sameLimit.symm
  unfold start trySpawnWorkers
  by_cases hpos : 0 < (UploadLoop.spawnLoop (prepare planned limit).queue (prepare planned limit)).active
  · rw [if_pos hpos]
    exact ⟨h, settled_of_pos hfull' hpos hnone⟩
  · rw [if_neg hpos]
    exact ⟨h.finish, settled_finish hfull' (by omega)⟩

/-- One step of the loop, of a worker or of the user. -/
theorem LoopInv.step (h : LoopInv planned limit s) (hsettled : Settled s)
    (hs : s.step e = some s') : LoopInv planned limit s' ∧ Settled s' := by
  cases e with
  | recv =>
    exact h.recv hsettled hs
  | worker i answer =>
    refine ⟨h.workerStep hs, ?_⟩
    -- a worker's step leaves the loop's own state alone
    change s.workerStep i answer = some s' at hs
    unfold UploadLoop.workerStep at hs
    split at hs
    · obtain ⟨⟨w', msgs⟩, -, rfl⟩ := Option.map_eq_some_iff.mp hs
      exact ⟨hsettled.full, hsettled.closed, hsettled.result⟩
    · cases hs
  | cancel i =>
    obtain rfl := Option.some.inj hs
    exact ⟨{ h with }, ⟨hsettled.full, hsettled.closed, hsettled.result⟩⟩

theorem loopInv_run {es : List Event} (h : Run (ofPartial UploadLoop.step) (start planned limit) es s) :
    LoopInv planned limit s ∧ Settled s :=
  h.invariant (I := fun s => LoopInv planned limit s ∧ Settled s) (loopInv_start planned limit)
    fun _ _ _ _ _ hinv hs => hinv.1.step hinv.2 hs

/-! ## The result -/

/-- No two messages end the same file. -/
def EndOnce (msgs : List UploadMsg) : Prop :=
  msgs.Pairwise fun a b => a.isTerminal = true → b.isTerminal = true → a.fileIndex ≠ b.fileIndex

theorem endOnce_of_terminalsOf {msgs : List UploadMsg} (h : ∀ i, terminalsOf msgs i ≤ 1) :
    EndOnce msgs := by
  unfold EndOnce
  induction msgs with
  | nil => exact .nil
  | cons m msgs ih =>
    have hcons : ∀ i, terminalsOf (m :: msgs) i = terminalsOf [m] i + terminalsOf msgs i :=
      fun i => @terminalsOf_append [m] msgs i
    refine List.pairwise_cons.mpr ⟨fun n hn hm hterm heq => ?_, ih fun i => ?_⟩
    · have hone := terminalsOf_singleton hm
      have hpos : 0 < terminalsOf msgs m.fileIndex :=
        List.countP_pos_iff.mpr ⟨n, hn, by simp [hterm, heq]⟩
      have := h m.fileIndex
      rw [hcons] at this
      omega
    · have := h i
      rw [hcons] at this
      omega

/-- Where no two messages end the same file, that of an index holds its bytes. -/
theorem EndOnce.finishedBytes_eq_some {msgs : List UploadMsg} (h : EndOnce msgs) {i : ℕ}
    {bytes : UInt64} :
    finishedBytes msgs i = some bytes ↔ ∃ file, UploadMsg.finished i file bytes ∈ msgs := by
  have hfound : ∀ b, finishedBytes msgs i = some b → ∃ file, UploadMsg.finished i file b ∈ msgs := by
    intro b hb
    obtain ⟨m, hm, heq⟩ := List.exists_of_findSome?_eq_some hb
    split at heq
    · next j file b' =>
      split at heq
      · next hj =>
        obtain rfl := Option.some.inj heq
        exact ⟨file, hj ▸ hm⟩
      · cases heq
    · cases heq
  refine ⟨hfound bytes, fun ⟨file, hm⟩ => ?_⟩
  cases hb : finishedBytes msgs i with
  | none =>
    have := List.findSome?_eq_none_iff.mp hb _ hm
    simp at this
  | some b =>
    obtain ⟨file', hm'⟩ := hfound b hb
    by_contra hne
    have hsymm : Std.Symm fun a b : UploadMsg =>
        a.isTerminal = true → b.isTerminal = true → a.fileIndex ≠ b.fileIndex :=
      ⟨fun _ _ hab ha hb => (hab hb ha).symm⟩
    refine List.Pairwise.forall h hm hm' ?_ rfl rfl rfl
    rintro heq
    injection heq with _ _ heq
    exact hne (by rw [heq])

/-- What the plan and the handled messages say about a finished file. -/
def finishedOf (handled : List UploadMsg) (entry : ℕ × PlannedUploadFile) : Option Uploaded :=
  (finishedBytes handled entry.1).map fun bytes => (entry.1, entry.2.remoteName, bytes)

theorem LoopInv.endOnce (h : LoopInv planned limit s) : EndOnce s.handled := by
  refine endOnce_of_terminalsOf fun i => ?_
  have happend := @terminalsOf_append s.handled s.rx i
  rcases hw : s.workers[i]? with _ | w
  · have hnone : terminalsOf (s.handled ++ s.rx) i = 0 := by
      refine terminalsOf_of_ne fun m hm hmi => ?_
      obtain ⟨w, hw', -⟩ := h.named m hm
      rw [hmi, hw] at hw'
      cases hw'
    omega
  · have hone := h.once i w hw
    split at hone <;> omega

/-- The entries of `uploaded` are those of the plan that finished. -/
theorem LoopInv.mem_uploaded_iff (h : LoopInv planned limit s) {entry : Uploaded} :
    entry ∈ s.uploaded ↔ entry ∈ (enumerate planned).filterMap (finishedOf s.handled) := by
  obtain ⟨i, file, bytes⟩ := entry
  rw [h.uploaded, List.mem_filterMap, List.mem_filterMap]
  constructor
  · rintro ⟨m, hm, heq⟩
    obtain rfl := finishedEntry_eq_some heq
    obtain ⟨w, hw, hfile⟩ := h.named _ (List.mem_append_left _ hm)
    obtain ⟨-, hplanned⟩ := h.worker hw
    refine ⟨(i, w.file), mem_enumerate_iff.mpr hplanned, ?_⟩
    have hbytes := h.endOnce.finishedBytes_eq_some.mpr ⟨file, hm⟩
    unfold finishedOf
    rw [hbytes]
    simp only [Option.map_some, ← hfile]
    rfl
  · rintro ⟨⟨j, f⟩, hf, heq⟩
    obtain ⟨b, hb, heq⟩ := Option.map_eq_some_iff.mp heq
    obtain ⟨file', hm⟩ := h.endOnce.finishedBytes_eq_some.mp hb
    obtain ⟨w, hw, hfile⟩ := h.named _ (List.mem_append_left _ hm)
    obtain ⟨-, hplanned⟩ := h.worker hw
    refine ⟨_, hm, ?_⟩
    have hname : file' = f.remoteName := by
      rw [mem_enumerate_iff] at hf
      rw [← Option.some.inj (hplanned.symm.trans hf)]
      exact hfile
    rw [← heq, hname]
    rfl

/-- Sorting `uploaded` by index puts the finished files in plan order. -/
theorem LoopInv.collect_uploaded (h : LoopInv planned limit s) :
    collect s.uploaded =
      (finishedFiles planned s.handled, ((finishedFiles planned s.handled).map Prod.snd).sum) := by
  have hstrict : ((enumerate planned).filterMap (finishedOf s.handled)).Pairwise
      fun a b => a.1 < b.1 := by
    rw [List.pairwise_filterMap]
    refine pairwise_enumerate.imp fun hlt a ha b hb => ?_
    obtain ⟨-, -, rfl⟩ := Option.map_eq_some_iff.mp ha
    obtain ⟨-, -, rfl⟩ := Option.map_eq_some_iff.mp hb
    exact hlt
  have hdistinct : s.uploaded.Pairwise fun a b => a.1 ≠ b.1 := by
    rw [h.uploaded, List.pairwise_filterMap]
    refine h.endOnce.imp fun {m n} hmn a ha b hb => ?_
    obtain rfl := finishedEntry_eq_some ha
    obtain rfl := finishedEntry_eq_some hb
    exact hmn rfl rfl
  have hperm : s.uploaded.Perm ((enumerate planned).filterMap (finishedOf s.handled)) := by
    refine (List.perm_ext_iff_of_nodup ?_ ?_).mpr fun _ => h.mem_uploaded_iff
    · exact hdistinct.imp fun hne heq => hne (congrArg Prod.fst heq)
    · exact hstrict.imp fun hlt heq => hlt.ne (congrArg Prod.fst heq)
  have hle : ∀ l : List Uploaded, (l.insertionSort fun a b => a.1 ≤ b.1).Pairwise
      fun a b => a.1 ≤ b.1 := by
    have : Std.Total fun a b : Uploaded => a.1 ≤ b.1 := ⟨fun a b => le_total a.1 b.1⟩
    have : IsTrans Uploaded fun a b => a.1 ≤ b.1 := ⟨fun _ _ _ => le_trans⟩
    exact fun l => List.pairwise_insertionSort _ l
  have hsort : (s.uploaded.insertionSort fun a b => a.1 ≤ b.1) =
      (enumerate planned).filterMap (finishedOf s.handled) := by
    refine List.Perm.eq_of_pairwise (fun a b ha hb hab hba => ?_) (hle _)
      (hstrict.imp fun hlt => hlt.le) ((List.perm_insertionSort _ _).trans hperm)
    -- two entries of one index are the same entry
    rw [List.mem_insertionSort, hperm.mem_iff] at ha
    have hsymm : Std.Symm fun a b : Uploaded => a.1 ≠ b.1 := ⟨fun _ _ => Ne.symm⟩
    by_contra hne
    exact List.Pairwise.forall (hstrict.imp fun hlt => hlt.ne) ha hb hne (le_antisymm hab hba)
  have hfiles : ∀ l : List Uploaded, l.insertionSort (fun a b => a.1 ≤ b.1) =
      (enumerate planned).filterMap (finishedOf s.handled) →
      (collect l).1 = finishedFiles planned s.handled := by
    intro l hl
    unfold collect
    rw [hl, List.map_filterMap]
    unfold finishedFiles finishedOf
    refine congrArg (fun g => (enumerate planned).filterMap g) ?_
    funext entry
    rw [Option.map_map]
    rfl
  have hsum : ∀ l : List Uploaded, collect l = ((collect l).1, ((collect l).1.map Prod.snd).sum) :=
    fun _ => rfl
  rw [hsum, hfiles _ hsort]

/-! ## The schedule -/

/-- Every planned file is started once and in plan order, within the limit, and ends with one
terminal message; the loop ends when all of these have been handled, and returns the finished files
in plan order with the sum of their bytes. Until then the loop or a worker can go on. -/
structure Scheduled (planned : List PlannedUploadFile) (limit : ℕ) (s : UploadLoop) : Prop where
  started : s.started <+: enumerate planned
  bounded : s.workers.countP isRunning ≤ s.active ∧ s.active ≤ limit
  once : ∀ (i : ℕ) (w : Worker), s.workers[i]? = some w →
    terminalsOf (s.handled ++ s.rx) w.fileIndex = if w.phase = .done then 1 else 0
  ended : s.result.isSome ↔ terminals s.handled = planned.length
  drained : s.result.isSome → s.started = enumerate planned ∧ s.workers.all (·.phase = .done) ∧
    ∀ i < planned.length, terminalsOf s.handled i = 1
  returned : ∀ files totalBytes, s.result = some (files, totalBytes) →
    files = finishedFiles planned s.handled ∧ totalBytes = (files.map Prod.snd).sum
  live : s.result = none →
    (s.step .recv).isSome ∨ ∃ i answer, (s.step (.worker i answer)).isSome

/-- Once nothing is active, every file was started and has ended. -/
theorem LoopInv.drained (h : LoopInv planned limit s) (hsettled : Settled s) (hlimit : 1 ≤ limit)
    (hzero : s.active = 0) :
    s.queue = [] ∧ terminals s.handled = planned.length ∧ s.workers.countP isRunning = 0 := by
  have hqueue : s.queue = [] := by
    by_contra hne
    have := hsettled.full hne
    have := h.sameLimit
    omega
  have hactive := h.active
  have hended := h.ended
  have hlength := h.length_started
  rw [terminals_append] at hended
  rw [hqueue, List.length_nil] at hlength
  exact ⟨hqueue, by omega, by omega⟩

/-- Until the loop has ended, it has a message to handle or a worker that can go on. -/
theorem LoopInv.live (h : LoopInv planned limit s) (hsettled : Settled s) (hnone : s.result = none) :
    (s.step .recv).isSome ∨ ∃ i answer, (s.step (.worker i answer)).isSome := by
  rcases hrx : s.rx with _ | ⟨m, rx⟩
  · right
    have hpos : s.active ≠ 0 := by
      intro hzero
      have := hsettled.closed.mpr hzero
      rw [hnone] at this
      cases this
    have hactive := h.active
    have hended := h.ended
    rw [hrx, List.append_nil] at hended
    have hrunning : 0 < s.workers.countP isRunning := by omega
    obtain ⟨w, hmem, hw⟩ := List.countP_pos_iff.mp hrunning
    obtain ⟨i, hi⟩ := List.mem_iff_getElem?.mp hmem
    obtain ⟨answer, hstep⟩ := Worker.exists_step (by simpa [isRunning] using hw)
      (s.cancels w.fileIndex)
    refine ⟨i, answer, ?_⟩
    show (s.workerStep i answer).isSome
    unfold UploadLoop.workerStep
    rw [hi]
    simpa using hstep
  · left
    show s.recv.isSome
    unfold UploadLoop.recv
    rw [hnone, hrx]
    rfl

/-- The upload loop, over any order of its workers' steps and messages. -/
theorem scheduled_run {es : List Event} (hlimit : 1 ≤ limit)
    (hrun : Run (ofPartial UploadLoop.step) (start planned limit) es s) :
    Scheduled planned limit s := by
  obtain ⟨h, hsettled⟩ := loopInv_run hrun
  have hactive := h.active
  have hended := h.ended
  rw [terminals_append] at hended
  refine
    { started := ⟨s.queue, h.plan⟩, bounded := ⟨by omega, h.bounded⟩, once := fun i w hw => ?_,
      ended := ?_, drained := fun hsome => ?_, returned := fun files totalBytes hres => ?_,
      live := h.live hsettled }
  · have hone := h.once i w hw
    rw [(h.worker hw).1, hone]
    by_cases hdone : w.phase = .done <;> simp [isRunning, hdone]
  · rw [hsettled.closed]
    constructor
    · exact fun hzero => (h.drained hsettled hlimit hzero).2.1
    · intro hall
      have := h.length_started
      omega
  · obtain ⟨hqueue, hall, hnone⟩ := h.drained hsettled hlimit (hsettled.closed.mp hsome)
    have hdone : ∀ w ∈ s.workers, w.phase = .done := by
      simpa [isRunning] using List.countP_eq_zero.mp hnone
    have hplan := h.plan
    rw [hqueue, List.append_nil] at hplan
    refine ⟨hplan, by simpa using hdone, fun i hi => ?_⟩
    have hlength := h.length_started
    rw [hqueue, List.length_nil] at hlength
    obtain ⟨w, hw⟩ : ∃ w, s.workers[i]? = some w := ⟨_, List.getElem?_eq_getElem (by omega)⟩
    have hone := h.once i w hw
    have hmem : isRunning w = false := by simp [isRunning, hdone w (List.mem_of_getElem? hw)]
    rw [hmem] at hone
    -- the channel holds no terminal message any more
    have hrest : terminals s.rx = 0 := by omega
    have hrest' : terminalsOf s.rx i ≤ terminals s.rx :=
      List.countP_mono_left fun m _ hm => (Bool.and_eq_true_iff.mp hm).1
    rw [terminalsOf_append] at hone
    simp only [Bool.false_eq_true, if_false] at hone
    omega
  · have hcollect := hsettled.result _ hres
    rw [h.collect_uploaded] at hcollect
    obtain ⟨rfl, rfl⟩ := Prod.mk.inj hcollect
    exact ⟨rfl, rfl⟩

/-- Two files of which the first cannot be opened and the second is copied in one chunk. -/
def twoFiles : List PlannedUploadFile := [⟨"/a", "a", 1⟩, ⟨"/b", "b", 2⟩]

/-- The second file's worker runs first. -/
def twoFilesRun : List Event :=
  [.worker 1 .go, .worker 1 .go, .worker 1 (.openRemote (.ok ())), .worker 1 (.openLocal (.ok ())),
    .worker 1 .go, .worker 1 (.read (.ok 2)), .worker 1 (.write (.ok ()) true), .worker 1 .go,
    .worker 1 (.read (.ok 0)), .worker 0 .go, .worker 1 .go, .worker 0 .go, .worker 1 .go,
    .worker 0 (.openRemote (.error "denied")), .recv, .recv, .recv, .recv]

theorem scheduled_run_twoFiles :
    ∃ s, Run (ofPartial UploadLoop.step) (start twoFiles 2) twoFilesRun s ∧
      Scheduled twoFiles 2 s ∧ s.result = some ([("b", 2)], 2) := by
  obtain ⟨s, hrun, hs⟩ := exists_run_of_any (start twoFiles 2) twoFilesRun
    (f := UploadLoop.step) (p := fun s => s.result = some ([("b", 2)], 2)) (by decide +kernel)
  exact ⟨s, hrun, scheduled_run (by decide) hrun, of_decide_eq_true hs⟩

end UploadLoop

end Termua.Upload
