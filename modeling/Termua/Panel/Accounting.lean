import Mathlib
import Termua.Lib.Entries
import Termua.Panel.Batch

/-!
# What a batch accounts for

`BatchInv` is the invariant of the loop and its workers: the messages about a file are those of its
worker, in the order in which they were sent, with the one that ends the file behind the others
(`Trail`); counters and groups are those of the handled messages; and the task that was published last
for a file has the status of the last handled message about it. When as many files have ended as there
are, nothing but the last message of each worker can be what was published last.
-/

namespace Termua.Panel

open Sftp (Path)
open Transition

/-! ## Messages about a file -/

section Messages

variable {msgs msgs' : List UploadMsg} {m : UploadMsg} {epoch : ℕ}

theorem terminals_append : terminals (msgs ++ msgs') = terminals msgs + terminals msgs' :=
  List.countP_append

theorem about_append : about epoch (msgs ++ msgs') = about epoch msgs ++ about epoch msgs' :=
  List.filter_append ..

theorem about_of_epoch (h : ∀ m ∈ msgs, m.epoch = epoch) : about epoch msgs = msgs :=
  List.filter_eq_self.mpr fun m hm => decide_eq_true (h m hm)

theorem about_of_ne (h : ∀ m ∈ msgs, m.epoch ≠ epoch) : about epoch msgs = [] :=
  List.filter_eq_nil_iff.mpr fun m hm => by simp [h m hm]

theorem failuresOf_append {name : ℕ → Path} :
    failuresOf name (msgs ++ msgs') = failuresOf name msgs ++ failuresOf name msgs' :=
  List.filterMap_append

theorem terminals_of_progress (h : ∀ m ∈ msgs, m.isTerminal = false) : terminals msgs = 0 :=
  List.countP_eq_zero.mpr fun m hm => by simp [h m hm]

/-- The messages of a worker: one ends the file, behind all others, when the worker is done, and none
does until then. -/
structure Trail (done : Prop) (msgs : List UploadMsg) : Prop where
  ends : done → ∃ progress m, msgs = progress ++ [m] ∧ m.isTerminal = true ∧
    ∀ p ∈ progress, p.isTerminal = false
  goesOn : ¬ done → ∀ m ∈ msgs, m.isTerminal = false

theorem Trail.append {done : Prop} (h : Trail False msgs) (h' : Trail done msgs') :
    Trail done (msgs ++ msgs') where
  ends := by
    intro hdone
    obtain ⟨progress, m, rfl, hm, hprogress⟩ := h'.ends hdone
    refine ⟨msgs ++ progress, m, by rw [List.append_assoc], hm, fun p hp => ?_⟩
    exact (List.mem_append.mp hp).elim (h.goesOn id p) (hprogress p)
  goesOn := by
    intro hnot p hp
    exact (List.mem_append.mp hp).elim (h.goesOn id p) (h'.goesOn hnot p)

/-- The number of messages that end the file. -/
theorem Trail.terminals {done : Prop} [Decidable done] (h : Trail done msgs) :
    terminals msgs = if done then 1 else 0 := by
  split
  · next hdone =>
    obtain ⟨progress, m, rfl, hm, hprogress⟩ := h.ends hdone
    rw [terminals_append, terminals_of_progress hprogress, Nat.zero_add]
    simp [Panel.terminals, hm]
  · next hnot => exact terminals_of_progress (h.goesOn hnot)

/-- Where the messages that are left end nothing, none is left. -/
theorem Trail.drained (h : Trail True (msgs ++ msgs')) (hrest : Panel.terminals msgs' = 0) :
    msgs' = [] ∧ Trail True msgs := by
  obtain ⟨progress, m, heq, hm, hprogress⟩ := h.ends trivial
  obtain rfl : msgs' = [] := by
    by_contra hne
    have hlast : msgs'.getLast hne = m := by
      have hget := congrArg List.getLast? heq
      rw [List.getLast?_append_of_ne_nil _ hne, List.getLast?_concat,
        List.getLast?_eq_some_getLast hne] at hget
      exact Option.some.inj hget
    have hmem : m ∈ msgs' := hlast ▸ List.getLast_mem hne
    have hnot := List.countP_eq_zero.mp hrest m hmem
    exact hnot hm
  rw [List.append_nil] at h
  exact ⟨rfl, h⟩

end Messages

/-! ## The invariant -/

namespace Batch

variable {planned : List PlannedUpload} {s s' : Batch} {m : UploadMsg} {f : PlannedUpload}

/-- The worker has not sent its last message. -/
def isRunning (w : Worker) : Bool := w.phase ≠ .done

/-- The message says that a file has finished. -/
def isFinished : UploadMsg → Bool
  | .finished _ => true
  | _ => false

/-- The message says that a file was cancelled. -/
def isCancelled : UploadMsg → Bool
  | .cancelled _ => true
  | _ => false

/-- What holds of the loop and its workers between any two steps of theirs. -/
structure BatchInv (planned : List PlannedUpload) (s : Batch) : Prop where
  plan : s.planned = planned
  files : s.workers.map Worker.file = planned
  owns : ∀ w ∈ s.workers, w.Owns
  trail : ∀ w ∈ s.workers, Trail (w.phase = .done) (about w.file.epoch (s.handled ++ s.rx))
  named : ∀ m ∈ s.handled ++ s.rx, ∃ f ∈ planned, f.epoch = m.epoch
  ended : terminals (s.handled ++ s.rx) + s.workers.countP isRunning = planned.length
  completed : s.completed = terminals s.handled
  uploaded : s.result.uploaded = s.handled.countP isFinished
  cancelled : s.result.cancelled = s.handled.countP isCancelled
  failed : s.result.failed = (failuresOf s.failureName s.handled).length
  groups : s.result.failureGroups = Groups.byKey (failuresOf s.failureName s.handled)
  published : ∀ f ∈ planned, lastStatus s.published f.epoch =
    some (((about f.epoch s.handled).getLast?.map UploadMsg.status).getD .inProgress)

/-! ### The file of an epoch -/

/-- In a plan whose epochs differ every epoch leads to its file. -/
theorem BatchInv.ctxByEpoch (h : BatchInv planned s)
    (hepochs : (planned.map PlannedUpload.epoch).Nodup) (hf : f ∈ planned) :
    s.ctxByEpoch f.epoch = some f.ctx := by
  have hsome : (planned.reverse.find? (·.epoch = f.epoch)).isSome :=
    List.find?_isSome.mpr ⟨f, List.mem_reverse.mpr hf, by simp⟩
  obtain ⟨g, hg⟩ := Option.isSome_iff_exists.mp hsome
  have hepoch : g.epoch = f.epoch := by simpa using List.find?_some hg
  have hmem := List.mem_reverse.mp (List.mem_of_find?_eq_some hg)
  obtain rfl := List.inj_on_of_nodup_map hepochs hmem hf hepoch
  unfold Batch.ctxByEpoch
  rw [h.plan, hg, Option.map_some]

theorem lastStatus_concat (published : List UploadTask) (task : UploadTask) (epoch : ℕ) :
    lastStatus (published ++ [task]) epoch =
      if task.ctx.epoch = epoch then some task.status else lastStatus published epoch := by
  unfold lastStatus
  rw [List.find?_reverse_concat]
  simp only [decide_eq_true_eq]
  split <;> rfl

/-! ### What handling a message does -/

section Handle

variable {epoch : ℕ} {task : UploadTaskCtx → UploadTask}

theorem publish_of_ctx {ctx : UploadTaskCtx} (h : s.ctxByEpoch epoch = some ctx) :
    s.publish epoch task = { s with published := s.published ++ [task ctx] } := by
  unfold publish
  rw [h]

/-- What a message does to the counters. -/
def countMessage (s : Batch) (result : UploadBatchResult) : UploadMsg → UploadBatchResult
  | .progress .. => result
  | .finished _ => { result with uploaded := result.uploaded + 1 }
  | .cancelled _ => { result with cancelled := result.cancelled + 1 }
  | .failed epoch failure => result.recordFailure failure (s.failureName epoch)

/-- Handling a message counts it and publishes one task for its file, with the status that it
reports. -/
theorem handle_eq {ctx : UploadTaskCtx} (h : s.ctxByEpoch m.epoch = some ctx) :
    ∃ task : UploadTask, task.ctx = ctx ∧ task.status = m.status ∧
      s.handle m = { s with
        completed := s.completed + terminals [m]
        result := s.countMessage s.result m
        published := s.published ++ [task] } := by
  rcases m with ⟨epoch, sent, total⟩ | epoch | epoch | ⟨epoch, failure⟩
  · exact ⟨uploadProgressTask ctx sent total, rfl, rfl, publish_of_ctx h⟩
  · exact ⟨uploadTerminalTask ctx .finished, rfl, rfl, publish_of_ctx h⟩
  · exact ⟨uploadTerminalTask ctx .cancelled, rfl, rfl, publish_of_ctx h⟩
  · exact ⟨uploadTerminalTask ctx .failed (some (failure.taskDetail ctx)), rfl, rfl,
      publish_of_ctx h⟩

end Handle

/-- A message moves from the channel to the handled ones. -/
theorem BatchInv.handle (h : BatchInv planned s) (hepochs : (planned.map PlannedUpload.epoch).Nodup)
    {rx : List UploadMsg} (hrx : s.rx = m :: rx) :
    BatchInv planned ({ s with rx := rx, handled := s.handled ++ [m] }.handle m) := by
  have hmove : s.handled ++ [m] ++ rx = s.handled ++ s.rx := by
    rw [hrx, List.append_assoc, List.singleton_append]
  obtain ⟨f, hf, hepoch⟩ := h.named m (by rw [hrx]; simp)
  have hctx : ({ s with rx := rx, handled := s.handled ++ [m] } : Batch).ctxByEpoch m.epoch =
      some f.ctx := by
    rw [← hepoch]
    exact h.ctxByEpoch hepochs hf
  obtain ⟨task, htask, hstatus, heq⟩ := handle_eq hctx
  rw [heq]
  refine
    { plan := h.plan, files := h.files, owns := h.owns, trail := ?_, named := ?_, ended := ?_,
      completed := ?_, uploaded := ?_, cancelled := ?_, failed := ?_, groups := ?_,
      published := ?_ }
  -- the channel and the handled messages together stay
  · rw [hmove]
    exact h.trail
  · rw [hmove]
    exact h.named
  · rw [hmove]
    exact h.ended
  -- the counters and the groups take the message in as the lists do
  · rw [terminals_append, ← h.completed]
  · have huploaded := h.uploaded
    rw [List.countP_append, ← huploaded]
    rcases m with _ | _ | _ | _ <;> rfl
  · have hcancelled := h.cancelled
    rw [List.countP_append, ← hcancelled]
    rcases m with _ | _ | _ | _ <;> rfl
  · show (s.countMessage s.result m).failed = (failuresOf s.failureName (s.handled ++ [m])).length
    rw [failuresOf_append, List.length_append, ← h.failed]
    rcases m with _ | _ | _ | _ <;> rfl
  · show (s.countMessage s.result m).failureGroups =
      Groups.byKey (failuresOf s.failureName (s.handled ++ [m]))
    rw [failuresOf_append]
    rcases m with _ | _ | _ | ⟨epoch, failure⟩
    · exact h.groups.trans (congrArg _ (List.append_nil _).symm)
    · exact h.groups.trans (congrArg _ (List.append_nil _).symm)
    · exact h.groups.trans (congrArg _ (List.append_nil _).symm)
    · show Groups.arrive failure (s.failureName epoch) s.result.failureGroups = _
      rw [h.groups, Groups.arrive_byKey]
      rfl
  -- what is published last of a file is its last message
  · intro g hg
    rw [lastStatus_concat, htask, about_append]
    show (if f.epoch = g.epoch then some task.status else lastStatus s.published g.epoch) = _
    split
    · next heq =>
      have hself : about g.epoch [m] = [m] := about_of_epoch (by simp [← hepoch, heq])
      rw [hself, List.getLast?_concat, hstatus]
      rfl
    · next hne =>
      have hother : about g.epoch [m] = [] := about_of_ne (by simp [← hepoch, hne])
      rw [hother, List.append_nil]
      exact h.published g hg

/-! ### What a worker's step does -/

theorem BatchInv.worker (h : BatchInv planned s) {i : ℕ} {w : Worker} (hw : s.workers[i]? = some w) :
    planned[i]? = some w.file := by
  rw [← h.files, List.getElem?_map, hw, Option.map_some]

/-- Two workers with one epoch are one worker. -/
theorem BatchInv.index_eq (h : BatchInv planned s)
    (hepochs : (planned.map PlannedUpload.epoch).Nodup) {i j : ℕ} {v w : Worker}
    (hv : s.workers[i]? = some v) (hw : s.workers[j]? = some w)
    (heq : v.file.epoch = w.file.epoch) : i = j := by
  have hi : (planned.map PlannedUpload.epoch)[i]? = some v.file.epoch := by
    rw [List.getElem?_map, h.worker hv, Option.map_some]
  have hj : (planned.map PlannedUpload.epoch)[j]? = some w.file.epoch := by
    rw [List.getElem?_map, h.worker hw, Option.map_some]
  have hlt := (List.getElem?_eq_some_iff.mp hi).1
  exact (List.getElem?_inj hlt hepochs).mp (hi.trans (heq ▸ hj.symm))

theorem BatchInv.workerStep (h : BatchInv planned s)
    (hepochs : (planned.map PlannedUpload.epoch).Nodup) {i : ℕ} {answer : Answer}
    (hs : s.workerStep i answer = some s') : BatchInv planned s' := by
  unfold Batch.workerStep at hs
  split at hs
  · cases hs
  · next w hw =>
    obtain ⟨⟨w', remote, msgs⟩, hstep, rfl⟩ := Option.map_eq_some_iff.mp hs
    have hmem := List.mem_of_getElem? hw
    have hsteps := Worker.steps_of_step (h.owns w hmem) hstep
    have hlt := (List.getElem?_eq_some_iff.mp hw).1
    have hfile : w'.file = w.file := hsteps.file
    have hsent : Trail (w'.phase = .done) msgs := ⟨hsteps.ends, hsteps.goesOn⟩
    refine
      { plan := h.plan, files := ?_, owns := ?_, trail := ?_, named := ?_, ended := ?_,
        completed := h.completed, uploaded := h.uploaded, cancelled := h.cancelled,
        failed := h.failed, groups := h.groups, published := h.published }
    · rw [List.map_set_of_eq hw (f := Worker.file) hfile]
      exact h.files
    · intro v hv
      rcases List.mem_or_eq_of_mem_set hv with hv | rfl
      · exact h.owns v hv
      · exact hsteps.owns
    -- the messages are about the worker's file, and no two files share an epoch
    · intro v hv
      obtain ⟨j, hj⟩ := List.getElem?_of_mem hv
      rw [← List.append_assoc, about_append]
      rcases List.getElem?_set_cases hj with ⟨rfl, rfl⟩ | ⟨hne, hj⟩
      · have hrunning : Trail False (about w'.file.epoch (s.handled ++ s.rx)) := by
          rw [hfile]
          exact ⟨False.elim, fun _ => (h.trail w hmem).goesOn hsteps.running⟩
        rw [about_of_epoch fun m hm => (hsteps.epochs m hm).trans (congrArg _ hfile.symm)]
        exact hrunning.append hsent
      · have hother : about v.file.epoch msgs = [] := about_of_ne fun m hm heq =>
          hne (h.index_eq hepochs hj hw (heq.symm.trans (hsteps.epochs m hm)))
        rw [hother, List.append_nil]
        exact h.trail v (List.mem_of_getElem? hj)
    · intro m hm
      rw [← List.append_assoc] at hm
      rcases List.mem_append.mp hm with hm | hm
      · exact h.named m hm
      · exact ⟨w.file, List.mem_of_getElem? (h.worker hw), (hsteps.epochs m hm).symm⟩
    -- the worker ends with one terminal message, or goes on without
    · have hended := h.ended
      have hset := List.countP_set_add (p := isRunning) (b := w') hw
      have hrunning : isRunning w = true := by simpa [isRunning] using hsteps.running
      have hcount : terminals msgs + (if isRunning w' then 1 else 0) = 1 := by
        rw [hsent.terminals]
        by_cases hdone : w'.phase = .done
        · simp [isRunning, hdone]
        · simp [isRunning, hdone]
      rw [if_pos hrunning] at hset
      rw [← List.append_assoc, terminals_append]
      show terminals (s.handled ++ s.rx) + terminals msgs + (s.workers.set i w').countP isRunning = _
      omega

theorem BatchInv.start (planned : List PlannedUpload) (remote : Files.Store Path) :
    BatchInv planned (start planned remote) where
  plan := rfl
  files := by
    unfold Batch.start
    rw [List.map_map]
    exact List.map_id _
  owns := by
    intro w hw
    obtain ⟨f, -, rfl⟩ := List.mem_map.mp hw
    exact fun _ hopen => nomatch hopen
  trail := by
    intro w hw
    obtain ⟨f, -, rfl⟩ := List.mem_map.mp hw
    exact ⟨nofun, fun _ _ hm => nomatch hm⟩
  named := fun _ hm => nomatch hm
  ended := by
    have hall : (planned.map fun file => ({ file } : Worker)).countP isRunning = planned.length := by
      rw [List.countP_map]
      exact List.countP_eq_length.mpr fun _ _ => rfl
    exact (Nat.zero_add _).trans hall
  completed := rfl
  uploaded := rfl
  cancelled := rfl
  failed := rfl
  groups := rfl
  published := by
    intro f hf
    have hsome : ((planned.map fun f => uploadBeginTask f.ctx).reverse.find?
        (·.ctx.epoch = f.epoch)).isSome :=
      List.find?_isSome.mpr
        ⟨_, List.mem_reverse.mpr (List.mem_map_of_mem hf), decide_eq_true rfl⟩
    obtain ⟨task, htask⟩ := Option.isSome_iff_exists.mp hsome
    have hmem := List.mem_reverse.mp (List.mem_of_find?_eq_some htask)
    obtain ⟨g, -, rfl⟩ := List.mem_map.mp hmem
    unfold lastStatus Batch.start
    rw [htask]
    rfl

theorem BatchInv.step (h : BatchInv planned s) (hepochs : (planned.map PlannedUpload.epoch).Nodup)
    {e : Event} (hs : s.step e = some s') : BatchInv planned s' := by
  cases e with
  | recv =>
    change s.recv = some s' at hs
    unfold recv at hs
    split at hs
    · cases hs
    · split at hs
      · cases hs
      · next m rx hrx =>
        obtain rfl := Option.some.inj hs
        exact h.handle hepochs hrx
  | worker i answer =>
    exact h.workerStep hepochs hs
  | cancel epoch =>
    obtain rfl := Option.some.inj hs
    exact { h with }

theorem batchInv_run (hepochs : (planned.map PlannedUpload.epoch).Nodup) {r : Files.Store Path}
    {es : List Event} (h : Run (ofPartial Batch.step) (start planned r) es s) : BatchInv planned s :=
  h.invariant (.start planned r) fun _ _ _ _ _ hinv hs => hinv.step hepochs hs

/-! ## The account -/

/-- Every worker sends one message that ends its file; the loop ends when as many of these have been
handled as there are files; its counters add up to them; its groups are those of the failures, none of
them empty; and once it has ended, every worker is done and what was published last for its file is
the status that its last message reported. Until then the loop or a worker can go on. -/
structure Accounted (planned : List PlannedUpload) (s : Batch) : Prop where
  once : ∀ (i : ℕ) (w : Worker), s.workers[i]? = some w → planned[i]? = some w.file ∧
    terminals (about w.file.epoch (s.handled ++ s.rx)) = if w.phase = .done then 1 else 0
  ended : s.completed = terminals s.handled ∧ (s.Ended ↔ terminals s.handled = planned.length)
  counted : s.result.uploaded + s.result.failed + s.result.cancelled = terminals s.handled
  groups : s.result.failureGroups = Groups.byKey (failuresOf s.failureName s.handled)
  named : ∀ f ∈ planned, s.failureName f.epoch = f.fileName
  nonempty : ∀ g ∈ s.result.failureGroups, g.members ≠ []
  partition : (Groups.toPairs s.result.failureGroups).Perm (failuresOf s.failureName s.handled) ∧
    s.result.failed = (failuresOf s.failureName s.handled).length
  reported : s.Ended → ∀ (i : ℕ) (w : Worker), s.workers[i]? = some w → w.phase = .done ∧
    ∃ progress m, about w.file.epoch (s.handled ++ s.rx) = progress ++ [m] ∧ m.isTerminal = true ∧
      lastStatus s.published w.file.epoch = some m.status
  live : ¬ s.Ended → (s.step .recv).isSome ∨ ∃ i answer, (s.step (.worker i answer)).isSome

/-- Every message that ends a file is counted once. -/
theorem countP_terminals (name : ℕ → Path) (msgs : List UploadMsg) :
    msgs.countP isFinished + (failuresOf name msgs).length + msgs.countP isCancelled =
      terminals msgs := by
  induction msgs with
  | nil => rfl
  | cons m msgs ih =>
    unfold terminals at ih ⊢
    rw [List.countP_cons, List.countP_cons, List.countP_cons]
    rcases m with _ | _ | _ | _
    all_goals
      simp only [failuresOf, isFinished, isCancelled, UploadMsg.isTerminal, List.filterMap_cons,
        List.length_cons, Bool.false_eq_true, if_true, if_false] at ih ⊢
      omega

/-- When the loop has ended, no message that ends a file is left and every worker is done. -/
theorem BatchInv.drained (h : BatchInv planned s) (hended : s.Ended) :
    terminals s.handled = planned.length ∧ terminals s.rx = 0 ∧ ∀ w ∈ s.workers, w.phase = .done := by
  have hle : planned.length ≤ s.completed := by
    rw [← h.plan]
    exact Nat.le_of_not_lt hended
  have hall := h.ended
  rw [terminals_append, ← h.completed] at hall
  have hrunning : s.workers.countP isRunning = 0 := by omega
  refine ⟨by rw [← h.completed]; omega, by omega, fun w hw => ?_⟩
  simpa [isRunning] using List.countP_eq_zero.mp hrunning w hw

/-- Until the loop has ended, it has a message to handle or a worker that can go on. -/
theorem BatchInv.live (h : BatchInv planned s) (hnot : ¬ s.Ended) :
    (s.step .recv).isSome ∨ ∃ i answer, (s.step (.worker i answer)).isSome := by
  rcases hrx : s.rx with _ | ⟨m, rx⟩
  · right
    have hlt : s.completed < planned.length := by
      rw [← h.plan]
      exact not_not.mp hnot
    have hall := h.ended
    rw [hrx, List.append_nil, ← h.completed] at hall
    have hrunning : 0 < s.workers.countP isRunning := by omega
    obtain ⟨w, hmem, hw⟩ := List.countP_pos_iff.mp hrunning
    obtain ⟨i, hi⟩ := List.getElem?_of_mem hmem
    obtain ⟨answer, hstep⟩ := Worker.exists_step (by simpa [isRunning] using hw) s.remote
      (s.cancels w.file.epoch)
    refine ⟨i, answer, ?_⟩
    show (s.workerStep i answer).isSome
    unfold Batch.workerStep
    rw [hi]
    simpa using hstep
  · left
    show s.recv.isSome
    unfold recv
    rw [if_neg hnot, hrx]
    rfl

/-- A batch of uploads, over any order of its workers' steps and messages. -/
theorem accounted_run (hepochs : (planned.map PlannedUpload.epoch).Nodup) {r : Files.Store Path}
    {es : List Event} (hrun : Run (ofPartial Batch.step) (start planned r) es s) :
    Accounted planned s := by
  have h := batchInv_run hepochs hrun
  refine
    { once := fun i w hw => ⟨h.worker hw, (h.trail w (List.mem_of_getElem? hw)).terminals⟩
      ended := ⟨h.completed, fun hended => (h.drained hended).1, fun hall => ?_⟩
      counted := ?_, groups := h.groups, named := fun f hf => ?_, nonempty := fun g hg => ?_
      partition := ⟨?_, h.failed⟩, reported := fun hended i w hw => ?_, live := h.live }
  · unfold Ended
    rw [h.completed, hall, h.plan]
    exact Nat.lt_irrefl _
  · rw [h.uploaded, h.failed, h.cancelled]
    exact countP_terminals _ _
  · unfold failureName
    rw [h.ctxByEpoch hepochs hf]
    rfl
  · rw [h.groups] at hg
    exact Groups.members_ne_nil hg
  · rw [h.groups]
    exact Groups.toPairs_byKey _
  · obtain ⟨-, hrest, hdone⟩ := h.drained hended
    have hmem := List.mem_of_getElem? hw
    have htrail := h.trail w hmem
    -- the channel holds no message about the file any more
    have hempty : terminals (about w.file.epoch s.rx) = 0 := by
      refine List.countP_eq_zero.mpr fun m hm => ?_
      exact List.countP_eq_zero.mp hrest m (List.mem_of_mem_filter hm)
    rw [about_append] at htrail ⊢
    obtain ⟨hnil, htrail⟩ := Trail.drained ⟨fun _ => htrail.ends (hdone w hmem), nofun⟩ hempty
    obtain ⟨progress, m, heq, hm, -⟩ := htrail.ends trivial
    refine ⟨hdone w hmem, progress, m, by rw [hnil, List.append_nil, heq], hm, ?_⟩
    rw [h.published w.file (List.mem_of_getElem? (h.worker hw)), heq, List.getLast?_concat]
    rfl

/-- Two files of which the second cannot be opened. -/
def twoPlanned : List PlannedUpload :=
  [⟨[], "a".toList, "/a".toList, 1, 0, none, none⟩, ⟨[], "b".toList, "/b".toList, 2, 1, none, none⟩]

/-- The second file's worker runs first. -/
def twoPlannedRun : List Event :=
  [.worker 1 .permit, .worker 1 (.openLocal (.error "denied")), .worker 0 .permit, .recv,
    .worker 0 (.openLocal (.ok ())), .worker 0 (.openWrite (.ok ())), .worker 0 .go,
    .worker 0 (.read (.ok [7])), .worker 0 (.write (.ok true)), .worker 0 .go,
    .worker 0 (.read (.ok [])), .worker 0 .flush, .recv, .recv, .recv]

theorem accounted_run_twoPlanned : ∃ s, Run (ofPartial Batch.step) (start twoPlanned fun _ => none)
    twoPlannedRun s ∧ Accounted twoPlanned s ∧ s.Ended ∧
      s.result = ⟨1, 1, 0, [⟨⟨.openLocalFile, "denied"⟩, ["b".toList]⟩]⟩ := by
  obtain ⟨s, hrun, hs⟩ := exists_run_of_any (start twoPlanned fun _ => none) twoPlannedRun
    (f := Batch.step) (p := fun s => decide s.Ended && decide
      (s.result = ⟨1, 1, 0, [⟨⟨.openLocalFile, "denied"⟩, ["b".toList]⟩]⟩)) (by decide +kernel)
  obtain ⟨hended, hresult⟩ := (Bool.and_eq_true _ _).mp hs
  exact ⟨s, hrun, accounted_run (by decide) hrun, of_decide_eq_true hended,
    of_decide_eq_true hresult⟩

end Batch

end Termua.Panel
