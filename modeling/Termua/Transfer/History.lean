import Mathlib
import Termua.Transfer.Invariant

/-!
# The transfer center after a sequence of calls

`Represents` says what the indexes of the transfer center hold after a sequence of calls, in terms of
the live tasks and of the calls; `represents_run` proves it for every sequence.
-/

namespace Termua.Transfer

namespace TransferCenterState

variable {calls : List Call} {s : TransferCenterState} {c : Call} {id : String}
  {Dismissed' : String → Prop}

/-! ## What happened to a task -/

/-- What a call makes of the live tasks. -/
def record (live : Live) : Call → Live
  | .upsert task now => Function.update live task.id (some (task.onto (live task.id) now))
  | .remove id => Function.update live id none
  | .removeGroup group => fun id => (live id).filter fun task => task.groupId ≠ some group
  | .removeGroupsWithPrefix start => fun id =>
    (live id).filter fun task => !task.groupId.any fun group => start.toList.isPrefixOf group.toList

/-- The tasks that the calls leave. -/
def recorded (calls : List Call) : Live := calls.foldl record fun _ => none

/-- The call at position `i` inserted the task: it was not live before. -/
def InsertedAt (calls : List Call) (id : String) (i : ℕ) : Prop :=
  ∃ task now, calls[i]? = some (.upsert task now) ∧ task.id = id ∧
    (run (calls.take i)).live id = none

/-- The call at position `i` is the last one that inserted the task. -/
structure LatestInsertion (calls : List Call) (id : String) (i : ℕ) : Prop where
  inserted : InsertedAt calls id i
  latest : ∀ j, InsertedAt calls id j → j ≤ i

/-- One of the calls dismissed the task while it was terminal. -/
def Dismissed (calls : List Call) (id : String) : Prop :=
  ∃ earlier c later, calls = earlier ++ c :: later ∧
    (∃ task, (run earlier).live id = some task ∧ task.isTerminal = true) ∧
    (run (earlier ++ [c])).live id = none

/-- One of the calls dismissed the task while it was terminal, and a later one added it again. -/
def DismissedAndAdded (calls : List Call) (id : String) : Prop :=
  ∃ earlier c later, calls = earlier ++ c :: later ∧
    (∃ task, (run earlier).live id = some task ∧ task.isTerminal = true) ∧
    (run (earlier ++ [c])).live id = none ∧
    ∃ task now, .upsert task now ∈ later ∧ task.id = id

/-- What the indexes hold after the calls. -/
structure Represents (calls : List Call) (s : TransferCenterState) : Prop where
  /-- The live tasks are those that the calls leave, each under its id. -/
  tasks : ∀ id, s.tasks[id]? = recorded calls id
  id_eq : ∀ (id : String) (task : TransferTask), s.tasks[id]? = some task → task.id = id
  /-- `order` lists the live ids without duplicates. -/
  order_nodup : s.order.Nodup
  mem_order : ∀ id, id ∈ s.order ↔ id ∈ s.tasks
  /-- `tasks_sorted` has the live tasks in that order. -/
  sorted : s.tasksSorted.map TransferTask.id = s.order
  /-- The ids are in the order of their latest insertion. -/
  order_latest : ∃ index : String → ℕ, (∀ id ∈ s.order, LatestInsertion calls id (index id)) ∧
    s.order.Pairwise fun id id' => index id < index id'
  /-- `group_tasks` maps each group to its live ids, and holds no empty set. -/
  mem_groupTasks : ∀ group id : String,
    (∃ ids : Std.ExtTreeSet String, s.groupTasks[group]? = some ids ∧ id ∈ ids) ↔
      ∃ task : TransferTask, s.tasks[id]? = some task ∧ task.groupId = some group
  groupTasks_ne : ∀ (group : String) (ids : Std.ExtTreeSet String),
    s.groupTasks[group]? = some ids → ids ≠ ∅
  /-- A live task of a known total that is not zero contributes to its group's byte map. -/
  bytes : ∀ (id group : String) (task : TransferTask) (total : UInt64), s.tasks[id]? = some task →
    task.groupId = some group → task.bytesTotal = some total → 0 < total →
    ∃ g : TransferGroupState, s.groups[group]? = some g ∧
      g.bytes[id]? =
        some (min (task.bytesDone.getD (if task.status = .finished then total else 0)) total, total)
  /-- The completed set of a group contains its live terminal tasks. -/
  completed : ∀ (id group : String) (task : TransferTask), s.tasks[id]? = some task →
    task.groupId = some group → task.status ≠ .inProgress →
    ∃ g : TransferGroupState, s.groups[group]? = some g ∧ id ∈ g.completed
  /-- A live task in progress is in it only when it was dismissed while terminal, and added again. -/
  inProgress : ∀ (id group : String) (task : TransferTask) (g : TransferGroupState),
    s.tasks[id]? = some task → task.status = .inProgress → s.groups[group]? = some g →
    id ∈ g.completed → DismissedAndAdded calls id
  /-- Without live tasks nothing is left. -/
  empty : s.tasks = ∅ → s.groups = ∅ ∧ s.groupTasks = ∅ ∧ s.summary = {}

/-! ## Runs -/

theorem run_append (calls : List Call) (c : Call) : run (calls ++ [c]) = (run calls).call c := by
  rw [run, List.foldl_append]
  rfl

theorem reaches_run (calls : List Call) :
    Transition.Run (Transition.ofFun call) {} calls (run calls) :=
  Transition.run_ofFun_iff.mpr rfl

theorem Dismissed.append (h : Dismissed calls id) (c : Call) : Dismissed (calls ++ [c]) id := by
  obtain ⟨earlier, d, later, rfl, hterminal, hnone⟩ := h
  exact ⟨earlier, d, later ++ [c], by simp, hterminal, hnone⟩

/-- The invariant after every sequence of calls. -/
theorem centerInv_run (calls : List Call) : CenterInv (Dismissed calls) (run calls) := by
  refine Transition.Run.historyInvariant (I := fun calls s => CenterInv (Dismissed calls) s) ?_ ?_
    (reaches_run calls)
  · exact
      { id_eq := by simp [live]
        order_nodup := List.nodup_nil
        mem_order := by simp [live]
        groups := groupInv_of_not_live (fun _ => Std.ExtTreeMap.getElem?_empty) {}
        empty := fun _ => ⟨rfl, rfl⟩ }
  · intro calls s c s' hrun hinv hstep
    obtain rfl : run calls = s := Transition.run_ofFun_iff.mp hrun
    obtain rfl : (run calls).call c = s' := hstep
    refine (hinv.mono fun id hid => hid.append c).call c fun id task htask hterminal hnone => ?_
    exact ⟨calls, c, [], by simp, ⟨task, htask, hterminal⟩, by rwa [run_append]⟩

/-- The groups that are removed with a prefix are those of a live task that begin with it, and groups that
no live task is in. -/
theorem CenterInv.groupsWithPrefix (h : CenterInv Dismissed' s) {task : TransferTask} (start : String)
    (htask : s.live id = some task) : (∀ group ∈ s.groupsWithPrefix start, task.groupId ≠ some group) ↔
      (task.groupId.any fun group => start.toList.isPrefixOf group.toList) = false := by
  unfold TransferCenterState.groupsWithPrefix
  rcases hgroup : task.groupId with _ | group
  · simp
  · have hin : id ∈ s.groupTasks.getD group ∅ := (h.groups.members group id).mpr ⟨task, htask, hgroup⟩
    have hkey : group ∈ s.groupTasks := by
      by_contra hnot
      rw [Std.ExtTreeMap.getD_eq_fallback hnot] at hin
      simp at hin
    rw [Option.any_some]
    constructor
    · intro hnone
      by_contra hstarts
      rw [Bool.not_eq_false] at hstarts
      refine hnone group ?_ rfl
      exact List.mem_append_left _ (List.mem_filter.mpr ⟨by simpa using hkey, hstarts⟩)
    · rintro hstarts group' hmem heq
      obtain rfl := Option.some.inj heq
      rcases List.mem_append.mp hmem with hmem | hmem
      · exact absurd (List.mem_filter.mp hmem).2 (by simp [hstarts])
      · exact absurd (List.mem_filter.mp (List.mem_filter.mp hmem).1).2 (by simp [hstarts])

/-- A call leaves the tasks that it should. -/
theorem CenterInv.live_call (h : CenterInv Dismissed' s) (c : Call) : (s.call c).live = record s.live c := by
  cases c with
  | upsert task now => exact s.live_upsert task now
  | remove id => exact s.live_remove id
  | removeGroup group =>
    funext id
    refine Option.ext fun task => (h.live_removeGroup group id task).trans ?_
    show _ ↔ (s.live id).filter _ = some task
    rw [Option.filter_eq_some_iff, decide_eq_true_eq]
  | removeGroupsWithPrefix start =>
    funext id
    refine Option.ext fun task => (h.live_removeGroups _ id task).trans ?_
    show _ ↔ (s.live id).filter _ = some task
    rw [Option.filter_eq_some_iff, Bool.not_eq_true']
    exact and_congr_right fun htask => h.groupsWithPrefix start htask

/-- The live tasks after every sequence of calls. -/
theorem live_run (calls : List Call) : (run calls).live = recorded calls := by
  induction calls using List.reverseRecOn with
  | nil =>
    funext id
    exact Std.ExtTreeMap.getElem?_empty
  | append_singleton calls c ih =>
    rw [run_append, (centerInv_run calls).live_call, ih]
    unfold recorded
    rw [List.foldl_append]
    rfl

/-- A call that makes a task live is an upsert of it. -/
theorem exists_upsert_of_live (h : CenterInv Dismissed' s) (hnone : s.live id = none)
    (hsome : (s.call c).live id ≠ none) : ∃ task now, c = .upsert task now ∧ task.id = id := by
  rw [h.live_call] at hsome
  cases c with
  | upsert task now =>
    refine ⟨task, now, rfl, ?_⟩
    by_contra hne
    exact hsome ((Function.update_of_ne (Ne.symm hne) _ _).trans hnone)
  | remove removed => exact absurd (Table.update_none_eq_none hnone) hsome
  | removeGroup group => exact absurd (congrArg (Option.filter _) hnone) hsome
  | removeGroupsWithPrefix start => exact absurd (congrArg (Option.filter _) hnone) hsome

/-- A task that is live now, and was not after some of the calls, was added by one of the others. -/
theorem exists_upsert_of_later {earlier later : List Call} (hnone : (run earlier).live id = none)
    (hsome : (run (earlier ++ later)).live id ≠ none) :
    ∃ task now, .upsert task now ∈ later ∧ task.id = id := by
  induction later using List.reverseRecOn with
  | nil => exact absurd (by simpa using hnone) hsome
  | append_singleton later c ih =>
    by_cases hlive : (run (earlier ++ later)).live id = none
    · rw [← List.append_assoc, run_append] at hsome
      obtain ⟨task, now, rfl, hid⟩ := exists_upsert_of_live (centerInv_run _) hlive hsome
      exact ⟨task, now, by simp, hid⟩
    · obtain ⟨task, now, hmem, hid⟩ := ih hlive
      exact ⟨task, now, List.mem_append_left _ hmem, hid⟩

/-- A dismissed task that is live was added again. -/
theorem Dismissed.added (h : Dismissed calls id) (hlive : (run calls).live id ≠ none) :
    DismissedAndAdded calls id := by
  obtain ⟨earlier, c, later, rfl, hterminal, hnone⟩ := h
  refine ⟨earlier, c, later, rfl, hterminal, hnone, exists_upsert_of_later hnone ?_⟩
  simpa using hlive

/-! ## The order -/

theorem InsertedAt.lt {i : ℕ} (h : InsertedAt calls id i) : i < calls.length := by
  obtain ⟨task, now, hcall, -⟩ := h
  exact (List.getElem?_eq_some_iff.mp hcall).1

/-- What was inserted before is inserted at the same positions after one more call. -/
theorem insertedAt_append_iff {i : ℕ} : InsertedAt (calls ++ [c]) id i ↔
    InsertedAt calls id i ∨ i = calls.length ∧ (run calls).live id = none ∧
      ∃ task now, c = .upsert task now ∧ task.id = id := by
  rcases Nat.lt_trichotomy i calls.length with hlt | rfl | hgt
  · simp [InsertedAt, List.getElem?_append_left hlt, List.take_append_of_le_length hlt.le, hlt.ne]
  · constructor
    · rintro ⟨task, now, hcall, hid, hnone⟩
      rw [List.getElem?_concat_length] at hcall
      rw [List.take_left' rfl] at hnone
      exact .inr ⟨rfl, hnone, task, now, Option.some.inj hcall, hid⟩
    · rintro (h | ⟨-, hnone, task, now, rfl, hid⟩)
      · exact absurd h.lt (lt_irrefl _)
      · exact ⟨task, now, by simp, hid, by rwa [List.take_left' rfl]⟩
  · have hnot : ¬ InsertedAt (calls ++ [c]) id i := fun h => by
      have hlt := h.lt
      rw [List.length_append, List.length_singleton] at hlt
      omega
    have hnot' : ¬ InsertedAt calls id i := fun h => absurd h.lt hgt.not_gt
    simp [hnot, hnot', hgt.ne']

/-- A task that is live is not inserted by the next call. -/
theorem LatestInsertion.append {i : ℕ} (h : LatestInsertion calls id i)
    (hlive : (run calls).live id ≠ none) : LatestInsertion (calls ++ [c]) id i where
  inserted := insertedAt_append_iff.mpr (.inl h.inserted)
  latest j hj := by
    rcases insertedAt_append_iff.mp hj with hj | ⟨-, hnone, -⟩
    · exact h.latest j hj
    · exact absurd hnone hlive

/-- A call that inserts a task is its latest insertion. -/
theorem latestInsertion_length {task : TransferTask} {now : Instant}
    (hnone : (run calls).live task.id = none) :
    LatestInsertion (calls ++ [.upsert task now]) task.id calls.length where
  inserted := insertedAt_append_iff.mpr (.inr ⟨rfl, hnone, task, now, rfl, rfl⟩)
  latest j hj := by
    have hlt := hj.lt
    rw [List.length_append, List.length_singleton] at hlt
    omega

/-- A call appends a task that is not live to the order, or keeps the order of those that stay. -/
theorem CenterInv.order_call (h : CenterInv Dismissed' s) (c : Call) :
    (s.call c).order.Sublist s.order ∨
      ∃ task now, c = .upsert task now ∧ s.live task.id = none ∧
        (s.call c).order = s.order ++ [task.id] := by
  cases c with
  | upsert task now =>
    rcases h.order_upsert task now with ⟨horder, -⟩ | ⟨horder, hnot⟩
    · exact .inl (horder ▸ .refl _)
    · refine .inr ⟨task, now, rfl, ?_, horder⟩
      simpa [h.mem_order, Option.eq_none_iff_forall_ne_some] using hnot
  | remove id => exact .inl (s.order_remove_sublist id)
  | removeGroup group => exact .inl (s.order_removeAll_sublist _)
  | removeGroupsWithPrefix start => exact .inl (s.order_removeGroups_sublist _)

/-- The order after every sequence of calls is that of the latest insertions. -/
theorem order_latest_run (calls : List Call) : ∃ index : String → ℕ,
    (∀ id ∈ (run calls).order, LatestInsertion calls id (index id)) ∧
      (run calls).order.Pairwise fun id id' => index id < index id' := by
  induction calls using List.reverseRecOn with
  | nil => exact ⟨fun _ => 0, by simp [run], by simp [run]⟩
  | append_singleton calls c ih =>
    obtain ⟨index, hlatest, hsorted⟩ := ih
    have hinv := centerInv_run calls
    have hkept : ∀ id ∈ (run calls).order, LatestInsertion (calls ++ [c]) id (index id) := by
      intro id hid
      obtain ⟨task, htask⟩ := (hinv.mem_order id).mp hid
      exact (hlatest id hid).append (by simp [htask])
    rw [run_append]
    -- a call takes ids out of the order, or puts a new one at its end
    rcases hinv.order_call c with hsub | ⟨task, now, rfl, hnone, horder⟩
    · exact ⟨index, fun id hid => hkept id (hsub.subset hid), hsorted.sublist hsub⟩
    · have hnot : task.id ∉ (run calls).order := by simp [hinv.mem_order, hnone]
      have hindex : ∀ id ∈ (run calls).order,
          Function.update index task.id calls.length id = index id := by
        intro id hid
        exact Function.update_of_ne (by rintro rfl; exact hnot hid) _ _
      refine ⟨Function.update index task.id calls.length, fun id hid => ?_, ?_⟩
      · rw [horder, List.mem_append, List.mem_singleton] at hid
        rcases hid with hid | rfl
        · rw [hindex id hid]
          exact hkept id hid
        · rw [Function.update_self]
          exact latestInsertion_length hnone
      · rw [horder, List.pairwise_append]
        refine ⟨hsorted.imp_of_mem fun hid hid' hlt => ?_, List.pairwise_singleton _ _,
          fun id hid id' hid' => ?_⟩
        · rwa [hindex _ hid, hindex _ hid']
        · rw [List.mem_singleton.mp hid', Function.update_self, hindex id hid]
          exact (hlatest id hid).inserted.lt

/-! ## What the indexes hold -/

theorem CenterInv.map_id_tasksSorted (h : CenterInv Dismissed' s) :
    s.tasksSorted.map TransferTask.id = s.order := by
  have hid : ∀ id ∈ s.order, (s.tasks[id]?).map TransferTask.id = some id := by
    intro id hmem
    obtain ⟨task, htask⟩ := (h.mem_order id).mp hmem
    rw [show s.tasks[id]? = some task from htask, Option.map_some, h.id_eq id task htask]
  unfold tasksSorted
  rw [List.map_filterMap, List.filterMap_congr hid, List.filterMap_some]

/-- After every sequence of calls the indexes of the transfer center represent its live tasks. -/
theorem represents_run (calls : List Call) : Represents calls (run calls) := by
  have hinv := centerInv_run calls
  constructor
  case tasks => exact fun id => congrFun (live_run calls) id
  case id_eq => exact hinv.id_eq
  case sorted => exact hinv.map_id_tasksSorted
  case order_nodup => exact hinv.order_nodup
  case mem_order =>
    intro id
    rw [hinv.mem_order, Std.ExtTreeMap.mem_iff_isSome_getElem?, Option.isSome_iff_exists]
    rfl
  case order_latest => exact order_latest_run calls
  case mem_groupTasks =>
    intro group id
    refine Iff.trans ?_ (hinv.groups.members group id)
    rw [Std.ExtTreeMap.getD_eq_getD_getElem?]
    cases (run calls).groupTasks[group]? <;> simp
  case groupTasks_ne => exact hinv.groups.members_ne
  case bytes =>
    intro id group task total htask hgroup htotal hpos
    refine hinv.groups.bytes id group task _ htask hgroup ?_
    simp [TransferTask.contribution, htotal, hpos]
  case completed =>
    intro id group task htask hgroup hstatus
    exact hinv.groups.completed id group task htask hgroup (by simpa [TransferTask.isTerminal])
  case inProgress =>
    intro id group task g htask hstatus hg hid
    rcases hinv.groups.stale group g id hg hid with ⟨t, ht, -, hterminal⟩ | hdismissed
    · obtain rfl := Option.some.inj (ht.symm.trans htask)
      simp [TransferTask.isTerminal, hstatus] at hterminal
    · have hlive : (run calls).live id = some task := htask
      exact hdismissed.added (by simp [hlive])
  case empty =>
    intro htasks
    obtain ⟨hgroups, hgroupTasks⟩ := hinv.empty htasks
    refine ⟨hgroups, hgroupTasks, ?_⟩
    rw [summary, htasks, hgroups]
    rfl

end TransferCenterState

end Termua.Transfer
