import Mathlib
import Termua.Lib.Table
import Termua.Transfer.Center

/-!
# The indexes of the transfer center

The transfer center keeps its tasks in five places. `GroupInv` relates the group maps to the live
tasks, given as a function, so that it also holds between the two halves of an update, and
`CenterInv` is the invariant of the whole state, which `CenterInv.call` carries through a call.

A terminal task that is removed leaves its id in the completed set of its group: `Dismissed` is the
ghost that says for which ids this may have happened.
-/

namespace Termua.Transfer

open Table (update_some_eq_some update_none_eq_some)

/-! ## One group -/

namespace TransferGroupState

variable (g : TransferGroupState) (task : TransferTask)

@[simp] theorem mem_completed_apply {id : String} :
    id ∈ (g.apply task).completed ↔
      id ∈ g.completed ∨ task.isTerminal = true ∧ task.id = id := by
  have hcompleted : ∀ g' : TransferGroupState, g'.completed = g.completed →
      (id ∈ (if task.isTerminal then
          { g' with completed := g'.completed.insert task.id } else g').completed ↔
        id ∈ g.completed ∨ task.isTerminal = true ∧ task.id = id) := by
    intro g' heq
    cases task.isTerminal <;> simp [heq, or_comm]
  refine hcompleted _ ?_
  cases task.groupTotal <;> cases task.contribution <;> rfl

/-- The bytes of the other tasks stay. -/
theorem bytes_apply_of_ne {id : String} (hne : task.id ≠ id) :
    (g.apply task).bytes[id]? = g.bytes[id]? := by
  rw [apply]
  cases task.groupTotal <;> cases task.contribution <;> cases task.isTerminal <;>
    simp [Std.ExtTreeMap.getElem?_insert, hne]

/-- The bytes of the task are what it contributes. -/
theorem bytes_apply_self {bytes : UInt64 × UInt64} (h : task.contribution = some bytes) :
    (g.apply task).bytes[task.id]? = some bytes := by
  rw [apply, h]
  cases task.groupTotal <;> cases task.isTerminal <;> simp

variable (removeCompletion : Bool)

@[simp] theorem mem_completed_forget {id : String} :
    id ∈ (g.forget task removeCompletion).completed ↔
      id ∈ g.completed ∧ (removeCompletion = true → task.id ≠ id) := by
  rw [forget]
  cases removeCompletion <;> split <;> simp [and_comm]

/-- The bytes of the other tasks stay. -/
theorem bytes_forget_of_ne {id : String} (hne : task.id ≠ id) :
    (g.forget task removeCompletion).bytes[id]? = g.bytes[id]? := by
  rw [forget]
  cases removeCompletion <;> split <;> simp [Std.ExtTreeMap.getElem?_erase, hne]

end TransferGroupState

/-! ## The groups and the live tasks -/

/-- What an upsert makes of a task where one may be live under its id: the time at which that one was added
stays, and within its group also the bytes that the new one has not. -/
def TransferTask.onto (task : TransferTask) (existing : Option TransferTask) (now : Instant) :
    TransferTask :=
  match existing with
  | none => { task with createdAt := now, updatedAt := now }
  | some existing =>
    let kept (bytes : Option UInt64) := if existing.groupId = task.groupId then bytes else none
    { task with
      bytesDone := task.bytesDone.or (kept existing.bytesDone)
      bytesTotal := task.bytesTotal.or (kept existing.bytesTotal)
      createdAt := existing.createdAt
      updatedAt := now }

theorem TransferTask.id_onto (task : TransferTask) (existing : Option TransferTask) (now : Instant) :
    (task.onto existing now).id = task.id := by
  cases existing <;> rfl

namespace TransferCenterState

/-- The live tasks. -/
abbrev Live := String → Option TransferTask

/-- The task is live in the group. -/
def InGroup (live : Live) (id group : String) : Prop :=
  ∃ task, live id = some task ∧ task.groupId = some group

/-- The group maps say what they should of the live tasks. An id in a completed set is that of a
live terminal task of the group, unless it is `Dismissed`. -/
structure GroupInv (live : Live) (Dismissed : String → Prop) (s : TransferCenterState) : Prop where
  members : ∀ group id, id ∈ s.groupTasks.getD group ∅ ↔ InGroup live id group
  members_ne : ∀ (group : String) (ids : Std.ExtTreeSet String), s.groupTasks[group]? = some ids →
    ids ≠ ∅
  bytes : ∀ id group task bytes, live id = some task → task.groupId = some group →
    task.contribution = some bytes →
    ∃ g : TransferGroupState, s.groups[group]? = some g ∧ g.bytes[id]? = some bytes
  completed : ∀ id group task, live id = some task → task.groupId = some group →
    task.isTerminal = true → ∃ g : TransferGroupState, s.groups[group]? = some g ∧ id ∈ g.completed
  stale : ∀ (group : String) (g : TransferGroupState) (id : String), s.groups[group]? = some g →
    id ∈ g.completed →
    (∃ task, live id = some task ∧ task.groupId = some group ∧ task.isTerminal = true) ∨
      Dismissed id

section GroupInv

variable {live : Live} {Dismissed : String → Prop} {s : TransferCenterState} {task : TransferTask}

/-- The groups after a task was applied to its group. -/
theorem groups_applyTaskToGroupState {group group' : String} (hgroup : task.groupId = some group) :
    (s.applyTaskToGroupState task).groups[group']? =
      if group = group' then some ((s.groups.getD group {}).apply task) else s.groups[group']? := by
  simp [applyTaskToGroupState, hgroup, Std.ExtTreeMap.getElem?_insert]

theorem groupTasks_applyTaskToGroupState {group group' : String}
    (hgroup : task.groupId = some group) :
    (s.applyTaskToGroupState task).groupTasks[group']? =
      if group = group' then some ((s.groupTasks.getD group ∅).insert task.id)
      else s.groupTasks[group']? := by
  simp [applyTaskToGroupState, hgroup, Std.ExtTreeMap.getElem?_insert]

theorem inGroup_update_of_ne {id id' group : String} {entry : Option TransferTask}
    (hne : id' ≠ id) : InGroup (Function.update live id entry) id' group ↔ InGroup live id' group := by
  simp [InGroup, hne]

/-- The group maps depend on the live tasks of the groups only. -/
theorem GroupInv.of_agree {live' : Live} (h : GroupInv live Dismissed s)
    (hagree : ∀ id group t, t.groupId = some group → (live' id = some t ↔ live id = some t)) :
    GroupInv live' Dismissed s where
  members := by
    intro group id
    rw [h.members]
    exact exists_congr fun t => and_congr_left fun htgroup => (hagree id group t htgroup).symm
  members_ne := h.members_ne
  bytes := by
    intro id group t bytes ht htgroup hbytes
    exact h.bytes id group t bytes ((hagree id group t htgroup).mp ht) htgroup hbytes
  completed := by
    intro id group t ht htgroup hterminal
    exact h.completed id group t ((hagree id group t htgroup).mp ht) htgroup hterminal
  stale := by
    intro group g id hg hid
    refine (h.stale group g id hg hid).imp_left fun ⟨t, ht, htgroup, hterminal⟩ => ?_
    exact ⟨t, (hagree id group t htgroup).mpr ht, htgroup, hterminal⟩

/-- A group that a task is applied to keeps its completed tasks and the bytes of the other tasks. -/
theorem exists_group_applyTaskToGroupState {group group' : String} {g : TransferGroupState}
    (hgroup : task.groupId = some group) (hg : s.groups[group']? = some g) :
    ∃ g' : TransferGroupState, (s.applyTaskToGroupState task).groups[group']? = some g' ∧
      (∀ id ∈ g.completed, id ∈ g'.completed) ∧
      ∀ id, task.id ≠ id → g'.bytes[id]? = g.bytes[id]? := by
  rw [groups_applyTaskToGroupState hgroup]
  by_cases heq : group = group'
  · subst heq
    rw [if_pos rfl, Std.ExtTreeMap.getD_eq_getD_getElem?, hg]
    exact ⟨_, rfl, fun id hid => by simp [hid], fun id hne => g.bytes_apply_of_ne task hne⟩
  · rw [if_neg heq]
    exact ⟨g, hg, fun _ hid => hid, fun _ _ => rfl⟩

/-- The task that is applied is a member of its group, besides the members there were. -/
theorem GroupInv.mem_applyTaskToGroupState (h : GroupInv live Dismissed s) {group group' id : String}
    (hgroup : task.groupId = some group) :
    id ∈ (s.applyTaskToGroupState task).groupTasks.getD group' ∅ ↔
      id = task.id ∧ group = group' ∨ InGroup live id group' := by
  rw [← h.members, Std.ExtTreeMap.getD_eq_getD_getElem?, groupTasks_applyTaskToGroupState hgroup]
  by_cases heq : group = group'
  · subst heq
    simp [eq_comm (a := id)]
  · simp [heq, Std.ExtTreeMap.getD_eq_getD_getElem?]

/-- Applying a new task to its group keeps the group maps right. -/
theorem GroupInv.applyTaskToGroupState (h : GroupInv live Dismissed s)
    (hnew : live task.id = none) :
    GroupInv (Function.update live task.id (some task)) Dismissed (s.applyTaskToGroupState task) := by
  have hlive : ∀ id t, Function.update live task.id (some task) id = some t →
      id = task.id ∧ task = t ∨ id ≠ task.id ∧ live id = some t := fun _ _ ht =>
    update_some_eq_some ht
  have hkept : ∀ id t, live id = some t → Function.update live task.id (some task) id = some t := by
    intro id t ht
    have hne : id ≠ task.id := by
      rintro rfl
      rw [hnew] at ht
      cases ht
    rwa [Function.update_of_ne hne]
  -- without a group the maps stay, and the new task is a member of none
  cases hgroup : task.groupId with
  | none =>
    rw [TransferCenterState.applyTaskToGroupState, hgroup]
    refine h.of_agree fun id group t htgroup => ⟨fun ht => ?_, hkept id t⟩
    rcases hlive id t ht with ⟨-, rfl⟩ | ⟨-, ht⟩
    · rw [hgroup] at htgroup
      cases htgroup
    · exact ht
  | some group =>
    -- a completion whose task is live keeps it
    have hstale : ∀ id group,
        (∃ t, live id = some t ∧ t.groupId = some group ∧ t.isTerminal = true) →
          ∃ t, Function.update live task.id (some task) id = some t ∧ t.groupId = some group ∧
            t.isTerminal = true := fun id group ⟨t, ht, hrest⟩ => ⟨t, hkept id t ht, hrest⟩
    have hown : (s.applyTaskToGroupState task).groups[group]? =
        some ((s.groups.getD group {}).apply task) := by
      rw [groups_applyTaskToGroupState hgroup, if_pos rfl]
    constructor
    case members =>
      intro group' id
      rw [h.mem_applyTaskToGroupState hgroup]
      by_cases heq : id = task.id
      · subst heq
        simp [InGroup, hnew, hgroup]
      · simp [inGroup_update_of_ne heq, heq]
    case members_ne =>
      intro group' ids hids
      rw [groupTasks_applyTaskToGroupState hgroup] at hids
      split at hids
      · cases hids
        intro hempty
        have hmem : task.id ∈ (s.groupTasks.getD group ∅).insert task.id := by simp
        rw [hempty] at hmem
        simp at hmem
      · exact h.members_ne group' ids hids
    case bytes =>
      intro id group' t bytes ht htgroup hbytes
      -- the new task is counted as it comes in, and the others as before
      rcases hlive id t ht with ⟨rfl, rfl⟩ | ⟨hne, ht⟩
      · obtain rfl := Option.some.inj (hgroup.symm.trans htgroup)
        exact ⟨_, hown, TransferGroupState.bytes_apply_self _ _ hbytes⟩
      · obtain ⟨g, hg, hgbytes⟩ := h.bytes id group' t bytes ht htgroup hbytes
        obtain ⟨g', hg', -, hsame⟩ := exists_group_applyTaskToGroupState hgroup hg
        exact ⟨g', hg', (hsame id hne.symm).trans hgbytes⟩
    case completed =>
      intro id group' t ht htgroup hterminal
      rcases hlive id t ht with ⟨rfl, rfl⟩ | ⟨hne, ht⟩
      · obtain rfl := Option.some.inj (hgroup.symm.trans htgroup)
        exact ⟨_, hown, by simp [hterminal]⟩
      · obtain ⟨g, hg, hid⟩ := h.completed id group' t ht htgroup hterminal
        obtain ⟨g', hg', hsub, -⟩ := exists_group_applyTaskToGroupState hgroup hg
        exact ⟨g', hg', hsub id hid⟩
    case stale =>
      intro group' g id hg hid
      rw [groups_applyTaskToGroupState hgroup] at hg
      split at hg
      · next heq =>
        subst heq
        cases hg
        rcases (TransferGroupState.mem_completed_apply _ _).mp hid with hid | ⟨hterminal, rfl⟩
        · cases hbefore : s.groups[group]? with
          | none => simp [Std.ExtTreeMap.getD_eq_getD_getElem?, hbefore] at hid
          | some g =>
            rw [Std.ExtTreeMap.getD_eq_getD_getElem?, hbefore] at hid
            exact (h.stale group g id hbefore hid).imp_left (hstale id group)
        · exact .inl ⟨task, Function.update_self _ _ _, hgroup, hterminal⟩
      · exact (h.stale group' g id hg hid).imp_left (hstale id group')

variable {removeCompletion preserve : Bool} {ids : Std.ExtTreeSet String}

/-- The groups after a task was removed from its group. -/
theorem groups_removeTaskFromGroupState {group group' : String}
    (hgroup : task.groupId = some group) (hids : s.groupTasks[group]? = some ids) :
    (s.removeTaskFromGroupState task removeCompletion preserve).groups[group']? =
      if group = group' then
        if (ids.erase task.id).isEmpty = true ∧ preserve = false then none
        else s.groups[group]?.map (·.forget task removeCompletion)
      else s.groups[group']? := by
  rw [removeTaskFromGroupState, hgroup]
  simp only [hids]
  by_cases heq : group = group'
  · subst heq
    cases hempty : (ids.erase task.id).isEmpty <;> cases preserve <;> simp
  · cases hempty : (ids.erase task.id).isEmpty <;> cases preserve <;>
      simp [heq, Std.ExtTreeMap.getElem?_modify, Std.ExtTreeMap.getElem?_erase]

theorem groupTasks_removeTaskFromGroupState {group group' : String}
    (hgroup : task.groupId = some group) (hids : s.groupTasks[group]? = some ids) :
    (s.removeTaskFromGroupState task removeCompletion preserve).groupTasks[group']? =
      if group = group' then
        if (ids.erase task.id).isEmpty = true then none else some (ids.erase task.id)
      else s.groupTasks[group']? := by
  rw [removeTaskFromGroupState, hgroup]
  simp only [hids]
  by_cases heq : group = group'
  · subst heq
    cases hempty : (ids.erase task.id).isEmpty <;> cases preserve <;> simp
  · cases hempty : (ids.erase task.id).isEmpty <;> cases preserve <;>
      simp [heq, Std.ExtTreeMap.getElem?_insert, Std.ExtTreeMap.getElem?_erase]

/-- The members of a live task's group. -/
theorem GroupInv.exists_members (h : GroupInv live Dismissed s) {group : String}
    (hlive : live task.id = some task) (hgroup : task.groupId = some group) :
    ∃ ids : Std.ExtTreeSet String, s.groupTasks[group]? = some ids ∧
      ∀ id, id ∈ ids ↔ InGroup live id group := by
  have hmember : task.id ∈ s.groupTasks.getD group ∅ :=
    (h.members group task.id).mpr ⟨task, hlive, hgroup⟩
  cases hids : s.groupTasks[group]? with
  | none => simp [Std.ExtTreeMap.getD_eq_getD_getElem?, hids] at hmember
  | some ids =>
    refine ⟨ids, rfl, fun id => ?_⟩
    rw [← h.members, Std.ExtTreeMap.getD_eq_getD_getElem?, hids]
    rfl

/-- The group of another live task stays when a task is removed, with its completed tasks and bytes. -/
theorem exists_group_removeTaskFromGroupState {group group' id : String} {g : TransferGroupState}
    (hgroup : task.groupId = some group) (hids : s.groupTasks[group]? = some ids)
    (hmembers : ∀ id, id ∈ ids ↔ InGroup live id group) (hne : id ≠ task.id)
    (hin : InGroup live id group') (hg : s.groups[group']? = some g) :
    ∃ g' : TransferGroupState,
      (s.removeTaskFromGroupState task removeCompletion preserve).groups[group']? = some g' ∧
      (id ∈ g.completed → id ∈ g'.completed) ∧ g'.bytes[id]? = g.bytes[id]? := by
  rw [groups_removeTaskFromGroupState hgroup hids]
  by_cases heq : group = group'
  · subst heq
    have hmem : id ∈ ids.erase task.id := by simpa [hne.symm] using (hmembers id).mpr hin
    have hnonempty : (ids.erase task.id).isEmpty = false := by
      rw [Bool.eq_false_iff, ne_eq, Std.ExtTreeSet.isEmpty_iff]
      intro hempty
      simp [hempty] at hmem
    simp only [hnonempty, hg, Bool.false_eq_true, false_and, if_true, if_false, Option.map_some]
    exact ⟨_, rfl, fun hid => by simpa [hid] using fun _ => hne.symm,
      g.bytes_forget_of_ne task removeCompletion hne.symm⟩
  · rw [if_neg heq]
    exact ⟨g, hg, fun hid => hid, rfl⟩

/-- The members of the groups when a task is removed from its own. -/
theorem GroupInv.mem_removeTaskFromGroupState (h : GroupInv live Dismissed s)
    {group group' id : String} (hgroup : task.groupId = some group)
    (hids : s.groupTasks[group]? = some ids) (hmembers : ∀ id, id ∈ ids ↔ InGroup live id group) :
    id ∈ (s.removeTaskFromGroupState task removeCompletion preserve).groupTasks.getD group' ∅ ↔
      (group = group' → id ≠ task.id) ∧ InGroup live id group' := by
  rw [Std.ExtTreeMap.getD_eq_getD_getElem?, groupTasks_removeTaskFromGroupState hgroup hids]
  by_cases heq : group = group'
  · subst heq
    have herase : id ∈ ids.erase task.id ↔ id ≠ task.id ∧ InGroup live id group := by
      simp [hmembers, eq_comm (a := id)]
    rw [if_pos rfl]
    split
    · next hempty =>
      rw [Std.ExtTreeSet.isEmpty_iff.mp hempty] at herase
      simpa using herase
    · simpa using herase
  · simp [heq, ← h.members, Std.ExtTreeMap.getD_eq_getD_getElem?]

/-- Removing a live task from its group keeps the group maps right, when a terminal task whose
completion stays is one of those that are dismissed. -/
theorem GroupInv.removeTaskFromGroupState (h : GroupInv live Dismissed s)
    (hlive : live task.id = some task)
    (hdismissed : removeCompletion = false → task.isTerminal = true → Dismissed task.id) :
    GroupInv (Function.update live task.id none) Dismissed
      (s.removeTaskFromGroupState task removeCompletion preserve) := by
  have hold : ∀ id t, Function.update live task.id none id = some t →
      id ≠ task.id ∧ live id = some t := fun _ _ ht => update_none_eq_some ht
  have hkept : ∀ id t, id ≠ task.id → live id = some t →
      Function.update live task.id none id = some t := by
    intro id t hne ht
    rwa [Function.update_of_ne hne]
  -- a task of another group, or of none, is not the one that is removed
  have hother : ∀ id group t, task.groupId ≠ some group → live id = some t →
      t.groupId = some group → Function.update live task.id none id = some t := by
    intro id group t hne ht htgroup
    refine hkept id t ?_ ht
    rintro rfl
    obtain rfl := Option.some.inj (hlive.symm.trans ht)
    exact hne htgroup
  cases hgroup : task.groupId with
  | none =>
    rw [TransferCenterState.removeTaskFromGroupState, hgroup]
    refine h.of_agree fun id group t htgroup => ⟨fun ht => (hold id t ht).2, fun ht => ?_⟩
    exact hother id group t (by rw [hgroup]; exact nofun) ht htgroup
  | some group =>
    obtain ⟨ids, hids, hmembers⟩ := h.exists_members hlive hgroup
    constructor
    case members =>
      intro group' id
      rw [h.mem_removeTaskFromGroupState hgroup hids hmembers]
      by_cases heq : id = task.id
      · subst heq
        simp [InGroup, hlive, hgroup]
      · simp [inGroup_update_of_ne heq, heq]
    case members_ne =>
      intro group' ids' hids'
      rw [groupTasks_removeTaskFromGroupState hgroup hids] at hids'
      split_ifs at hids' with heq hempty
      · cases hids'
        simpa using hempty
      · exact h.members_ne group' ids' hids'
    -- a task that is left keeps the group, which is dropped with its last one only
    case bytes =>
      intro id group' t bytes ht htgroup hbytes
      obtain ⟨hne, ht⟩ := hold id t ht
      obtain ⟨g, hg, hgbytes⟩ := h.bytes id group' t bytes ht htgroup hbytes
      obtain ⟨g', hg', -, hsame⟩ :=
        exists_group_removeTaskFromGroupState hgroup hids hmembers hne ⟨t, ht, htgroup⟩ hg
      exact ⟨g', hg', hsame.trans hgbytes⟩
    case completed =>
      intro id group' t ht htgroup hterminal
      obtain ⟨hne, ht⟩ := hold id t ht
      obtain ⟨g, hg, hid⟩ := h.completed id group' t ht htgroup hterminal
      obtain ⟨g', hg', hsub, -⟩ :=
        exists_group_removeTaskFromGroupState hgroup hids hmembers hne ⟨t, ht, htgroup⟩ hg
      exact ⟨g', hg', hsub hid⟩
    case stale =>
      intro group' g id hg hid
      rw [groups_removeTaskFromGroupState hgroup hids] at hg
      split_ifs at hg with heq hdropped
      · subst heq
        obtain ⟨before, hbefore, rfl⟩ := Option.map_eq_some_iff.mp hg
        obtain ⟨hid, hcompletion⟩ := (TransferGroupState.mem_completed_forget _ _ _).mp hid
        rcases h.stale group before id hbefore hid with ⟨t, ht, htgroup, hterminal⟩ | hdis
        -- of the task itself there is a completion left only where it was not to be removed
        · by_cases heq : id = task.id
          · subst heq
            obtain rfl := Option.some.inj (hlive.symm.trans ht)
            have hkeeps : removeCompletion = false := by
              rw [Bool.eq_false_iff]
              exact fun hremove => hcompletion hremove rfl
            exact .inr (hdismissed hkeeps hterminal)
          · exact .inl ⟨t, hkept id t heq ht, htgroup, hterminal⟩
        · exact .inr hdis
      · refine (h.stale group' g id hg hid).imp_left fun ⟨t, ht, htgroup, hterminal⟩ => ?_
        exact ⟨t, hother id group' t (by simpa [hgroup] using heq) ht htgroup, htgroup, hterminal⟩

/-- A group without live tasks may be forgotten. -/
theorem GroupInv.eraseGroup (h : GroupInv live Dismissed s) {group : String}
    (hempty : ∀ id, ¬ InGroup live id group) :
    GroupInv live Dismissed
      { s with groupTasks := s.groupTasks.erase group, groups := s.groups.erase group } where
  members group' id := by
    rw [← h.members]
    by_cases heq : group = group'
    · subst heq
      simp [h.members, hempty]
    · simp [Std.ExtTreeMap.getD_erase, heq]
  members_ne group' ids hids := by
    rw [Std.ExtTreeMap.getElem?_erase] at hids
    split_ifs at hids
    exact h.members_ne group' ids hids
  bytes id group' t bytes ht htgroup hbytes := by
    have hne : group ≠ group' := by
      rintro rfl
      exact hempty id ⟨t, ht, htgroup⟩
    simpa [Std.ExtTreeMap.getElem?_erase, hne] using h.bytes id group' t bytes ht htgroup hbytes
  completed id group' t ht htgroup hterminal := by
    have hne : group ≠ group' := by
      rintro rfl
      exact hempty id ⟨t, ht, htgroup⟩
    simpa [Std.ExtTreeMap.getElem?_erase, hne] using h.completed id group' t ht htgroup hterminal
  stale group' g id hg hid := by
    rw [Std.ExtTreeMap.getElem?_erase] at hg
    split_ifs at hg
    exact h.stale group' g id hg hid

/-- More ids may be dismissed. -/
theorem GroupInv.mono {Dismissed' : String → Prop} (h : GroupInv live Dismissed s)
    (hsub : ∀ id, Dismissed id → Dismissed' id) : GroupInv live Dismissed' s :=
  { h with stale := fun group g id hg hid => (h.stale group g id hg hid).imp_right (hsub id) }

/-- The group maps do not depend on the other fields. -/
theorem GroupInv.congr {s' : TransferCenterState} (h : GroupInv live Dismissed s)
    (hgroups : s'.groups = s.groups) (hgroupTasks : s'.groupTasks = s.groupTasks) :
    GroupInv live Dismissed s' where
  members := by rw [hgroupTasks]; exact h.members
  members_ne := by rw [hgroupTasks]; exact h.members_ne
  bytes := by rw [hgroups]; exact h.bytes
  completed := by rw [hgroups]; exact h.completed
  stale := by rw [hgroups]; exact h.stale

end GroupInv

/-! ## The whole state -/

/-- The live tasks of a state. -/
def live (s : TransferCenterState) : Live := fun id => s.tasks[id]?

/-- What holds in every state of the transfer center. -/
structure CenterInv (Dismissed : String → Prop) (s : TransferCenterState) : Prop where
  id_eq : ∀ id task, s.live id = some task → task.id = id
  order_nodup : s.order.Nodup
  mem_order : ∀ id, id ∈ s.order ↔ ∃ task, s.live id = some task
  groups : GroupInv s.live Dismissed s
  empty : s.tasks = ∅ → s.groups = ∅ ∧ s.groupTasks = ∅

section CenterInv

variable {Dismissed : String → Prop} {s : TransferCenterState}

@[simp] theorem tasks_applyTaskToGroupState (task : TransferTask) :
    (s.applyTaskToGroupState task).tasks = s.tasks := by
  rw [applyTaskToGroupState]
  split <;> rfl

@[simp] theorem order_applyTaskToGroupState (task : TransferTask) :
    (s.applyTaskToGroupState task).order = s.order := by
  rw [applyTaskToGroupState]
  split <;> rfl

/-- Removing a task from its group changes the group maps only. -/
theorem removeTaskFromGroupState_eq (task : TransferTask) (removeCompletion preserve : Bool) :
    ∃ groups groupTasks, s.removeTaskFromGroupState task removeCompletion preserve =
      { s with groups := groups, groupTasks := groupTasks } := by
  rw [removeTaskFromGroupState]
  split
  · exact ⟨_, _, rfl⟩
  · dsimp only
    split
    · exact ⟨_, _, rfl⟩
    · cases preserve <;> split <;> exact ⟨_, _, rfl⟩

@[simp] theorem tasks_removeTaskFromGroupState (task : TransferTask)
    (removeCompletion preserve : Bool) :
    (s.removeTaskFromGroupState task removeCompletion preserve).tasks = s.tasks := by
  obtain ⟨groups, groupTasks, heq⟩ := s.removeTaskFromGroupState_eq task removeCompletion preserve
  rw [heq]

@[simp] theorem order_removeTaskFromGroupState (task : TransferTask)
    (removeCompletion preserve : Bool) :
    (s.removeTaskFromGroupState task removeCompletion preserve).order = s.order := by
  obtain ⟨groups, groupTasks, heq⟩ := s.removeTaskFromGroupState_eq task removeCompletion preserve
  rw [heq]

/-- The group maps may be emptied when no task is live. -/
theorem groupInv_of_not_live {live : Live} (hlive : ∀ id, live id = none) (s : TransferCenterState) :
    GroupInv live Dismissed { s with groupTasks := ∅, groups := ∅ } where
  members group id := by simp [InGroup, hlive]
  members_ne group ids hids := by simp at hids
  bytes id group task bytes ht := by simp [hlive] at ht
  completed id group task ht := by simp [hlive] at ht
  stale group g id hg := by simp at hg

/-- Removing a task removes it from the live ones. -/
theorem live_remove (id : String) : (s.remove id).live = Function.update s.live id none := by
  have herase : ∀ t : TransferCenterState, t.tasks = s.tasks.erase id →
      t.live = Function.update s.live id none := by
    intro t ht
    funext id'
    rw [live, ht, Std.ExtTreeMap.getElem?_erase, Function.update_apply, live]
    simp [eq_comm (a := id')]
  rw [remove]
  split
  · next hnone =>
    rw [Function.update_eq_self_iff.mpr hnone.symm]
  · dsimp only
    split <;> exact herase _ (by simp)

/-- Removing a task that is live takes it out of the order. -/
theorem order_remove {id : String} {task : TransferTask} (h : s.live id = some task) :
    (s.remove id).order = s.order.erase id := by
  rw [live] at h
  rw [remove, h]
  dsimp only
  split <;> simp

theorem remove_of_not_live {id : String} (h : s.live id = none) : s.remove id = s := by
  rw [live] at h
  rw [remove, h]

/-- Removing a task keeps the group maps right, when a terminal task is one of those that are
dismissed, and empties them when no task is left. -/
theorem groupInv_remove (h : CenterInv Dismissed s) {id : String} {task : TransferTask}
    (hlive : s.live id = some task) (hdismissed : task.isTerminal = true → Dismissed id) :
    GroupInv (Function.update s.live id none) Dismissed (s.remove id) ∧
      ((s.remove id).tasks = ∅ → (s.remove id).groups = ∅ ∧ (s.remove id).groupTasks = ∅) := by
  obtain rfl : task.id = id := h.id_eq id task hlive
  have hafter := live_remove (s := s) task.id
  have htask : s.tasks[task.id]? = some task := hlive
  rw [remove, htask] at hafter ⊢
  dsimp only at hafter ⊢
  have hbefore : GroupInv s.live Dismissed
      { s with tasks := s.tasks.erase task.id, order := s.order.erase task.id } :=
    h.groups.congr rfl rfl
  have hremoved : GroupInv (Function.update s.live task.id none) Dismissed
      (TransferCenterState.removeTaskFromGroupState
        { s with tasks := s.tasks.erase task.id, order := s.order.erase task.id } task false
        task.isTerminal) :=
    hbefore.removeTaskFromGroupState hlive fun _ => hdismissed
  split at hafter
  · next hempty =>
    rw [if_pos hempty]
    refine ⟨groupInv_of_not_live (fun id => ?_) _, fun _ => ⟨rfl, rfl⟩⟩
    rw [← hafter, live]
    rw [Std.ExtTreeMap.isEmpty_iff.mp hempty]
    simp
  · next hne =>
    rw [if_neg hne]
    exact ⟨hremoved, fun hempty => absurd (by simpa using hempty) hne⟩

/-- Removing a task keeps the invariant, when a terminal task is one of those that are dismissed. -/
theorem CenterInv.remove (h : CenterInv Dismissed s) (id : String)
    (hdismissed : ∀ task, s.live id = some task → task.isTerminal = true → Dismissed id) :
    CenterInv Dismissed (s.remove id) := by
  cases hlive : s.live id with
  | none =>
    rw [remove_of_not_live hlive]
    exact h
  | some task =>
    obtain ⟨hgroups, hempty⟩ := groupInv_remove h hlive (hdismissed task hlive)
    constructor
    case id_eq =>
      intro id' task' htask'
      rw [live_remove] at htask'
      exact h.id_eq id' task' (update_none_eq_some htask').2
    case order_nodup =>
      rw [order_remove hlive]
      exact h.order_nodup.erase id
    case mem_order =>
      intro id'
      rw [order_remove hlive, h.order_nodup.mem_erase_iff, h.mem_order, live_remove,
        Function.update_apply]
      by_cases heq : id' = id <;> simp [heq]
    case groups =>
      rw [live_remove]
      exact hgroups
    case empty => exact hempty

theorem upsert_of_not_live {task : TransferTask} {now : Instant} (h : s.live task.id = none) :
    s.upsert task now = { s.applyTaskToGroupState (task.onto none now) with
      order := s.order ++ [task.id]
      tasks := s.tasks.insert task.id (task.onto none now) } := by
  have htask : s.tasks[task.id]? = none := h
  rw [upsert, htask]
  simp [TransferTask.onto]

/-- An upsert of a live task replaces it in its group. -/
theorem upsert_of_live {task existing : TransferTask} {now : Instant}
    (h : s.live task.id = some existing) :
    s.upsert task now = { (s.removeTaskFromGroupState existing true
        (decide (existing.groupId = task.groupId))).applyTaskToGroupState
          (task.onto (some existing) now) with
      tasks := s.tasks.insert task.id (task.onto (some existing) now) } := by
  have htask : s.tasks[task.id]? = some existing := h
  rw [upsert, htask]
  unfold TransferTask.onto
  by_cases hgroup : existing.groupId = task.groupId <;> cases hdone : task.bytesDone <;>
    cases htotal : task.bytesTotal <;> simp [hgroup, hdone, htotal]

/-- An upsert makes the task live, with the bytes and the times that it gets. -/
theorem live_upsert (task : TransferTask) (now : Instant) : (s.upsert task now).live =
    Function.update s.live task.id (some (task.onto (s.live task.id) now)) := by
  have hinsert {t : TransferCenterState} {task' : TransferTask}
      (h : t.tasks = s.tasks.insert task.id task') :
      t.live = Function.update s.live task.id (some task') := by
    funext id
    rw [live, h, Std.ExtTreeMap.getElem?_insert, Function.update_apply, live]
    simp [eq_comm (a := id)]
  cases hlive : s.live task.id with
  | none => exact hinsert (by rw [upsert_of_not_live hlive])
  | some existing => exact hinsert (by rw [upsert_of_live hlive])

/-- An upsert keeps the order when the task is live, and appends the task otherwise. -/
theorem CenterInv.order_upsert (h : CenterInv Dismissed s) (task : TransferTask) (now : Instant) :
    (s.upsert task now).order = s.order ∧ task.id ∈ s.order ∨
      (s.upsert task now).order = s.order ++ [task.id] ∧ task.id ∉ s.order := by
  cases hlive : s.live task.id with
  | none =>
    rw [upsert_of_not_live hlive]
    exact .inr ⟨rfl, by simp [h.mem_order, hlive]⟩
  | some existing =>
    rw [upsert_of_live hlive]
    exact .inl ⟨by simp, (h.mem_order _).mpr ⟨existing, hlive⟩⟩

/-- An upsert keeps the invariant. -/
theorem CenterInv.upsert (h : CenterInv Dismissed s) (task : TransferTask) (now : Instant) :
    CenterInv Dismissed (s.upsert task now) := by
  have hid := task.id_onto (s.live task.id) now
  have hlive' := s.live_upsert task now
  have horder := h.order_upsert task now
  have hgroups : GroupInv (s.upsert task now).live Dismissed (s.upsert task now) := by
    rw [hlive']
    -- over a live task: the old one is removed with its completion, and the new one comes in
    cases hlive : s.live task.id with
    | none =>
      rw [hlive] at hid
      have happlied := h.groups.applyTaskToGroupState (hid.symm ▸ hlive)
      rw [hid] at happlied
      rw [upsert_of_not_live hlive]
      exact happlied.congr rfl rfl
    | some existing =>
      rw [hlive] at hid
      have hexisting : existing.id = task.id := h.id_eq task.id existing hlive
      have hremoved : GroupInv (Function.update s.live task.id none) Dismissed
          (s.removeTaskFromGroupState existing true
            (decide (existing.groupId = task.groupId))) := by
        rw [← hexisting] at hlive ⊢
        exact h.groups.removeTaskFromGroupState hlive (by simp)
      have hnew : Function.update s.live task.id none (task.onto (some existing) now).id = none := by
        simp [hid]
      have happlied := hremoved.applyTaskToGroupState hnew
      rw [hid, Function.update_idem] at happlied
      rw [upsert_of_live hlive]
      exact happlied.congr rfl rfl
  constructor
  case id_eq =>
    intro id t ht
    rw [hlive'] at ht
    rcases update_some_eq_some ht with ⟨rfl, rfl⟩ | ⟨-, ht⟩
    · exact hid
    · exact h.id_eq id t ht
  case order_nodup =>
    rcases horder with ⟨horder, -⟩ | ⟨horder, hnot⟩
    · rw [horder]
      exact h.order_nodup
    · rw [horder]
      exact h.order_nodup.append (List.nodup_singleton _) (by simpa using hnot)
  -- the id is put at the end where it is not in the order yet
  case mem_order =>
    intro id
    have hmem : id ∈ (s.upsert task now).order ↔ id = task.id ∨ id ∈ s.order := by
      rcases horder with ⟨horder, hin⟩ | ⟨horder, -⟩
      · rw [horder]
        exact ⟨.inr, fun hmem => hmem.elim (fun heq => heq ▸ hin) fun hmem => hmem⟩
      · rw [horder, List.mem_append, List.mem_singleton, or_comm]
    rw [hmem, h.mem_order, hlive', Function.update_apply]
    by_cases heq : id = task.id <;> simp [heq]
  case groups => exact hgroups
  case empty =>
    intro hempty
    have hlive := congrFun hlive' task.id
    rw [live, hempty] at hlive
    simp at hlive

/-! ### Several tasks -/

/-- More ids may be dismissed. -/
theorem CenterInv.mono {Dismissed' : String → Prop} (h : CenterInv Dismissed s)
    (hsub : ∀ id, Dismissed id → Dismissed' id) : CenterInv Dismissed' s :=
  { h with groups := h.groups.mono hsub }

theorem removeAll_cons (id : String) (ids : List String) :
    s.removeAll (id :: ids) = (s.remove id).removeAll ids := rfl

/-- The tasks that are live after some were removed. -/
theorem live_removeAll (ids : List String) (id : String) :
    (s.removeAll ids).live id = if id ∈ ids then none else s.live id := by
  induction ids generalizing s with
  | nil => rfl
  | cons removed ids ih =>
    rw [removeAll_cons, ih, live_remove, Function.update_apply]
    by_cases heq : id = removed <;> simp [heq]

/-- Removing tasks keeps the order of the others. -/
theorem order_remove_sublist (id : String) : (s.remove id).order.Sublist s.order := by
  cases hlive : s.live id with
  | none => rw [remove_of_not_live hlive]
  | some task =>
    rw [order_remove hlive]
    exact List.erase_sublist

theorem order_removeAll_sublist (ids : List String) : (s.removeAll ids).order.Sublist s.order := by
  induction ids generalizing s with
  | nil => exact .refl _
  | cons id ids ih =>
    rw [removeAll_cons]
    exact (ih (s := s.remove id)).trans (s.order_remove_sublist id)

/-- Removing tasks keeps the invariant, when the terminal ones are among those that are dismissed. -/
theorem CenterInv.removeAll (h : CenterInv Dismissed s) (ids : List String)
    (hdismissed : ∀ id ∈ ids, ∀ task, s.live id = some task → task.isTerminal = true →
      Dismissed id) : CenterInv Dismissed (s.removeAll ids) := by
  induction ids generalizing s with
  | nil => exact h
  | cons id ids ih =>
    rw [removeAll_cons]
    refine ih (h.remove id (hdismissed id List.mem_cons_self)) fun id' hid' task htask => ?_
    rw [live_remove] at htask
    exact hdismissed id' (List.mem_cons_of_mem _ hid') task (update_none_eq_some htask).2

/-- The ids that `remove_group` removes are those of the tasks in the group. -/
theorem CenterInv.mem_toList_iff (h : CenterInv Dismissed s) {group id : String} :
    id ∈ (s.groupTasks.getD group ∅).toList ↔ InGroup s.live id group := by
  rw [Std.ExtTreeSet.mem_toList, h.groups.members]

/-- The tasks that are live after a group was removed. -/
theorem CenterInv.live_removeGroup (h : CenterInv Dismissed s) (group id : String)
    (task : TransferTask) :
    (s.removeGroup group).live id = some task ↔
      s.live id = some task ∧ task.groupId ≠ some group := by
  have hlive : (s.removeGroup group).live id =
      (s.removeAll (s.groupTasks.getD group ∅).toList).live id := rfl
  rw [hlive, live_removeAll]
  by_cases hin : InGroup s.live id group
  · rw [if_pos (h.mem_toList_iff.mpr hin)]
    obtain ⟨t, ht, htgroup⟩ := hin
    refine iff_of_false (by simp) fun ⟨htask, hgroup⟩ => hgroup ?_
    rw [← Option.some.inj (ht.symm.trans htask), htgroup]
  · rw [if_neg (h.mem_toList_iff.not.mpr hin)]
    exact ⟨fun htask => ⟨htask, fun hgroup => hin ⟨task, htask, hgroup⟩⟩, fun h => h.1⟩

/-- A group without live tasks may be forgotten. -/
theorem CenterInv.eraseGroup (h : CenterInv Dismissed s) {group : String}
    (hempty : ∀ id, ¬ InGroup s.live id group) :
    CenterInv Dismissed
      { s with groupTasks := s.groupTasks.erase group, groups := s.groups.erase group } :=
  { h with
    groups := h.groups.eraseGroup hempty
    empty := fun htasks => by
      obtain ⟨hgroups, hgroupTasks⟩ := h.empty htasks
      simp [hgroups, hgroupTasks] }

/-- Removing a group keeps the invariant, when the terminal tasks in it are among those that are
dismissed. -/
theorem CenterInv.removeGroup (h : CenterInv Dismissed s) (group : String)
    (hdismissed : ∀ id task, s.live id = some task → task.groupId = some group →
      task.isTerminal = true → Dismissed id) : CenterInv Dismissed (s.removeGroup group) := by
  have hremoved := h.removeAll (s.groupTasks.getD group ∅).toList fun id hid task htask hterminal => by
    obtain ⟨t, ht, htgroup⟩ := h.mem_toList_iff.mp hid
    obtain rfl := Option.some.inj (ht.symm.trans htask)
    exact hdismissed id t ht htgroup hterminal
  refine hremoved.eraseGroup ?_
  rintro id ⟨task, htask, hgroup⟩
  exact ((h.live_removeGroup group id task).mp htask).2 hgroup

/-- Removing groups keeps the order of the tasks that stay. -/
theorem order_removeGroups_sublist (groups : List String) :
    (groups.foldl TransferCenterState.removeGroup s).order.Sublist s.order := by
  induction groups generalizing s with
  | nil => exact .refl _
  | cons group groups ih =>
    have hgroup : (s.removeGroup group).order.Sublist s.order := s.order_removeAll_sublist _
    exact (ih (s := s.removeGroup group)).trans hgroup

/-- The tasks that are live after groups were removed. -/
theorem CenterInv.live_removeGroups (h : CenterInv Dismissed s) (groups : List String) (id : String)
    (task : TransferTask) :
    (groups.foldl TransferCenterState.removeGroup s).live id = some task ↔
      s.live id = some task ∧ ∀ group ∈ groups, task.groupId ≠ some group := by
  have hall : CenterInv (fun _ => True) s := h.mono fun _ _ => trivial
  clear h
  induction groups generalizing s with
  | nil => simp
  | cons group groups ih =>
    have hrest := ih (hall.removeGroup group fun _ _ _ _ _ => trivial)
    refine hrest.trans ?_
    rw [hall.live_removeGroup, List.forall_mem_cons, and_assoc]

/-- Removing groups keeps the invariant, when the terminal tasks in them are among those that are
dismissed. -/
theorem CenterInv.removeGroups (h : CenterInv Dismissed s) (groups : List String)
    (hdismissed : ∀ id task, s.live id = some task → (∃ group ∈ groups, task.groupId = some group) →
      task.isTerminal = true → Dismissed id) :
    CenterInv Dismissed (groups.foldl TransferCenterState.removeGroup s) := by
  induction groups generalizing s with
  | nil => exact h
  | cons group groups ih =>
    have hgroup := h.removeGroup group fun id task htask hgroup =>
      hdismissed id task htask ⟨group, List.mem_cons_self, hgroup⟩
    refine ih hgroup fun id task htask ⟨group', hmem, hgroup'⟩ => ?_
    exact hdismissed id task ((h.live_removeGroup group id task).mp htask).1
      ⟨group', List.mem_cons_of_mem _ hmem, hgroup'⟩

/-! ## A call -/

/-- A call keeps the invariant, when the terminal tasks that it removes are among those that are
dismissed. -/
theorem CenterInv.call (h : CenterInv Dismissed s) (c : Call)
    (hdismissed : ∀ id task, s.live id = some task → task.isTerminal = true →
      (s.call c).live id = none → Dismissed id) : CenterInv Dismissed (s.call c) := by
  cases c with
  | upsert task now => exact h.upsert task now
  | remove id =>
    exact h.remove id fun task htask hterminal =>
      hdismissed id task htask hterminal (by simp [TransferCenterState.call, live_remove])
  | removeGroup group =>
    refine h.removeGroup group fun id task htask hgroup hterminal =>
      hdismissed id task htask hterminal (Option.eq_none_iff_forall_ne_some.mpr fun t ht => ?_)
    obtain ⟨ht, hne⟩ := (h.live_removeGroup group id t).mp ht
    rw [← Option.some.inj (htask.symm.trans ht)] at hne
    exact hne hgroup
  | removeGroupsWithPrefix start =>
    refine h.removeGroups _ fun id task htask ⟨group, hmem, hgroup⟩ hterminal =>
      hdismissed id task htask hterminal (Option.eq_none_iff_forall_ne_some.mpr fun t ht => ?_)
    obtain ⟨ht, hne⟩ := (h.live_removeGroups _ id t).mp ht
    rw [← Option.some.inj (htask.symm.trans ht)] at hne
    exact hne group hmem hgroup

end CenterInv

end TransferCenterState

end Termua.Transfer
