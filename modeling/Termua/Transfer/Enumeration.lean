import Mathlib
import Termua.Transfer.Invariant

/-!
# The order of iteration does not matter

`remove_group` and `remove_groups_with_prefix` iterate over hash sets and hash maps, in an order that
is not specified. From every state that keeps the invariant each order leads to the same state:
the tasks and the order depend on the set of removed ids, and as long as a task is live the group
maps change at the removed groups only.
-/

namespace Termua.Transfer

open Table (update_none_eq_some)

/-- A sublist of a list without duplicates is determined by its members. -/
theorem eq_filter_of_sublist {α : Type*} [DecidableEq α] {sub l : List α} (h : sub.Sublist l)
    (hl : l.Nodup) : sub = l.filter (· ∈ sub) := by
  induction h with
  | slnil => rfl
  | @cons sub l a h ih =>
    obtain ⟨ha, hl⟩ := List.nodup_cons.mp hl
    have hnot : a ∉ sub := fun hmem => ha (h.subset hmem)
    rw [List.filter_cons_of_neg (by simpa using hnot)]
    exact ih hl
  | @cons_cons sub l a h ih =>
    obtain ⟨ha, hl⟩ := List.nodup_cons.mp hl
    rw [List.filter_cons_of_pos (by simp)]
    congr 1
    refine (ih hl).trans (List.filter_congr fun b hb => ?_)
    have hne : b ≠ a := by
      rintro rfl
      exact ha hb
    simp [hne]

namespace TransferCenterState

variable {Dismissed : String → Prop} {s t : TransferCenterState}

/-- Two states with the same live tasks in the same order are equal when their group maps agree as
long as a task is live. -/
theorem CenterInv.ext (hs : CenterInv Dismissed s) (ht : CenterInv Dismissed t)
    (hlive : s.live = t.live) (horder : s.order = t.order)
    (hgroups : s.tasks ≠ ∅ → ∀ group : String,
      s.groups[group]? = t.groups[group]? ∧ s.groupTasks[group]? = t.groupTasks[group]?) :
    s = t := by
  have htasks : s.tasks = t.tasks := Std.ExtTreeMap.ext_getElem? fun id => congrFun hlive id
  obtain ⟨hg, hgt⟩ : s.groups = t.groups ∧ s.groupTasks = t.groupTasks := by
    by_cases hempty : s.tasks = ∅
    · obtain ⟨hg, hgt⟩ := hs.empty hempty
      obtain ⟨hg', hgt'⟩ := ht.empty (htasks ▸ hempty)
      exact ⟨hg.trans hg'.symm, hgt.trans hgt'.symm⟩
    · exact ⟨Std.ExtTreeMap.ext_getElem? fun group => (hgroups hempty group).1,
        Std.ExtTreeMap.ext_getElem? fun group => (hgroups hempty group).2⟩
  cases s
  cases t
  simp_all

/-! ## What is left alone -/

/-- A state in which a task is live is not empty. -/
theorem tasks_ne_empty_iff : s.tasks ≠ ∅ ↔ ∃ id task, s.live id = some task := by
  rw [← not_iff_not, not_not]
  push Not
  constructor
  · intro hempty id task htask
    rw [live, hempty] at htask
    simp at htask
  · intro hlive
    refine Std.ExtTreeMap.ext_getElem? fun id => ?_
    rw [Std.ExtTreeMap.getElem?_empty]
    exact Option.eq_none_iff_forall_ne_some.mpr (hlive id)

/-- Nothing becomes live when tasks are removed. -/
theorem tasks_ne_empty_of_removeAll {ids : List String} (h : (s.removeAll ids).tasks ≠ ∅) :
    s.tasks ≠ ∅ := by
  obtain ⟨id, task, htask⟩ := tasks_ne_empty_iff.mp h
  rw [live_removeAll] at htask
  split_ifs at htask
  exact tasks_ne_empty_iff.mpr ⟨id, task, htask⟩

/-- Removing a task from its group leaves the other groups alone. -/
theorem removeTaskFromGroupState_of_ne {task : TransferTask} {removeCompletion preserve : Bool}
    {group group' : String} (hgroup : task.groupId = some group) (hne : group ≠ group') :
    (s.removeTaskFromGroupState task removeCompletion preserve).groups[group']? =
        s.groups[group']? ∧
      (s.removeTaskFromGroupState task removeCompletion preserve).groupTasks[group']? =
        s.groupTasks[group']? := by
  rw [removeTaskFromGroupState, hgroup]
  dsimp only
  split
  · simp [Std.ExtTreeMap.getElem?_modify, hne]
  · cases preserve <;> split <;>
      simp [Std.ExtTreeMap.getElem?_modify, Std.ExtTreeMap.getElem?_erase,
        Std.ExtTreeMap.getElem?_insert, hne]

/-- Removing a task of a group leaves the other groups alone while a task is live. -/
theorem remove_of_ne {id group group' : String} (hne : group ≠ group')
    (hgroup : ∀ task, s.live id = some task → task.groupId = some group)
    (htasks : (s.remove id).tasks ≠ ∅) :
    (s.remove id).groups[group']? = s.groups[group']? ∧
      (s.remove id).groupTasks[group']? = s.groupTasks[group']? := by
  cases hlive : s.live id with
  | none =>
    rw [remove_of_not_live hlive]
    exact ⟨rfl, rfl⟩
  | some task =>
    have htask : s.tasks[id]? = some task := hlive
    rw [remove, htask] at htasks ⊢
    dsimp only at htasks ⊢
    split at htasks
    · next hempty => exact absurd (Std.ExtTreeMap.isEmpty_iff.mp hempty) htasks
    · next hempty =>
      rw [if_neg hempty]
      exact removeTaskFromGroupState_of_ne (hgroup task hlive) hne

/-- Removing tasks of a group leaves the other groups alone while a task is live. -/
theorem removeAll_of_ne {ids : List String} {group group' : String} (hne : group ≠ group')
    (hgroup : ∀ id ∈ ids, ∀ task, s.live id = some task → task.groupId = some group)
    (htasks : (s.removeAll ids).tasks ≠ ∅) :
    (s.removeAll ids).groups[group']? = s.groups[group']? ∧
      (s.removeAll ids).groupTasks[group']? = s.groupTasks[group']? := by
  induction ids generalizing s with
  | nil => exact ⟨rfl, rfl⟩
  | cons id ids ih =>
    rw [removeAll_cons] at htasks ⊢
    have hremoved := remove_of_ne hne (hgroup id List.mem_cons_self)
      (tasks_ne_empty_of_removeAll htasks)
    have hrest := ih (fun id' hid' task htask => by
      rw [live_remove] at htask
      exact hgroup id' (List.mem_cons_of_mem _ hid') task (update_none_eq_some htask).2) htasks
    exact ⟨hrest.1.trans hremoved.1, hrest.2.trans hremoved.2⟩

/-- `remove_group`, when the hash set of the group is iterated in the order `ids`. -/
def removeGroupIn (s : TransferCenterState) (group : String) (ids : List String) :
    TransferCenterState :=
  { s.removeAll ids with
    groupTasks := (s.removeAll ids).groupTasks.erase group
    groups := (s.removeAll ids).groups.erase group }

section RemoveGroup

variable {group : String} {ids : List String}

/-- The tasks that are live after the ids of a group were removed in some order. -/
theorem live_removeGroupIn (id : String) :
    (s.removeGroupIn group ids).live id = if id ∈ ids then none else s.live id :=
  s.live_removeAll ids id

/-- The invariant after the ids of a group were removed in some order. -/
theorem CenterInv.removeGroupIn (h : CenterInv (fun _ => True) s)
    (hids : ∀ id, id ∈ ids ↔ InGroup s.live id group) :
    CenterInv (fun _ => True) (s.removeGroupIn group ids) := by
  refine (h.removeAll ids fun _ _ _ _ _ => trivial).eraseGroup ?_
  rintro id ⟨task, htask, hgroup⟩
  rw [live_removeAll] at htask
  split_ifs at htask with hmem
  exact hmem ((hids id).mpr ⟨task, htask, hgroup⟩)

/-- Removing a group removes its entries and, while a task is live, no others. -/
theorem groups_removeGroupIn (hids : ∀ id, id ∈ ids ↔ InGroup s.live id group)
    (htasks : (s.removeGroupIn group ids).tasks ≠ ∅) (group' : String) :
    (s.removeGroupIn group ids).groups[group']? =
        (if group = group' then none else s.groups[group']?) ∧
      (s.removeGroupIn group ids).groupTasks[group']? =
        if group = group' then none else s.groupTasks[group']? := by
  rw [TransferCenterState.removeGroupIn]
  dsimp only
  rw [Std.ExtTreeMap.getElem?_erase, Std.ExtTreeMap.getElem?_erase]
  by_cases heq : group = group'
  · simp [heq]
  · have hrest := removeAll_of_ne heq (fun id hid task htask => by
      obtain ⟨t, ht, htgroup⟩ := (hids id).mp hid
      rw [← Option.some.inj (ht.symm.trans htask), htgroup]) htasks
    simp [heq, hrest]

end RemoveGroup

/-! ## Every order of iteration -/

/-- Two states with the same live tasks, whose orders are parts of one order, have the same order. -/
theorem CenterInv.order_eq (hs : CenterInv Dismissed s) (ht : CenterInv Dismissed t)
    (hlive : s.live = t.live) {order : List String} (horder : order.Nodup)
    (hsub : s.order.Sublist order) (hsub' : t.order.Sublist order) : s.order = t.order := by
  rw [eq_filter_of_sublist hsub horder, eq_filter_of_sublist hsub' horder]
  refine List.filter_congr fun id _ => ?_
  rw [decide_eq_decide, hs.mem_order, ht.mem_order, hlive]

/-- `remove_group` leads to the same state in every order of iteration. -/
theorem CenterInv.removeGroupIn_eq (h : CenterInv Dismissed s) {group : String} {ids : List String}
    (hids : ∀ id, id ∈ ids ↔ id ∈ s.groupTasks.getD group ∅) :
    s.removeGroupIn group ids = s.removeGroup group := by
  have hall : CenterInv (fun _ => True) s := h.mono fun _ _ => trivial
  have hin : ∀ id, id ∈ ids ↔ InGroup s.live id group := fun id =>
    (hids id).trans (h.groups.members group id)
  have hin' : ∀ id, id ∈ (s.groupTasks.getD group ∅).toList ↔ InGroup s.live id group := fun id =>
    h.mem_toList_iff
  have hlive : (s.removeGroupIn group ids).live = (s.removeGroup group).live := by
    funext id
    have hother := @live_removeGroupIn s group (s.groupTasks.getD group ∅).toList id
    refine (live_removeGroupIn id).trans (Eq.trans ?_ hother.symm)
    exact if_congr ((hin id).trans (hin' id).symm) rfl rfl
  have hinv := hall.removeGroupIn hin
  have hinv' := hall.removeGroupIn hin'
  refine hinv.ext hinv' hlive ?_ fun htasks group' => ?_
  · exact hinv.order_eq hinv' hlive h.order_nodup (s.order_removeAll_sublist _)
      (s.order_removeAll_sublist _)
  · have htasks' : (s.removeGroup group).tasks ≠ ∅ := by
      rw [tasks_ne_empty_iff] at htasks ⊢
      rwa [hlive] at htasks
    have hgroups := groups_removeGroupIn hin htasks group'
    have hgroups' := groups_removeGroupIn hin' htasks' group'
    exact ⟨hgroups.1.trans hgroups'.1.symm, hgroups.2.trans hgroups'.2.symm⟩

/-- Removing groups removes their entries and, while a task is live, no others. -/
theorem CenterInv.groups_removeGroups (h : CenterInv (fun _ => True) s) {groups : List String}
    (htasks : (groups.foldl TransferCenterState.removeGroup s).tasks ≠ ∅) (group : String) :
    (groups.foldl TransferCenterState.removeGroup s).groups[group]? =
        (if group ∈ groups then none else s.groups[group]?) ∧
      (groups.foldl TransferCenterState.removeGroup s).groupTasks[group]? =
        if group ∈ groups then none else s.groupTasks[group]? := by
  induction groups generalizing s with
  | nil => simp
  | cons first groups ih =>
    have hfirst := h.removeGroup first fun _ _ _ _ _ => trivial
    have hrest := ih hfirst htasks
    have hlive : (s.removeGroup first).tasks ≠ ∅ := by
      obtain ⟨id, task, htask⟩ := tasks_ne_empty_iff.mp htasks
      exact tasks_ne_empty_iff.mpr ⟨id, task, ((hfirst.live_removeGroups groups id task).mp htask).1⟩
    have hgroup := groups_removeGroupIn (fun id => h.mem_toList_iff) hlive group
    have hgroups : (s.removeGroup first).groups[group]? = _ := hgroup.1
    have hgroupTasks : (s.removeGroup first).groupTasks[group]? = _ := hgroup.2
    rw [hgroups, hgroupTasks] at hrest
    rw [List.foldl_cons, hrest.1, hrest.2]
    by_cases heq : first = group <;> by_cases hmem : group ∈ groups <;>
      simp [heq, hmem, eq_comm (a := group)]

/-- `remove_groups_with_prefix` leads to the same state in every order of iteration. -/
theorem CenterInv.removeGroups_eq (h : CenterInv Dismissed s) {groups groups' : List String}
    (hmem : ∀ group, group ∈ groups ↔ group ∈ groups') :
    groups.foldl TransferCenterState.removeGroup s =
      groups'.foldl TransferCenterState.removeGroup s := by
  have hall : CenterInv (fun _ => True) s := h.mono fun _ _ => trivial
  have hinv := hall.removeGroups groups fun _ _ _ _ _ => trivial
  have hinv' := hall.removeGroups groups' fun _ _ _ _ _ => trivial
  have hlive : (groups.foldl TransferCenterState.removeGroup s).live =
      (groups'.foldl TransferCenterState.removeGroup s).live := by
    funext id
    refine Option.ext fun task => ?_
    refine (h.live_removeGroups groups id task).trans
      (Iff.trans ?_ (h.live_removeGroups groups' id task).symm)
    simp only [hmem]
  refine hinv.ext hinv' hlive ?_ fun htasks group => ?_
  · exact hinv.order_eq hinv' hlive h.order_nodup (s.order_removeGroups_sublist _)
      (s.order_removeGroups_sublist _)
  · have htasks' : (groups'.foldl TransferCenterState.removeGroup s).tasks ≠ ∅ := by
      rw [tasks_ne_empty_iff] at htasks ⊢
      rwa [hlive] at htasks
    have hgroups := hall.groups_removeGroups htasks group
    have hgroups' := hall.groups_removeGroups htasks' group
    simp only [hmem] at hgroups
    exact ⟨hgroups.1.trans hgroups'.1.symm, hgroups.2.trans hgroups'.2.symm⟩

end TransferCenterState

end Termua.Transfer
