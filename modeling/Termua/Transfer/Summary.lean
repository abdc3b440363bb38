import Mathlib
import Termua.Transfer.History
import Termua.Transfer.Enumeration

/-!
# What the summary counts

`TransferCenterState::summary` adds up one part for each group, one for each task of a group whose
length is known, and one for each task without a group. Dismissing a terminal task of a group changes
none of them, and dismissing a group changes its own only, as long as a task is live.
-/

namespace Termua.Transfer

/-- The values of a map, from its entries. -/
theorem values_eq_map_toList {α β : Type} {cmp : α → α → Ordering} [Std.TransCmp cmp]
    (t : Std.ExtTreeMap α β cmp) : t.values = t.toList.map Prod.snd := by
  obtain ⟨⟨t⟩⟩ := t
  induction t using Quotient.ind with
  | _ t =>
    show t.inner.values = (Std.DTreeMap.Internal.Impl.Const.toList t.inner).map Prod.snd
    rw [Std.DTreeMap.Internal.Impl.values_eq_map_snd,
      Std.DTreeMap.Internal.Impl.Const.toList_eq_toListModel_map, List.map_map]
    rfl

/-! ## Sums of summaries -/

namespace TransferCenterSummary

variable {a b c : TransferCenterSummary} {parts parts' : List TransferCenterSummary}

/-- The sum of summaries. -/
def sum (parts : List TransferCenterSummary) : TransferCenterSummary :=
  parts.foldl TransferCenterSummary.add {}

theorem add_assoc : (a.add b).add c = a.add (b.add c) := by
  simp only [add, UInt64.add_assoc]

theorem add_comm : a.add b = b.add a := by
  simp only [add, UInt64.add_comm]

theorem zero_add : add {} a = a := by
  simp only [add, UInt64.zero_add]

theorem foldl_add (a : TransferCenterSummary) (parts : List TransferCenterSummary) :
    parts.foldl add a = a.add (sum parts) := by
  induction parts generalizing a with
  | nil =>
    rw [add_comm]
    exact zero_add.symm
  | cons part parts ih =>
    show parts.foldl add (a.add part) = a.add (parts.foldl add (add {} part))
    rw [ih, ih (add {} part), zero_add, add_assoc]

theorem sum_cons (a : TransferCenterSummary) (parts : List TransferCenterSummary) :
    sum (a :: parts) = a.add (sum parts) := by
  show parts.foldl add (add {} a) = _
  rw [zero_add, foldl_add]

theorem sum_append (parts parts' : List TransferCenterSummary) :
    sum (parts ++ parts') = (sum parts).add (sum parts') := by
  rw [sum, List.foldl_append, foldl_add]
  rfl

theorem sum_flatten (parts : List (List TransferCenterSummary)) :
    sum parts.flatten = sum (parts.map sum) := by
  induction parts with
  | nil => rfl
  | cons first parts ih => rw [List.flatten_cons, sum_append, List.map_cons, sum_cons, ih]

/-- A summary that counts no more as done than there is. -/
structure Bounded (s : TransferCenterSummary) : Prop where
  done : s.done ≤ s.total
  bytes : s.bytesDone ≤ s.bytesTotal

/-- Two counts of summaries whose sums do not wrap around: where one is bounded by the other in every
part, so it is in the sum. -/
theorem sum_le {f g : TransferCenterSummary → UInt64}
    (hf : ∀ a b, f (add a b) = f a + f b) (hg : ∀ a b, g (add a b) = g a + g b)
    (hf₀ : f {} = 0) (hg₀ : g {} = 0) (h : ∀ part ∈ parts, f part ≤ g part)
    (hsum : (parts.map fun part => (g part).toNat).sum < 2 ^ 64) :
    (g (sum parts)).toNat = (parts.map fun part => (g part).toNat).sum ∧
      f (sum parts) ≤ g (sum parts) := by
  induction parts with
  | nil =>
    have hnil : sum [] = {} := rfl
    rw [hnil, hf₀, hg₀]
    exact ⟨rfl, UInt64.le_refl 0⟩
  | cons part parts ih =>
    rw [List.map_cons, List.sum_cons] at hsum
    obtain ⟨htotal, hdone⟩ := ih (fun p hp => h p (List.mem_cons_of_mem _ hp)) (by omega)
    have hpart := UInt64.le_iff_toNat_le.mp (h part List.mem_cons_self)
    have hrest := UInt64.le_iff_toNat_le.mp hdone
    rw [sum_cons, List.map_cons, List.sum_cons, UInt64.le_iff_toNat_le, hf, hg, UInt64.toNat_add,
      UInt64.toNat_add]
    omega

end TransferCenterSummary

open TransferCenterSummary (sum sum_append sum_cons sum_flatten foldl_add Bounded)

/-! ## The parts of the summary -/

theorem min_le (a b : UInt64) : min a b ≤ b := by
  show (if a ≤ b then a else b) ≤ b
  split
  · next h => exact h
  · exact UInt64.le_refl b

/-- The bytes that a task without a group counts. -/
def TransferTask.knownBytes (task : TransferTask) : UInt64 × UInt64 :=
  match task.bytesDone, task.bytesTotal with
  | some done, some total => if 0 < total then (min done total, total) else (0, 0)
  | _, _ => (0, 0)

theorem TransferTask.knownBytes_le (task : TransferTask) : task.knownBytes.1 ≤ task.knownBytes.2 := by
  unfold TransferTask.knownBytes
  split
  · split
    · exact min_le _ _
    · exact UInt64.le_refl 0
  · exact UInt64.le_refl 0

/-- What a task without a group counts. -/
def TransferTask.part (task : TransferTask) : TransferCenterSummary where
  done := if task.status = .finished then 1 else 0
  total := 1
  bytesDone := task.knownBytes.1
  bytesTotal := task.knownBytes.2

theorem TransferTask.bounded_part (task : TransferTask) : Bounded task.part where
  done := by
    show (if task.status = .finished then 1 else 0 : UInt64) ≤ 1
    split <;> decide
  bytes := task.knownBytes_le

/-- What an entry of the bytes of a group counts. -/
def bytesPart (bytes : UInt64 × UInt64) : TransferCenterSummary :=
  { bytesDone := min bytes.1 bytes.2, bytesTotal := bytes.2 }

/-- The parts that a group counts. -/
def TransferGroupState.parts (g : TransferGroupState) : List TransferCenterSummary :=
  { done := min g.completed.size.toUInt64 g.total, total := g.total } :: g.bytes.values.map bytesPart

theorem TransferGroupState.summary_eq (g : TransferGroupState) : g.summary = sum g.parts := by
  unfold TransferGroupState.summary TransferGroupState.parts
  rw [sum_cons, ← foldl_add, List.foldl_map]
  congr 1
  funext summary bytes
  obtain ⟨done, total⟩ := bytes
  simp [TransferCenterSummary.add, bytesPart]

theorem TransferGroupState.bounded_parts (g : TransferGroupState) :
    ∀ part ∈ g.parts, Bounded part := by
  intro part hpart
  rcases List.mem_cons.mp hpart with rfl | hpart
  · exact ⟨min_le _ _, UInt64.le_refl 0⟩
  · obtain ⟨bytes, -, rfl⟩ := List.mem_map.mp hpart
    exact ⟨UInt64.le_refl 0, min_le _ _⟩

namespace TransferCenterState

variable {s : TransferCenterState}

/-- The tasks without a group. -/
def ungrouped (s : TransferCenterState) : List TransferTask :=
  s.tasks.values.filter (·.groupId.isNone)

/-- What a group contributes to the summary. -/
def groupContribution (s : TransferCenterState) (group : String) : TransferCenterSummary :=
  ((s.groups[group]?).map TransferGroupState.summary).getD {}

/-- What the tasks without a group contribute to the summary. -/
def ungroupedContribution (s : TransferCenterState) : TransferCenterSummary :=
  sum (s.ungrouped.map TransferTask.part)

/-- The parts of the summary. -/
def parts (s : TransferCenterState) : List TransferCenterSummary :=
  s.groups.values.flatMap TransferGroupState.parts ++ s.ungrouped.map TransferTask.part

theorem summary_eq_sum : s.summary =
    (sum (s.groups.values.map TransferGroupState.summary)).add s.ungroupedContribution := by
  have hfold := foldl_add (sum (s.groups.values.map TransferGroupState.summary))
    (s.ungrouped.map TransferTask.part)
  rw [List.foldl_map] at hfold
  refine Eq.trans ?_ hfold
  rw [sum, List.foldl_map]
  unfold summary ungrouped
  simp only
  congr 1
  funext summary task
  have hdone : (if task.status = .finished then { summary with
      total := summary.total + 1, done := summary.done + 1 } else
        { summary with total := summary.total + 1 } : TransferCenterSummary) =
      { summary with
        total := summary.total + 1
        done := summary.done + if task.status = .finished then 1 else 0 } := by
    split
    · rfl
    · rw [UInt64.add_zero]
  unfold TransferTask.part TransferTask.knownBytes
  rw [hdone]
  rcases task.bytesDone with _ | done
  · simp only [TransferCenterSummary.add, UInt64.add_zero]
  rcases task.bytesTotal with _ | total
  · simp only [TransferCenterSummary.add, UInt64.add_zero]
  by_cases hpos : 0 < total
  · simp only [hpos, if_true, TransferCenterSummary.add]
  · simp only [hpos, if_false, TransferCenterSummary.add, UInt64.add_zero]

theorem summary_eq : s.summary = sum s.parts := by
  rw [summary_eq_sum, parts, sum_append, List.flatMap_def, sum_flatten, List.map_map,
    ungroupedContribution]
  congr 2
  exact List.map_congr_left fun g _ => g.summary_eq

/-- The summary counts no more as done than there is, as long as its sums do not wrap around. -/
theorem bounded_summary (s : TransferCenterState)
    (htotal : (s.parts.map fun part => part.total.toNat).sum < 2 ^ 64)
    (hbytes : (s.parts.map fun part => part.bytesTotal.toNat).sum < 2 ^ 64) : Bounded s.summary := by
  have hparts : ∀ part ∈ s.parts, Bounded part := by
    intro part hpart
    rcases List.mem_append.mp hpart with hpart | hpart
    · obtain ⟨g, -, hg⟩ := List.mem_flatMap.mp hpart
      exact g.bounded_parts part hg
    · obtain ⟨task, -, rfl⟩ := List.mem_map.mp hpart
      exact task.bounded_part
  rw [summary_eq]
  exact ⟨(TransferCenterSummary.sum_le (fun _ _ => rfl) (fun _ _ => rfl) rfl rfl
      (fun part hpart => (hparts part hpart).done) htotal).2,
    (TransferCenterSummary.sum_le (fun _ _ => rfl) (fun _ _ => rfl) rfl rfl
      (fun part hpart => (hparts part hpart).bytes) hbytes).2⟩

/-! ## What a dismissal changes -/

/-- The tasks without a group are those that are live. -/
theorem ungrouped_congr {t : TransferCenterState}
    (h : ∀ id task, task.groupId = none → (t.live id = some task ↔ s.live id = some task)) :
    t.ungrouped = s.ungrouped := by
  have hungrouped : ∀ u : TransferCenterState, u.ungrouped =
      ((u.tasks.filter fun _ task => task.groupId.isNone).toList).map Prod.snd := by
    intro u
    rw [ungrouped, values_eq_map_toList, Std.ExtTreeMap.toList_filter, List.filter_map]
    rfl
  have hfilter : (t.tasks.filter fun _ task => task.groupId.isNone) =
      s.tasks.filter fun _ task => task.groupId.isNone := by
    refine Std.ExtTreeMap.ext_getElem? fun id => Option.ext fun task => ?_
    rw [Std.ExtTreeMap.getElem?_filter', Std.ExtTreeMap.getElem?_filter', Option.filter_eq_some_iff,
      Option.filter_eq_some_iff]
    refine and_congr_left fun hnone => h id task (by simpa using hnone)
  rw [hungrouped, hungrouped, hfilter]

/-- Dismissing a terminal task of a group leaves all groups alone while a task is live. -/
theorem groups_remove {id group : String} {task : TransferTask} (hlive : s.live id = some task)
    (hgroup : task.groupId = some group) (hterminal : task.isTerminal = true)
    (htasks : (s.remove id).tasks ≠ ∅) : (s.remove id).groups = s.groups := by
  have htask : s.tasks[id]? = some task := hlive
  have hkept : ∀ g : TransferGroupState, g.forget task false = g := by
    intro g
    have hstatus : ¬task.status = .inProgress := by simpa [TransferTask.isTerminal] using hterminal
    simp [TransferGroupState.forget, hstatus]
  have hmodify : s.groups.modify group (·.forget task false) = s.groups := by
    refine Std.ExtTreeMap.ext_getElem? fun g => ?_
    rw [Std.ExtTreeMap.getElem?_modify]
    split
    · simp_all
    · rfl
  rw [remove, htask] at htasks ⊢
  dsimp only at htasks ⊢
  split at htasks
  · next hempty => exact absurd (Std.ExtTreeMap.isEmpty_iff.mp hempty) htasks
  · next hempty =>
    rw [if_neg hempty, removeTaskFromGroupState, hgroup, hterminal]
    dsimp only
    split
    · exact hmodify
    · split
      · exact hmodify
      · exact hmodify

theorem summary_remove {id group : String} {task : TransferTask} (hlive : s.live id = some task)
    (hgroup : task.groupId = some group) (hterminal : task.isTerminal = true)
    (htasks : (s.remove id).tasks ≠ ∅) : (s.remove id).summary = s.summary := by
  have hungrouped : (s.remove id).ungrouped = s.ungrouped := by
    refine ungrouped_congr fun id' task' hnone => ?_
    rw [live_remove, Function.update_apply]
    split
    · next heq =>
      subst heq
      refine iff_of_false (fun h => nomatch h) fun htask' => ?_
      rw [← Option.some.inj (hlive.symm.trans htask'), hgroup] at hnone
      cases hnone
    · exact Iff.rfl
  rw [summary_eq_sum, summary_eq_sum, ungroupedContribution, ungroupedContribution, hungrouped,
    groups_remove hlive hgroup hterminal htasks]

/-- Dismissing a group changes what this group contributes only, while a task is live. -/
theorem contributions_removeGroup {Dismissed : String → Prop} (h : CenterInv Dismissed s)
    {group : String} (htasks : (s.removeGroup group).tasks ≠ ∅) :
    (∀ group', group' ≠ group →
      (s.removeGroup group).groupContribution group' = s.groupContribution group') ∧
    (s.removeGroup group).ungroupedContribution = s.ungroupedContribution := by
  constructor
  · intro group' hne
    have hgroups := (groups_removeGroupIn (fun id => h.mem_toList_iff) htasks group').1
    rw [if_neg hne.symm] at hgroups
    exact congrArg (fun g => (g.map TransferGroupState.summary).getD {}) hgroups
  · refine congrArg (fun tasks => sum (tasks.map TransferTask.part))
      (ungrouped_congr fun id task hnone => ?_)
    rw [h.live_removeGroup]
    exact and_iff_left (by simp [hnone])

/-- In every state that calls lead to, dismissing a terminal task of a group leaves the summary as it
is while another task is live; dismissing a group leaves what the other groups and the tasks without a
group contribute as it is while a task stays live; and the summary counts no more as done than there
is, as long as its sums stay below `2 ^ 64`. -/
theorem dismissal_stable (calls : List Call) :
    (∀ id task group other, (run calls).live id = some task → task.groupId = some group →
      task.isTerminal = true → other ≠ id → (run calls).live other ≠ none →
        ((run calls).remove id).summary = (run calls).summary) ∧
    (∀ group, (∃ id, ((run calls).removeGroup group).live id ≠ none) →
      (∀ group', group' ≠ group →
        ((run calls).removeGroup group).groupContribution group' =
          (run calls).groupContribution group') ∧
      ((run calls).removeGroup group).ungroupedContribution = (run calls).ungroupedContribution) ∧
    ((((run calls).parts.map fun part => part.total.toNat).sum < 2 ^ 64) →
      ((run calls).parts.map fun part => part.bytesTotal.toNat).sum < 2 ^ 64 →
        (run calls).summary.done ≤ (run calls).summary.total ∧
          (run calls).summary.bytesDone ≤ (run calls).summary.bytesTotal) := by
  refine ⟨fun id task group other hlive hgroup hterminal hne hother => ?_, fun group hlive => ?_,
    fun htotal hbytes => ?_⟩
  · obtain ⟨t, ht⟩ := Option.ne_none_iff_exists'.mp hother
    refine summary_remove hlive hgroup hterminal (tasks_ne_empty_iff.mpr ⟨other, t, ?_⟩)
    rw [live_remove, Function.update_of_ne hne, ht]
  · obtain ⟨id, hid⟩ := hlive
    obtain ⟨t, ht⟩ := Option.ne_none_iff_exists'.mp hid
    exact contributions_removeGroup (centerInv_run calls) (tasks_ne_empty_iff.mpr ⟨id, t, ht⟩)
  · have hbounded := bounded_summary _ htotal hbytes
    exact ⟨hbounded.done, hbounded.bytes⟩

/-- Two groups, one of a task that is finished and one that is not, and a task without a group. -/
def fourTransfers : List Call :=
  [.upsert { id := "a", title := "one", groupId := some "g", groupTotal := some 2, status := .finished
             bytesTotal := some 4 } 0,
    .upsert { id := "b", title := "two", groupId := some "g", groupTotal := some 2
              bytesDone := some 1, bytesTotal := some 8 } 1,
    .upsert { id := "c", title := "three", bytesDone := some 2, bytesTotal := some 3 } 2,
    .upsert { id := "d", title := "four", groupId := some "h", bytesTotal := some 5 } 3]

theorem dismissal_stable_four :
    ((run fourTransfers).remove "a").summary = (run fourTransfers).summary ∧
      (((run fourTransfers).removeGroup "g").groupContribution "h" =
          (run fourTransfers).groupContribution "h" ∧
        ((run fourTransfers).removeGroup "g").ungroupedContribution =
          (run fourTransfers).ungroupedContribution) ∧
      (run fourTransfers).summary.done ≤ (run fourTransfers).summary.total ∧
        (run fourTransfers).summary.bytesDone ≤ (run fourTransfers).summary.bytesTotal := by
  obtain ⟨hremove, hgroup, hbounded⟩ := dismissal_stable fourTransfers
  have hfinished : (((run fourTransfers).live "a").any fun task =>
      task.groupId == some "g" && task.isTerminal) = true := by
    decide +kernel
  obtain ⟨task, htask, hterminal⟩ := (Option.any_eq_true _ _).mp hfinished
  rw [Bool.and_eq_true, beq_iff_eq] at hterminal
  have hother : (run fourTransfers).live "b" ≠ none :=
    Option.isSome_iff_ne_none.mp (by decide +kernel)
  have hstays : ((run fourTransfers).removeGroup "g").live "c" ≠ none :=
    Option.isSome_iff_ne_none.mp (by decide +kernel)
  obtain ⟨hgroups, hungrouped⟩ := hgroup "g" ⟨"c", hstays⟩
  exact ⟨hremove "a" task "g" "b" htask hterminal.1 hterminal.2 (by decide) hother,
    ⟨hgroups "h" (by decide), hungrouped⟩, hbounded (by decide +kernel) (by decide +kernel)⟩

end TransferCenterState

end Termua.Transfer
