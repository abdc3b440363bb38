import Mathlib
import Termua.Lib.Run

/-!
# The transfer center

`TransferCenterState` of `gpui_transfer/src/lib.rs`: the transfers that the window shows, in order,
and the groups that its summary counts. A map or set of the source is a tree here, whose iteration
order is one of those that the source may take; `Termua.Transfer.Enumeration` shows that the order
does not matter. Sums wrap around at 64 bits.
-/

namespace Termua.Transfer

/-- `TransferKind`. -/
inductive TransferKind
  | upload
  | download
  | other
  deriving DecidableEq, Repr

/-- `TransferStatus`. -/
inductive TransferStatus
  | inProgress
  | finished
  | cancelled
  | failed
  deriving DecidableEq, Repr

/-- `TransferProgress`. -/
inductive TransferProgress
  | indeterminate
  | determinate (value : Float32)

/-- The identity of an `Arc<AtomicBool>`. -/
abbrev CancelToken := ℕ

/-- A reading of the clock. -/
abbrev Instant := ℕ

/-- `TransferTask`. -/
structure TransferTask where
  id : String
  title : String
  detail : Option String := none
  groupId : Option String := none
  groupTotal : Option UInt64 := none
  kind : TransferKind := .other
  status : TransferStatus := .inProgress
  progress : TransferProgress := .indeterminate
  bytesDone : Option UInt64 := none
  bytesTotal : Option UInt64 := none
  cancel : Option CancelToken := none
  createdAt : Instant := 0
  updatedAt : Instant := 0

/-- `TransferCenterSummary`. -/
structure TransferCenterSummary where
  done : UInt64 := 0
  total : UInt64 := 0
  bytesDone : UInt64 := 0
  bytesTotal : UInt64 := 0
  deriving DecidableEq, Repr

/-- `TransferCenterSummary::add`. -/
def TransferCenterSummary.add (s other : TransferCenterSummary) : TransferCenterSummary where
  done := s.done + other.done
  total := s.total + other.total
  bytesDone := s.bytesDone + other.bytesDone
  bytesTotal := s.bytesTotal + other.bytesTotal

/-- `TransferGroupState`. -/
structure TransferGroupState where
  total : UInt64 := 0
  completed : Std.ExtTreeSet String := ∅
  bytes : Std.ExtTreeMap String (UInt64 × UInt64) := ∅

/-- `TransferCenterState`. -/
structure TransferCenterState where
  tasks : Std.ExtTreeMap String TransferTask := ∅
  order : List String := []
  groups : Std.ExtTreeMap String TransferGroupState := ∅
  groupTasks : Std.ExtTreeMap String (Std.ExtTreeSet String) := ∅

/-! ## One task in a group -/

/-- Whether the task has ended: `Finished`, `Cancelled` or `Failed`. -/
def TransferTask.isTerminal (task : TransferTask) : Bool := task.status ≠ .inProgress

/-- The bytes that a task contributes to its group: what is done, of a known total that is not
zero. -/
def TransferTask.contribution (task : TransferTask) : Option (UInt64 × UInt64) :=
  match task.bytesTotal with
  | none => none
  | some bytesTotal =>
    if 0 < bytesTotal then
      let bytesDone := task.bytesDone.getD (if task.status = .finished then bytesTotal else 0)
      some (min bytesDone bytesTotal, bytesTotal)
    else none

namespace TransferGroupState

/-- `TransferGroupState::summary`. -/
def summary (g : TransferGroupState) : TransferCenterSummary :=
  g.bytes.values.foldl
    (fun summary (done, total) =>
      { summary with
        bytesDone := summary.bytesDone + min done total
        bytesTotal := summary.bytesTotal + total })
    { done := min g.completed.size.toUInt64 g.total, total := g.total }

/-- What `apply_task_to_group_state` does to the group of the task. -/
def apply (g : TransferGroupState) (task : TransferTask) : TransferGroupState :=
  let g := match task.groupTotal with
    | some total => { g with total := max g.total total }
    | none => g
  let g := match task.contribution with
    | some bytes => { g with bytes := g.bytes.insert task.id bytes }
    | none => g
  if task.isTerminal then { g with completed := g.completed.insert task.id } else g

/-- What `remove_task_from_group_state` does to the group of the task when it keeps it. -/
def forget (g : TransferGroupState) (task : TransferTask) (removeCompletion : Bool) :
    TransferGroupState :=
  let g := if removeCompletion then { g with completed := g.completed.erase task.id } else g
  if removeCompletion || task.status = .inProgress then { g with bytes := g.bytes.erase task.id }
  else g

end TransferGroupState

/-! ## The center -/

namespace TransferCenterState

/-- `apply_task_to_group_state`. -/
def applyTaskToGroupState (s : TransferCenterState) (task : TransferTask) : TransferCenterState :=
  match task.groupId with
  | none => s
  | some group =>
    { s with
      groupTasks := s.groupTasks.insert group ((s.groupTasks.getD group ∅).insert task.id)
      groups := s.groups.insert group ((s.groups.getD group {}).apply task) }

/-- `remove_task_from_group_state`. -/
def removeTaskFromGroupState (s : TransferCenterState) (task : TransferTask)
    (removeCompletion preserveGroupWhenEmpty : Bool) : TransferCenterState :=
  match task.groupId with
  | none => s
  | some group =>
    let forget := fun s : TransferCenterState =>
      { s with groups := s.groups.modify group (·.forget task removeCompletion) }
    match s.groupTasks[group]? with
    | none => forget s
    | some ids =>
      if (ids.erase task.id).isEmpty then
        let s := { s with groupTasks := s.groupTasks.erase group }
        if !preserveGroupWhenEmpty then { s with groups := s.groups.erase group } else forget s
      else forget { s with groupTasks := s.groupTasks.insert group (ids.erase task.id) }

/-- `upsert`, at the time `now`. -/
def upsert (s : TransferCenterState) (task : TransferTask) (now : Instant) : TransferCenterState :=
  match s.tasks[task.id]? with
  | some existing =>
    let sameGroup := existing.groupId = task.groupId
    let task :=
      if sameGroup ∧ task.bytesDone = none then { task with bytesDone := existing.bytesDone }
      else task
    let task :=
      if sameGroup ∧ task.bytesTotal = none then { task with bytesTotal := existing.bytesTotal }
      else task
    let s := s.removeTaskFromGroupState existing true sameGroup
    let task := { task with createdAt := existing.createdAt, updatedAt := now }
    let s := s.applyTaskToGroupState task
    { s with tasks := s.tasks.insert task.id task }
  | none =>
    let task := { task with createdAt := now, updatedAt := now }
    let s := s.applyTaskToGroupState task
    { s with order := s.order ++ [task.id], tasks := s.tasks.insert task.id task }

/-- `remove`. -/
def remove (s : TransferCenterState) (id : String) : TransferCenterState :=
  match s.tasks[id]? with
  | none => s
  | some task =>
    let s := { s with tasks := s.tasks.erase id, order := s.order.erase id }
    let s := s.removeTaskFromGroupState task false task.isTerminal
    if s.tasks.isEmpty then { s with groupTasks := ∅, groups := ∅ } else s

/-- `remove` for one id after the other. -/
def removeAll (s : TransferCenterState) (ids : List String) : TransferCenterState :=
  ids.foldl remove s

/-- `remove_group`. -/
def removeGroup (s : TransferCenterState) (group : String) : TransferCenterState :=
  let ids := (s.groupTasks.getD group ∅).toList
  let s := s.removeAll ids
  { s with groupTasks := s.groupTasks.erase group, groups := s.groups.erase group }

/-- The groups that `remove_groups_with_prefix` removes. -/
def groupsWithPrefix (s : TransferCenterState) (start : String) : List String :=
  let groupIds := s.groupTasks.keys.filter fun group => start.toList.isPrefixOf group.toList
  let others := s.groups.keys.filter fun group => start.toList.isPrefixOf group.toList
  groupIds ++ others.filter (· ∉ groupIds)

/-- `remove_groups_with_prefix`. -/
def removeGroupsWithPrefix (s : TransferCenterState) (start : String) : TransferCenterState :=
  (s.groupsWithPrefix start).foldl removeGroup s

/-- `tasks_sorted`. -/
def tasksSorted (s : TransferCenterState) : List TransferTask :=
  s.order.filterMap fun id => s.tasks[id]?

/-- `summary`. -/
def summary (s : TransferCenterState) : TransferCenterSummary :=
  let summary := s.groups.values.foldl (fun summary group => summary.add group.summary) {}
  (s.tasks.values.filter (·.groupId.isNone)).foldl
    (fun summary task =>
      let summary := { summary with total := summary.total + 1 }
      let summary := if task.status = .finished then { summary with done := summary.done + 1 }
        else summary
      match task.bytesDone, task.bytesTotal with
      | some done, some total =>
        if 0 < total then
          { summary with
            bytesDone := summary.bytesDone + min done total
            bytesTotal := summary.bytesTotal + total }
        else summary
      | _, _ => summary)
    summary

end TransferCenterState

/-- A call on the transfer center. -/
inductive Call
  | upsert (task : TransferTask) (now : Instant)
  | remove (id : String)
  | removeGroup (group : String)
  | removeGroupsWithPrefix (start : String)

namespace TransferCenterState

/-- The state after a call. -/
def call (s : TransferCenterState) : Call → TransferCenterState
  | .upsert task now => s.upsert task now
  | .remove id => s.remove id
  | .removeGroup group => s.removeGroup group
  | .removeGroupsWithPrefix start => s.removeGroupsWithPrefix start

/-- The state after calls on a new transfer center. -/
def run (calls : List Call) : TransferCenterState := calls.foldl call {}

end TransferCenterState

end Termua.Transfer
