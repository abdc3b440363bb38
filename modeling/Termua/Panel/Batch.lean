import Mathlib
import Termua.Lib.Groups
import Termua.Panel.Worker
import Termua.Transfer.Center

/-!
# A batch of uploads

`run_upload_workers` of `gpui_sftp/src/view/table/actions.rs` with the workers that it has spawned. A
worker's step puts its messages behind the others in the unbounded channel; `recv` is one round of the
loop, which publishes a task for the file of the message.
-/

namespace Termua.Panel

open Sftp (Path)
open Transfer (TransferStatus)

/-- A text of the user interface: its key and its arguments. -/
structure Message where
  key : String
  args : List (String × String)
  deriving DecidableEq, Repr

/-- `UploadTaskCtx`. -/
structure UploadTaskCtx where
  epoch : ℕ
  fileName : Path
  remotePath : Path
  total : UInt64
  groupId : Option String
  groupTotal : Option ℕ
  deriving DecidableEq, Repr

/-- The context of a planned file. -/
def PlannedUpload.ctx (f : PlannedUpload) : UploadTaskCtx where
  epoch := f.epoch
  fileName := f.fileName
  remotePath := f.remotePath
  total := f.total
  groupId := f.groupId
  groupTotal := f.groupTotal

/-- `UploadFailure::summary`. -/
def UploadFailure.summary (failure : UploadFailure) : Message where
  key :=
    match failure.kind with
    | .openLocalFile => "Sftp.Transfer.OpenLocalFileFailed"
    | .readLocalFile => "Sftp.Transfer.ReadLocalFileFailed"
    | .openRemoteFile => "Sftp.Transfer.OpenRemoteFileFailed"
    | .writeRemoteFile => "Sftp.Transfer.WriteRemoteFileFailed"
  args := [("err", failure.cause)]

/-- `UploadFailure::task_detail`. -/
def UploadFailure.taskDetail (failure : UploadFailure) (ctx : UploadTaskCtx) : Message :=
  if failure.kind = .openRemoteFile then
    ⟨"Sftp.Transfer.OpenRemotePathFailed",
      [("path", String.ofList ctx.remotePath), ("err", failure.cause)]⟩
  else failure.summary

/-- What `build_upload_task` puts into the transfer center; where there is no detail of its own, the
remote path is shown. -/
structure UploadTask where
  ctx : UploadTaskCtx
  status : TransferStatus
  bytesDone : Option UInt64
  bytesTotal : Option UInt64
  detail : Option Message := none
  deriving DecidableEq

/-- `UploadFailureGroup`. -/
abbrev UploadFailureGroup := Groups.Group UploadFailure Path

/-- `UploadBatchResult`. -/
structure UploadBatchResult where
  uploaded : ℕ := 0
  failed : ℕ := 0
  cancelled : ℕ := 0
  failureGroups : List UploadFailureGroup := []
  deriving DecidableEq, Repr

/-- `UploadBatchResult::record_failure`. -/
def UploadBatchResult.recordFailure (result : UploadBatchResult) (failure : UploadFailure)
    (fileName : Path) : UploadBatchResult :=
  { result with
    failed := result.failed + 1
    failureGroups := Groups.arrive failure fileName result.failureGroups }

/-- The loop and its workers; `handled` lists the messages that the loop has taken from the channel,
and `published` the tasks that went to the transfer center. -/
structure Batch where
  planned : List PlannedUpload
  workers : List Worker
  cancels : ℕ → Bool := fun _ => false
  remote : Files.Store Path
  rx : List UploadMsg := []
  completed : ℕ := 0
  result : UploadBatchResult := {}
  published : List UploadTask
  handled : List UploadMsg := []

/-- A task that is under way. -/
def uploadProgressTask (ctx : UploadTaskCtx) (sent total : UInt64) : UploadTask where
  ctx := ctx
  status := .inProgress
  bytesDone := some sent
  bytesTotal := some total

/-- The task of `set_upload_terminal_in_center`. -/
def uploadTerminalTask (ctx : UploadTaskCtx) (status : TransferStatus)
    (detail : Option Message := none) : UploadTask where
  ctx := ctx
  status := status
  bytesDone := if status = .finished then some ctx.total else none
  bytesTotal := if 0 < ctx.total then some ctx.total else none
  detail := detail

/-- A task of `begin_upload_transfers`. -/
def uploadBeginTask (ctx : UploadTaskCtx) : UploadTask where
  ctx := ctx
  status := .inProgress
  bytesDone := some 0
  bytesTotal := if 0 < ctx.total then some ctx.total else none

namespace Batch

/-- `begin_upload_transfers`, and the workers that are spawned. -/
def start (planned : List PlannedUpload) (remote : Files.Store Path) : Batch where
  planned := planned
  workers := planned.map fun file => { file }
  remote := remote
  published := planned.map fun f => uploadBeginTask f.ctx

/-- `ctx_by_epoch.get`; of two files with one epoch the later one counts. -/
def ctxByEpoch (s : Batch) (epoch : ℕ) : Option UploadTaskCtx :=
  (s.planned.reverse.find? (·.epoch = epoch)).map PlannedUpload.ctx

/-- A task is published for the file of an epoch. -/
def publish (s : Batch) (epoch : ℕ) (task : UploadTaskCtx → UploadTask) : Batch :=
  match s.ctxByEpoch epoch with
  | some ctx => { s with published := s.published ++ [task ctx] }
  | none => s

/-- The name of a file in a failure group. -/
def failureName (s : Batch) (epoch : ℕ) : Path :=
  ((s.ctxByEpoch epoch).map UploadTaskCtx.fileName).getD ('#' :: (toString epoch).toList)

/-- The body of the loop. -/
def handle (s : Batch) : UploadMsg → Batch
  | .progress epoch sent total => s.publish epoch fun ctx => uploadProgressTask ctx sent total
  | .finished epoch =>
    { s with
      completed := s.completed + 1
      result := { s.result with uploaded := s.result.uploaded + 1 } }.publish epoch
        fun ctx => uploadTerminalTask ctx .finished
  | .cancelled epoch =>
    { s with
      completed := s.completed + 1
      result := { s.result with cancelled := s.result.cancelled + 1 } }.publish epoch
        fun ctx => uploadTerminalTask ctx .cancelled
  | .failed epoch failure =>
    { s with
      completed := s.completed + 1
      result := s.result.recordFailure failure (s.failureName epoch) }.publish epoch
        fun ctx => uploadTerminalTask ctx .failed (some (failure.taskDetail ctx))

/-- The loop has ended. -/
def Ended (s : Batch) : Prop := ¬ s.completed < s.planned.length

instance (s : Batch) : Decidable s.Ended := inferInstanceAs (Decidable (¬ _))

/-- One round of the loop. -/
def recv (s : Batch) : Option Batch :=
  if s.Ended then none
  else
    match s.rx with
    | [] => none
    | m :: rx => some ({ s with rx := rx, handled := s.handled ++ [m] }.handle m)

/-- A step of the `i`th worker. -/
def workerStep (s : Batch) (i : ℕ) (answer : Answer) : Option Batch :=
  match s.workers[i]? with
  | none => none
  | some w =>
    (w.step s.remote (s.cancels w.file.epoch) answer).map fun (w, remote, msgs) =>
      { s with workers := s.workers.set i w, remote, rx := s.rx ++ msgs }

/-- What can happen next. -/
inductive Event
  | recv
  | worker (i : ℕ) (answer : Answer)
  /-- The user cancels a file. -/
  | cancel (epoch : ℕ)

/-- One step; `none` when it is not possible. -/
def step (s : Batch) : Event → Option Batch
  | .recv => s.recv
  | .worker i answer => s.workerStep i answer
  | .cancel epoch => some { s with cancels := Function.update s.cancels epoch true }

end Batch

/-! ## What the messages say -/

/-- The messages about one file. -/
def about (epoch : ℕ) (msgs : List UploadMsg) : List UploadMsg := msgs.filter (·.epoch = epoch)

/-- The status that a message reports. -/
def UploadMsg.status : UploadMsg → TransferStatus
  | .progress .. => .inProgress
  | .finished _ => .finished
  | .cancelled _ => .cancelled
  | .failed .. => .failed

/-- The number of messages that end a file. -/
def terminals (msgs : List UploadMsg) : ℕ := msgs.countP UploadMsg.isTerminal

/-- The failures that messages report, with the names of the files. -/
def failuresOf (name : ℕ → Path) (msgs : List UploadMsg) : List (UploadFailure × Path) :=
  msgs.filterMap fun
    | .failed epoch failure => some (failure, name epoch)
    | _ => none

/-- The status that was published last for the file of an epoch. -/
def lastStatus (published : List UploadTask) (epoch : ℕ) : Option TransferStatus :=
  (published.reverse.find? (·.ctx.epoch = epoch)).map UploadTask.status

end Termua.Panel
