import Mathlib
import Termua.Lib.Run
import Termua.Upload.Worker

/-!
# The upload loop

`try_spawn_workers`, `handle_upload_msg` and `run_upload_loop` of `gpui_term/src/terminal.rs`, with
the workers that the loop has started and their cancel flags. A worker's step puts its messages
behind the others in the unbounded channel; `recv` is one round of the loop.
-/

namespace Termua.Upload

/-- An entry of `uploaded`: the index, the name and the bytes. -/
abbrev Uploaded := ℕ × String × UInt64

/-- The loop's state with its workers. `handled` lists the messages that the loop has taken from the
channel, and `result` is what the loop has returned. -/
structure UploadLoop where
  limit : ℕ
  queue : List (ℕ × PlannedUploadFile)
  active : ℕ
  uploaded : List Uploaded
  rx : List UploadMsg
  workers : List Worker
  cancels : ℕ → Bool
  handled : List UploadMsg
  result : Option (List (String × UInt64) × UInt64)

/-- `planned.into_iter().enumerate()`. -/
def enumerate (planned : List PlannedUploadFile) : List (ℕ × PlannedUploadFile) :=
  planned.mapIdx fun i f => (i, f)

/-- What `run_upload_loop` makes of `uploaded`. -/
def collect (uploaded : List Uploaded) : List (String × UInt64) × UInt64 :=
  let files := (uploaded.insertionSort fun a b => a.1 ≤ b.1).map fun (_, name, bytes) => (name, bytes)
  (files, (files.map Prod.snd).sum)

namespace UploadLoop

/-- The loop of `try_spawn_workers` over the queue. -/
def spawnLoop : List (ℕ × PlannedUploadFile) → UploadLoop → UploadLoop
  | [], s => s
  | (i, f) :: queue, s =>
    if s.active < s.limit then
      spawnLoop queue { s with
        queue := queue
        workers := s.workers ++ [⟨i, f, .starting⟩]
        active := s.active + 1 }
    else s

/-- `try_spawn_workers`. -/
def trySpawnWorkers (s : UploadLoop) : UploadLoop := spawnLoop s.queue s

/-- `handle_upload_msg`, and whether it asks for more workers. -/
def handleUploadMsg (s : UploadLoop) : UploadMsg → UploadLoop × Bool
  | .progress .. => (s, false)
  | .finished i file bytes =>
    ({ s with uploaded := s.uploaded ++ [(i, file, bytes)], active := s.active - 1 }, true)
  | .cancelled .. | .failed .. => ({ s with active := s.active - 1 }, true)

/-- The loop has ended. -/
def finish (s : UploadLoop) : UploadLoop := { s with result := some (collect s.uploaded) }

/-- Whether the loop goes on, at its end and at its head. -/
def check (s : UploadLoop) : UploadLoop :=
  if s.active = 0 ∧ s.queue = [] then s.finish
  else if 0 < s.active then s
  else s.finish

/-- `prepare_upload` once the files are planned. -/
def prepare (planned : List PlannedUploadFile) (limit : ℕ) : UploadLoop where
  limit := limit
  queue := enumerate planned
  active := 0
  uploaded := []
  rx := []
  workers := []
  cancels := fun _ => false
  handled := []
  result := none

/-- The first workers, and the loop's first look at `active`. -/
def start (planned : List PlannedUploadFile) (limit : ℕ) : UploadLoop :=
  let s := (prepare planned limit).trySpawnWorkers
  if 0 < s.active then s else s.finish

/-- One round of the loop. -/
def recv (s : UploadLoop) : Option UploadLoop :=
  match s.result, s.rx with
  | none, msg :: rx =>
    let (s, shouldSpawn) :=
      handleUploadMsg { s with rx := rx, handled := s.handled ++ [msg] } msg
    some (if shouldSpawn then s.trySpawnWorkers else s).check
  | _, _ => none

/-- A step of the `i`th worker. -/
def workerStep (s : UploadLoop) (i : ℕ) (answer : Answer) : Option UploadLoop :=
  match s.workers[i]? with
  | some w =>
    (w.step (s.cancels w.fileIndex) answer).map fun (w, msgs) =>
      { s with workers := s.workers.set i w, rx := s.rx ++ msgs }
  | none => none

/-- What can happen next. -/
inductive Event
  | recv
  | worker (i : ℕ) (answer : Answer)
  /-- The user cancels a file. -/
  | cancel (fileIndex : ℕ)

/-- One step; `none` when it is not possible. -/
def step (s : UploadLoop) : Event → Option UploadLoop
  | .recv => s.recv
  | .worker i answer => s.workerStep i answer
  | .cancel fileIndex => some { s with cancels := Function.update s.cancels fileIndex true }

/-- The files that were started, in the order of their start. -/
def started (s : UploadLoop) : List (ℕ × PlannedUploadFile) :=
  s.workers.map fun w => (w.fileIndex, w.file)

end UploadLoop

/-- The number of messages that end a file. -/
def terminals (msgs : List UploadMsg) : ℕ := msgs.countP UploadMsg.isTerminal

/-- The number of messages that end the file of an index. -/
def terminalsOf (msgs : List UploadMsg) (i : ℕ) : ℕ :=
  msgs.countP fun m => m.isTerminal && m.fileIndex == i

/-- The entry that a message adds to `uploaded`. -/
def finishedEntry : UploadMsg → Option Uploaded
  | .finished i file bytes => some (i, file, bytes)
  | _ => none

/-- The bytes that the file of an index finished with. -/
def finishedBytes (msgs : List UploadMsg) (i : ℕ) : Option UInt64 :=
  msgs.findSome? fun
    | .finished j _ bytes => if j = i then some bytes else none
    | _ => none

/-- The finished files in plan order. -/
def finishedFiles (planned : List PlannedUploadFile) (msgs : List UploadMsg) :
    List (String × UInt64) :=
  (enumerate planned).filterMap fun (i, f) => (finishedBytes msgs i).map fun bytes => (f.remoteName, bytes)

end Termua.Upload
