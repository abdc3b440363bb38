import Mathlib
import Termua.Lib.Files
import Termua.Lib.Run
import Termua.Sftp.Path

/-!
# A worker of the panel

`run_upload_worker` and `upload_copy_loop` of `gpui_sftp/src/view/table/actions.rs`, one step for what
the worker does between two suspensions. What the permit pool, the local file and the server answer
comes with the step, which returns the remote files and the messages that were sent. A worker sends
one message that ends its file, with its last step (`Steps`).
-/

namespace Termua.Panel

open Sftp (Path)

/-- `SftpError`. -/
inductive SftpError
  | eof | noSuchFile | permissionDenied | failure | badMessage | noConnection | connectionLost
  | opUnsupported | invalidHandle | noSuchPath | fileAlreadyExists | writeProtect | noMedia
  | noSpaceOnFilesystem | quotaExceeded | unknownPrincipal | lockConflict | dirNotEmpty
  | notADirectory | invalidFilename | linkLoop
  deriving DecidableEq, Repr

/-- The text of an `SftpError`. -/
def SftpError.text : SftpError → String
  | eof => "End-of-file encountered"
  | noSuchFile => "File doesn't exist"
  | permissionDenied => "Permission denied"
  | failure => "Generic failure"
  | badMessage => "Garbage received from server"
  | noConnection => "No connection has been set up"
  | connectionLost => "There was a connection, but we lost it"
  | opUnsupported => "Operation not supported by the server"
  | invalidHandle => "Invalid file handle"
  | noSuchPath => "No such file or directory path exists"
  | fileAlreadyExists => "An attempt to create an already existing file or directory has been made"
  | writeProtect => "We are trying to write on a write-protected filesystem"
  | noMedia => "No media in remote drive"
  | noSpaceOnFilesystem => "No space available on filesystem"
  | quotaExceeded => "Quota exceeded"
  | unknownPrincipal => "Unknown principal"
  | lockConflict => "Filesystem lock conflict"
  | dirNotEmpty => "Directory is not empty"
  | notADirectory => "Operation attempted against a path that is not a directory"
  | invalidFilename => "Filename invalid"
  | linkLoop => "Symlink loop encountered"

/-- `SftpChannelError`; what comes from other libraries is its text. -/
inductive SftpChannelError
  | sftp (err : SftpError)
  | fileIo (err : String)
  | sendFailed (err : String)
  | recvFailed (err : String)
  | ssh2 (err : String)
  | libSsh (err : String)
  | notImplemented
  deriving DecidableEq, Repr

/-- The text of an `SftpChannelError`. -/
def SftpChannelError.text : SftpChannelError → String
  | sftp err => err.text
  | fileIo err => "File IO failed: " ++ err
  | sendFailed err => "Failed to send request: " ++ err
  | recvFailed err => "Failed to receive response: " ++ err
  | ssh2 err | libSsh err => "Library-specific error: " ++ err
  | notImplemented => "Not Implemented"

/-- `is_remote_no_such_file`. -/
def isRemoteNoSuchFile (err : SftpChannelError) : Bool :=
  match err with
  | .sftp .noSuchFile => true
  | .libSsh _ => "Sftp error code 2".toList <:+: err.text.toList
  | _ => false

/-- `UploadFailureKind`. -/
inductive UploadFailureKind
  | openLocalFile | readLocalFile | openRemoteFile | writeRemoteFile
  deriving DecidableEq, Repr

/-- `UploadFailure`. -/
structure UploadFailure where
  kind : UploadFailureKind
  cause : String
  deriving DecidableEq, Repr

/-- `PlannedUpload`. The local path is in bytes. -/
structure PlannedUpload where
  localPath : List UInt8
  fileName : Path
  remotePath : Path
  total : UInt64
  epoch : ℕ
  groupId : Option String := none
  groupTotal : Option ℕ := none
  deriving DecidableEq, Repr

/-- `UploadMsg`. -/
inductive UploadMsg
  | progress (epoch : ℕ) (sent total : UInt64)
  | finished (epoch : ℕ)
  | cancelled (epoch : ℕ)
  | failed (epoch : ℕ) (failure : UploadFailure)
  deriving DecidableEq, Repr

namespace UploadMsg

def epoch : UploadMsg → ℕ
  | progress e _ _ | finished e | cancelled e | failed e _ => e

/-- The message ends its file. -/
def isTerminal : UploadMsg → Bool
  | progress .. => false
  | _ => true

end UploadMsg

/-- Where `run_upload_worker` is. -/
inductive Phase
  /-- It awaits `pool.acquire()`. -/
  | acquiring
  | openingLocal
  /-- It awaits `open_write()`. -/
  | openingRemote
  /-- It awaits `open_create()`. -/
  | creatingRemote
  /-- At the top of the copy loop. -/
  | copying (remote : Files.Handle Path) (sent : UInt64)
  | reading (remote : Files.Handle Path) (sent : UInt64)
  | writing (remote : Files.Handle Path) (sent : UInt64) (buf : List UInt8)
  | flushing
  | done
  deriving DecidableEq

/-- A worker that was spawned. -/
structure Worker where
  file : PlannedUpload
  phase : Phase := .acquiring

/-- What the worker's next await answers. -/
inductive Answer
  | permit
  | openLocal (result : Except String Unit)
  | openWrite (result : Except SftpChannelError Unit)
  | openCreate (result : Except SftpChannelError Unit)
  /-- The worker runs on without an answer. -/
  | go
  | read (result : Except String (List UInt8))
  /-- How the write ended: all is written and a progress message is due or not, or so many bytes are
  and then there was an error. -/
  | write (result : Except (ℕ × String) Bool)
  | flush

/-- `u64::saturating_add`. -/
def saturatingAdd (a : UInt64) (n : ℕ) : UInt64 :=
  if a.toNat + n < UInt64.size then a + UInt64.ofNat n else -1

/-- A step: the worker after it, the remote files and the messages that were sent. -/
abbrev Stepped := Worker × Files.Store Path × List UploadMsg

namespace Worker

/-- The worker goes on. -/
def goOn (w : Worker) (fs : Files.Store Path) (phase : Phase) (msgs : List UploadMsg := []) : Stepped :=
  ({ w with phase }, fs, msgs)

/-- The worker ends with messages of which the last one ends the file. -/
def exit (w : Worker) (fs : Files.Store Path) (msgs : List UploadMsg) : Stepped :=
  ({ w with phase := .done }, fs, msgs)

/-- `upload_send_failed` and the end of the worker. -/
def fail (w : Worker) (fs : Files.Store Path) (kind : UploadFailureKind) (cause : String) : Stepped :=
  w.exit fs [.failed w.file.epoch ⟨kind, cause⟩]

/-- The local file was opened or not. -/
def openLocal (w : Worker) (fs : Files.Store Path) : Except String Unit → Stepped
  | .ok _ => w.goOn fs .openingRemote
  | .error err => w.fail fs .openLocalFile err

/-- After `open_write()`. -/
def openWrite (w : Worker) (fs : Files.Store Path) : Except SftpChannelError Unit → Stepped
  | .ok _ =>
    let (fs, remote) := Files.create fs w.file.remotePath
    w.goOn fs (.copying remote 0)
  | .error err =>
    if isRemoteNoSuchFile err then w.goOn fs .creatingRemote
    else w.fail fs .openRemoteFile err.text

/-- After `open_create()`. -/
def openCreate (w : Worker) (fs : Files.Store Path) : Except SftpChannelError Unit → Stepped
  | .ok _ =>
    let (fs, remote) := Files.openAppend fs w.file.remotePath
    w.goOn fs (.copying remote 0)
  | .error err => w.fail fs .openRemoteFile err.text

/-- The top of the copy loop. -/
def loop (w : Worker) (fs : Files.Store Path) (cancel : Bool) (remote : Files.Handle Path)
    (sent : UInt64) : Stepped :=
  if cancel then
    if w.file.total ≠ 0 ∧ sent ≥ w.file.total then w.goOn fs .flushing
    else w.exit fs [.cancelled w.file.epoch]
  else w.goOn fs (.reading remote sent)

/-- After `local_f.read`. -/
def read (w : Worker) (fs : Files.Store Path) (cancel : Bool) (remote : Files.Handle Path)
    (sent : UInt64) : Except String (List UInt8) → Stepped
  | .ok [] => w.goOn fs .flushing
  | .ok buf =>
    if cancel then w.exit fs [.cancelled w.file.epoch] else w.goOn fs (.writing remote sent buf)
  | .error err => w.fail fs .readLocalFile err

/-- After `remote_f.write_all`. -/
def write (w : Worker) (fs : Files.Store Path) (remote : Files.Handle Path) (sent : UInt64)
    (buf : List UInt8) : Except (ℕ × String) Bool → Stepped
  | .ok emit =>
    let (fs, remote) := Files.write fs remote buf
    let sent := saturatingAdd sent buf.length
    w.goOn fs (.copying remote sent)
      (if emit then [.progress w.file.epoch sent w.file.total] else [])
  | .error (written, err) =>
    w.fail (Files.write fs remote (buf.take written)).1 .writeRemoteFile err

/-- After `remote_f.flush()`, whose result does not matter. -/
def finish (w : Worker) (fs : Files.Store Path) : Stepped :=
  w.exit fs [.progress w.file.epoch w.file.total w.file.total, .finished w.file.epoch]

/-- One step of a worker under the current value of the file's cancel flag; `none` when the answer is
not the one it awaits. -/
def step (w : Worker) (fs : Files.Store Path) (cancel : Bool) (answer : Answer) : Option Stepped :=
  match w.phase, answer with
  | .acquiring, .permit => some (w.goOn fs .openingLocal)
  | .openingLocal, .openLocal result => some (w.openLocal fs result)
  | .openingRemote, .openWrite result => some (w.openWrite fs result)
  | .creatingRemote, .openCreate result => some (w.openCreate fs result)
  | .copying remote sent, .go => some (w.loop fs cancel remote sent)
  | .reading remote sent, .read result => some (w.read fs cancel remote sent result)
  | .writing remote sent buf, .write result => some (w.write fs remote sent buf result)
  | .flushing, .flush => some (w.finish fs)
  | _, _ => none

/-! ## What a step does -/

variable {w w' : Worker} {fs fs' : Files.Store Path} {cancel : Bool} {answer : Answer}
  {msgs : List UploadMsg}

/-- The file that the worker has open. -/
def handle (w : Worker) : Option (Files.Handle Path) :=
  match w.phase with
  | .copying remote _ | .reading remote _ | .writing remote _ _ => some remote
  | _ => none

/-- The worker has no file open but its own. -/
def Owns (w : Worker) : Prop := ∀ remote, w.handle = some remote → remote.path = w.file.remotePath

/-- The last step of a worker sends the one message that ends its file, and no step before it sends
such a message; a step changes the worker's own remote file only. -/
structure Steps (w : Worker) (fs : Files.Store Path) (stepped : Stepped) : Prop where
  running : w.phase ≠ .done
  file : stepped.1.file = w.file
  owns : stepped.1.Owns
  others : ∀ path, path ≠ w.file.remotePath → stepped.2.1 path = fs path
  epochs : ∀ m ∈ stepped.2.2, m.epoch = w.file.epoch
  ends : stepped.1.phase = .done → ∃ progress m, stepped.2.2 = progress ++ [m] ∧
    m.isTerminal = true ∧ ∀ p ∈ progress, p.isTerminal = false
  goesOn : stepped.1.phase ≠ .done → ∀ m ∈ stepped.2.2, m.isTerminal = false

/-- A step that goes on without a message and leaves the remote files. -/
theorem Steps.goOn {phase : Phase} (hphase : w.phase ≠ .done) (hnext : phase ≠ .done)
    (howns : ({ w with phase } : Worker).Owns)
    (hothers : ∀ path, path ≠ w.file.remotePath → fs' path = fs path) :
    Steps w fs (w.goOn fs' phase) where
  running := hphase
  file := rfl
  owns := howns
  others := hothers
  epochs := fun _ hm => nomatch hm
  ends := fun h => absurd h hnext
  goesOn := fun _ _ hm => nomatch hm

/-- A step that ends the worker with one message. -/
theorem Steps.exit {m : UploadMsg} (hphase : w.phase ≠ .done) (hepoch : m.epoch = w.file.epoch)
    (hm : m.isTerminal = true) (hothers : ∀ path, path ≠ w.file.remotePath → fs' path = fs path) :
    Steps w fs (w.exit fs' [m]) where
  running := hphase
  file := rfl
  owns := fun _ h => nomatch h
  others := hothers
  epochs := by
    intro m' hm'
    rw [List.mem_singleton.mp hm', hepoch]
  ends := fun _ => ⟨[], m, rfl, hm, fun _ hp => nomatch hp⟩
  goesOn := fun h => absurd rfl h

theorem Steps.fail (hphase : w.phase ≠ .done) (kind : UploadFailureKind) (cause : String)
    (hothers : ∀ path, path ≠ w.file.remotePath → fs' path = fs path) :
    Steps w fs (w.fail fs' kind cause) :=
  .exit hphase rfl rfl hothers

theorem steps_openLocal (hphase : w.phase ≠ .done) (result : Except String Unit) :
    Steps w fs (w.openLocal fs result) := by
  rcases result with err | _
  · exact .fail hphase _ _ fun _ _ => rfl
  · exact .goOn hphase nofun nofun fun _ _ => rfl

theorem steps_openWrite (hphase : w.phase ≠ .done) (result : Except SftpChannelError Unit) :
    Steps w fs (w.openWrite fs result) := by
  rcases result with err | _
  · unfold openWrite
    simp only
    split
    · exact .goOn hphase nofun nofun fun _ _ => rfl
    · exact .fail hphase _ _ fun _ _ => rfl
  · refine .goOn hphase nofun (fun remote h => ?_) fun _ hne => Files.create_of_ne hne
    rw [← Option.some.inj h]

theorem steps_openCreate (hphase : w.phase ≠ .done) (result : Except SftpChannelError Unit) :
    Steps w fs (w.openCreate fs result) := by
  rcases result with err | _
  · exact .fail hphase _ _ fun _ _ => rfl
  · refine .goOn hphase nofun (fun remote h => ?_) fun _ hne => Files.openAppend_of_ne hne
    rw [← Option.some.inj h]

theorem steps_loop (hphase : w.phase ≠ .done) {remote : Files.Handle Path} {sent : UInt64}
    (howns : remote.path = w.file.remotePath) : Steps w fs (w.loop fs cancel remote sent) := by
  unfold loop
  split
  · split
    · exact .goOn hphase nofun nofun fun _ _ => rfl
    · exact .exit hphase rfl rfl fun _ _ => rfl
  · refine .goOn hphase nofun (fun remote' h => ?_) fun _ _ => rfl
    rw [← Option.some.inj h]
    exact howns

theorem steps_read (hphase : w.phase ≠ .done) {remote : Files.Handle Path} {sent : UInt64}
    (howns : remote.path = w.file.remotePath) (result : Except String (List UInt8)) :
    Steps w fs (w.read fs cancel remote sent result) := by
  rcases result with err | _ | ⟨b, buf⟩
  · exact .fail hphase _ _ fun _ _ => rfl
  · exact .goOn hphase nofun nofun fun _ _ => rfl
  · unfold read
    simp only
    split
    · exact .exit hphase rfl rfl fun _ _ => rfl
    · refine .goOn hphase nofun (fun remote' h => ?_) fun _ _ => rfl
      rw [← Option.some.inj h]
      exact howns

theorem steps_write (hphase : w.phase ≠ .done) {remote : Files.Handle Path} {sent : UInt64}
    {buf : List UInt8} (howns : remote.path = w.file.remotePath)
    (result : Except (ℕ × String) Bool) : Steps w fs (w.write fs remote sent buf result) := by
  rcases result with ⟨written, err⟩ | emit
  · exact .fail hphase _ _ fun _ hne => Files.write_of_ne (howns ▸ hne)
  · exact
      { running := hphase
        file := rfl
        owns := by
          intro remote' h
          rw [← Option.some.inj h]
          exact howns
        others := fun _ hne => Files.write_of_ne (howns ▸ hne)
        epochs := by
          intro m hm
          rcases emit with _ | _
          · cases hm
          · rw [List.mem_singleton.mp hm]
            rfl
        ends := nofun
        goesOn := by
          intro _ m hm
          rcases emit with _ | _
          · cases hm
          · rw [List.mem_singleton.mp hm]
            rfl }

theorem steps_finish (hphase : w.phase ≠ .done) : Steps w fs (w.finish fs) where
  running := hphase
  file := rfl
  owns := fun _ h => nomatch h
  others := fun _ _ => rfl
  epochs := by
    intro m hm
    rcases List.mem_pair.mp hm with rfl | rfl
    · rfl
    · rfl
  ends := by
    intro _
    refine ⟨[_], _, rfl, rfl, fun p hp => ?_⟩
    rw [List.mem_singleton.mp hp]
    rfl
  goesOn := fun h => absurd rfl h

theorem steps_of_step (howns : w.Owns) {stepped : Stepped}
    (h : w.step fs cancel answer = some stepped) : Steps w fs stepped := by
  unfold step at h
  split at h
  · next hphase =>
    obtain rfl := Option.some.inj h
    exact .goOn (by rw [hphase]; nofun) nofun nofun fun _ _ => rfl
  · next hphase =>
    obtain rfl := Option.some.inj h
    exact steps_openLocal (by rw [hphase]; nofun) _
  · next hphase =>
    obtain rfl := Option.some.inj h
    exact steps_openWrite (by rw [hphase]; nofun) _
  · next hphase =>
    obtain rfl := Option.some.inj h
    exact steps_openCreate (by rw [hphase]; nofun) _
  · next hphase =>
    obtain rfl := Option.some.inj h
    exact steps_loop (by rw [hphase]; nofun) (howns _ (by unfold handle; rw [hphase]))
  · next hphase =>
    obtain rfl := Option.some.inj h
    exact steps_read (by rw [hphase]; nofun) (howns _ (by unfold handle; rw [hphase])) _
  · next hphase =>
    obtain rfl := Option.some.inj h
    exact steps_write (by rw [hphase]; nofun) (howns _ (by unfold handle; rw [hphase])) _
  · next hphase =>
    obtain rfl := Option.some.inj h
    exact steps_finish (by rw [hphase]; nofun)
  · cases h

/-- A worker that is not done takes a step under some answer, whatever its cancel flag. -/
theorem exists_step (h : w.phase ≠ .done) (fs : Files.Store Path) (cancel : Bool) :
    ∃ answer, (w.step fs cancel answer).isSome = true := by
  unfold step
  rcases hphase : w.phase with _ | _ | _ | _ | ⟨remote, sent⟩ | ⟨remote, sent⟩ | ⟨remote, sent, buf⟩ |
    _ | _
  · exact ⟨.permit, rfl⟩
  · exact ⟨.openLocal (.ok ()), rfl⟩
  · exact ⟨.openWrite (.ok ()), rfl⟩
  · exact ⟨.openCreate (.ok ()), rfl⟩
  · exact ⟨.go, rfl⟩
  · exact ⟨.read (.ok []), rfl⟩
  · exact ⟨.write (.ok false), rfl⟩
  · exact ⟨.flush, rfl⟩
  · exact absurd hphase h

end Worker

end Termua.Panel
