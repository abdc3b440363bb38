import Mathlib

/-!
# An upload worker

`upload_one_file` of `gpui_term/src/terminal.rs`, with `copy_local_to_remote` and the `finalize_*`
functions, one step for what it does between two suspensions. What the file system, the SFTP
connection and the permit pool answer comes with the step. `sent` and `size` are `u64`.
-/

namespace Termua.Upload

/-- `PlannedUploadFile`: the local path, the name and the size. -/
structure PlannedUploadFile where
  path : String
  remoteName : String
  size : UInt64
deriving DecidableEq, Repr

/-- `UploadMsg`. -/
inductive UploadMsg
  | progress (fileIndex : ℕ) (file : String) (sent total : UInt64)
  | finished (fileIndex : ℕ) (file : String) (bytes : UInt64)
  | cancelled (fileIndex : ℕ) (file : String) (sent total : UInt64)
  | failed (fileIndex : ℕ) (file : String) (sent total : UInt64) (error : String)
deriving DecidableEq, Repr

namespace UploadMsg

def fileIndex : UploadMsg → ℕ
  | progress i _ _ _ | finished i _ _ | cancelled i _ _ _ | failed i _ _ _ _ => i

def file : UploadMsg → String
  | progress _ f _ _ | finished _ f _ | cancelled _ f _ _ | failed _ f _ _ _ => f

/-- The message ends its file. -/
def isTerminal : UploadMsg → Bool
  | progress .. => false
  | _ => true

end UploadMsg

/-- `CopyOutcome`. -/
inductive CopyOutcome
  | finished (sent : UInt64)
  | cancelled (sent : UInt64)
  | failed (sent : UInt64) (error : String)
deriving DecidableEq, Repr

/-- Where `upload_one_file` is. -/
inductive Phase
  /-- Before the first look at the cancel flag. -/
  | starting
  /-- It awaits `upload_pool.acquire()`. -/
  | acquiring
  | openingRemote
  | openingLocal
  /-- At the top of the copy loop. -/
  | copying (sent : UInt64)
  | reading (sent : UInt64)
  | writing (sent : UInt64) (n : UInt64)
  /-- In `finalize_*`, before the remote file is closed. -/
  | closing (outcome : CopyOutcome)
  /-- In `finalize_*`, before the last message. -/
  | concluding (outcome : CopyOutcome)
  | done
deriving DecidableEq, Repr

/-- A worker that was started. -/
structure Worker where
  fileIndex : ℕ
  file : PlannedUploadFile
  phase : Phase
deriving DecidableEq, Repr

/-- `u64::saturating_add`. -/
def saturatingAdd (a b : UInt64) : UInt64 :=
  if a.toNat + b.toNat < UInt64.size then a + b else -1

/-- What the worker's next await answers. -/
inductive Answer
  /-- The worker runs on without an answer. -/
  | go
  | openRemote (result : Except String Unit)
  | openLocal (result : Except String Unit)
  | read (result : Except String UInt64)
  /-- The chunk was written, and whether the last progress message is 200 ms old. -/
  | write (result : Except String Unit) (emit : Bool)

namespace Worker

/-- `send_progress`. -/
def progress (w : Worker) (sent : UInt64) : UploadMsg :=
  .progress w.fileIndex w.file.remoteName (min sent w.file.size) w.file.size

/-- `send_failed` before the copy has begun. -/
def openFailed (w : Worker) (error : String) : UploadMsg :=
  .failed w.fileIndex w.file.remoteName 0 w.file.size error

/-- The last message of `finalize_success`, `finalize_cancelled` and `finalize_failed`. -/
def conclusion (w : Worker) : CopyOutcome → UploadMsg
  | .finished sent => .finished w.fileIndex w.file.remoteName sent
  | .cancelled sent => .cancelled w.fileIndex w.file.remoteName (min sent w.file.size) w.file.size
  | .failed sent error =>
    .failed w.fileIndex w.file.remoteName (min sent w.file.size) w.file.size error

/-- The progress message that `finalize_success` and `finalize_cancelled` send once the remote file
is closed. -/
def lastProgress (w : Worker) : CopyOutcome → List UploadMsg
  | .finished sent | .cancelled sent => [w.progress sent]
  | .failed _ _ => []

/-- The parts that await nothing but the permit and the channel, under the current value of the
file's cancel flag. -/
def go (w : Worker) (cancel : Bool) : Option (Worker × List UploadMsg) :=
  match w.phase with
  | .starting =>
    if cancel then
      some ({ w with phase := .done }, [.cancelled w.fileIndex w.file.remoteName 0 w.file.size])
    else some ({ w with phase := .acquiring }, [])
  | .acquiring => some ({ w with phase := .openingRemote }, [])
  | .copying sent =>
    if cancel then some ({ w with phase := .closing (.cancelled sent) }, [])
    else some ({ w with phase := .reading sent }, [])
  | .closing outcome => some ({ w with phase := .concluding outcome }, w.lastProgress outcome)
  | .concluding outcome => some ({ w with phase := .done }, [w.conclusion outcome])
  | _ => none

/-- After `sftp.open_with_mode`. -/
def openRemote (w : Worker) (result : Except String Unit) : Option (Worker × List UploadMsg) :=
  match w.phase, result with
  | .openingRemote, .ok _ => some ({ w with phase := .openingLocal }, [])
  | .openingRemote, .error err =>
    some ({ w with phase := .done }, [w.openFailed ("SFTP open failed: " ++ err)])
  | _, _ => none

/-- After `smol::fs::File::open`. -/
def openLocal (w : Worker) (result : Except String Unit) : Option (Worker × List UploadMsg) :=
  match w.phase, result with
  | .openingLocal, .ok _ => some ({ w with phase := .copying 0 }, [])
  | .openingLocal, .error err =>
    some ({ w with phase := .done },
      [w.openFailed ("Failed to open local file " ++ w.file.path ++ ": " ++ err)])
  | _, _ => none

/-- After `local.read`, of which no bytes are the end of the file. -/
def read (w : Worker) (result : Except String UInt64) : Option (Worker × List UploadMsg) :=
  match w.phase, result with
  | .reading sent, .ok n =>
    if n = 0 then some ({ w with phase := .closing (.finished sent) }, [])
    else some ({ w with phase := .writing sent n }, [])
  | .reading sent, .error err =>
    some ({ w with
      phase := .closing
        (.failed sent ("Failed to read local file " ++ w.file.path ++ ": " ++ err)) }, [])
  | _, _ => none

/-- After `remote.write_all`; `emit` when the last progress message is 200 ms old. -/
def write (w : Worker) (result : Except String Unit) (emit : Bool) :
    Option (Worker × List UploadMsg) :=
  match w.phase, result with
  | .writing sent n, .ok _ =>
    some ({ w with phase := .copying (saturatingAdd sent n) },
      if emit then [w.progress (saturatingAdd sent n)] else [])
  | .writing sent _, .error err =>
    some ({ w with phase := .closing (.failed sent ("SFTP write failed: " ++ err)) }, [])
  | _, _ => none

/-- One step of a worker, with the messages it sends; `none` when the answer is not the one it
awaits. -/
def step (w : Worker) (cancel : Bool) : Answer → Option (Worker × List UploadMsg)
  | .go => w.go cancel
  | .openRemote result => w.openRemote result
  | .openLocal result => w.openLocal result
  | .read result => w.read result
  | .write result emit => w.write result emit

/-! ## What a step does -/

variable {w w' : Worker} {cancel : Bool} {answer : Answer} {msgs : List UploadMsg}

/-- The messages carry the worker's index and file name. -/
def Names (w : Worker) (msgs : List UploadMsg) : Prop :=
  ∀ m ∈ msgs, m.fileIndex = w.fileIndex ∧ m.file = w.file.remoteName

theorem names_conclusion (w : Worker) (outcome : CopyOutcome) : w.Names [w.conclusion outcome] := by
  intro m hm
  obtain rfl := List.mem_singleton.mp hm
  obtain _ | _ | _ := outcome <;> exact ⟨rfl, rfl⟩

theorem names_lastProgress (w : Worker) (outcome : CopyOutcome) :
    w.Names (w.lastProgress outcome) ∧ ∀ m ∈ w.lastProgress outcome, m.isTerminal = false := by
  unfold Names
  obtain _ | _ | _ := outcome <;> simp [lastProgress, progress, UploadMsg.fileIndex,
    UploadMsg.file, UploadMsg.isTerminal]

theorem isTerminal_conclusion (w : Worker) (outcome : CopyOutcome) :
    (w.conclusion outcome).isTerminal = true := by
  obtain _ | _ | _ := outcome <;> rfl

/-- The last step of a worker sends its one terminal message, and the others send none. -/
structure Steps (w w' : Worker) (msgs : List UploadMsg) : Prop where
  running : w.phase ≠ .done
  fileIndex : w'.fileIndex = w.fileIndex
  file : w'.file = w.file
  names : w.Names msgs
  ends : w'.phase = .done → ∃ m, msgs = [m] ∧ m.isTerminal = true
  goesOn : w'.phase ≠ .done → ∀ m ∈ msgs, m.isTerminal = false

/-- A step that ends the worker with one terminal message. -/
theorem Steps.end {m : UploadMsg} (hphase : w.phase ≠ .done) (hnames : w.Names [m])
    (hm : m.isTerminal = true) : Steps w { w with phase := .done } [m] where
  running := hphase
  fileIndex := rfl
  file := rfl
  names := hnames
  ends _ := ⟨m, rfl, hm⟩
  goesOn h := absurd rfl h

/-- A step that goes on to another phase. -/
theorem Steps.goOn {phase : Phase} (hphase : w.phase ≠ .done) (hnext : phase ≠ .done)
    (hnames : w.Names msgs) (hmsgs : ∀ m ∈ msgs, m.isTerminal = false) :
    Steps w { w with phase := phase } msgs where
  running := hphase
  fileIndex := rfl
  file := rfl
  names := hnames
  ends h := absurd h hnext
  goesOn _ := hmsgs

/-- A step that goes on without a message. -/
theorem Steps.quiet {phase : Phase} (hphase : w.phase ≠ .done) (hnext : phase ≠ .done) :
    Steps w { w with phase := phase } [] :=
  .goOn hphase hnext (by simp [Names]) (by simp)

theorem steps_go (h : w.go cancel = some (w', msgs)) : Steps w w' msgs := by
  unfold go at h
  -- phase by phase, with a look at the flag in two of them
  split at h
  · next hphase =>
    have hrunning : w.phase ≠ .done := by simp [hphase]
    by_cases hcancel : cancel
    · rw [if_pos hcancel] at h
      obtain ⟨rfl, rfl⟩ := Prod.mk.inj (Option.some.inj h)
      exact .end hrunning (by simp [Names, UploadMsg.fileIndex, UploadMsg.file]) rfl
    · rw [if_neg hcancel] at h
      obtain ⟨rfl, rfl⟩ := Prod.mk.inj (Option.some.inj h)
      exact .quiet hrunning nofun
  · next hphase =>
    obtain ⟨rfl, rfl⟩ := Prod.mk.inj (Option.some.inj h)
    exact .quiet (by simp [hphase]) nofun
  · next hphase =>
    have hrunning : w.phase ≠ .done := by simp [hphase]
    by_cases hcancel : cancel
    · rw [if_pos hcancel] at h
      obtain ⟨rfl, rfl⟩ := Prod.mk.inj (Option.some.inj h)
      exact .quiet hrunning nofun
    · rw [if_neg hcancel] at h
      obtain ⟨rfl, rfl⟩ := Prod.mk.inj (Option.some.inj h)
      exact .quiet hrunning nofun
  · next outcome hphase =>
    obtain ⟨rfl, rfl⟩ := Prod.mk.inj (Option.some.inj h)
    obtain ⟨hnames, hmsgs⟩ := names_lastProgress w outcome
    exact .goOn (by simp [hphase]) nofun hnames hmsgs
  · next outcome hphase =>
    obtain ⟨rfl, rfl⟩ := Prod.mk.inj (Option.some.inj h)
    exact .end (by simp [hphase]) (names_conclusion w outcome) (isTerminal_conclusion w outcome)
  · cases h

theorem names_openFailed (w : Worker) (error : String) : w.Names [w.openFailed error] := by
  simp [Names, openFailed, UploadMsg.fileIndex, UploadMsg.file]

theorem steps_openRemote {result : Except String Unit}
    (h : w.openRemote result = some (w', msgs)) : Steps w w' msgs := by
  unfold openRemote at h
  split at h
  · next hphase =>
    obtain ⟨rfl, rfl⟩ := Prod.mk.inj (Option.some.inj h)
    exact .quiet (by simp [hphase]) nofun
  · next hphase =>
    obtain ⟨rfl, rfl⟩ := Prod.mk.inj (Option.some.inj h)
    exact .end (by simp [hphase]) (names_openFailed w _) rfl
  · cases h

theorem steps_openLocal {result : Except String Unit}
    (h : w.openLocal result = some (w', msgs)) : Steps w w' msgs := by
  unfold openLocal at h
  split at h
  · next hphase =>
    obtain ⟨rfl, rfl⟩ := Prod.mk.inj (Option.some.inj h)
    exact .quiet (by simp [hphase]) nofun
  · next hphase =>
    obtain ⟨rfl, rfl⟩ := Prod.mk.inj (Option.some.inj h)
    exact .end (by simp [hphase]) (names_openFailed w _) rfl
  · cases h

theorem steps_read {result : Except String UInt64} (h : w.read result = some (w', msgs)) :
    Steps w w' msgs := by
  unfold read at h
  split at h
  · next n hphase =>
    have hrunning : w.phase ≠ .done := by simp [hphase]
    by_cases hn : n = 0
    · rw [if_pos hn] at h
      obtain ⟨rfl, rfl⟩ := Prod.mk.inj (Option.some.inj h)
      exact .quiet hrunning nofun
    · rw [if_neg hn] at h
      obtain ⟨rfl, rfl⟩ := Prod.mk.inj (Option.some.inj h)
      exact .quiet hrunning nofun
  · next hphase =>
    obtain ⟨rfl, rfl⟩ := Prod.mk.inj (Option.some.inj h)
    exact .quiet (by simp [hphase]) nofun
  · cases h

theorem steps_write {result : Except String Unit} {emit : Bool}
    (h : w.write result emit = some (w', msgs)) : Steps w w' msgs := by
  unfold write at h
  split at h
  · next hphase =>
    obtain ⟨rfl, rfl⟩ := Prod.mk.inj (Option.some.inj h)
    refine .goOn (by simp [hphase]) nofun ?_ ?_
    · unfold Names
      cases emit <;> simp [progress, UploadMsg.fileIndex, UploadMsg.file]
    · cases emit <;> simp [progress, UploadMsg.isTerminal]
  · next hphase =>
    obtain ⟨rfl, rfl⟩ := Prod.mk.inj (Option.some.inj h)
    exact .quiet (by simp [hphase]) nofun
  · cases h

theorem steps_of_step (h : w.step cancel answer = some (w', msgs)) : Steps w w' msgs := by
  rcases answer with _ | result | result | result | ⟨result, emit⟩
  · exact steps_go h
  · exact steps_openRemote h
  · exact steps_openLocal h
  · exact steps_read h
  · exact steps_write h

/-- A worker that is not done takes a step under some answer, whatever its cancel flag. -/
theorem exists_step (h : w.phase ≠ .done) (cancel : Bool) :
    ∃ answer, (w.step cancel answer).isSome = true := by
  rcases hphase : w.phase with _ | _ | _ | _ | sent | sent | ⟨sent, n⟩ | outcome | outcome | _
  · exact ⟨.go, by cases cancel <;> simp [step, go, hphase]⟩
  · exact ⟨.go, by simp [step, go, hphase]⟩
  · exact ⟨.openRemote (.ok ()), by simp [step, openRemote, hphase]⟩
  · exact ⟨.openLocal (.ok ()), by simp [step, openLocal, hphase]⟩
  · exact ⟨.go, by cases cancel <;> simp [step, go, hphase]⟩
  · exact ⟨.read (.ok 0), by simp [step, read, hphase]⟩
  · exact ⟨.write (.ok ()) false, by simp [step, write, hphase]⟩
  · exact ⟨.go, by simp [step, go, hphase]⟩
  · exact ⟨.go, by simp [step, go, hphase]⟩
  · exact absurd hphase h

end Worker

end Termua.Upload
