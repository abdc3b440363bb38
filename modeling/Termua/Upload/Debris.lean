import Mathlib
import Termua.Lib.Files
import Termua.Lib.Run
import Termua.Upload.Worker

/-!
# What an upload leaves behind

`upload_one_file` of `gpui_term/src/terminal.rs` beside the remote files: opening the remote file
creates it, and of the ways to end without `Finished` only `finalize_cancelled` removes it again.
-/

namespace Termua.Upload

open Transition

/-- What reaches the server with a step: the bytes of a chunk that arrive, and whether a file is
removed. -/
structure Reply where
  written : List UInt8 := []
  removed : Bool := true

/-- A worker with the cancel flag of its file, the remote files and the messages that it sent. -/
structure RemoteUpload where
  worker : Worker
  cancel : Bool := false
  remotePath : String
  handle : Files.Handle String
  remote : Files.Store String
  sent : List UploadMsg := []

namespace RemoteUpload

/-- The user cancels, or the worker's next await is answered. -/
inductive Event
  | cancel
  | answer (a : Answer) (reply : Reply)

/-- The remote files after a step, and the open file. -/
def serve (s : RemoteUpload) (a : Answer) (reply : Reply) :
    Files.Store String × Files.Handle String :=
  match s.worker.phase, a with
  | .openingRemote, .openRemote (.ok _) => Files.create s.remote s.remotePath
  | .writing _ _, .write _ _ => Files.write s.remote s.handle reply.written
  | .closing (.cancelled _), .go =>
    (if reply.removed then Files.remove s.remote s.remotePath else s.remote, s.handle)
  | _, _ => (s.remote, s.handle)

/-- One step; `none` when the answer is not the one that the worker awaits. -/
def step (s : RemoteUpload) : Event → Option RemoteUpload
  | .cancel => some { s with cancel := true }
  | .answer a reply =>
    (s.worker.step s.cancel a).map fun (worker, msgs) =>
      { s with
        worker
        remote := (s.serve a reply).1
        handle := (s.serve a reply).2
        sent := s.sent ++ msgs }

/-- The worker is spawned. -/
def start (fileIndex : ℕ) (file : PlannedUploadFile) (remotePath : String)
    (remote : Files.Store String) : RemoteUpload where
  worker := ⟨fileIndex, file, .starting⟩
  remotePath := remotePath
  handle := ⟨remotePath, some 0⟩
  remote := remote

/-- Remote removals succeed. -/
def Removes (_ : RemoteUpload) : Event → Prop
  | .answer _ reply => reply.removed = true
  | _ => True

instance (s : RemoteUpload) : (e : Event) → Decidable (Removes s e)
  | .answer _ reply => inferInstanceAs (Decidable (reply.removed = true))
  | .cancel => isTrue trivial

/-- A failure once the remote file is open: of the local file, or of a write. -/
def FailsLate : Event → Prop
  | .answer (.openLocal (.error _)) _ | .answer (.read (.error _)) _
  | .answer (.write (.error _) _) _ => True
  | _ => False

/-- The message says that the upload has finished. -/
def IsFinished : UploadMsg → Prop
  | .finished .. => True
  | _ => False

variable {fileIndex : ℕ} {file : PlannedUploadFile} {remotePath : String}
  {r : Files.Store String} {s s' : RemoteUpload} {e : Event} {es : List Event} {a : Answer}
  {reply : Reply} {msgs : List UploadMsg}

/-- What holds in a phase of whether there is a remote file, whether there was a late failure, and
whether the upload has finished. -/
def Leaves (there failed finished : Prop) : Phase → Prop
  | .starting | .acquiring | .openingRemote | .concluding (.cancelled _) => ¬ there ∧ ¬ failed
  | .closing (.failed _ _) | .concluding (.failed _ _) => there ∧ failed
  | .done => finished ∨ (there ↔ failed)
  | _ => there ∧ ¬ failed

/-- The remote file is there as the phase has it. -/
structure DebrisInv (remotePath : String) (es : List Event) (s : RemoteUpload) : Prop where
  path : s.remotePath = remotePath
  leaves : Leaves ((s.remote remotePath).isSome = true) (∃ e ∈ es, FailsLate e)
    (∃ m ∈ s.sent, IsFinished m) s.worker.phase

/-- A step that is no late failure keeps what holds of the failures. -/
theorem exists_failsLate_concat (h : ¬ FailsLate e) :
    (∃ e' ∈ es ++ [e], FailsLate e') ↔ ∃ e' ∈ es, FailsLate e' := by
  constructor
  · rintro ⟨e', he', hfails⟩
    rcases List.mem_append.mp he' with he' | he'
    · exact ⟨e', he', hfails⟩
    · exact absurd (List.mem_singleton.mp he' ▸ hfails) h
  · rintro ⟨e', he', hfails⟩
    exact ⟨e', List.mem_append_left _ he', hfails⟩

theorem exists_failsLate_of_last (h : FailsLate e) : ∃ e' ∈ es ++ [e], FailsLate e' :=
  ⟨e, List.mem_append_right _ (List.mem_singleton_self e), h⟩

/-- The end of an upload without a late failure and without a remote file. -/
theorem leaves_done_of_not {there failed finished : Prop} (h : ¬ there ∧ ¬ failed) :
    Leaves there failed finished .done :=
  .inr (iff_of_false h.1 h.2)

/-- The end of an upload with a late failure and a remote file. -/
theorem leaves_done_of_both {there failed finished : Prop} (h : there ∧ failed) :
    Leaves there failed finished .done :=
  .inr (iff_of_true h.1 h.2)

/-- What the state after a step has to meet. -/
def After (remotePath : String) (es : List Event) (s : RemoteUpload) (a : Answer) (reply : Reply)
    (w : Worker) (msgs : List UploadMsg) : Prop :=
  Leaves (((s.serve a reply).1 remotePath).isSome = true)
    (∃ e ∈ es ++ [.answer a reply], FailsLate e) (∃ m ∈ s.sent ++ msgs, IsFinished m) w.phase

/-- A step that leaves the remote files and is no late failure. -/
theorem after_quiet {w : Worker} (hserve : (s.serve a reply).1 = s.remote)
    (hfails : ¬ FailsLate (.answer a reply))
    (h : Leaves ((s.remote remotePath).isSome = true) (∃ e ∈ es, FailsLate e)
      (∃ m ∈ s.sent ++ msgs, IsFinished m) w.phase) : After remotePath es s a reply w msgs := by
  unfold After
  rw [hserve, exists_failsLate_concat hfails]
  exact h

/-- Without a cancelled file to remove, the file system is as it was. -/
theorem serve_go (h : ∀ sent, s.worker.phase ≠ .closing (.cancelled sent)) :
    (s.serve .go reply).1 = s.remote := by
  unfold serve
  split
  · next hanswer => cases hanswer
  · next hanswer => cases hanswer
  · next sent hphase _ => exact absurd hphase (h sent)
  · rfl

theorem serve_openLocal (result : Except String Unit) :
    (s.serve (.openLocal result) reply).1 = s.remote := by
  unfold serve
  split
  · next hanswer => cases hanswer
  · next hanswer => cases hanswer
  · next hanswer => cases hanswer
  · rfl

theorem serve_read (result : Except String UInt64) :
    (s.serve (.read result) reply).1 = s.remote := by
  unfold serve
  split
  · next hanswer => cases hanswer
  · next hanswer => cases hanswer
  · next hanswer => cases hanswer
  · rfl

theorem isSome_serve_write (h : ∃ total sent, s.worker.phase = .writing total sent)
    (result : Except String Unit) (emit : Bool) :
    ((s.serve (.write result emit) reply).1 remotePath).isSome = (s.remote remotePath).isSome := by
  obtain ⟨total, sent, hphase⟩ := h
  unfold serve
  rw [hphase]
  exact Files.isSome_write

theorem DebrisInv.go (h : DebrisInv remotePath es s) (hremoved : reply.removed = true) {w : Worker}
    (hs : s.worker.go s.cancel = some (w, msgs)) : After remotePath es s .go reply w msgs := by
  have hleaves := h.leaves
  unfold Worker.go at hs
  split at hs
  · next hphase =>
    have hserve : (s.serve .go reply).1 = s.remote := serve_go (by rw [hphase]; nofun)
    rw [hphase] at hleaves
    split at hs
    · obtain ⟨rfl, rfl⟩ := Prod.mk.inj (Option.some.inj hs)
      exact after_quiet hserve id (leaves_done_of_not hleaves)
    · obtain ⟨rfl, rfl⟩ := Prod.mk.inj (Option.some.inj hs)
      exact after_quiet hserve id hleaves
  · next hphase =>
    have hserve : (s.serve .go reply).1 = s.remote := serve_go (by rw [hphase]; nofun)
    rw [hphase] at hleaves
    obtain ⟨rfl, rfl⟩ := Prod.mk.inj (Option.some.inj hs)
    exact after_quiet hserve id hleaves
  · next hphase =>
    have hserve : (s.serve .go reply).1 = s.remote := serve_go (by rw [hphase]; nofun)
    rw [hphase] at hleaves
    split at hs
    · obtain ⟨rfl, rfl⟩ := Prod.mk.inj (Option.some.inj hs)
      exact after_quiet hserve id hleaves
    · obtain ⟨rfl, rfl⟩ := Prod.mk.inj (Option.some.inj hs)
      exact after_quiet hserve id hleaves
  · next outcome hphase =>
    rw [hphase] at hleaves
    obtain ⟨rfl, rfl⟩ := Prod.mk.inj (Option.some.inj hs)
    rcases outcome with sent | sent | ⟨sent, error⟩
    · exact after_quiet (serve_go (by rw [hphase]; nofun)) id hleaves
    · -- the remote file is removed
      have hserve : (s.serve .go reply).1 remotePath = none := by
        unfold serve
        rw [hphase]
        simp only
        rw [if_pos hremoved, h.path]
        exact Files.remove_self
      unfold After
      rw [hserve, exists_failsLate_concat id]
      exact ⟨Bool.false_ne_true, hleaves.2⟩
    · exact after_quiet (serve_go (by rw [hphase]; nofun)) id hleaves
  · next outcome hphase =>
    rw [hphase] at hleaves
    obtain ⟨rfl, rfl⟩ := Prod.mk.inj (Option.some.inj hs)
    refine after_quiet (serve_go (by rw [hphase]; nofun)) id ?_
    rcases outcome with sent | sent | ⟨sent, error⟩
    · exact .inl ⟨_, List.mem_append_right _ (List.mem_singleton_self _), trivial⟩
    · exact leaves_done_of_not hleaves
    · exact leaves_done_of_both hleaves
  · cases hs

theorem DebrisInv.openRemote (h : DebrisInv remotePath es s) {result : Except String Unit}
    {w : Worker} (hs : s.worker.openRemote result = some (w, msgs)) :
    After remotePath es s (.openRemote result) reply w msgs := by
  have hleaves := h.leaves
  unfold Worker.openRemote at hs
  split at hs
  · next hphase =>
    rw [hphase] at hleaves
    obtain ⟨rfl, rfl⟩ := Prod.mk.inj (Option.some.inj hs)
    have hserve : (s.serve (.openRemote (.ok ())) reply).1 remotePath = some [] := by
      unfold serve
      rw [hphase, h.path]
      exact Files.create_self
    unfold After
    rw [hserve, exists_failsLate_concat id]
    exact ⟨rfl, hleaves.2⟩
  · next hphase =>
    rw [hphase] at hleaves
    obtain ⟨rfl, rfl⟩ := Prod.mk.inj (Option.some.inj hs)
    exact after_quiet (by unfold serve; rw [hphase]) id (leaves_done_of_not hleaves)
  · cases hs

theorem DebrisInv.openLocal (h : DebrisInv remotePath es s) {result : Except String Unit}
    {w : Worker} (hs : s.worker.openLocal result = some (w, msgs)) :
    After remotePath es s (.openLocal result) reply w msgs := by
  have hleaves := h.leaves
  unfold Worker.openLocal at hs
  split at hs
  · next hphase =>
    rw [hphase] at hleaves
    obtain ⟨rfl, rfl⟩ := Prod.mk.inj (Option.some.inj hs)
    exact after_quiet (serve_openLocal _) id hleaves
  · next err hphase =>
    rw [hphase] at hleaves
    obtain ⟨rfl, rfl⟩ := Prod.mk.inj (Option.some.inj hs)
    unfold After
    rw [serve_openLocal]
    exact leaves_done_of_both ⟨hleaves.1, exists_failsLate_of_last trivial⟩
  · cases hs

theorem DebrisInv.read (h : DebrisInv remotePath es s) {result : Except String UInt64}
    {w : Worker} (hs : s.worker.read result = some (w, msgs)) :
    After remotePath es s (.read result) reply w msgs := by
  have hleaves := h.leaves
  unfold Worker.read at hs
  split at hs
  · next n hphase =>
    rw [hphase] at hleaves
    split at hs
    · obtain ⟨rfl, rfl⟩ := Prod.mk.inj (Option.some.inj hs)
      exact after_quiet (serve_read _) id hleaves
    · obtain ⟨rfl, rfl⟩ := Prod.mk.inj (Option.some.inj hs)
      exact after_quiet (serve_read _) id hleaves
  · next err hphase =>
    rw [hphase] at hleaves
    obtain ⟨rfl, rfl⟩ := Prod.mk.inj (Option.some.inj hs)
    unfold After
    rw [serve_read]
    exact ⟨hleaves.1, exists_failsLate_of_last trivial⟩
  · cases hs

theorem DebrisInv.write (h : DebrisInv remotePath es s) {result : Except String Unit} {emit : Bool}
    {w : Worker} (hs : s.worker.write result emit = some (w, msgs)) :
    After remotePath es s (.write result emit) reply w msgs := by
  have hleaves := h.leaves
  unfold Worker.write at hs
  split at hs
  · next hphase =>
    rw [hphase] at hleaves
    obtain ⟨rfl, rfl⟩ := Prod.mk.inj (Option.some.inj hs)
    unfold After
    rw [isSome_serve_write ⟨_, _, hphase⟩, exists_failsLate_concat id]
    exact hleaves
  · next err hphase =>
    rw [hphase] at hleaves
    obtain ⟨rfl, rfl⟩ := Prod.mk.inj (Option.some.inj hs)
    unfold After
    rw [isSome_serve_write ⟨_, _, hphase⟩]
    exact ⟨hleaves.1, exists_failsLate_of_last trivial⟩
  · cases hs

theorem DebrisInv.step (h : DebrisInv remotePath es s) (hremoves : Removes s e)
    (hs : s.step e = some s') : DebrisInv remotePath (es ++ [e]) s' := by
  cases e with
  | cancel =>
    obtain rfl := Option.some.inj hs
    refine ⟨h.path, ?_⟩
    rw [exists_failsLate_concat id]
    exact h.leaves
  | answer a reply =>
    unfold RemoteUpload.step at hs
    obtain ⟨⟨w, msgs⟩, hstep, rfl⟩ := Option.map_eq_some_iff.mp hs
    refine ⟨h.path, ?_⟩
    show After remotePath es s a reply w msgs
    rcases a with _ | result | result | result | ⟨result, emit⟩
    · exact h.go hremoves hstep
    · exact h.openRemote hstep
    · exact h.openLocal hstep
    · exact h.read hstep
    · exact h.write hstep

theorem debrisInv_run (hnone : r remotePath = none)
    (h : Run (Guarded (ofPartial RemoteUpload.step) Removes) (start fileIndex file remotePath r) es s) :
    DebrisInv remotePath es s := by
  refine h.historyInvariant (I := DebrisInv remotePath) ⟨rfl, ?_⟩
    fun _ _ _ _ _ hinv hs => hinv.step hs.1 hs.2
  constructor
  · show ¬ (r remotePath).isSome = true
    rw [hnone]
    exact Bool.false_ne_true
  · rintro ⟨_, hm, -⟩
    cases hm

/-- An upload that ends without `Finished` leaves no remote file exactly where nothing failed once the
remote file was open. -/
theorem no_debris_iff (hnone : r remotePath = none)
    (h : Run (Guarded (ofPartial RemoteUpload.step) Removes) (start fileIndex file remotePath r) es s)
    (hdone : s.worker.phase = .done) (hunfinished : ∀ m ∈ s.sent, ¬ IsFinished m) :
    s.remote remotePath = none ↔ ∀ e ∈ es, ¬ FailsLate e := by
  have hleaves := (debrisInv_run hnone h).leaves
  rw [hdone] at hleaves
  have hiff := hleaves.resolve_left fun ⟨m, hm, hfinished⟩ => hunfinished m hm hfinished
  rw [← Option.not_isSome_iff_eq_none, hiff]
  simp

/-- A file that is cancelled once the remote file is there. -/
def cancelledRun : List Event :=
  [.answer .go {}, .answer .go {}, .answer (.openRemote (.ok ())) {},
    .answer (.openLocal (.ok ())) {}, .cancel, .answer .go {}, .answer .go {}, .answer .go {}]

/-- A file that cannot be opened once the remote file is there. -/
def unreadableRun : List Event :=
  [.answer .go {}, .answer .go {}, .answer (.openRemote (.ok ())) {},
    .answer (.openLocal (.error "denied")) {}]

/-- An upload to a remote file system without files. -/
def fresh : RemoteUpload := start 0 ⟨"/home/a", "a", 1⟩ "/srv/a" fun _ => none

theorem no_debris_cancelledRun :
    ∃ s, Run (Guarded (ofPartial RemoteUpload.step) Removes) fresh cancelledRun s ∧
      s.worker.phase = .done ∧ s.remote "/srv/a" = none := by
  obtain ⟨s, hrun, hs⟩ := exists_run_of_any fresh cancelledRun
    (f := fun s e => if Removes s e then s.step e else none)
    (p := fun s => decide (s.worker.phase = .done) &&
      decide (s.sent = [.progress 0 "a" 0 1, .cancelled 0 "a" 0 1])) (by decide)
  rw [← guarded_ofPartial] at hrun
  obtain ⟨hdone, hsent⟩ := (Bool.and_eq_true _ _).mp hs
  refine ⟨s, hrun, of_decide_eq_true hdone, ?_⟩
  refine (no_debris_iff rfl hrun (of_decide_eq_true hdone) ?_).mpr ?_
  · rw [of_decide_eq_true hsent]
    simp [IsFinished]
  · simp [cancelledRun, FailsLate]

theorem not_no_debris_unreadableRun :
    ∃ s, Run (Guarded (ofPartial RemoteUpload.step) Removes) fresh unreadableRun s ∧
      s.worker.phase = .done ∧
      s.sent = [.failed 0 "a" 0 1 "Failed to open local file /home/a: denied"] ∧
      s.remote "/srv/a" = some [] := by
  obtain ⟨s, hrun, hs⟩ := exists_run_of_any fresh unreadableRun
    (f := fun s e => if Removes s e then s.step e else none)
    (p := fun s => decide (s.worker.phase = .done) &&
      (decide (s.sent = [.failed 0 "a" 0 1 "Failed to open local file /home/a: denied"]) &&
        decide (s.remote "/srv/a" = some []))) (by decide)
  rw [← guarded_ofPartial] at hrun
  obtain ⟨hdone, hs⟩ := (Bool.and_eq_true _ _).mp hs
  obtain ⟨hsent, hremote⟩ := (Bool.and_eq_true _ _).mp hs
  exact ⟨s, hrun, of_decide_eq_true hdone, of_decide_eq_true hsent, of_decide_eq_true hremote⟩

end RemoteUpload

end Termua.Upload
