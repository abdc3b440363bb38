import Mathlib
import Termua.Panel.Worker

/-!
# An upload that is cancelled in the queue

One worker with the cancel flag of its file. The flag is looked at in the copy loop, after the remote
file was opened to be written anew; so a cancelled upload spares the file that was there exactly where
no open has touched it.
-/

namespace Termua.Panel

open Sftp (Path)
open Transition

/-- A worker, its cancel flag and the remote files, with the messages that it sent. -/
structure Upload where
  worker : Worker
  cancel : Bool := false
  remote : Files.Store Path
  sent : List UploadMsg := []

namespace Upload

/-- The user cancels, or the worker's next await is answered. -/
inductive Event
  | cancel
  | answer (a : Answer)

/-- One step; `none` when the answer is not the one that the worker awaits. -/
def step (s : Upload) : Event → Option Upload
  | .cancel => some { s with cancel := true }
  | .answer a =>
    (s.worker.step s.remote s.cancel a).map fun (worker, remote, msgs) =>
      { s with worker, remote, sent := s.sent ++ msgs }

/-- The worker is spawned. -/
def start (file : PlannedUpload) (remote : Files.Store Path) : Upload where
  worker := { file }
  remote := remote

/-- The permit is given when the flag is set. -/
def CancelledFirst (s : Upload) : Event → Prop
  | .answer .permit => s.cancel = true
  | _ => True

instance (s : Upload) : (e : Event) → Decidable (CancelledFirst s e)
  | .answer .permit => inferInstanceAs (Decidable (s.cancel = true))
  | .cancel | .answer (.openLocal _) | .answer (.openWrite _) | .answer (.openCreate _)
  | .answer .go | .answer (.read _) | .answer (.write _) | .answer .flush => isTrue trivial

/-- The event leaves a remote file as it was: opening it to be written anew does so where it is there
and empty, and opening it to be appended to where it is there. -/
def Spares (before : Option (List UInt8)) : Event → Prop
  | .answer (.openWrite (.ok _)) => before = some []
  | .answer (.openCreate (.ok _)) => before ≠ none
  | _ => True

variable {file : PlannedUpload} {r : Files.Store Path} {s s' : Upload} {e : Event} {es : List Event}

/-- The worker has not opened the remote file. -/
def Unopened : Phase → Prop
  | .acquiring | .openingLocal | .openingRemote | .creatingRemote => True
  | _ => False

/-- The worker has nothing to do any more but to see that it is cancelled. -/
def Over : Phase → Prop
  | .done => True
  | .copying _ sent => sent = 0
  | _ => False

/-- The worker's file is as the opens have left it. -/
structure CancelInv (file : PlannedUpload) (r : Files.Store Path) (es : List Event) (s : Upload) :
    Prop where
  sameFile : s.worker.file = file
  phase : Unopened s.worker.phase ∨ Over s.worker.phase
  cancelled : s.worker.phase ≠ .acquiring → s.cancel = true
  unopened : Unopened s.worker.phase → s.remote = r ∧ ∀ e ∈ es, Spares (r file.remotePath) e
  spared : s.remote file.remotePath = r file.remotePath ↔ ∀ e ∈ es, Spares (r file.remotePath) e

theorem forall_spares_concat {before : Option (List UInt8)} :
    (∀ e' ∈ es ++ [e], Spares before e') ↔ (∀ e' ∈ es, Spares before e') ∧ Spares before e := by
  simp [or_imp, forall_and]

/-- A step that leaves the remote files and spares them. -/
theorem CancelInv.quiet (h : CancelInv file r es s) (hspares : Spares (r file.remotePath) e)
    (hfile : s'.worker.file = s.worker.file) (hremote : s'.remote = s.remote)
    (hcancel : s'.cancel = true) (hphase : Unopened s'.worker.phase ∨ Over s'.worker.phase)
    (hunopened : Unopened s'.worker.phase → Unopened s.worker.phase) :
    CancelInv file r (es ++ [e]) s' where
  sameFile := hfile.trans h.sameFile
  phase := hphase
  cancelled := fun _ => hcancel
  unopened := by
    intro hnext
    obtain ⟨hr, hes⟩ := h.unopened (hunopened hnext)
    exact ⟨hremote.trans hr, forall_spares_concat.mpr ⟨hes, hspares⟩⟩
  spared := by
    rw [hremote, forall_spares_concat, and_iff_left hspares]
    exact h.spared

/-- The step that opens the remote file. -/
theorem CancelInv.opened (h : CancelInv file r es s) (hunopened : Unopened s.worker.phase)
    (hfile : s'.worker.file = s.worker.file) (hcancel : s'.cancel = true)
    (hover : ¬ Unopened s'.worker.phase ∧ Over s'.worker.phase)
    (hremote : s'.remote file.remotePath = r file.remotePath ↔ Spares (r file.remotePath) e) :
    CancelInv file r (es ++ [e]) s' where
  sameFile := hfile.trans h.sameFile
  phase := .inr hover.2
  cancelled := fun _ => hcancel
  unopened := fun hnext => absurd hnext hover.1
  spared := by
    rw [forall_spares_concat, and_iff_right (h.unopened hunopened).2]
    exact hremote

/-- One step of the worker keeps the invariant. -/
theorem CancelInv.answer (h : CancelInv file r es s) {a : Answer} {stepped : Stepped}
    (hfirst : CancelledFirst s (.answer a))
    (hs : s.worker.step s.remote s.cancel a = some stepped) :
    CancelInv file r (es ++ [.answer a])
      { s with worker := stepped.1, remote := stepped.2.1, sent := s.sent ++ stepped.2.2 } := by
  unfold Worker.step at hs
  -- phase by phase; until the file is open its place on the remote is untouched
  split at hs
  · next hphase =>
    obtain rfl := Option.some.inj hs
    exact h.quiet trivial rfl rfl hfirst (.inl trivial) fun _ => by
      rw [hphase]
      trivial
  -- every answer but the first comes with the flag set, as it was set before
  · next result hphase =>
    obtain rfl := Option.some.inj hs
    have hcancel : s.cancel = true := h.cancelled (by rw [hphase]; nofun)
    have hunopened : Unopened s.worker.phase := hphase ▸ trivial
    rcases result with err | _
    · exact h.quiet trivial rfl rfl hcancel (.inr trivial) fun _ => hunopened
    · exact h.quiet trivial rfl rfl hcancel (.inl trivial) fun _ => hunopened
  · next result hphase =>
    obtain rfl := Option.some.inj hs
    have hcancel : s.cancel = true := h.cancelled (by rw [hphase]; nofun)
    have hunopened : Unopened s.worker.phase := hphase ▸ trivial
    rcases result with err | _
    · unfold Worker.openWrite
      simp only
      split
      · exact h.quiet trivial rfl rfl hcancel (.inl trivial) fun _ => hunopened
      · exact h.quiet trivial rfl rfl hcancel (.inr trivial) fun _ => hunopened
    · -- the file is created or truncated
      refine h.opened hunopened rfl hcancel ⟨id, rfl⟩ ?_
      show (Files.create s.remote s.worker.file.remotePath).1 file.remotePath = _ ↔ _ = some []
      rw [h.sameFile, Files.create_self, eq_comm]
  · next result hphase =>
    obtain rfl := Option.some.inj hs
    have hcancel : s.cancel = true := h.cancelled (by rw [hphase]; nofun)
    have hunopened : Unopened s.worker.phase := hphase ▸ trivial
    rcases result with err | _
    · exact h.quiet trivial rfl rfl hcancel (.inr trivial) fun _ => hunopened
    · -- the file is created where there is none
      refine h.opened hunopened rfl hcancel ⟨id, rfl⟩ ?_
      show (Files.openAppend s.remote s.worker.file.remotePath).1 file.remotePath = _ ↔ _ ≠ none
      rw [h.sameFile, (h.unopened hunopened).1]
      exact Files.openAppend_eq_iff
  · next remote sent hphase =>
    obtain rfl := Option.some.inj hs
    have hcancel : s.cancel = true := h.cancelled (by rw [hphase]; nofun)
    have hlate := h.phase
    rw [hphase] at hlate
    obtain rfl : sent = 0 := hlate.resolve_left id
    -- nothing was sent, so the upload does not count as complete
    have hnot : ¬ (s.worker.file.total ≠ 0 ∧ (0 : UInt64) ≥ s.worker.file.total) := by
      rintro ⟨hne, hle⟩
      have hzero := UInt64.le_iff_toNat_le.mp hle
      exact hne (UInt64.toNat_inj.mp (Nat.le_zero.mp hzero))
    unfold Worker.loop
    rw [hcancel, if_pos rfl, if_neg hnot]
    exact h.quiet trivial rfl rfl rfl (.inr trivial) fun hnext => nomatch hnext
  -- with the flag set from the start the worker never gets as far
  · next hphase => exact absurd h.phase (by rw [hphase]; exact fun h => h.elim id id)
  · next hphase => exact absurd h.phase (by rw [hphase]; exact fun h => h.elim id id)
  · next hphase => exact absurd h.phase (by rw [hphase]; exact fun h => h.elim id id)
  · cases hs

theorem CancelInv.step (h : CancelInv file r es s) (hfirst : CancelledFirst s e)
    (hs : s.step e = some s') : CancelInv file r (es ++ [e]) s' := by
  cases e with
  | cancel =>
    obtain rfl := Option.some.inj hs
    exact h.quiet trivial rfl rfl rfl h.phase id
  | answer a =>
    unfold Upload.step at hs
    obtain ⟨stepped, hstep, rfl⟩ := Option.map_eq_some_iff.mp hs
    exact h.answer hfirst hstep

theorem cancelInv_run (h : Run (Guarded (ofPartial Upload.step) CancelledFirst) (start file r) es s) :
    CancelInv file r es s := by
  refine h.historyInvariant (I := CancelInv file r) ?_ fun _ _ _ _ _ hinv hs => hinv.step hs.1 hs.2
  exact
    { sameFile := rfl
      phase := .inl trivial
      cancelled := fun hne => absurd rfl hne
      unopened := fun _ => ⟨rfl, fun _ hm => nomatch hm⟩
      spared := by
        constructor
        · exact fun _ _ hm => nomatch hm
        · exact fun _ => rfl }

/-- In every run in which the permit comes after the flag was set, the file at the target path is what
it was before exactly where every event has spared it. -/
theorem remote_unchanged_iff
    (h : Run (Guarded (ofPartial Upload.step) CancelledFirst) (start file r) es s) :
    s.remote file.remotePath = r file.remotePath ↔ ∀ e ∈ es, Spares (r file.remotePath) e :=
  (cancelInv_run h).spared

/-- A file that is there already. -/
def existing : PlannedUpload where
  localPath := []
  fileName := "a".toList
  remotePath := "/a".toList
  total := 1
  epoch := 0

/-- The file system with one byte in it. -/
def oneByte : Files.Store Path := Function.update (fun _ => none) "/a".toList (some [1])

/-- The local file is gone by the time of its turn. -/
theorem remote_unchanged_localGone :
    ∃ s, Run (Guarded (ofPartial Upload.step) CancelledFirst) (start existing oneByte)
        [.cancel, .answer .permit, .answer (.openLocal (.error "gone"))] s ∧
      s.remote existing.remotePath = some [1] := by
  obtain ⟨s, hrun, -⟩ := exists_run_of_any (start existing oneByte)
    [.cancel, .answer .permit, .answer (.openLocal (.error "gone"))]
    (f := fun s e => if CancelledFirst s e then s.step e else none) (p := fun _ => true) (by decide)
  rw [← guarded_ofPartial] at hrun
  refine ⟨s, hrun, (remote_unchanged_iff hrun).mpr ?_⟩
  simp [Spares]

/-- The flag is set, the remote file is truncated, and then the flag is seen. -/
theorem not_remote_unchanged_existing :
    ∃ s, Run (Guarded (ofPartial Upload.step) CancelledFirst) (start existing oneByte)
        [.cancel, .answer .permit, .answer (.openLocal (.ok ())), .answer (.openWrite (.ok ())),
          .answer .go] s ∧
      s.sent = [.cancelled 0] ∧ oneByte existing.remotePath = some [1] ∧
      s.remote existing.remotePath = some [] := by
  obtain ⟨s, hrun, hs⟩ := exists_run_of_any (start existing oneByte)
    [.cancel, .answer .permit, .answer (.openLocal (.ok ())), .answer (.openWrite (.ok ())),
      .answer .go]
    (f := fun s e => if CancelledFirst s e then s.step e else none)
    (p := fun s => decide (s.sent = [.cancelled 0]) &&
      decide (s.remote existing.remotePath = some [])) (by decide)
  rw [← guarded_ofPartial] at hrun
  obtain ⟨hsent, hremote⟩ := (Bool.and_eq_true _ _).mp hs
  exact ⟨s, hrun, of_decide_eq_true hsent, by decide, of_decide_eq_true hremote⟩

end Upload

end Termua.Panel
