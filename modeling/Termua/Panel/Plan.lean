import Mathlib
import Termua.Lib.Utf8
import Termua.Panel.Accounting

/-!
# The plan of a batch

`plan_uploads` and `upload_local_files_to_dir` of `gpui_sftp/src/view/table/actions.rs`, with what they
use of `std::path`. A local path is in bytes. The plan keeps the last component of each path, so two
files of one name meet on one remote path.
-/

namespace Termua.Panel

open Sftp (Path joinRemote)
open Transition

/-- `std::path::Component`. -/
inductive Component
  | rootDir
  | curDir
  | parentDir
  | normal (name : List UInt8)
  deriving DecidableEq, Ord

/-- A path of the local file system. -/
abbrev LocalPath := List UInt8

/-- A part of a path between slashes; the first one counts where it is `.`. -/
def componentOf (first : Bool) (part : List UInt8) : Option Component :=
  if part = [] then none
  else if part = [46] then if first then some .curDir else none
  else if part = [46, 46] then some .parentDir
  else some (.normal part)

/-- `Path::components`. -/
def localComponents (p : LocalPath) : List Component :=
  if p.head? = some 47 then .rootDir :: (p.splitOn 47).filterMap (componentOf false)
  else
    match p.splitOn 47 with
    | [] => []
    | first :: rest => (componentOf true first).toList ++ rest.filterMap (componentOf false)

/-- `Path::file_name`. -/
def localFileName (p : LocalPath) : Option (List UInt8) :=
  match (localComponents p).getLast? with
  | some (.normal name) => some name
  | _ => none

/-- `OsStr::to_str`. -/
def toStr (bytes : List UInt8) : Option (List Char) :=
  if Utf8.encode (Utf8.decodeLossy bytes) = bytes then some (Utf8.decodeLossy bytes) else none

/-- The name under which a local file is uploaded. -/
def uploadName (p : LocalPath) : Option Path := (localFileName p).bind toStr

/-- What the planner asks the outside for: whether a path is a file, how long it is, and the values
that `next_transfer_epoch` gives, one after the other. -/
structure Outside where
  isFile : LocalPath → Bool
  size : LocalPath → Option UInt64
  epochAt : ℕ → ℕ

/-- `plan_uploads`, from the `k`th epoch on. -/
def planUploads (out : Outside) (remoteDir : Path) : ℕ → List LocalPath → List PlannedUpload
  | _, [] => []
  | k, p :: locals =>
    match uploadName p with
    | none => planUploads out remoteDir k locals
    | some fileName =>
      { localPath := p
        fileName
        remotePath := joinRemote remoteDir fileName
        total := (out.size p).getD 0
        epoch := out.epochAt k } :: planUploads out remoteDir (k + 1) locals

/-- `accept_external_file_drop_paths`. -/
def acceptExternalFileDropPaths (out : Outside) (locals : List LocalPath) : Bool :=
  locals ≠ [] ∧ locals.all out.isFile

/-- The order of `locals.sort()`. -/
def sortLocals (locals : List LocalPath) : List LocalPath :=
  locals.insertionSort fun a b => compare (localComponents a) (localComponents b) ≠ .gt

/-- The group of a batch. -/
def inGroup (batchId : ℕ) (planned : List PlannedUpload) : List PlannedUpload :=
  planned.map fun f =>
    { f with
      groupId := some ("sftp-upload-batch-" ++ toString batchId)
      groupTotal := some planned.length }

/-- `upload_local_files_to_dir` up to its workers; the batch takes the epoch behind those of its
files. -/
def uploadLocalFilesToDir (out : Outside) (remoteDir : Path) (locals : List LocalPath) :
    List PlannedUpload :=
  if acceptExternalFileDropPaths out locals then
    let planned := planUploads out remoteDir 0 (sortLocals locals)
    inGroup (out.epochAt planned.length) planned
  else []

variable {out : Outside} {remoteDir : Path} {k : ℕ} {locals : List LocalPath}

/-! ## The plan -/

theorem joinRemote_injective (dir : Path) : Function.Injective (joinRemote dir) := by
  intro name name' h
  unfold joinRemote at h
  split at h
  · exact (List.cons.inj h).2
  · simp only at h
    split at h
    · exact h
    · exact (List.cons.inj (List.append_cancel_left h)).2

/-- The remote paths of a plan are the names joined to the directory. -/
theorem remotePaths_planUploads :
    (planUploads out remoteDir k locals).map PlannedUpload.remotePath =
      (locals.filterMap uploadName).map (joinRemote remoteDir) := by
  induction locals generalizing k with
  | nil => rfl
  | cons p locals ih =>
    unfold planUploads
    rcases hname : uploadName p with _ | fileName
    · rw [List.filterMap_cons_none hname]
      exact ih
    · rw [List.filterMap_cons_some hname, List.map_cons, List.map_cons, ih]

/-- The epochs of a plan are as many values of the counter. -/
theorem epochs_planUploads :
    (planUploads out remoteDir k locals).map PlannedUpload.epoch =
      (List.range' k (planUploads out remoteDir k locals).length).map out.epochAt := by
  induction locals generalizing k with
  | nil => rfl
  | cons p locals ih =>
    unfold planUploads
    rcases uploadName p with _ | fileName
    · exact ih
    · simp only [List.map_cons, List.length_cons, List.range'_succ]
      rw [ih]

theorem nodup_epochs (hepochs : StrictMono out.epochAt) :
    ((planUploads out remoteDir k locals).map PlannedUpload.epoch).Nodup := by
  rw [epochs_planUploads]
  exact (List.nodup_range' ..).map hepochs.injective

theorem remotePaths_inGroup (batchId : ℕ) (planned : List PlannedUpload) :
    (inGroup batchId planned).map PlannedUpload.remotePath =
      planned.map PlannedUpload.remotePath := by
  unfold inGroup
  rw [List.map_map]
  rfl

theorem epochs_inGroup (batchId : ℕ) (planned : List PlannedUpload) :
    (inGroup batchId planned).map PlannedUpload.epoch = planned.map PlannedUpload.epoch := by
  unfold inGroup
  rw [List.map_map]
  rfl

/-- The epochs of a batch differ. -/
theorem nodup_epochs_uploadLocalFilesToDir (hepochs : StrictMono out.epochAt) :
    ((uploadLocalFilesToDir out remoteDir locals).map PlannedUpload.epoch).Nodup := by
  unfold uploadLocalFilesToDir
  split
  · rw [epochs_inGroup]
    exact nodup_epochs hepochs
  · exact List.nodup_nil

/-! ## Files that meet -/

/-- The remote paths of a plan differ, and whatever a worker of it does leaves the remote file of any
other. -/
structure Apart (planned : List PlannedUpload) : Prop where
  paths : (planned.map PlannedUpload.remotePath).Nodup
  writers : ∀ {r : Files.Store Path} {es : List Batch.Event} {s s' : Batch} {i j : ℕ}
    {v w : Worker} {answer : Answer}, Run (ofPartial Batch.step) (Batch.start planned r) es s →
    s.workers[i]? = some w → s.workers[j]? = some v → i ≠ j →
    s.step (.worker i answer) = some s' →
    s'.remote v.file.remotePath = s.remote v.file.remotePath

/-- Where the remote paths differ the workers do not meet. -/
theorem apart_of_nodup {planned : List PlannedUpload}
    (hepochs : (planned.map PlannedUpload.epoch).Nodup)
    (hpaths : (planned.map PlannedUpload.remotePath).Nodup) : Apart planned where
  paths := hpaths
  writers := by
    intro r es s s' i j v w answer hrun hw hv hij hs
    have h := Batch.batchInv_run hepochs hrun
    have hne : v.file.remotePath ≠ w.file.remotePath := by
      intro heq
      have hi : (planned.map PlannedUpload.remotePath)[i]? = some w.file.remotePath := by
        rw [List.getElem?_map, h.worker hw, Option.map_some]
      have hj : (planned.map PlannedUpload.remotePath)[j]? = some w.file.remotePath := by
        rw [List.getElem?_map, h.worker hv, Option.map_some, heq]
      exact hij ((List.getElem?_inj (List.getElem?_eq_some_iff.mp hi).1 hpaths).mp (hi.trans hj.symm))
    change s.workerStep i answer = some s' at hs
    unfold Batch.workerStep at hs
    rw [hw] at hs
    obtain ⟨stepped, hstep, rfl⟩ := Option.map_eq_some_iff.mp hs
    exact (Worker.steps_of_step (h.owns w (List.mem_of_getElem? hw)) hstep).others _ hne

/-- The files of a batch stay apart exactly where those that are taken have different names. -/
theorem apart_uploadLocalFilesToDir_iff (hepochs : StrictMono out.epochAt) (remoteDir : Path)
    (locals : List LocalPath) :
    Apart (uploadLocalFilesToDir out remoteDir locals) ↔
      (acceptExternalFileDropPaths out locals → (locals.filterMap uploadName).Nodup) := by
  have hpaths : ((uploadLocalFilesToDir out remoteDir locals).map PlannedUpload.remotePath).Nodup ↔
      (acceptExternalFileDropPaths out locals → (locals.filterMap uploadName).Nodup) := by
    unfold uploadLocalFilesToDir
    split
    · next haccept =>
      have hperm : (sortLocals locals).Perm locals := List.perm_insertionSort _ _
      rw [remotePaths_inGroup, remotePaths_planUploads,
        List.nodup_map_iff (joinRemote_injective remoteDir), (hperm.filterMap uploadName).nodup_iff]
      exact ⟨fun h _ => h, fun h => h haccept⟩
    · next haccept => exact iff_of_true List.nodup_nil fun h => absurd h haccept
  rw [← hpaths]
  exact ⟨Apart.paths, apart_of_nodup (nodup_epochs_uploadLocalFilesToDir hepochs)⟩

/-- Every path is a file of one byte. -/
def oneByteFiles : Outside where
  isFile := fun _ => true
  size := fun _ => some 1
  epochAt := id

theorem apart_twoNames :
    Apart (uploadLocalFilesToDir oneByteFiles "/srv".toList
      [Utf8.encode "/a/x".toList, Utf8.encode "/b/y".toList]) :=
  (apart_uploadLocalFilesToDir_iff strictMono_id _ _).mpr fun _ => by decide +kernel

/-- Two files of one name from two directories. -/
theorem not_apart_oneName :
    ¬ Apart (uploadLocalFilesToDir oneByteFiles "/srv".toList
      [Utf8.encode "/a/x".toList, Utf8.encode "/b/x".toList]) := by
  intro h
  have hpaths := h.paths
  revert hpaths
  decide +kernel

end Termua.Panel
