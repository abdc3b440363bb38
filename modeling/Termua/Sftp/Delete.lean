import Mathlib
import Termua.Sftp.Coherence
import Termua.Sftp.Context

/-!
# Deleting a selection

`delete_selected_ids` of `gpui_sftp/src/view/table/actions.rs` up to its toasts, on a server that
removes every file and exactly the directories that are empty. The selection is deleted in the order
of its paths, in which a directory stands before its entries (`compare_joinRemote`).
-/

namespace Termua.Sftp

open Transition

/-- The paths of the files and directories that are on the server. -/
abbrev Server := List Path

/-- The path is an entry of the directory. -/
def isEntryOf (dir p : Path) : Bool := (fileName p).any fun name => joinRemote dir name = p

/-- `remove_file`, which succeeds. -/
def removeFile (server : Server) (id : Path) : Option Server := some (server.filter (· ≠ id))

/-- `remove_dir`, which succeeds where the directory has no entry. -/
def removeDir (server : Server) (id : Path) : Option Server :=
  if server.any (isEntryOf id) then none else some (server.filter (· ≠ id))

/-- What `delete_selected_ids` counts, and the directories that it refreshes at the end. -/
structure Deletion where
  server : Server
  deleted : ℕ := 0
  failed : ℕ := 0
  parents : List Path := []

/-- One round of the loop of `delete_selected_ids`, for an entry that is a directory or not. -/
def deleteOne (root : Path) (d : Deletion) (entry : Path × Bool) : Deletion :=
  match if entry.2 then removeDir d.server entry.1 else removeFile d.server entry.1 with
  | some server =>
    { d with
      server
      deleted := d.deleted + 1
      parents := d.parents.insert ((parentDir entry.1).getD root) }
  | none => { d with failed := d.failed + 1 }

/-- The loop of `delete_selected_ids`. -/
def deleteAll (root : Path) (server : Server) : Asked → Deletion
  | .remove entries => entries.foldl (deleteOne root) { server }
  | _ => { server }

namespace SftpTable

/-- `delete_selected_ids` with what `delete_target_ids` gives for a row. -/
def deleteTargets (d : SftpTable) (server : Server) (targetRow : Option ℕ) : Deletion :=
  deleteAll d.tree.root server (d.deleteSelectedIds (d.deleteTargetIds targetRow))

end SftpTable

/-! ## The order of paths -/

theorem compare_append_cons (p : Path) (c : Char) (q : Path) : compare p (p ++ c :: q) = .lt := by
  induction p with
  | nil => rfl
  | cons x p ih =>
    rw [List.cons_append, List.compare_cons_cons, ih, Std.ReflOrd.compare_self]
    rfl

/-- A directory stands before its entries. -/
theorem compare_joinRemote {dir name : Path}
    (h : ∀ c, lastComponent dir = some c → blank c = false) :
    compare dir (joinRemote dir name) = .lt := by
  obtain ⟨htrim, -⟩ := trimPath_of_lastComponent h
  have hne : ∀ p : Path, (∃ c, lastComponent p = some c ∧ blank c = true) → dir ≠ p := by
    rintro p ⟨c, hc, hblank⟩ rfl
    rw [h c hc] at hblank
    cases hblank
  unfold joinRemote
  rw [if_neg (hne ['/'] ⟨[], by decide, rfl⟩)]
  simp only [htrim]
  rw [if_neg]
  · exact compare_append_cons dir '/' name
  · rintro (hdir | hdir)
    · exact hne [] ⟨[], by decide, rfl⟩ hdir
    · exact hne ['.'] ⟨['.'], by decide, rfl⟩ hdir

theorem isEntryOf_eq {dir p : Path} (h : isEntryOf dir p = true) :
    ∃ name, joinRemote dir name = p := by
  unfold isEntryOf at h
  obtain ⟨name, -, hjoin⟩ := (Option.any_eq_true _ _).mp h
  exact ⟨name, of_decide_eq_true hjoin⟩

/-! ## The loop -/

variable {root : Path} {d : Deletion} {entries : List (Path × Bool)} {entry : Path × Bool} {p : Path}

/-- The entry can be removed. -/
def Removable (server : Server) (entry : Path × Bool) : Prop :=
  entry.2 = true → server.any (isEntryOf entry.1) = false

theorem deleteOne_of_removable (h : Removable d.server entry) :
    deleteOne root d entry =
      { server := d.server.filter (· ≠ entry.1)
        deleted := d.deleted + 1
        failed := d.failed
        parents := d.parents.insert ((parentDir entry.1).getD root) } := by
  unfold deleteOne
  rcases hkind : entry.2 with _ | _
  · rfl
  · rw [if_pos rfl]
    unfold removeDir
    rw [h hkind]
    rfl

theorem deleteOne_of_not_removable (h : ¬ Removable d.server entry) :
    deleteOne root d entry = { d with failed := d.failed + 1 } := by
  unfold Removable at h
  rw [Classical.not_imp, Bool.not_eq_false] at h
  unfold deleteOne
  rw [h.1, if_pos rfl]
  unfold removeDir
  rw [if_pos h.2]

theorem failed_le_deleteOne (root : Path) (d : Deletion) (entry : Path × Bool) :
    d.failed ≤ (deleteOne root d entry).failed := by
  by_cases h : Removable d.server entry
  · rw [deleteOne_of_removable h]
  · rw [deleteOne_of_not_removable h]
    exact Nat.le_succ _

theorem failed_le_foldl (root : Path) (d : Deletion) (entries : List (Path × Bool)) :
    d.failed ≤ (entries.foldl (deleteOne root) d).failed := by
  induction entries generalizing d with
  | nil => exact le_rfl
  | cons entry entries ih => exact (failed_le_deleteOne root d entry).trans (ih _)

/-- The server after one round. -/
theorem mem_server_deleteOne (h : p ∈ d.server) (hne : p ≠ entry.1) :
    p ∈ (deleteOne root d entry).server := by
  by_cases hremovable : Removable d.server entry
  · rw [deleteOne_of_removable hremovable]
    exact List.mem_filter.mpr ⟨h, by simpa using hne⟩
  · rw [deleteOne_of_not_removable hremovable]
    exact h

/-- What is not among the entries stays on the server. -/
theorem mem_server_foldl (h : p ∈ d.server) (hnot : p ∉ entries.map Prod.fst) :
    p ∈ (entries.foldl (deleteOne root) d).server := by
  induction entries generalizing d with
  | nil => exact h
  | cons entry entries ih =>
    rw [List.map_cons, List.mem_cons, not_or] at hnot
    exact ih (mem_server_deleteOne h hnot.1) hnot.2

/-- A directory whose turn comes before that of one of its entries is not removed. -/
theorem failed_of_entry_later {pre post : List (Path × Bool)} (h : p ∈ d.server)
    (hpre : p ∉ pre.map Prod.fst) (hdir : entry.2 = true) (hentry : isEntryOf entry.1 p = true) :
    d.failed < ((pre ++ entry :: post).foldl (deleteOne root) d).failed := by
  rw [List.foldl_append, List.foldl_cons]
  have hstays : p ∈ (pre.foldl (deleteOne root) d).server := mem_server_foldl h hpre
  have hblocked : ¬ Removable (pre.foldl (deleteOne root) d).server entry := by
    intro hremovable
    have hany := List.any_eq_false.mp (hremovable hdir) p hstays
    exact hany hentry
  rw [deleteOne_of_not_removable hblocked]
  have hbefore := failed_le_foldl root d pre
  refine lt_of_lt_of_le ?_ (failed_le_foldl root _ post)
  show d.failed < (pre.foldl (deleteOne root) d).failed + 1
  omega

/-- Nothing comes back to the server. -/
theorem mem_server_of_mem_foldl (h : p ∈ (entries.foldl (deleteOne root) d).server) :
    p ∈ d.server := by
  induction entries generalizing d with
  | nil => exact h
  | cons entry entries ih =>
    have hone := ih h
    by_cases hremovable : Removable d.server entry
    · rw [deleteOne_of_removable hremovable] at hone
      exact List.mem_of_mem_filter hone
    · rw [deleteOne_of_not_removable hremovable] at hone
      exact hone

/-- Where every entry can be removed from the start, every one of them is. -/
theorem foldl_of_removable (root : Path) (h : ∀ entry ∈ entries, Removable d.server entry) :
    (entries.foldl (deleteOne root) d).failed = d.failed ∧
      ∀ p ∈ entries.map Prod.fst, p ∉ (entries.foldl (deleteOne root) d).server := by
  induction entries generalizing d with
  | nil => exact ⟨rfl, fun _ hp => nomatch hp⟩
  | cons entry entries ih =>
    have hfirst : Removable d.server entry := h entry List.mem_cons_self
    have hserver : (deleteOne root d entry).server = d.server.filter (· ≠ entry.1) := by
      rw [deleteOne_of_removable hfirst]
    have hfailed : (deleteOne root d entry).failed = d.failed := by
      rw [deleteOne_of_removable hfirst]
    obtain ⟨hcount, hgone⟩ := ih (d := deleteOne root d entry) fun other hother hdir => by
      have hfree := List.any_eq_false.mp (h other (List.mem_cons_of_mem _ hother) hdir)
      rw [hserver]
      exact List.any_eq_false.mpr fun q hq => hfree q (List.mem_of_mem_filter hq)
    refine ⟨hcount.trans hfailed, fun p hp => ?_⟩
    rcases List.mem_cons.mp hp with rfl | hp
    · intro hstays
      have hleft := mem_server_of_mem_foldl (d := deleteOne root d entry) hstays
      rw [hserver] at hleft
      simpa using (List.mem_filter.mp hleft).2
    · exact hgone p hp

/-! ## A closed selection -/

/-- The path is an entry of the directory, or of a directory below it. -/
def Below (dir p : Path) : Prop := Relation.TransGen (fun dir p => isEntryOf dir p = true) dir p

namespace SftpTable

variable {d : SftpTable} {server : Server} {targetRow : Option ℕ}

/-- Of every selected directory all entries on the server are selected too. -/
def Closed (d : SftpTable) (server : Server) (targetRow : Option ℕ) : Prop :=
  ∀ id ∈ d.deleteTargetIds targetRow, d.isDirOnView id = true →
    ∀ p ∈ server, Below id p → p ∈ d.deleteTargetIds targetRow

/-- Every selected entry is removed, and no failure is reported. -/
def Deletes (d : SftpTable) (server : Server) (targetRow : Option ℕ) : Prop :=
  (d.deleteTargets server targetRow).failed = 0 ∧
    ∀ id ∈ d.deleteTargetIds targetRow, id ∉ (d.deleteTargets server targetRow).server

/-- The entries that the loop goes through. -/
def targetEntries (d : SftpTable) (targetRow : Option ℕ) : List (Path × Bool) :=
  ((d.deleteTargetIds targetRow).filter (· ≠ d.tree.root)).map fun id => (id, d.isDirOnView id)

theorem deleteTargets_eq (hsftp : d.sftp = true) :
    d.deleteTargets server targetRow =
      (d.targetEntries targetRow).foldl (deleteOne d.tree.root) { server } := by
  unfold deleteTargets deleteSelectedIds targetEntries
  rw [if_neg (by simp [hsftp])]
  simp only
  split
  · next hnil =>
    rw [hnil]
    rfl
  · rfl

/-- The targets stand in the order of their paths. -/
theorem sorted_deleteTargetIds :
    (d.deleteTargetIds targetRow).Pairwise fun a b => compare a b ≠ .gt := by
  unfold deleteTargetIds
  split
  · have htotal : Std.Total fun a b : Path => compare a b ≠ .gt := by
      refine ⟨fun a b => ?_⟩
      have hswap : compare b a = (compare a b).swap := Std.OrientedCmp.eq_swap
      rw [hswap]
      cases compare a b <;> decide
    have htrans : IsTrans Path fun a b => compare a b ≠ .gt := by
      refine ⟨fun a b c hab hbc => ?_⟩
      exact Ordering.isLE_iff_ne_gt.mp
        (Std.TransCmp.isLE_trans (Ordering.isLE_iff_ne_gt.mpr hab) (Ordering.isLE_iff_ne_gt.mpr hbc))
    exact List.pairwise_insertionSort _ _
  · rcases targetRow.bind d.row with _ | row
    · exact .nil
    · exact List.pairwise_singleton _ _

theorem mem_targetEntries {entry : Path × Bool} : entry ∈ d.targetEntries targetRow ↔
    ∃ id ∈ d.deleteTargetIds targetRow, id ≠ d.tree.root ∧ (id, d.isDirOnView id) = entry := by
  unfold targetEntries
  rw [List.mem_map]
  constructor
  · rintro ⟨id, hid, heq⟩
    obtain ⟨hid, hroot⟩ := List.mem_filter.mp hid
    exact ⟨id, hid, of_decide_eq_true hroot, heq⟩
  · rintro ⟨id, hid, hroot, heq⟩
    exact ⟨id, List.mem_filter.mpr ⟨hid, decide_eq_true hroot⟩, heq⟩

/-- The targets come in the order of their paths: what stands before a target is no entry of it. -/
theorem targetEntries_split {id : Path} (hid : id ∈ d.deleteTargetIds targetRow)
    (hroot : id ≠ d.tree.root) : ∃ pre post,
      d.targetEntries targetRow = pre ++ (id, d.isDirOnView id) :: post ∧
        ∀ p, compare id p = .lt → p ∉ pre.map Prod.fst := by
  have hsorted : (d.deleteTargetIds targetRow).Pairwise fun a b => compare a b ≠ .gt :=
    sorted_deleteTargetIds
  obtain ⟨pre, post, hsplit⟩ := List.append_of_mem hid
  refine ⟨(pre.filter (· ≠ d.tree.root)).map fun id => (id, d.isDirOnView id),
    (post.filter (· ≠ d.tree.root)).map fun id => (id, d.isDirOnView id), ?_, ?_⟩
  · unfold targetEntries
    rw [hsplit, List.filter_append, List.filter_cons_of_pos (by simpa using hroot),
      List.map_append, List.map_cons]
  · intro p hlt hp
    rw [List.map_map] at hp
    obtain ⟨q, hq, rfl⟩ := List.mem_map.mp hp
    rw [hsplit] at hsorted
    have hle := (List.pairwise_append.mp hsorted).2.2 q (List.mem_of_mem_filter hq) id
      List.mem_cons_self
    have hswap : compare q id = (compare id q).swap := Std.OrientedCmp.eq_swap
    change compare id q = .lt at hlt
    rw [hswap, hlt] at hle
    exact hle rfl

/-- A selection is deleted exactly where each of its directories is empty, once the directories are
spelled as joins. -/
theorem deletes_iff (hsftp : d.sftp = true)
    (hspelled : ∀ id ∈ d.deleteTargetIds targetRow, ∀ c, lastComponent id = some c →
      blank c = false)
    (hroot : ∀ id ∈ d.deleteTargetIds targetRow, id ≠ d.tree.root) :
    d.Deletes server targetRow ↔
      ∀ id ∈ d.deleteTargetIds targetRow, d.isDirOnView id = true →
        server.any (isEntryOf id) = false := by
  unfold Deletes
  rw [deleteTargets_eq hsftp]
  constructor
  · rintro ⟨hfailed, -⟩ id hid hdir
    by_contra hfull
    rw [Bool.not_eq_false] at hfull
    obtain ⟨p, hp, hentry⟩ := List.any_eq_true.mp hfull
    -- the entry stands behind the directory
    have hlt : compare id p = .lt := by
      obtain ⟨name, rfl⟩ := isEntryOf_eq hentry
      exact compare_joinRemote (hspelled id hid)
    obtain ⟨pre, post, hsplit, hbefore⟩ := targetEntries_split hid (hroot id hid)
    have hlater : 0 < ((pre ++ (id, d.isDirOnView id) :: post).foldl (deleteOne d.tree.root)
        { server }).failed :=
      failed_of_entry_later (d := { server }) hp (hbefore p hlt) hdir hentry
    rw [← hsplit] at hlater
    omega
  · intro hempty
    have hremovable : ∀ entry ∈ d.targetEntries targetRow, Removable server entry := by
      intro entry hentry hdir
      obtain ⟨id, hid, -, rfl⟩ := mem_targetEntries.mp hentry
      exact hempty id hid hdir
    obtain ⟨hfailed, hgone⟩ :=
      foldl_of_removable d.tree.root (d := { server }) hremovable
    refine ⟨hfailed, fun id hid => hgone id ?_⟩
    exact List.mem_map_of_mem (mem_targetEntries.mpr ⟨id, hid, hroot id hid, rfl⟩)

/-- The ids are those of rows on view. -/
def Selects (d : SftpTable) (ids : List Path) : Prop := ∀ id ∈ ids, ∃ row ∈ d.visible, row.id = id

/-- What is deleted is on view. -/
theorem selects_deleteTargetIds (h : d.Selects d.selectedIds) :
    d.Selects (d.deleteTargetIds targetRow) := by
  unfold deleteTargetIds
  split
  · intro id hid
    exact h id ((List.mem_insertionSort _).mp hid)
  · rcases hrow : targetRow.bind d.row with _ | row
    · exact fun _ hid => nomatch hid
    · intro id hid
      obtain rfl := List.mem_singleton.mp hid
      obtain ⟨rowIx, -, hix⟩ := Option.bind_eq_some_iff.mp hrow
      exact ⟨row, List.mem_of_getElem? hix, rfl⟩

end SftpTable

namespace Browser

variable {s : Browser} {sel : List Path}

/-- The browser's table with a selection. -/
def selecting (s : Browser) (sel : List Path) : SftpTable := { s.table with selectedIds := sel }

/-- In every state that a run reaches, with any closed selection of rows on view: the selection is
deleted exactly when no entry of a selected directory is on the server. -/
theorem deletes_closed_iff {es : List Event} (hrun : Run (ofPartial Browser.step) {} es s)
    (hsftp : s.table.sftp = true) (hselects : s.table.Selects sel) (server : Server)
    (targetRow : Option ℕ) (hclosed : (s.selecting sel).Closed server targetRow) :
    (s.selecting sel).Deletes server targetRow ↔
      ∀ id ∈ (s.selecting sel).deleteTargetIds targetRow, s.table.isDirOnView id = true →
        ∀ p ∈ (s.selecting sel).deleteTargetIds targetRow, p ∈ server → isEntryOf id p = false := by
  have hjoins := joins_run hrun
  have hview : (s.selecting sel).Selects ((s.selecting sel).deleteTargetIds targetRow) :=
    SftpTable.selects_deleteTargetIds hselects
  have hspelled : ∀ id ∈ (s.selecting sel).deleteTargetIds targetRow, ∀ c,
      lastComponent id = some c → blank c = false := by
    intro id hid c hc
    obtain ⟨row, hrow, rfl⟩ := hview id hid
    obtain ⟨dir, hlisted⟩ := hjoins.shown.listedUnder hjoins.joined hrow
    obtain ⟨name, hname, hjoin⟩ := hjoins.joined.joined dir row.id hlisted
    rw [hjoin] at hc
    exact not_blank_joinRemote hname hc
  have hroot : ∀ id ∈ (s.selecting sel).deleteTargetIds targetRow,
      id ≠ (s.selecting sel).tree.root := by
    intro id hid heq
    obtain ⟨row, hrow, rfl⟩ := hview id hid
    have hdepth := hjoins.joined.depth_lt (hjoins.shown.listedBelow hjoins.joined hrow)
    rw [heq] at hdepth
    exact lt_irrefl _ hdepth
  have hselected : (s.selecting sel).sftp = true := hsftp
  rw [SftpTable.deletes_iff hselected hspelled hroot]
  constructor
  · intro hempty id hid hdir p _ hp
    exact Bool.eq_false_of_not_eq_true (List.any_eq_false.mp (hempty id hid hdir) p hp)
  · intro hnone id hid hdir
    refine List.any_eq_false.mpr fun p hp hentry => ?_
    -- the entry is selected too
    have hselected := hclosed id hid hdir p hp (.single hentry)
    rw [hnone id hid hdir p hselected hp] at hentry
    cases hentry

/-- The rows on view are the selection, in the order in which they are deleted. -/
def AllSelected (s : Browser) (ids : List Path) : Bool :=
  s.table.sftp && decide (s.table.visible.map VisibleRow.id = ids) &&
    decide ((s.selecting ids).deleteTargetIds none = ids)

/-- The selection of everything that is on the server is closed. -/
theorem AllSelected.closed {ids : List Path} (h : s.AllSelected ids = true) :
    s.table.sftp = true ∧ s.table.Selects ids ∧ (s.selecting ids).deleteTargetIds none = ids ∧
      (s.selecting ids).Closed ids none := by
  simp only [AllSelected, Bool.and_eq_true, decide_eq_true_eq] at h
  obtain ⟨⟨hsftp, hview⟩, htargets⟩ := h
  refine ⟨hsftp, fun id hid => ?_, htargets, fun id hid hdir p hp hbelow => ?_⟩
  · rw [← hview] at hid
    exact List.mem_map.mp hid
  · rw [htargets]
    exact hp

/-- A directory with a directory and a file is entered. -/
def mixedRun : List Event :=
  [.cd "/r".toList,
    .readDirDone 0 (some [("d".toList, { ty := .dir }), ("f".toList, { ty := .file })])]

/-- What is on the server in `mixedRun`. -/
def mixed : List Path := ["/r/d".toList, "/r/f".toList]

/-- An empty directory and a file beside it are deleted. -/
theorem deletes_closed_mixed : ∃ s, Run (ofPartial Browser.step) {} mixedRun s ∧
    (s.selecting mixed).Deletes mixed none := by
  obtain ⟨s, hrun, hs⟩ := exists_run_of_any {} mixedRun (f := Browser.step)
    (p := fun s => s.AllSelected mixed) (by decide +kernel)
  obtain ⟨hsftp, hselects, htargets, hclosed⟩ := AllSelected.closed hs
  have hnone : ∀ id ∈ mixed, ∀ p ∈ mixed, isEntryOf id p = false := by decide
  refine ⟨s, hrun, (deletes_closed_iff hrun hsftp hselects mixed none hclosed).mpr ?_⟩
  rw [htargets]
  exact fun id hid _ p hp _ => hnone id hid p hp

/-- A directory is entered, and a directory in it with one file is unfolded. -/
def nestedRun : List Event :=
  [.cd "/r".toList, .readDirDone 0 (some [("d".toList, { ty := .dir })]), .toggleDir 0,
    .readDirDone 1 (some [("x".toList, { ty := .file })])]

/-- What is on the server in `nestedRun`. -/
def nested : List Path := ["/r/d".toList, "/r/d/x".toList]

/-- The turn of the directory `/r/d` comes before that of its file, and it is not removed. -/
theorem not_deletes_nested : ∃ s, Run (ofPartial Browser.step) {} nestedRun s ∧
    s.table.sftp = true ∧ s.table.Selects nested ∧ (s.selecting nested).Closed nested none ∧
      ¬ (s.selecting nested).Deletes nested none := by
  obtain ⟨s, hrun, hs⟩ := exists_run_of_any {} nestedRun (f := Browser.step)
    (p := fun s => s.AllSelected nested &&
      decide (((s.selecting nested).deleteTargets nested none).failed = 1)) (by decide +kernel)
  obtain ⟨hall, hfailed⟩ := Bool.and_eq_true_iff.mp hs
  obtain ⟨hsftp, hselects, -, hclosed⟩ := AllSelected.closed hall
  refine ⟨s, hrun, hsftp, hselects, hclosed, fun hdeletes => ?_⟩
  have hone := of_decide_eq_true hfailed
  have hzero := hdeletes.1
  omega

end Browser

end Termua.Sftp
