import Mathlib
import Termua.Sftp.Browser

/-!
# The context menu of the table

A right-click remembers the index of a row; the action that is chosen later takes the row that has
this index by then. What an action did is an `Outcome`: the entry that it took as its target and what
it asked for there.
-/

namespace Termua.Sftp

open Transition

/-- The actions of the context menu that take a row as their target. -/
inductive Action
  | upload
  | download
  | newFolder
  | rename
  | delete
  deriving DecidableEq

/-- What an action asks for: an input with its default, files to upload, a place for a download, or
the removal of entries that are directories or not. -/
inductive Asked
  | input (op : SftpOpKind) (default : Path)
  | pickFiles (remoteDir : Path)
  | pickPlace (id fileName : Path)
  | remove (ids : List (Path × Bool))
  | nothing
  deriving DecidableEq

/-- What an action did: nothing at all, or what it asked for on an entry, on the background, or on
the selection. -/
inductive Outcome
  | nothing
  | background (asked : Asked)
  | entry (id : Path) (asked : Asked)
  | selection (asked : Asked)
  deriving DecidableEq

/-- The action needs a row. -/
def Action.needsRow : Action → Bool
  | .upload | .newFolder => false
  | .download | .rename | .delete => true

/-- The action needs a connection. -/
def Action.needsSftp : Action → Bool
  | .newFolder | .rename => false
  | .upload | .download | .delete => true

namespace SftpTable

/-- What is asked for on the target row, or on the background. -/
def onTarget (d : SftpTable) (targetRow : Option ℕ) (asked : Asked) : Outcome :=
  match targetRow.bind d.row with
  | some row => .entry row.id asked
  | none => .background asked

/-- `open_new_folder`. -/
def openNewFolder (d : SftpTable) (targetRow : Option ℕ) : SftpTable × Outcome :=
  let parent := d.selectedDirForNewEntries targetRow
  ({ d with op := some (.newFolder parent) }, d.onTarget targetRow (.input (.newFolder parent) []))

/-- `open_rename`. -/
def openRename (d : SftpTable) (targetRow : Option ℕ) : SftpTable × Outcome :=
  match targetRow.bind d.row with
  | none => (d, .nothing)
  | some row =>
    match parentDir row.id with
    | none => (d, .entry row.id .nothing)
    | some parent =>
      ({ d with op := some (.rename row.id parent) },
        .entry row.id (.input (.rename row.id parent) row.name))

/-- `upload` up to the files that are picked. -/
def upload (d : SftpTable) (targetRow : Option ℕ) : SftpTable × Outcome :=
  if !d.sftp then (d, .nothing)
  else (d, d.onTarget targetRow (.pickFiles (d.selectedDirForNewEntries targetRow)))

/-- `download` up to the place that is picked. -/
def download (d : SftpTable) (targetRow : Option ℕ) : SftpTable × Outcome :=
  if !d.sftp then (d, .nothing)
  else
    match targetRow.bind d.row with
    | none => (d, .nothing)
    | some row =>
      if row.kind = .dir then (d, .entry row.id .nothing)
      else (d, .entry row.id (.pickPlace row.id row.name))

/-- An entry on view is a directory; of rows with one path the last counts. -/
def isDirOnView (d : SftpTable) (id : Path) : Bool :=
  (d.visible.reverse.find? (·.id = id)).any (·.kind = .dir)

/-- `delete_selected_ids` up to the removals. -/
def deleteSelectedIds (d : SftpTable) (ids : List Path) : Asked :=
  if !d.sftp then .nothing
  else
    let ids := ids.filter (· ≠ d.tree.root)
    if ids = [] then .nothing else .remove (ids.map fun id => (id, d.isDirOnView id))

/-- The confirmation of `on_delete`. -/
def delete (d : SftpTable) (targetRow : Option ℕ) : SftpTable × Outcome :=
  let asked := d.deleteSelectedIds (d.deleteTargetIds targetRow)
  if !d.sftp then (d, .nothing)
  else if d.selectedIds ≠ [] then (d, .selection asked)
  else
    match targetRow.bind d.row with
    | none => (d, .nothing)
    | some row => (d, .entry row.id asked)

/-- What the handlers of the menu do with their target. -/
def handler (d : SftpTable) (targetRow : Option ℕ) : Action → SftpTable × Outcome
  | .upload => d.upload targetRow
  | .download => d.download targetRow
  | .newFolder => d.openNewFolder targetRow
  | .rename => d.openRename targetRow
  | .delete => d.delete targetRow

/-- The row of the context menu is taken. -/
def takeContextRow (d : SftpTable) : SftpTable := { d with contextRow := none }

/-- The handlers of the menu: `on_upload`, `on_download`, `on_new_folder`, `on_rename` and
`on_delete`; `selectedRow` is the row that the table widget has selected. -/
def menuAction (d : SftpTable) (selectedRow : Option ℕ) (a : Action) : SftpTable × Outcome :=
  d.takeContextRow.handler (d.contextRow.or selectedRow) a

/-! ## What an action is applied to -/

/-- The directory that new entries at a row go to. -/
def dirForNewEntries (d : SftpTable) (row : VisibleRow) : Path :=
  if row.kind = .dir then row.id else (parentDir row.id).getD d.tree.root

/-- What an action asks for on a row. -/
def asks (d : SftpTable) (row : VisibleRow) : Action → Asked
  | .upload => .pickFiles (d.dirForNewEntries row)
  | .download => if row.kind = .dir then .nothing else .pickPlace row.id row.name
  | .newFolder => .input (.newFolder (d.dirForNewEntries row)) []
  | .rename =>
    match parentDir row.id with
    | none => .nothing
    | some parent => .input (.rename row.id parent) row.name
  | .delete => d.deleteSelectedIds [row.id]

/-- No row on view is the entry. -/
def Gone (d : SftpTable) (id : Path) : Prop := ∀ row ∈ d.visible, row.id ≠ id

/-- The action was applied to the entry, or to nothing where the entry is no longer on view. -/
def AppliedTo (d : SftpTable) (a : Action) (id : Path) (outcome : Outcome) : Prop :=
  (∃ row ∈ d.visible, row.id = id ∧ outcome = .entry id (d.asks row a)) ∨
    d.Gone id ∧ outcome = .nothing

/-- The row at an index is the entry, or the entry is gone and the action finds no row there that it
could take instead. -/
def Steady (d : SftpTable) (a : Action) (rowIx : ℕ) (id : Path) : Prop :=
  if a.needsSftp ∧ d.sftp = false then d.Gone id
  else
    match d.row rowIx with
    | some row => row.id = id
    | none => d.Gone id ∧ a.needsRow

variable {d : SftpTable} {rowIx : ℕ} {targetRow selectedRow : Option ℕ} {row : VisibleRow} {a : Action}

theorem mem_visible_of_row (h : d.row rowIx = some row) : row ∈ d.visible := List.mem_of_getElem? h

theorem onTarget_of_row (h : targetRow.bind d.row = some row) (asked : Asked) :
    d.onTarget targetRow asked = .entry row.id asked := by
  unfold onTarget
  rw [h]

theorem onTarget_of_none (h : targetRow.bind d.row = none) (asked : Asked) :
    d.onTarget targetRow asked = .background asked := by
  unfold onTarget
  rw [h]

theorem selectedDirForNewEntries_of_row (h : targetRow.bind d.row = some row) :
    d.selectedDirForNewEntries targetRow = d.dirForNewEntries row := by
  unfold selectedDirForNewEntries
  rw [h]
  rfl

theorem deleteTargetIds_of_row (h : targetRow.bind d.row = some row) (hselected : d.selectedIds = []) :
    d.deleteTargetIds targetRow = [row.id] := by
  unfold deleteTargetIds
  rw [if_neg (not_not.mpr hselected), h]
  rfl

/-! ### The handlers on a row -/

/-- Without a connection that the action needs nothing happens. -/
theorem handler_disconnected (hneeds : a.needsSftp) (hsftp : d.sftp = false) :
    (d.handler targetRow a).2 = .nothing := by
  have hoff : (!d.sftp) = true := by rw [hsftp]; rfl
  rcases a with _ | _ | _ | _ | _
  · show (d.upload targetRow).2 = .nothing
    unfold upload
    rw [if_pos hoff]
  · show (d.download targetRow).2 = .nothing
    unfold download
    rw [if_pos hoff]
  · cases hneeds
  · cases hneeds
  · show (d.delete targetRow).2 = .nothing
    unfold delete
    rw [if_pos hoff]

/-- The action on the row of its target. -/
theorem handler_of_row (hrow : targetRow.bind d.row = some row)
    (hsftp : a.needsSftp → d.sftp = true) (hdelete : a = .delete → d.selectedIds = []) :
    (d.handler targetRow a).2 = .entry row.id (d.asks row a) := by
  have hon : a.needsSftp → ¬ (!d.sftp) = true := fun hneeds => by simp [hsftp hneeds]
  rcases a with _ | _ | _ | _ | _
  · show (d.upload targetRow).2 = _
    unfold upload
    rw [if_neg (hon rfl), selectedDirForNewEntries_of_row hrow]
    exact onTarget_of_row hrow _
  · show (d.download targetRow).2 = _
    unfold download
    rw [if_neg (hon rfl), hrow]
    unfold asks
    simp only
    split <;> rfl
  · show (d.openNewFolder targetRow).2 = _
    unfold openNewFolder
    rw [selectedDirForNewEntries_of_row hrow]
    exact onTarget_of_row hrow _
  · show (d.openRename targetRow).2 = _
    unfold openRename asks
    rw [hrow]
    simp only
    split <;> rfl
  · show (d.delete targetRow).2 = _
    unfold delete
    rw [if_neg (hon rfl), if_neg (not_not.mpr (hdelete rfl)), hrow,
      deleteTargetIds_of_row hrow (hdelete rfl)]
    rfl

/-- The action where its target is no row. -/
theorem handler_of_none (hrow : targetRow.bind d.row = none)
    (hsftp : a.needsSftp → d.sftp = true) (hdelete : a = .delete → d.selectedIds = []) :
    if a.needsRow then (d.handler targetRow a).2 = .nothing
    else ∃ asked, (d.handler targetRow a).2 = .background asked := by
  have hon : a.needsSftp → ¬ (!d.sftp) = true := fun hneeds => by simp [hsftp hneeds]
  rcases a with _ | _ | _ | _ | _
  · refine ⟨.pickFiles (d.selectedDirForNewEntries targetRow), ?_⟩
    show (d.upload targetRow).2 = _
    unfold upload
    rw [if_neg (hon rfl)]
    exact onTarget_of_none hrow _
  · show (d.download targetRow).2 = .nothing
    unfold download
    rw [if_neg (hon rfl), hrow]
  · exact ⟨_, onTarget_of_none hrow _⟩
  · show (d.openRename targetRow).2 = .nothing
    unfold openRename
    rw [hrow]
  · show (d.delete targetRow).2 = .nothing
    unfold delete
    rw [if_neg (hon rfl), if_neg (not_not.mpr (hdelete rfl)), hrow]

/-- An action from the context menu is applied to an entry exactly where the index is steady. -/
theorem appliedTo_menuAction_iff {id : Path} (hcontext : d.contextRow = some rowIx)
    (hdelete : a = .delete → d.selectedIds = []) :
    d.AppliedTo a id (d.menuAction selectedRow a).2 ↔ d.Steady a rowIx id := by
  unfold menuAction Steady
  rw [hcontext, Option.some_or]
  -- without a connection nothing is applied
  by_cases hoff : a.needsSftp ∧ d.sftp = false
  · rw [if_pos hoff, handler_disconnected (d := d.takeContextRow) hoff.1 hoff.2]
    unfold AppliedTo
    simp
  · rw [if_neg hoff]
    have hsftp : a.needsSftp → d.sftp = true := by
      intro hneeds
      by_contra hnot
      exact hoff ⟨hneeds, by simpa using hnot⟩
    -- the index is taken at the click, the row is looked up at the action
    rcases hrow : d.row rowIx with _ | row
    · have hbind : (some rowIx).bind d.takeContextRow.row = none := hrow
      have hnone := handler_of_none hbind hsftp hdelete
      unfold AppliedTo
      split at hnone
      · next hneeds => simp [hnone, hneeds]
      · next hneeds =>
        obtain ⟨asked, hasked⟩ := hnone
        simp [hasked, hneeds]
    · have hbind : (some rowIx).bind d.takeContextRow.row = some row := hrow
      rw [handler_of_row hbind hsftp hdelete]
      unfold AppliedTo
      constructor
      · rintro (⟨row', -, -, heq⟩ | ⟨-, heq⟩)
        · exact (Outcome.entry.inj heq).1
        · cases heq
      · rintro rfl
        refine .inl ⟨row, mem_visible_of_row hrow, rfl, ?_⟩
        rcases a with _ | _ | _ | _ | _ <;> rfl

end SftpTable

namespace Browser

variable {s s' s₀ : Browser}

/-! ## Between the click and the action -/

/-- A right-click on a row. -/
def rightClick (s : Browser) (rowIx : ℕ) : Browser :=
  { s with table := s.table.setContextMenuTarget (some rowIx) }

theorem rightClick_contextRow (rowIx : ℕ) : (s.rightClick rowIx).table.contextRow = some rowIx := by
  unfold rightClick SftpTable.setContextMenuTarget
  simp only
  split <;> rfl

theorem refreshDir_contextRow (dir : Path) :
    (s.refreshDir dir).table.contextRow = s.table.contextRow := by
  unfold Browser.refreshDir
  split <;> rfl

/-- No event between the click and the action moves the index. -/
theorem step_contextRow {e : Event} (hs : s.step e = some s') :
    s'.table.contextRow = s.table.contextRow := by
  cases e with
  | cd dir =>
    obtain rfl := Option.some.inj hs
    unfold Browser.cd
    split
    · rfl
    · exact refreshDir_contextRow dir
  | refreshDir dir =>
    obtain rfl := Option.some.inj hs
    exact refreshDir_contextRow dir
  | bootstrapRoot =>
    obtain rfl := Option.some.inj hs
    unfold Browser.bootstrapRoot
    split <;> rfl
  | readDirDone number res =>
    unfold Browser.step at hs
    simp only at hs
    split at hs
    · obtain rfl := Option.some.inj hs
      exact SftpTable.refreshDone_contextRow
    · cases hs
  | canonicalizeDone number root =>
    unfold Browser.step at hs
    simp only at hs
    split at hs
    · obtain rfl := Option.some.inj hs
      exact refreshDir_contextRow _
    · cases hs
  | setSort col =>
    obtain rfl := Option.some.inj hs
    rfl
  | toggleHidden =>
    obtain rfl := Option.some.inj hs
    rfl
  -- the one that opens a directory touches the rows only
  | toggleDir rowIx =>
    obtain rfl := Option.some.inj hs
    have hlocal := SftpTable.toggleDirLocal_contextRow (d := s.table) rowIx
    show (s.toggleDir rowIx).table.contextRow = s.table.contextRow
    unfold Browser.toggleDir
    rcases hlocal' : s.table.toggleDirLocal rowIx with ⟨table, _ | dir⟩
    · rw [hlocal'] at hlocal
      exact hlocal
    · rw [hlocal'] at hlocal
      exact (refreshDir_contextRow dir).trans hlocal
  | disconnect =>
    obtain rfl := Option.some.inj hs
    rfl

theorem run_contextRow {es : List Event} (h : Run (ofPartial Browser.step) s₀ es s) :
    s.table.contextRow = s₀.table.contextRow :=
  h.invariant (I := fun s => s.table.contextRow = s₀.table.contextRow) rfl
    fun _ _ _ _ _ hb hs => (step_contextRow hs).trans hb

/-- Whatever happens between the right-click on a row and the action: the action is applied to the
entry of that row, or to nothing once the entry is gone, exactly where the index is steady. -/
theorem menuAction_applied_iff {rowIx : ℕ} {row : VisibleRow} {es : List Event} {a : Action}
    {selectedRow : Option ℕ} (_hclick : s₀.table.row rowIx = some row)
    (h : Run (ofPartial Browser.step) (s₀.rightClick rowIx) es s)
    (hdelete : a = .delete → s.table.selectedIds = []) :
    s.table.AppliedTo a row.id (s.table.menuAction selectedRow a).2 ↔
      s.table.Steady a rowIx row.id :=
  SftpTable.appliedTo_menuAction_iff ((run_contextRow h).trans (rightClick_contextRow rowIx)) hdelete

/-- The row of the file `x`. -/
def rowX : VisibleRow where
  id := "/x".toList
  name := "x".toList
  kind := .file
  size := none
  modified := none
  perms := none
  depth := 1
  isDir := false
  isExpanded := false
  loadedChildren := false

/-- A directory with a hidden file and the file `x` is listed. -/
def twoFiles : List Event :=
  [.cd "/".toList,
    .readDirDone 0 (some [("/.h".toList, { ty := .file }), ("/x".toList, { ty := .file })])]

/-- The directory as it is shown. -/
def shownFiles : Browser := (twoFiles.foldlM Browser.step {}).getD {}

theorem run_shownFiles : Run (ofPartial Browser.step) {} twoFiles shownFiles :=
  run_ofPartial_iff.mpr rfl

theorem shownFiles_row : shownFiles.table.row 0 = some rowX := by decide

/-- A rename after the order was changed. -/
theorem menuAction_applied_iff_sorted : ∃ s, Run (ofPartial Browser.step) (shownFiles.rightClick 0)
    [.setSort .name] s ∧ s.table.AppliedTo .rename rowX.id (s.table.menuAction none .rename).2 := by
  have hrun : Run (ofPartial Browser.step) (shownFiles.rightClick 0) [.setSort .name] _ :=
    .next .start rfl
  have hrow : ((shownFiles.rightClick 0).table.setSort .name).row 0 = some rowX := by decide
  have hsteady : ((shownFiles.rightClick 0).table.setSort .name).Steady .rename 0 rowX.id := by
    unfold SftpTable.Steady
    rw [if_neg (by decide), hrow]
  exact ⟨_, hrun, (menuAction_applied_iff shownFiles_row hrun (fun h => by cases h)).mpr hsteady⟩

/-- A rename after the hidden file came on view above. -/
theorem not_applied_shifted : ∃ s₀ s, Run (ofPartial Browser.step) {} twoFiles s₀ ∧
    s₀.table.row 0 = some rowX ∧
    Run (ofPartial Browser.step) (s₀.rightClick 0) [.toggleHidden] s ∧ rowX ∈ s.table.visible ∧
    ¬ s.table.AppliedTo .rename rowX.id (s.table.menuAction none .rename).2 := by
  refine ⟨shownFiles, _, run_shownFiles, shownFiles_row, .next .start rfl, by decide, ?_⟩
  have hrenamed : ((shownFiles.rightClick 0).table.toggleHidden.menuAction none .rename).2 =
      .entry "/.h".toList (.input (.rename "/.h".toList "/".toList) ".h".toList) := by decide
  rintro (⟨row, -, -, heq⟩ | ⟨-, heq⟩)
  · exact absurd (Outcome.entry.inj (hrenamed.symm.trans heq)).1 (by decide)
  · exact absurd (hrenamed.symm.trans heq) nofun

end Browser

end Termua.Sftp
