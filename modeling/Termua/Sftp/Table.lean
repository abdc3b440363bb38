import Mathlib
import Termua.Sftp.Tree

/-!
# The table of remote entries

`SftpTable` of `gpui_sftp/src/view/table/navigation.rs` up to its requests to the server: the rows on
view, the selection by path, and the row of the context menu by its index. A request to the server
is what a function of the table asks its caller to send.
-/

namespace Termua.Sftp

/-- `FilePermissions`: owner, group and others may read, write and execute. -/
structure FilePermissions where
  owner : Bool × Bool × Bool
  group : Bool × Bool × Bool
  other : Bool × Bool × Bool

/-- `Metadata`. -/
structure Metadata where
  ty : EntryKind
  permissions : Option FilePermissions := none
  size : Option ℕ := none
  modified : Option ℕ := none

/-- `format_perms`. -/
def formatPerms (p : FilePermissions) : List Char :=
  let tri (x : Bool × Bool × Bool) :=
    [if x.1 then 'r' else '-', if x.2.1 then 'w' else '-', if x.2.2 then 'x' else '-']
  tri p.owner ++ tri p.group ++ tri p.other

/-- `entry_from_meta`. -/
def entryFromMeta (path : Path) (m : Metadata) : Entry where
  path := path
  name := (fileName path).getD path
  kind := m.ty
  size := m.size
  modified := m.modified
  perms := m.permissions.map formatPerms

/-- An entry that `read_dir` returned for a directory. -/
def listedEntry (dir : Path) (found : Path × Metadata) : Option Entry :=
  match fileName found.1 with
  | none => none
  | some name =>
    if name = ['.'] ∨ name = ['.', '.'] then none
    else some (entryFromMeta (joinRemote dir name) found.2)

/-- The children that a listing of a directory gives it. -/
def listedChildren (dir : Path) (found : List (Path × Metadata)) : List Entry :=
  found.filterMap (listedEntry dir)

/-- The entries of a listing are deeper than the directory. -/
theorem depth_lt_of_mem_listedChildren {dir : Path} {found : List (Path × Metadata)} {child : Entry}
    (h : child ∈ listedChildren dir found) : depth dir < depth child.path := by
  obtain ⟨⟨path, m⟩, -, hchild⟩ := List.mem_filterMap.mp h
  unfold listedEntry at hchild
  split at hchild
  · cases hchild
  · next name hname =>
    split at hchild
    · cases hchild
    · obtain rfl := Option.some.inj hchild
      exact depth_lt_joinRemote (isName_of_fileName hname)

/-- The loop of `apply_hidden_filter`, below a hidden directory or not. -/
def hiddenFilter : Option ℕ → List VisibleRow → List VisibleRow
  | _, [] => []
  | hiddenDirDepth, row :: rows =>
    if hiddenDirDepth.any (· < row.depth) then hiddenFilter hiddenDirDepth rows
    else if isHiddenName row.name then
      hiddenFilter (if row.isDir then some row.depth else none) rows
    else row :: hiddenFilter none rows

/-- `apply_hidden_filter`. -/
def applyHiddenFilter (rows : List VisibleRow) (showHidden : Bool) : List VisibleRow :=
  if showHidden then rows else hiddenFilter none rows

/-- `SftpOpKind`. -/
inductive SftpOpKind
  | newFolder (parent : Path)
  | rename (target parent : Path)
  deriving DecidableEq

/-- `SftpTable`; `sftp` says whether there is a connection. -/
structure SftpTable where
  sftp : Bool := true
  tree : TreeState
  loading : List Path := []
  showHidden : Bool := false
  selectedIds : List Path := []
  selectionAnchorId : Option Path := none
  sort : SortSpec := {}
  visible : List VisibleRow
  contextRow : Option ℕ := none
  op : Option SftpOpKind := none

namespace SftpTable

/-- The rows that `rebuild_visible` computes. The root row is not shown. -/
def shownRows (d : SftpTable) : List VisibleRow :=
  applyHiddenFilter ((d.tree.visibleRowsSorted d.sort).drop 1) d.showHidden

/-- `new`. -/
def new : SftpTable :=
  let tree := TreeState.new { path := ".".toList, name := "~".toList, kind := .dir }
  { tree, visible := applyHiddenFilter ((tree.visibleRowsSorted {}).drop 1) false }

/-- `rebuild_visible`. -/
def rebuildVisible (d : SftpTable) : SftpTable :=
  let visible := d.shownRows
  let visibleIds := visible.map VisibleRow.id
  { d with
    visible
    selectedIds := d.selectedIds.filter visibleIds.contains
    selectionAnchorId := d.selectionAnchorId.filter visibleIds.contains }

/-- `row`. -/
def row (d : SftpTable) (rowIx : ℕ) : Option VisibleRow := d.visible[rowIx]?

/-- `set_context_menu_target`. -/
def setContextMenuTarget (d : SftpTable) (rowIx : Option ℕ) : SftpTable :=
  let d := { d with contextRow := rowIx }
  match rowIx.bind d.row with
  | none => d
  | some row =>
    { d with
      selectedIds := if d.selectedIds.contains row.id then d.selectedIds else [row.id]
      selectionAnchorId := some row.id }

/-- `selected_ids_sorted`. -/
def selectedIdsSorted (d : SftpTable) : List Path :=
  d.selectedIds.insertionSort fun a b => compare a b ≠ .gt

/-- `delete_target_ids`. -/
def deleteTargetIds (d : SftpTable) (targetRow : Option ℕ) : List Path :=
  if d.selectedIds ≠ [] then d.selectedIdsSorted
  else ((targetRow.bind d.row).map fun row => [row.id]).getD []

/-- `selected_dir_for_new_entries`. -/
def selectedDirForNewEntries (d : SftpTable) (targetRow : Option ℕ) : Path :=
  match targetRow.bind d.row with
  | none => d.tree.root
  | some row => if row.kind = .dir then row.id else (parentDir row.id).getD d.tree.root

/-- `toggle_dir_local`; the directory to refresh is returned. -/
def toggleDirLocal (d : SftpTable) (rowIx : ℕ) : SftpTable × Option Path :=
  match d.visible[rowIx]? with
  | none => (d, none)
  | some row =>
    if row.kind ≠ .dir then (d, none)
    else
      let next := !d.tree.isExpanded row.id
      let d := { d with tree := d.tree.setExpanded row.id next }.rebuildVisible
      (d, if next && !row.loadedChildren then some row.id else none)

/-- `refresh_dir` up to its request. -/
def refreshStart (d : SftpTable) (dir : Path) : SftpTable :=
  { d with loading := d.loading.insert dir, tree := d.tree.setExpanded dir true }.rebuildVisible

/-- The rest of `refresh_dir`, with what `read_dir` returned. -/
def refreshDone (d : SftpTable) (dir : Path) (res : Option (List (Path × Metadata))) : SftpTable :=
  let d := { d with loading := d.loading.filter (· ≠ dir) }
  match res with
  | some found => { d with tree := d.tree.upsertChildren dir (listedChildren dir found) }.rebuildVisible
  | none => d.rebuildVisible

/-- `cd` up to its `refresh_dir`. -/
def cdStart (d : SftpTable) (dir : Path) : SftpTable :=
  { d with
    loading := []
    tree := TreeState.new { path := dir, name := displayNameForDir dir, kind := .dir } }.rebuildVisible

/-- The rest of `bootstrap_root` up to its `refresh_dir`, with what `canonicalize` returned. -/
def bootstrapDone (d : SftpTable) (root : Option Path) : SftpTable :=
  let root := root.getD ['.']
  { d with
    tree := TreeState.new { path := root, name := displayNameForDir root, kind := .dir } }.rebuildVisible

/-- `set_sort`. -/
def setSort (d : SftpTable) (col : SortColumn) : SftpTable :=
  { d with
    sort :=
      if d.sort.column = col then
        { d.sort with direction := if d.sort.direction = SortDirection.asc then .desc else .asc }
      else { column := col, direction := .asc } }.rebuildVisible

/-- The menu item that shows or hides hidden files. -/
def toggleHidden (d : SftpTable) : SftpTable := { d with showHidden := !d.showHidden }.rebuildVisible

/-- `disconnect`. -/
def disconnect (d : SftpTable) : SftpTable := { d with sftp := false, loading := [], op := none }

/-! ## What the operations keep -/

variable {d : SftpTable}

/-- The rows on view are those of the tree. -/
def Shown (d : SftpTable) : Prop := d.visible = d.shownRows

theorem shown_rebuildVisible (d : SftpTable) : d.rebuildVisible.Shown := rfl

theorem shown_refreshDone {dir : Path} {res : Option (List (Path × Metadata))} :
    (d.refreshDone dir res).Shown := by
  unfold refreshDone
  split
  · exact shown_rebuildVisible _
  · exact shown_rebuildVisible _

theorem shown_toggleDirLocal (h : d.Shown) (rowIx : ℕ) : (d.toggleDirLocal rowIx).1.Shown := by
  unfold toggleDirLocal
  split
  · exact h
  · split
    · exact h
    · exact shown_rebuildVisible _

/-- Opening or closing a directory leaves the nodes. -/
theorem toggleDirLocal_tree (rowIx : ℕ) :
    (d.toggleDirLocal rowIx).1.tree.root = d.tree.root ∧
      (d.toggleDirLocal rowIx).1.tree.nodes = d.tree.nodes := by
  unfold toggleDirLocal
  split
  · exact ⟨rfl, rfl⟩
  · split
    · exact ⟨rfl, rfl⟩
    · exact ⟨rfl, rfl⟩

theorem toggleDirLocal_contextRow (rowIx : ℕ) :
    (d.toggleDirLocal rowIx).1.contextRow = d.contextRow := by
  unfold toggleDirLocal
  split
  · rfl
  · split
    · rfl
    · rfl

theorem refreshDone_contextRow {dir : Path} {res : Option (List (Path × Metadata))} :
    (d.refreshDone dir res).contextRow = d.contextRow := by
  unfold refreshDone
  split
  · rfl
  · rfl

end SftpTable

end Termua.Sftp
