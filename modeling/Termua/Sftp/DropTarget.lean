import Mathlib
import Termua.Sftp.Rows

/-!
# Files dropped below the last row

A file that is dropped on the empty part of the table goes into the directory that the last row stands
for or is listed under. The table recovers that directory from the depths of the rows; since the rows
are the preorder of a forest whose inner nodes are the expanded directories, it is the parent of the
last row (`Forest.find?_parent`), filtered or not.
-/

namespace Termua.Sftp

/-- `RemoteDragEntry`. -/
structure RemoteDragEntry where
  id : Path
  name : Path
  kind : EntryKind

/-- What a row offers to be dragged. -/
def rowDrag (row : VisibleRow) : Option RemoteDragEntry :=
  if row.kind = .file then some { id := row.id, name := row.name, kind := row.kind } else none

/-- `remote_move_destination`. -/
def remoteMoveDestination (src name targetDir : Path) : Option Path :=
  let dst := joinRemote targetDir name
  if dst ≠ src then some dst else none

/-- `remote_move_target_dir`. -/
def remoteMoveTargetDir (drag : RemoteDragEntry) (targetDir : Path) : Option Path :=
  if drag.kind ≠ .file then none
  else (remoteMoveDestination drag.id drag.name targetDir).map fun _ => targetDir

namespace SftpTable

/-- `drop_remote_move_target_dir_for_blank_row`. -/
def dropRemoteMoveTargetDirForBlankRow (d : SftpTable) (blankRowIx : ℕ) (drag : RemoteDragEntry) :
    Option Path :=
  if (d.row blankRowIx).isSome then none
  else
    match min blankRowIx d.visible.length with
    | 0 => remoteMoveTargetDir drag d.tree.root
    | prevIx + 1 =>
      match d.visible[prevIx]? with
      | none => none
      | some previous =>
        let targetDir :=
          if previous.kind = .dir ∧ previous.isExpanded then previous.id
          else
            (((d.visible.take (prevIx + 1)).reverse.find? fun row =>
              decide (row.kind = .dir) && row.isExpanded && decide (row.depth < previous.depth)).map
                VisibleRow.id).getD d.tree.root
        remoteMoveTargetDir drag targetDir

/-- The row of an expanded directory. -/
def openDir (row : VisibleRow) : Bool := decide (row.kind = .dir) && row.isExpanded

/-- The directory for what is dropped below a forest of rows: the last row's own where it is an expanded
directory, and otherwise the one above it, the root above a row of depth one. -/
def blankTarget (root : Path) (f : Forest VisibleRow) : Path :=
  match f.last none with
  | none => root
  | some (parent, row) => if openDir row then row.id else (parent.map VisibleRow.id).getD root

variable {d : SftpTable} {f : Forest VisibleRow}

/-- The scan of the rows before a blank row finds the parent of the last row. -/
theorem dropRemoteMoveTargetDirForBlankRow_eq (hlevels : f.Levels VisibleRow.depth 1)
    (hinner : f.Inner openDir) (hvisible : d.visible = f.rows) {blankRowIx : ℕ}
    (hblank : d.visible.length ≤ blankRowIx) (drag : RemoteDragEntry) :
    d.dropRemoteMoveTargetDirForBlankRow blankRowIx drag =
      remoteMoveTargetDir drag (blankTarget d.tree.root f) := by
  have hrow : d.row blankRowIx = none := List.getElem?_eq_none hblank
  unfold dropRemoteMoveTargetDirForBlankRow
  rw [hrow, if_neg (by simp), min_eq_right hblank]
  have hlast : d.visible.getLast? = (f.last none).map Prod.snd := by
    rw [hvisible]
    exact Forest.getLast?_rows
  unfold blankTarget
  rcases hf : f.last none with _ | ⟨parent, previous⟩
  · obtain rfl := Forest.last_eq_none hf
    rw [hvisible]
    rfl
  -- the last row, with its parent in the forest
  · rw [hf, Option.map_some] at hlast
    obtain ⟨prevIx, hlength⟩ : ∃ prevIx, d.visible.length = prevIx + 1 := by
      refine Nat.exists_eq_succ_of_ne_zero fun hzero => ?_
      rw [List.length_eq_zero_iff.mp hzero] at hlast
      cases hlast
    have hprevious : d.visible[prevIx]? = some previous := by
      rw [List.getLast?_eq_getElem?, hlength, Nat.add_sub_cancel] at hlast
      exact hlast
    have htake : d.visible.take (prevIx + 1) = f.rows := by
      rw [← hlength, List.take_length, hvisible]
    rw [hlength]
    simp only [hprevious]
    refine congrArg _ ?_
    by_cases hopen : openDir previous = true
    · rw [if_pos (by simpa [openDir] using hopen), if_pos hopen]
    -- the scan back for a smaller depth ends at the parent, as depths are levels
    · have hparent := Forest.find?_parent hlevels hinner hf
      rw [Option.or_none] at hparent
      rw [if_neg (by simpa [openDir] using hopen), if_neg hopen, htake, ← hparent]
      rfl

/-- The rows on view of a tree that listings have built, filtered or not, are those of a forest below
the root. -/
theorem exists_forest (hbuilt : d.tree.Built) (hshown : d.Shown) :
    ∃ row below, d.tree.Lists d.sort 0 [d.tree.root] (.node row below .nil) ∧
      d.visible =
        (if d.showHidden then below else below.prune fun row => !isHiddenName row.name).rows := by
  obtain ⟨row, below, hlists, hrows⟩ :=
    TreeState.exists_lists_root hbuilt.wellFormed d.sort
  refine ⟨row, below, hlists, ?_⟩
  have hbelow : (d.tree.visibleRowsSorted d.sort).drop 1 = below.rows := by
    rw [hrows, Forest.rows_node, Forest.rows_nil, List.append_nil, List.drop_one, List.tail_cons]
  rw [hshown, shownRows, hbelow, applyHiddenFilter]
  split
  · rfl
  · rw [hiddenFilter_eq]
    exact Forest.dropBelow_rows hlists.levels.2.1 hlists.inner_isDir.2.1

/-- For every forest of rows whose inner nodes are expanded directories, and every blank row: a file is
moved into the last row's directory where it is expanded, and otherwise into the directory above the
last row, subject only to the move being allowed. The rows on view of every tree are such a forest, with
or without the hidden ones, and rows offer files only. -/
theorem blankRow_targets (d : SftpTable) :
    (∀ f : Forest VisibleRow, f.Levels VisibleRow.depth 1 → f.Inner openDir → d.visible = f.rows →
      ∀ blankRowIx, d.visible.length ≤ blankRowIx → ∀ drag,
        d.dropRemoteMoveTargetDirForBlankRow blankRowIx drag =
          if drag.kind = .file then
            (remoteMoveDestination drag.id drag.name (blankTarget d.tree.root f)).map fun _ =>
              blankTarget d.tree.root f
          else none) ∧
    (d.tree.Built → d.Shown → ∃ row below,
      d.tree.Lists d.sort 0 [d.tree.root] (.node row below .nil) ∧
        ∃ f, (f = below ∨ f = below.prune fun row => !isHiddenName row.name) ∧
          f.Levels VisibleRow.depth 1 ∧ f.Inner openDir ∧ d.visible = f.rows) ∧
    ∀ row drag, rowDrag row = some drag → drag.kind = .file := by
  refine ⟨fun f hlevels hinner hvisible blankRowIx hblank drag => ?_, fun hbuilt hshown => ?_,
    fun row drag hdrag => ?_⟩
  · rw [dropRemoteMoveTargetDirForBlankRow_eq hlevels hinner hvisible hblank, remoteMoveTargetDir,
      ite_not]
  -- the forest below the root, pruned where the hidden ones are not shown
  · obtain ⟨row, below, hlists, hvisible⟩ := exists_forest hbuilt hshown
    have hlevels := hlists.levels.2.1
    have hinner := hlists.inner.2.1
    refine ⟨row, below, hlists, _, ?_, ?_, ?_, hvisible⟩
    · split
      · exact .inl rfl
      · exact .inr rfl
    · split
      · exact hlevels
      · exact hlevels.prune
    · split
      · exact hinner
      · exact hinner.prune
  · unfold rowDrag at hdrag
    split at hdrag
    · next hkind =>
      obtain rfl := Option.some.inj hdrag
      exact hkind
    · cases hdrag

/-- The sample tree with its hidden directory on view. -/
def sampleTable : SftpTable :=
  { tree := TreeState.sampleTree, showHidden := true, visible := [] : SftpTable }.rebuildVisible

/-- The last row, a file in the root directory, stands for the root. -/
theorem blankRow_targets_sample : ∃ f, sampleTable.visible = f.rows ∧
    ∀ drag, sampleTable.dropRemoteMoveTargetDirForBlankRow 3 drag =
      if drag.kind = .file then
        (remoteMoveDestination drag.id drag.name (blankTarget "/".toList f)).map fun _ =>
          blankTarget "/".toList f
      else none := by
  obtain ⟨htargets, hforest, -⟩ := blankRow_targets sampleTable
  obtain ⟨row, below, -, f, -, hlevels, hinner, hvisible⟩ :=
    hforest TreeState.built_sampleTree (shown_rebuildVisible _)
  exact ⟨f, hvisible, htargets f hlevels hinner hvisible 3 (by decide +kernel)⟩

end SftpTable

end Termua.Sftp
