import Mathlib
import Termua.Sftp.Delete

/-!
# The selection

The rows that are selected, by their ids, while the user clicks and drags over the table and the rows
on view change under the selection. `rebuild_visible` ends every change of the rows and drops what is
not on view any more, so nothing that is hidden is ever selected (`SelectionShown`).
-/

namespace Termua.Sftp

open Transition

namespace SftpTable

/-- The selection after a click on a row: with shift the rows from the anchor to the row, with the
secondary key together with what is selected. -/
def selectionOfClick (d : SftpTable) (rowIx : ℕ) (targetId : Path) (secondary shift : Bool) :
    List Path :=
  if shift then
    match d.selectionAnchorId.bind fun anchorId => d.visible.findIdx? (·.id = anchorId) with
    | some anchorIx =>
      let (a, b) := if anchorIx ≤ rowIx then (anchorIx, rowIx) else (rowIx, anchorIx)
      let selectedIds := if secondary then d.selectedIds else []
      ((d.visible.drop a).take (b - a + 1)).foldl (fun ids row => ids.insert row.id) selectedIds
    | none => [targetId]
  else if secondary then
    if d.selectedIds.contains targetId then d.selectedIds.filter (· ≠ targetId)
    else d.selectedIds.insert targetId
  else [targetId]

/-- `click_row_local`. -/
def clickRowLocal (d : SftpTable) (rowIx : ℕ) (secondary shift : Bool) : SftpTable :=
  match d.row rowIx with
  | none => d
  | some row =>
    { d with
      selectedIds := d.selectionOfClick rowIx row.id secondary shift
      selectionAnchorId := some row.id }

end SftpTable

/-- The browser, and whether rows are selected by dragging over them. -/
structure Selector where
  browser : Browser := {}
  dragSelecting : Bool := false

namespace Selector

/-- The table. -/
def table (s : Selector) : SftpTable := s.browser.table

/-- A change of the table. -/
def setTable (s : Selector) (table : SftpTable) : Selector :=
  { s with browser := { s.browser with table } }

/-- `begin_drag_select`. -/
def beginDragSelect (s : Selector) (rowIx : ℕ) (secondary shift : Bool) : Selector :=
  s.setTable (s.table.clickRowLocal rowIx secondary shift)

/-- `clear_selection`. -/
def clearSelection (s : Selector) : Selector :=
  { s.setTable { s.table with selectedIds := [], selectionAnchorId := none, contextRow := none } with
    dragSelecting := false }

/-- `begin_blank_drag_select`. -/
def beginBlankDragSelect (s : Selector) : Selector := { s.clearSelection with dragSelecting := true }

/-- `drag_select_row`. -/
def dragSelectRow (s : Selector) (rowIx : ℕ) : Selector :=
  if !s.dragSelecting then s
  else
    match s.table.row rowIx with
    | none => s
    | some row => s.setTable { s.table with selectedIds := s.table.selectedIds.insert row.id }

/-- `end_drag_select`. -/
def endDragSelect (s : Selector) : Selector := { s with dragSelecting := false }

/-- The end of `delete_selected_ids`, with the directories to refresh. -/
def deleted (s : Selector) (parents : List Path) : Selector :=
  let s := s.setTable { s.table with selectedIds := [], selectionAnchorId := none }
  { s with browser := parents.foldl Browser.refreshDir s.browser }

/-- What the user does with the rows, and everything that changes them. -/
inductive Event
  | browse (e : Browser.Event)
  | click (rowIx : ℕ) (secondary shift : Bool)
  | beginBlankDrag
  | dragOver (rowIx : ℕ)
  | endDrag
  | clearSelection
  | contextMenuTarget (rowIx : Option ℕ)
  | takeContextRow
  | deleted (parents : List Path)

/-- One event. -/
def step (s : Selector) : Event → Option Selector
  | .browse e => (s.browser.step e).map fun browser => { s with browser }
  | .click rowIx secondary shift => some (s.beginDragSelect rowIx secondary shift)
  | .beginBlankDrag => some s.beginBlankDragSelect
  | .dragOver rowIx => some (s.dragSelectRow rowIx)
  | .endDrag => some s.endDragSelect
  | .clearSelection => some s.clearSelection
  | .contextMenuTarget rowIx => some (s.setTable (s.table.setContextMenuTarget rowIx))
  | .takeContextRow => some (s.setTable s.table.takeContextRow)
  | .deleted parents => some (s.deleted parents)

end Selector

namespace SftpTable

variable {d : SftpTable}

/-! ## What is selected is on view -/

/-- The selected rows and the anchor are on view. -/
structure SelectionShown (d : SftpTable) : Prop where
  selected : d.Selects d.selectedIds
  anchor : d.Selects d.selectionAnchorId.toList

theorem selects_iff {ids : List Path} : d.Selects ids ↔ ∀ id ∈ ids, id ∈ d.visible.map VisibleRow.id :=
  forall₂_congr fun _ _ => List.mem_map.symm

theorem selects_row {rowIx : ℕ} {row : VisibleRow} (h : d.row rowIx = some row) :
    d.Selects [row.id] := by
  intro id hid
  obtain rfl := List.mem_singleton.mp hid
  exact ⟨row, List.mem_of_getElem? h, rfl⟩

theorem Selects.insert {ids : List Path} {id : Path} (h : d.Selects ids) (hid : d.Selects [id]) :
    d.Selects (ids.insert id) := by
  intro x hx
  rcases List.mem_insert_iff.mp hx with rfl | hx
  · exact hid _ List.mem_cons_self
  · exact h x hx

theorem selectionShown_of_nothing (hselected : d.selectedIds = [])
    (hanchor : d.selectionAnchorId = none) : d.SelectionShown where
  selected := by
    rw [hselected]
    exact fun _ hid => nomatch hid
  anchor := by
    rw [hanchor]
    exact fun _ hid => nomatch hid

/-- Whatever was selected: after the rows are rebuilt it is on view. -/
theorem selectionShown_rebuildVisible (d : SftpTable) : d.rebuildVisible.SelectionShown where
  selected := by
    rw [selects_iff]
    intro id hid
    exact List.contains_iff_mem.mp (List.of_mem_filter hid)
  anchor := by
    rw [selects_iff]
    intro id hid
    have hanchor : d.rebuildVisible.selectionAnchorId = some id := Option.mem_toList.mp hid
    exact List.contains_iff_mem.mp (Option.filter_eq_some_iff.mp hanchor).2

theorem selectionShown_refreshDone {dir : Path} {res : Option (List (Path × Metadata))} :
    (d.refreshDone dir res).SelectionShown := by
  unfold refreshDone
  split
  · exact selectionShown_rebuildVisible _
  · exact selectionShown_rebuildVisible _

theorem SelectionShown.toggleDirLocal (h : d.SelectionShown) (rowIx : ℕ) :
    (d.toggleDirLocal rowIx).1.SelectionShown := by
  unfold SftpTable.toggleDirLocal
  split
  · exact h
  · split
    · exact h
    · exact selectionShown_rebuildVisible _

theorem SelectionShown.setContextMenuTarget (h : d.SelectionShown) (rowIx : Option ℕ) :
    (d.setContextMenuTarget rowIx).SelectionShown := by
  unfold SftpTable.setContextMenuTarget
  simp only
  split
  · exact ⟨h.selected, h.anchor⟩
  · next row hrow =>
    obtain ⟨ix, -, hix⟩ := Option.bind_eq_some_iff.mp hrow
    refine ⟨?_, selects_row hix⟩
    show d.Selects (if d.selectedIds.contains row.id = true then d.selectedIds else [row.id])
    split
    · exact h.selected
    · exact selects_row hix

/-! ## The rows between the anchor and the click -/

theorem mem_foldl_insert {rows : List VisibleRow} {ids : List Path} {id : Path} :
    id ∈ rows.foldl (fun ids row => ids.insert row.id) ids ↔
      id ∈ ids ∨ ∃ row ∈ rows, row.id = id := by
  induction rows generalizing ids with
  | nil => simp
  | cons row rows ih =>
    rw [List.foldl_cons, ih, List.mem_insert_iff, List.exists_mem_cons_iff]
    rw [or_comm (a := id = row.id), or_assoc, eq_comm]

/-- The rows from one index to another. -/
theorem mem_take_drop {rows : List VisibleRow} {row : VisibleRow} {a b : ℕ} (hab : a ≤ b) :
    row ∈ (rows.drop a).take (b - a + 1) ↔ ∃ i, a ≤ i ∧ i ≤ b ∧ rows[i]? = some row := by
  rw [List.mem_iff_getElem?]
  constructor
  · rintro ⟨j, hj⟩
    rw [List.getElem?_take, List.getElem?_drop] at hj
    split at hj
    · exact ⟨a + j, by omega, by omega, hj⟩
    · cases hj
  · rintro ⟨i, ha, hb, hi⟩
    refine ⟨i - a, ?_⟩
    rw [List.getElem?_take_of_lt (by omega), List.getElem?_drop, Nat.add_sub_cancel' ha]
    exact hi

theorem selects_selectionOfClick (h : d.SelectionShown) {rowIx : ℕ} {row : VisibleRow}
    (hrow : d.row rowIx = some row) (secondary shift : Bool) :
    d.Selects (d.selectionOfClick rowIx row.id secondary shift) := by
  unfold selectionOfClick
  split
  · split
    · next anchorIx hanchor =>
      intro id hid
      rcases mem_foldl_insert.mp hid with hid | ⟨r, hr, rfl⟩
      · split at hid
        · exact h.selected id hid
        · cases hid
      · exact ⟨r, List.mem_of_mem_drop (List.mem_of_mem_take hr), rfl⟩
    · exact selects_row hrow
  · split
    · split
      · exact fun id hid => h.selected id (List.mem_of_mem_filter hid)
      · exact h.selected.insert (selects_row hrow)
    · exact selects_row hrow

theorem SelectionShown.clickRowLocal (h : d.SelectionShown) (rowIx : ℕ) (secondary shift : Bool) :
    (d.clickRowLocal rowIx secondary shift).SelectionShown := by
  unfold SftpTable.clickRowLocal
  split
  · exact h
  · next row hrow => exact ⟨selects_selectionOfClick h hrow secondary shift, selects_row hrow⟩

theorem clickRowLocal_visible (rowIx : ℕ) (secondary shift : Bool) :
    (d.clickRowLocal rowIx secondary shift).visible = d.visible := by
  unfold SftpTable.clickRowLocal
  split <;> rfl

/-- After a click with shift alone the selection is the block of rows from the anchor to the row. -/
theorem mem_selectedIds_shiftClick {rowIx anchorIx : ℕ} {row : VisibleRow} {anchor : Path}
    (hrow : d.row rowIx = some row) (hanchor : d.selectionAnchorId = some anchor)
    (hix : d.visible.findIdx? (·.id = anchor) = some anchorIx) (id : Path) :
    id ∈ (d.clickRowLocal rowIx false true).selectedIds ↔
      ∃ i row, min anchorIx rowIx ≤ i ∧ i ≤ max anchorIx rowIx ∧ d.visible[i]? = some row ∧
        row.id = id := by
  have hselection : (d.clickRowLocal rowIx false true).selectedIds =
      ((d.visible.drop (min anchorIx rowIx)).take
        (max anchorIx rowIx - min anchorIx rowIx + 1)).foldl (fun ids row => ids.insert row.id) [] := by
    unfold SftpTable.clickRowLocal selectionOfClick
    simp only [hrow, hanchor, Option.bind_some, hix, if_true, Bool.false_eq_true, if_false]
    split
    · next hle => rw [min_eq_left hle, max_eq_right hle]
    · next hgt => rw [min_eq_right (by omega), max_eq_left (by omega)]
  rw [hselection, mem_foldl_insert]
  constructor
  · rintro (hid | ⟨r, hr, hid⟩)
    · cases hid
    · obtain ⟨i, hlo, hhi, hi⟩ := (mem_take_drop min_le_max).mp hr
      exact ⟨i, r, hlo, hhi, hi, hid⟩
  · rintro ⟨i, r, hlo, hhi, hi, hid⟩
    exact .inr ⟨r, (mem_take_drop min_le_max).mpr ⟨i, hlo, hhi, hi⟩, hid⟩

end SftpTable

/-! ## Over whole runs -/

namespace Browser

variable {s s' : Browser}

theorem selectionShown_refreshDir (h : s.table.SelectionShown) (dir : Path) :
    (s.refreshDir dir).table.SelectionShown := by
  unfold refreshDir
  split
  · exact h
  · exact SftpTable.selectionShown_rebuildVisible _

theorem selectionShown_refreshDirs (h : s.table.SelectionShown) (dirs : List Path) :
    (dirs.foldl refreshDir s).table.SelectionShown := by
  induction dirs generalizing s with
  | nil => exact h
  | cons dir dirs ih => exact ih (selectionShown_refreshDir h dir)

/-- Every change of the rows ends with the selection pruned. -/
theorem selectionShown_step (h : s.table.SelectionShown) {e : Event} (hs : s.step e = some s') :
    s'.table.SelectionShown := by
  cases e with
  | cd dir =>
    obtain rfl := Option.some.inj hs
    unfold Browser.cd
    split
    · exact h
    · exact selectionShown_refreshDir (SftpTable.selectionShown_rebuildVisible _) dir
  | refreshDir dir =>
    obtain rfl := Option.some.inj hs
    exact selectionShown_refreshDir h dir
  | bootstrapRoot =>
    obtain rfl := Option.some.inj hs
    unfold Browser.bootstrapRoot
    split
    · exact h
    · exact h
  | readDirDone number res =>
    unfold Browser.step at hs
    simp only at hs
    split at hs
    · obtain rfl := Option.some.inj hs
      exact SftpTable.selectionShown_refreshDone
    · cases hs
  | canonicalizeDone number root =>
    unfold Browser.step at hs
    simp only at hs
    split at hs
    · obtain rfl := Option.some.inj hs
      exact selectionShown_refreshDir (SftpTable.selectionShown_rebuildVisible _) _
    · cases hs
  | setSort col =>
    obtain rfl := Option.some.inj hs
    exact SftpTable.selectionShown_rebuildVisible _
  | toggleHidden =>
    obtain rfl := Option.some.inj hs
    exact SftpTable.selectionShown_rebuildVisible _
  | toggleDir rowIx =>
    obtain rfl := Option.some.inj hs
    have hlocal := h.toggleDirLocal rowIx
    show (s.toggleDir rowIx).table.SelectionShown
    unfold Browser.toggleDir
    rcases hlocal' : s.table.toggleDirLocal rowIx with ⟨table, _ | dir⟩
    · rw [hlocal'] at hlocal
      exact hlocal
    · rw [hlocal'] at hlocal
      exact selectionShown_refreshDir hlocal dir
  | disconnect =>
    obtain rfl := Option.some.inj hs
    exact ⟨h.selected, h.anchor⟩

end Browser

namespace Selector

variable {s s' : Selector} {es : List Event}

theorem selectionShown_step (h : s.table.SelectionShown) {e : Event} (hs : s.step e = some s') :
    s'.table.SelectionShown := by
  cases e with
  | browse e =>
    obtain ⟨browser, hbrowser, rfl⟩ := Option.map_eq_some_iff.mp hs
    exact Browser.selectionShown_step h hbrowser
  | click rowIx secondary shift =>
    obtain rfl := Option.some.inj hs
    exact h.clickRowLocal rowIx secondary shift
  | beginBlankDrag =>
    obtain rfl := Option.some.inj hs
    exact SftpTable.selectionShown_of_nothing rfl rfl
  | dragOver rowIx =>
    obtain rfl := Option.some.inj hs
    unfold dragSelectRow
    split
    · exact h
    · split
      · exact h
      · next row hrow => exact ⟨h.selected.insert (SftpTable.selects_row hrow), h.anchor⟩
  | endDrag =>
    obtain rfl := Option.some.inj hs
    exact h
  | clearSelection =>
    obtain rfl := Option.some.inj hs
    exact SftpTable.selectionShown_of_nothing rfl rfl
  | contextMenuTarget rowIx =>
    obtain rfl := Option.some.inj hs
    exact h.setContextMenuTarget rowIx
  | takeContextRow =>
    obtain rfl := Option.some.inj hs
    exact ⟨h.selected, h.anchor⟩
  | deleted parents =>
    obtain rfl := Option.some.inj hs
    exact Browser.selectionShown_refreshDirs (SftpTable.selectionShown_of_nothing rfl rfl) parents

theorem selectionShown_run (h : Run (ofPartial step) {} es s) : s.table.SelectionShown :=
  h.invariant (I := fun s => s.table.SelectionShown)
    (SftpTable.selectionShown_of_nothing rfl rfl)
    fun _ _ _ _ _ hb hs => selectionShown_step hb hs

/-- Whatever the user and the server do: every selected id and the anchor are ids of rows on view, and
a click with shift alone on a row selects the block of rows from the anchor's to it. -/
theorem selection_onView (h : Run (ofPartial step) {} es s) :
    (∀ id ∈ s.table.selectedIds, ∃ row ∈ s.table.visible, row.id = id) ∧
    (∀ anchor, s.table.selectionAnchorId = some anchor → ∃ row ∈ s.table.visible, row.id = anchor) ∧
    ∀ anchor, s.table.selectionAnchorId = some anchor →
      ∃ anchorIx, s.table.visible.findIdx? (·.id = anchor) = some anchorIx ∧
        ∀ rowIx < s.table.visible.length, ∃ s', s.step (.click rowIx false true) = some s' ∧
          s'.table.visible = s.table.visible ∧
          ∀ id, id ∈ s'.table.selectedIds ↔
            ∃ i row, min anchorIx rowIx ≤ i ∧ i ≤ max anchorIx rowIx ∧
              s.table.visible[i]? = some row ∧ row.id = id := by
  have hshown := selectionShown_run h
  refine ⟨hshown.selected, fun anchor hanchor => ?_, fun anchor hanchor => ?_⟩
  · exact hshown.anchor anchor (Option.mem_toList.mpr hanchor)
  · obtain ⟨row, hrow, hid⟩ := hshown.anchor anchor (Option.mem_toList.mpr hanchor)
    have hisSome : (s.table.visible.findIdx? (·.id = anchor)).isSome := by
      rw [List.findIdx?_isSome, List.any_eq_true]
      exact ⟨row, hrow, by simpa using hid⟩
    obtain ⟨anchorIx, hix⟩ := Option.isSome_iff_exists.mp hisSome
    refine ⟨anchorIx, hix, fun rowIx hlt => ⟨_, rfl, ?_, ?_⟩⟩
    · exact SftpTable.clickRowLocal_visible rowIx false true
    · exact SftpTable.mem_selectedIds_shiftClick (List.getElem?_eq_getElem hlt) hanchor hix

/-- A directory with three files, of which the last is clicked and the first then with shift. -/
def threeFiles : List Event :=
  [.browse (.cd "/".toList),
    .browse (.readDirDone 0 (some [("/a".toList, { ty := .file }), ("/b".toList, { ty := .file }),
      ("/c".toList, { ty := .file })])),
    .click 2 false false, .click 0 false true]

theorem selection_onView_threeFiles : ∃ s, Run (ofPartial step) {} threeFiles s ∧
    s.table.selectedIds ≠ [] ∧ ∀ id ∈ s.table.selectedIds, ∃ row ∈ s.table.visible, row.id = id := by
  obtain ⟨s, hrun, hs⟩ := exists_run_of_any {} threeFiles (f := step)
    (p := fun s => decide (s.table.selectedIds ≠ [])) (by decide +kernel)
  exact ⟨s, hrun, of_decide_eq_true hs, (selection_onView hrun).1⟩

end Selector

end Termua.Sftp
