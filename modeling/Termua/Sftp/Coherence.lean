import Mathlib
import Termua.Sftp.Browser

/-!
# Entries and their parents

The id of an entry is joined from the directory that was refreshed and the entry's name; what is done
to the entry later refreshes the parent that its id spells. Along every run the trees are `Joined`:
every entry has been joined to the directory that it is listed under, and every node but the root is
spelled as a join spells it. So the two directories are the same one exactly where the root is spelled
so too (`coherent_iff`).
-/

namespace Termua.Sftp

open Transition

namespace TreeState

/-- An entry is listed under a directory of the tree. -/
def ListedUnder (t : TreeState) (dir id : Path) : Prop :=
  ∃ node, t.nodes.lookup dir = some node ∧ id ∈ node.children

/-- The directory that is refreshed after something was done to an entry. -/
def refreshedFor (t : TreeState) (id : Path) : Path := (parentDir id).getD t.root

/-- Every node has its own path, every node but the root is spelled as a join spells it, and every
entry was joined to the directory that it is listed under. -/
structure Joined (t : TreeState) : Prop where
  keyed : ∀ id node, t.nodes.lookup id = some node → node.entry.path = id
  spelled : ∀ id ∈ t.nodes, id = t.root ∨ Spelled id
  joined : ∀ dir id, t.ListedUnder dir id → ∃ name, IsName name ∧ id = joinRemote dir name

variable {t : TreeState} {dir id : Path}

/-! ## The entries of a directory after a refresh -/

theorem listedUnder_new {root : Entry} : ¬ (new root).ListedUnder dir id := by
  rintro ⟨node, hnode, hid⟩
  obtain ⟨-, rfl⟩ := lookup_new hnode
  cases hid

/-- The directory that was refreshed has the entries of the listing. -/
theorem listedUnder_upsertChildren (h : dir ∈ t.nodes) (children : List Entry) :
    (t.upsertChildren dir children).ListedUnder dir id ↔ id ∈ children.map Entry.path := by
  have hmem := mem_upsertChildren dir children h
  obtain ⟨node, hnode⟩ := Option.isSome_iff_exists.mp (AList.lookup_isSome.mpr hmem)
  have hchildren : node.children = children.map Entry.path := by
    rcases children_upsertChildren hnode with ⟨-, hlist⟩ | ⟨hne, -⟩
    · exact hlist
    · exact absurd rfl hne
  constructor
  · rintro ⟨node', hnode', hid⟩
    obtain rfl := Option.some.inj (hnode.symm.trans hnode')
    exact hchildren ▸ hid
  · intro hid
    exact ⟨node, hnode, hchildren ▸ hid⟩

/-- A directory that was not refreshed has the entries that it had. -/
theorem ListedUnder.of_upsertChildren {parentId : Path} {children : List Entry}
    (h : (t.upsertChildren parentId children).ListedUnder dir id) :
    (dir = parentId ∧ id ∈ children.map Entry.path) ∨ t.ListedUnder dir id := by
  obtain ⟨node', hnode', hid⟩ := h
  rcases children_upsertChildren hnode' with ⟨hdir, hlist⟩ | ⟨-, ⟨node, hnode, hlist⟩ | ⟨-, hlist⟩⟩
  · exact .inl ⟨hdir, hlist ▸ hid⟩
  · exact .inr ⟨node, hnode, hlist ▸ hid⟩
  · rw [hlist] at hid
    cases hid

theorem lastEntry_eq_some {children : List Entry} {child : Entry}
    (h : lastEntry children id = some child) : child ∈ children ∧ child.path = id := by
  unfold lastEntry at h
  have hpath := List.find?_some h
  exact ⟨List.mem_reverse.mp (List.mem_of_find?_eq_some h), by simpa using hpath⟩

/-- The entries of a listing are joined to the directory. -/
theorem joined_of_mem_listedChildren {found : List (Path × Metadata)}
    (h : id ∈ (listedChildren dir found).map Entry.path) :
    ∃ name, IsName name ∧ id = joinRemote dir name := by
  obtain ⟨child, hchild, rfl⟩ := List.mem_map.mp h
  obtain ⟨⟨path, m⟩, -, hentry⟩ := List.mem_filterMap.mp hchild
  unfold listedEntry at hentry
  split at hentry
  · cases hentry
  · next name hname =>
    split at hentry
    · cases hentry
    · obtain rfl := Option.some.inj hentry
      exact ⟨name, isName_of_fileName hname, rfl⟩

/-! ## What a run keeps -/

theorem Joined.new {root : Entry} : (new root).Joined where
  keyed := by
    intro id node hnode
    obtain ⟨rfl, rfl⟩ := lookup_new hnode
    rfl
  spelled := by
    intro id hid
    obtain ⟨node, hnode⟩ := Option.isSome_iff_exists.mp (AList.lookup_isSome.mpr hid)
    exact .inl (lookup_new hnode).1
  joined := fun _ _ h => absurd h listedUnder_new

/-- A tree with the same root and nodes. -/
theorem Joined.congr {t' : TreeState} (h : t.Joined) (hroot : t'.root = t.root)
    (hnodes : t'.nodes = t.nodes) : t'.Joined where
  keyed := by
    rw [hnodes]
    exact h.keyed
  spelled := by
    rw [hroot, hnodes]
    exact h.spelled
  joined := by
    unfold ListedUnder
    rw [hnodes]
    exact h.joined

/-- A listing of a directory joins its entries to it. -/
theorem Joined.upsertChildren (h : t.Joined) (parentId : Path) (found : List (Path × Metadata)) :
    (t.upsertChildren parentId (listedChildren parentId found)).Joined where
  keyed := by
    intro id node' hnode'
    have hentry := @entry_upsertChildren t id parentId (listedChildren parentId found)
    rw [hnode', Option.map_some] at hentry
    rcases hlast : lastEntry (listedChildren parentId found) id with _ | child
    · rw [hlast, Option.none_or] at hentry
      obtain ⟨node, hnode, heq⟩ := Option.map_eq_some_iff.mp hentry.symm
      rw [← heq]
      exact h.keyed id node hnode
    · rw [hlast, Option.some_or] at hentry
      rw [Option.some.inj hentry]
      exact (lastEntry_eq_some hlast).2
  spelled := by
    intro id hid
    rcases mem_upsertChildren_iff.mp hid with hid | ⟨child, hlast⟩
    · exact h.spelled id hid
    · obtain ⟨hmem, hpath⟩ := lastEntry_eq_some hlast
      obtain ⟨name, hname, hjoin⟩ := joined_of_mem_listedChildren (List.mem_map_of_mem hmem)
      rw [← hpath, hjoin]
      exact .inr (spelled_joinRemote hname)
  joined := by
    intro dir id hlisted
    rcases hlisted.of_upsertChildren with ⟨rfl, hid⟩ | hlisted
    · exact joined_of_mem_listedChildren hid
    · exact h.joined dir id hlisted

/-- In a tree with a root that is spelled so, the parent that an entry's id spells is the directory
that the entry is listed under. -/
theorem Joined.parentDir (h : t.Joined) (hroot : Spelled t.root) (hlisted : t.ListedUnder dir id) :
    Sftp.parentDir id = some dir := by
  obtain ⟨name, hname, rfl⟩ := h.joined dir id hlisted
  obtain ⟨node, hnode, -⟩ := hlisted
  have hdir : Spelled dir := by
    rcases h.spelled dir (AList.lookup_isSome.mp (by rw [hnode]; rfl)) with rfl | hdir
    · exact hroot
    · exact hdir
  exact (parentDir_joinRemote_iff hname).mpr hdir

/-! ## Rows are entries -/

/-- A row of an entry is the entry, or it is listed below it. -/
theorem Joined.listedBelow_of_mem_flatten (h : t.Joined) {sort : SortSpec} {n d : ℕ}
    {row : VisibleRow} (hrow : row ∈ t.flattenIntoSorted sort n id d) :
    Relation.ReflTransGen t.ListedUnder id row.id := by
  induction n generalizing id d with
  | zero => cases hrow
  | succ n ih =>
    unfold flattenIntoSorted at hrow
    rcases hnode : t.nodes.lookup id with _ | node
    · rw [hnode] at hrow
      cases hrow
    · rw [hnode] at hrow
      rcases List.mem_cons.mp hrow with rfl | hrow
      · have hid : node.entry.path = id := h.keyed id node hnode
        exact hid ▸ .refl
      · split at hrow
        · cases hrow
        · obtain ⟨child, hchild, hrow⟩ := List.mem_flatMap.mp hrow
          have hlisted : t.ListedUnder id child :=
            ⟨node, hnode, (List.mem_insertionSort _).mp hchild⟩
          exact .head hlisted (ih hrow)

/-- Every row behind the first one is listed below the root. -/
theorem Joined.listedBelow_of_mem_rows (h : t.Joined) {sort : SortSpec} {row : VisibleRow}
    (hrow : row ∈ (t.visibleRowsSorted sort).drop 1) :
    Relation.TransGen t.ListedUnder t.root row.id := by
  unfold visibleRowsSorted flattenIntoSorted at hrow
  rcases hnode : t.nodes.lookup t.root with _ | node
  · rw [hnode] at hrow
    cases hrow
  · rw [hnode] at hrow
    simp only [List.drop_one, List.tail_cons] at hrow
    split at hrow
    · cases hrow
    · obtain ⟨child, hchild, hrow⟩ := List.mem_flatMap.mp hrow
      have hlisted : t.ListedUnder t.root child :=
        ⟨node, hnode, (List.mem_insertionSort _).mp hchild⟩
      exact .head' hlisted (h.listedBelow_of_mem_flatten hrow)

/-- What is listed below a directory lies deeper. -/
theorem Joined.depth_lt (h : t.Joined) (hbelow : Relation.TransGen t.ListedUnder dir id) :
    Sftp.depth dir < Sftp.depth id := by
  have hone : ∀ {dir id}, t.ListedUnder dir id → Sftp.depth dir < Sftp.depth id := by
    intro dir id hlisted
    obtain ⟨name, hname, rfl⟩ := h.joined dir id hlisted
    exact depth_lt_joinRemote hname
  induction hbelow with
  | single hlisted => exact hone hlisted
  | tail _ hlisted ih => exact ih.trans (hone hlisted)

end TreeState

namespace SftpTable

variable {d : SftpTable}

theorem mem_of_mem_hiddenFilter {row : VisibleRow} {hiddenDirDepth : Option ℕ}
    {rows : List VisibleRow} (h : row ∈ hiddenFilter hiddenDirDepth rows) : row ∈ rows := by
  induction rows generalizing hiddenDirDepth with
  | nil => cases h
  | cons first rows ih =>
    unfold hiddenFilter at h
    split at h
    · exact List.mem_cons_of_mem _ (ih h)
    · split at h
      · exact List.mem_cons_of_mem _ (ih h)
      · rcases List.mem_cons.mp h with rfl | h
        · exact List.mem_cons_self
        · exact List.mem_cons_of_mem _ (ih h)

/-- Every row on view is an entry below the root. -/
theorem Shown.listedBelow (h : d.Shown) (hjoined : d.tree.Joined) {row : VisibleRow}
    (hrow : row ∈ d.visible) : Relation.TransGen d.tree.ListedUnder d.tree.root row.id := by
  rw [show d.visible = d.shownRows from h] at hrow
  unfold shownRows applyHiddenFilter at hrow
  split at hrow
  · exact hjoined.listedBelow_of_mem_rows hrow
  · exact hjoined.listedBelow_of_mem_rows (mem_of_mem_hiddenFilter hrow)

/-- Every row on view is listed under a directory. -/
theorem Shown.listedUnder (h : d.Shown) (hjoined : d.tree.Joined) {row : VisibleRow}
    (hrow : row ∈ d.visible) : ∃ dir, d.tree.ListedUnder dir row.id := by
  obtain ⟨dir, -, hlisted⟩ := Relation.TransGen.tail'_iff.mp (h.listedBelow hjoined hrow)
  exact ⟨dir, hlisted⟩

/-- Every row is listed under a directory, the parent that its id spells is that directory, and so
what is refreshed after something was done to the entry is the directory in which it is shown. -/
structure Coherent (d : SftpTable) : Prop where
  listed : ∀ row ∈ d.visible, ∃ dir, d.tree.ListedUnder dir row.id
  parent : ∀ dir id, d.tree.ListedUnder dir id → parentDir id = some dir
  refreshed : ∀ dir id found, d.tree.ListedUnder dir id → ∀ id',
    (d.refreshDone (d.tree.refreshedFor id) (some found)).tree.ListedUnder dir id' ↔
      id' ∈ (listedChildren dir found).map Entry.path

/-- A table is coherent when its root is spelled as a join spells it. -/
theorem Shown.coherent (h : d.Shown) (hjoined : d.tree.Joined) (hroot : Spelled d.tree.root) :
    d.Coherent where
  listed := fun _ hrow => h.listedUnder hjoined hrow
  parent := fun _ _ hlisted => hjoined.parentDir hroot hlisted
  refreshed := by
    intro dir id found hlisted id'
    have hdir : d.tree.refreshedFor id = dir := by
      unfold TreeState.refreshedFor
      rw [hjoined.parentDir hroot hlisted, Option.getD_some]
    obtain ⟨node, hnode, -⟩ := hlisted
    rw [hdir]
    exact TreeState.listedUnder_upsertChildren (AList.lookup_isSome.mp (by rw [hnode]; rfl)) _

end SftpTable

namespace Browser

variable {s s' : Browser}

/-- The invariant: the rows are those of the tree, and the tree is joined. -/
structure Joins (s : Browser) : Prop where
  shown : s.table.Shown
  joined : s.table.tree.Joined

theorem Joins.start : Joins {} where
  shown := by rfl
  joined := TreeState.Joined.new

theorem Joins.refreshDir (h : Joins s) (dir : Path) : Joins (s.refreshDir dir) := by
  unfold Browser.refreshDir
  split
  · exact h
  · exact
      { shown := SftpTable.shown_rebuildVisible _
        joined := h.joined.congr rfl rfl }

/-- The tree is set to a root. -/
theorem Joins.setTree {table : SftpTable} {root : Entry} (htree : table.tree = .new root)
    (hshown : table.Shown) (h : s.table = table) : Joins s where
  shown := h ▸ hshown
  joined := by
    rw [h, htree]
    exact TreeState.Joined.new

theorem Joins.step (h : Joins s) {e : Event} (hs : s.step e = some s') : Joins s' := by
  cases e with
  | cd dir =>
    obtain rfl := Option.some.inj hs
    unfold Browser.cd
    split
    · exact h
    · exact (Joins.setTree rfl (SftpTable.shown_rebuildVisible _) rfl).refreshDir dir
  | refreshDir dir =>
    obtain rfl := Option.some.inj hs
    exact h.refreshDir dir
  | bootstrapRoot =>
    obtain rfl := Option.some.inj hs
    unfold Browser.bootstrapRoot
    split
    · exact h
    · exact ⟨h.shown, h.joined⟩
  -- a listing brings in children that have their parent; a failure changes no node
  | readDirDone number res =>
    unfold Browser.step at hs
    simp only at hs
    split at hs
    · next dir _ =>
      obtain rfl := Option.some.inj hs
      refine ⟨SftpTable.shown_refreshDone, ?_⟩
      rcases res with _ | found
      · exact h.joined.congr rfl rfl
      · exact h.joined.upsertChildren dir found
    · cases hs
  | canonicalizeDone number root =>
    unfold Browser.step at hs
    simp only at hs
    split at hs
    · obtain rfl := Option.some.inj hs
      exact (Joins.setTree rfl (SftpTable.shown_rebuildVisible _) rfl).refreshDir _
    · cases hs
  | setSort col =>
    obtain rfl := Option.some.inj hs
    exact ⟨SftpTable.shown_rebuildVisible _, h.joined.congr rfl rfl⟩
  | toggleHidden =>
    obtain rfl := Option.some.inj hs
    exact ⟨SftpTable.shown_rebuildVisible _, h.joined.congr rfl rfl⟩
  -- opening a directory that is not loaded asks for it as well
  | toggleDir rowIx =>
    obtain rfl := Option.some.inj hs
    show Joins (s.toggleDir rowIx)
    have hshown := SftpTable.shown_toggleDirLocal h.shown rowIx
    have htree := SftpTable.toggleDirLocal_tree (d := s.table) rowIx
    unfold Browser.toggleDir
    rcases hlocal : s.table.toggleDirLocal rowIx with ⟨table, _ | dir⟩
    · rw [hlocal] at hshown htree
      exact ⟨hshown, h.joined.congr htree.1 htree.2⟩
    · rw [hlocal] at hshown htree
      exact Joins.refreshDir (s := { s with table }) ⟨hshown, h.joined.congr htree.1 htree.2⟩ dir
  | disconnect =>
    obtain rfl := Option.some.inj hs
    exact ⟨h.shown, h.joined⟩

theorem joins_run {es : List Event} (h : Run (ofPartial Browser.step) {} es s) : Joins s :=
  h.invariant .start fun _ _ _ _ _ hjoins hs => hjoins.step hs

/-! ## The spelling of the root -/

/-- A directory is entered and listed with one file. -/
def oneFile (dir : Path) : List Event :=
  [.cd dir, .readDirDone 0 (some [("x".toList, { ty := .file })])]

theorem listed_oneFile (dir : Path) :
    joinRemote dir "x".toList ∈
      (listedChildren dir [("x".toList, { ty := .file })]).map Entry.path := by
  have hname : fileName "x".toList = some "x".toList := by decide
  unfold listedChildren listedEntry
  simp only [List.filterMap_cons, List.filterMap_nil, hname]
  exact List.mem_singleton_self _

theorem exists_run_oneFile (dir : Path) : ∃ s, Run (ofPartial Browser.step) {} (oneFile dir) s ∧
    s.table.tree.root = dir ∧ s.table.tree.ListedUnder dir (joinRemote dir "x".toList) := by
  refine ⟨_, run_ofPartial_iff.mpr rfl, rfl, ?_⟩
  refine (TreeState.listedUnder_upsertChildren ?_ _).mpr ?_
  · exact (TreeState.WellFormed.new _).root_mem
  · exact listed_oneFile dir

/-- In every state that a run reaches with this root, the entries are coherent: exactly when the root
is spelled as a join spells it. -/
theorem coherent_iff (root : Path) :
    (∀ es s, Run (ofPartial Browser.step) {} es s → s.table.tree.root = root → s.table.Coherent) ↔
      Spelled root := by
  constructor
  · intro h
    obtain ⟨s, hrun, hroot, hlisted⟩ := exists_run_oneFile root
    exact (parentDir_joinRemote_iff ⟨by decide, by decide, by decide⟩).mp
      ((h _ s hrun hroot).parent root _ hlisted)
  · rintro hroot es s hrun rfl
    have hjoins := joins_run hrun
    exact hjoins.shown.coherent hjoins.joined hroot

/-- The canonical path of the start directory is not found, and the root is `.`. -/
def fallbackStart : List Event :=
  [.bootstrapRoot, .canonicalizeDone 0 none, .readDirDone 1 (some [("x".toList, { ty := .file })])]

/-- The file `x` is listed under `.`, and what is refreshed after it was renamed is the empty path. -/
theorem not_coherent_fallback : ∃ s, Run (ofPartial Browser.step) {} fallbackStart s ∧
    s.table.tree.root = ".".toList ∧ ¬ s.table.Coherent := by
  refine ⟨_, run_ofPartial_iff.mpr rfl, rfl, fun h => ?_⟩
  refine absurd (h.parent ".".toList (joinRemote ".".toList "x".toList) ?_) (by decide)
  refine (TreeState.listedUnder_upsertChildren ?_ _).mpr ?_
  · exact (TreeState.WellFormed.new _).root_mem
  · exact listed_oneFile ".".toList

end Browser

end Termua.Sftp
