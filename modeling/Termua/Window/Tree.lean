import Mathlib
import Termua.Lib.Text
import Termua.Lib.Trie
import Termua.Session.Store

/-!
# The tree of the sessions

`build_tree_items_from_summaries` (termua/src/panel/sessions_sidebar/tree.rs) puts the sessions that match
the query into folders along their group paths and makes the items of the tree from the folders. The
tree `IsTreeOf` the matching sessions: each stands in it once, under the folders of its path, and
there is a folder exactly where a session is.
-/

namespace Termua.Window

open Session (SessionType Text)

/-- `SessionTreeSummary`, without the host that the tree does not show. -/
structure SessionTreeSummary where
  id : ℤ
  protocol : SessionType
  groupPath : Text
  label : Text
  searchText : Text
  deriving DecidableEq

/-- `TreeItem`. -/
structure TreeItem where
  id : Text
  label : Text
  expanded : Bool := false
  children : List TreeItem := []

/-- `FolderNode`: the values of a node are its sessions. The names of the folders ascend as in the map
of the code, where the order of the bytes of two names is that of their characters. -/
abbrev FolderNode := Trie Text SessionTreeSummary

/-- `split_group_path`. -/
def splitGroupPath (groupPath : Text) : List Text :=
  ((groupPath.splitOn '>').map Text.trim).filter fun s => !s.isEmpty

/-- `matches_query`, with `str::to_lowercase`. -/
def matchesQuery (toLowercase : Text → Text) (session : SessionTreeSummary) (query : Text) : Bool :=
  query.isEmpty || decide (toLowercase query <:+: session.searchText)

/-- The text of a protocol in the id of an item. -/
def proto : SessionType → Text
  | .local => "local".toList
  | .ssh => "ssh".toList
  | .serial => "serial".toList

/-- `session_summary_to_tree_item`. -/
def sessionSummaryToTreeItem (session : SessionTreeSummary) : TreeItem where
  id := "session:".toList ++ proto session.protocol ++ ":".toList ++ (toString session.id).toList
  label := session.label

mutual
/-- `folder_node_to_tree_item`. -/
def folderNodeToTreeItem (name : Text) (node : FolderNode) (fullPath : Text) : TreeItem :=
  match node with
  | .node sessions children =>
    { id := "folder:".toList ++ fullPath
      label := name
      expanded := true
      children := folderItems (fullPath ++ ">".toList) children ++
        sessions.map sessionSummaryToTreeItem }

/-- The items of folders whose paths begin with a text. -/
def folderItems (before : Text) (folders : List (Text × FolderNode)) : List TreeItem :=
  match folders with
  | [] => []
  | (name, node) :: folders =>
    folderNodeToTreeItem name node (before ++ name) :: folderItems before folders
end

/-- The items of what is in a folder, where the paths of the folders begin with a text. -/
def itemsIn (before : Text) : FolderNode → List TreeItem
  | .node sessions children => folderItems before children ++ sessions.map sessionSummaryToTreeItem

/-- `build_tree_items_from_summaries`. -/
def buildTreeItemsFromSummaries (toLowercase : Text → Text) (allSessions : List SessionTreeSummary)
    (query : Text) : List TreeItem :=
  let sessions := allSessions.filter fun s => matchesQuery toLowercase s query
  let root : FolderNode :=
    sessions.foldl (fun root session => root.insert (splitGroupPath session.groupPath) session) .empty
  itemsIn [] root

/-! ## What a tree shows -/

mutual
/-- The item and all below it, each with the labels of the items above it. -/
def TreeItem.paths : TreeItem → List (List Text × TreeItem)
  | ⟨id, label, expanded, children⟩ =>
    ([], ⟨id, label, expanded, children⟩) :: (itemPaths children).map fun e => (label :: e.1, e.2)

/-- The items of a list and all below them, each with the labels of the items above it. -/
def itemPaths : List TreeItem → List (List Text × TreeItem)
  | [] => []
  | item :: items => item.paths ++ itemPaths items
end

/-- The item is that of a folder. -/
def TreeItem.isFolderItem (item : TreeItem) : Bool := "folder:".toList.isPrefixOf item.id

/-- The items of sessions in a tree, each with the chain of folders above it. -/
def sessionsOf (tree : List TreeItem) : List (List Text × TreeItem) :=
  (itemPaths tree).filter fun e => !e.2.isFolderItem

/-- The folders in a tree, each with the chain of folders down to it. -/
def foldersOf (tree : List TreeItem) : List (List Text × TreeItem) :=
  ((itemPaths tree).filter fun e => e.2.isFolderItem).map fun e => (e.1 ++ [e.2.label], e.2)

/-- The sessions with their normalised group paths. -/
def pathed (sessions : List SessionTreeSummary) : List (List Text × SessionTreeSummary) :=
  sessions.map fun session => (splitGroupPath session.groupPath, session)

/-- The session stands below the folder, where its path has it. -/
def Contains (folder : List Text × TreeItem) (session : SessionTreeSummary) : Prop :=
  ∃ rest, splitGroupPath session.groupPath = folder.1 ++ rest ∧
    (rest, sessionSummaryToTreeItem session) ∈ sessionsOf folder.2.children

/-- The tree shows the sessions. -/
structure IsTreeOf (tree : List TreeItem) (sessions : List SessionTreeSummary) : Prop where
  /-- Each session is there once, as a leaf under the folders of its path, and nothing else is. -/
  leaves : (sessionsOf tree).Perm
    ((pathed sessions).map fun e => (e.1, sessionSummaryToTreeItem e.2))
  /-- No two folders have one id. -/
  ids : ((foldersOf tree).map fun e => e.2.id).Nodup
  /-- There is a folder for each way into the path of a session, and no other. -/
  folders : ∀ p, p ∈ (foldersOf tree).map Prod.fst ↔ p ≠ [] ∧ ∃ e ∈ pathed sessions, p <+: e.1
  /-- What a folder contains are the sessions whose paths begin with its path, each once. -/
  below : ∀ e ∈ foldersOf tree, (sessionsOf e.2.children).Perm
    ((Trie.continuing e.1 (pathed sessions)).map fun e => (e.1, sessionSummaryToTreeItem e.2))
  /-- Two sessions share a folder exactly when their paths share the way to it. -/
  shared : ∀ s ∈ sessions, ∀ t ∈ sessions, ∀ p, p ≠ [] →
    ((∃ e ∈ foldersOf tree, e.1 = p ∧ Contains e s ∧ Contains e t) ↔
      p <+: splitGroupPath s.groupPath ∧ p <+: splitGroupPath t.groupPath)
  /-- Every folder contains a session. -/
  filled : ∀ e ∈ foldersOf tree, sessionsOf e.2.children ≠ []

/-! ## The items of a trie -/

variable {tree : List TreeItem} {before : Text} {node : FolderNode} {name : Text}

theorem itemPaths_eq_flatMap (items : List TreeItem) : itemPaths items = items.flatMap TreeItem.paths := by
  induction items with
  | nil => rfl
  | cons item items ih => rw [itemPaths, ih, List.flatMap_cons]

theorem TreeItem.paths_eq (item : TreeItem) :
    item.paths = ([], item) :: (itemPaths item.children).map fun e => (item.label :: e.1, e.2) := by
  obtain ⟨id, label, expanded, children⟩ := item
  rw [TreeItem.paths]

theorem folderItems_eq_map (before : Text) (folders : List (Text × FolderNode)) :
    folderItems before folders =
      folders.map fun c => folderNodeToTreeItem c.1 c.2 (before ++ c.1) := by
  induction folders with
  | nil => rw [folderItems, List.map_nil]
  | cons c folders ih => rw [folderItems, ih, List.map_cons]

theorem folderNodeToTreeItem_eq (name : Text) (node : FolderNode) (fullPath : Text) :
    folderNodeToTreeItem name node fullPath =
      { id := "folder:".toList ++ fullPath
        label := name
        expanded := true
        children := itemsIn (fullPath ++ ">".toList) node } := by
  obtain ⟨sessions, children⟩ := node
  rw [folderNodeToTreeItem, itemsIn]

theorem isFolderItem_folder (name : Text) (node : FolderNode) (fullPath : Text) :
    (folderNodeToTreeItem name node fullPath).isFolderItem = true := by
  rw [folderNodeToTreeItem_eq, TreeItem.isFolderItem, List.isPrefixOf_iff_prefix]
  exact List.prefix_append _ _

theorem isFolderItem_session (session : SessionTreeSummary) :
    (sessionSummaryToTreeItem session).isFolderItem = false := rfl

/-- The items in a folder and below: those of each folder in it, and those of its sessions. -/
theorem itemPaths_itemsIn (before : Text) (sessions : List SessionTreeSummary)
    (children : List (Text × FolderNode)) :
    itemPaths (itemsIn before (.node sessions children)) =
      (children.flatMap fun c =>
        ([], folderNodeToTreeItem c.1 c.2 (before ++ c.1)) ::
          (itemPaths (itemsIn (before ++ c.1 ++ ">".toList) c.2)).map fun e => (c.1 :: e.1, e.2)) ++
        sessions.map fun session => ([], sessionSummaryToTreeItem session) := by
  have hfolder : ∀ c : Text × FolderNode, (folderNodeToTreeItem c.1 c.2 (before ++ c.1)).paths =
      ([], folderNodeToTreeItem c.1 c.2 (before ++ c.1)) ::
        (itemPaths (itemsIn (before ++ c.1 ++ ">".toList) c.2)).map fun e => (c.1 :: e.1, e.2) := by
    intro c
    rw [TreeItem.paths_eq, folderNodeToTreeItem_eq]
  have hsession : ∀ session : SessionTreeSummary,
      (sessionSummaryToTreeItem session).paths = [([], sessionSummaryToTreeItem session)] := by
    intro session
    rw [TreeItem.paths_eq]
    rfl
  rw [itemsIn, itemPaths_eq_flatMap, List.flatMap_append, folderItems_eq_map, List.flatMap_map,
    List.flatMap_map]
  simp only [hfolder, hsession]
  rw [← List.map_eq_flatMap]

theorem sessionsOf_itemsIn_node (before : Text) (sessions : List SessionTreeSummary)
    (children : List (Text × FolderNode)) :
    sessionsOf (itemsIn before (.node sessions children)) =
      (children.flatMap fun c =>
        (sessionsOf (itemsIn (before ++ c.1 ++ ">".toList) c.2)).map fun e => (c.1 :: e.1, e.2)) ++
        sessions.map fun session => ([], sessionSummaryToTreeItem session) := by
  unfold sessionsOf
  rw [itemPaths_itemsIn, List.filter_append, List.filter_flatMap]
  congr 1
  · refine List.flatMap_congr fun c _ => ?_
    rw [List.filter_cons_of_neg (by simp [isFolderItem_folder]), List.filter_map]
    rfl
  · refine List.filter_eq_self.mpr fun e he => ?_
    obtain ⟨session, -, rfl⟩ := List.mem_map.mp he
    rw [isFolderItem_session, Bool.not_false]

theorem foldersOf_itemsIn_node (before : Text) (sessions : List SessionTreeSummary)
    (children : List (Text × FolderNode)) :
    foldersOf (itemsIn before (.node sessions children)) =
      children.flatMap fun c =>
        ([c.1], folderNodeToTreeItem c.1 c.2 (before ++ c.1)) ::
          (foldersOf (itemsIn (before ++ c.1 ++ ">".toList) c.2)).map fun e => (c.1 :: e.1, e.2) := by
  unfold foldersOf
  rw [itemPaths_itemsIn, List.filter_append, List.filter_flatMap, List.map_append, List.map_flatMap]
  have hsessions : ((sessions.map fun session =>
      (([] : List Text), sessionSummaryToTreeItem session)).filter fun e => e.2.isFolderItem) = [] := by
    refine List.filter_eq_nil_iff.mpr fun e he => ?_
    obtain ⟨session, -, rfl⟩ := List.mem_map.mp he
    rw [isFolderItem_session]
    exact Bool.false_ne_true
  rw [hsessions, List.map_nil, List.append_nil]
  refine List.flatMap_congr fun c _ => ?_
  rw [List.filter_cons_of_pos (by exact isFolderItem_folder _ _ _), List.map_cons, List.filter_map,
    List.map_map, List.map_map, folderNodeToTreeItem_eq]
  rfl

/-- The sessions of the items are the entries of the trie. -/
theorem sessionsOf_itemsIn (before : Text) (node : FolderNode) :
    sessionsOf (itemsIn before node) =
      node.entries.map fun e => (e.1, sessionSummaryToTreeItem e.2) := by
  induction node using Trie.ind generalizing before with
  | node sessions children ih =>
    rw [sessionsOf_itemsIn_node, Trie.entries_node, List.map_append, List.map_flatMap, List.map_map]
    congr 1
    refine List.flatMap_congr fun c hc => ?_
    rw [ih c hc, List.map_map, List.map_map]
    rfl

/-- The item of a folder with its path, where the paths begin with a text. -/
def folderItemAt (before : Text) (e : List Text × FolderNode) : List Text × TreeItem :=
  (e.1, folderNodeToTreeItem (e.1.getLastD []) e.2 (before ++ ['>'].intercalate e.1))

/-- The folders of the items are those of the trie. -/
theorem foldersOf_itemsIn (before : Text) (node : FolderNode) :
    foldersOf (itemsIn before node) = node.descendants.map (folderItemAt before) := by
  induction node using Trie.ind generalizing before with
  | node sessions children ih =>
    rw [foldersOf_itemsIn_node, Trie.descendants_node, List.map_flatMap]
    refine List.flatMap_congr fun c hc => ?_
    rw [ih c hc, Trie.nodes, List.map_cons, List.map_cons, List.map_map, List.map_map]
    refine congrArg₂ List.cons ?_ (List.map_congr_left fun e he => ?_)
    · rw [folderItemAt, List.intercalate_singleton]
      rfl
    · have hne := Trie.ne_nil_of_mem_descendants he
      have hlast : (c.1 :: e.1).getLastD [] = e.1.getLastD [] := by
        obtain ⟨name, rest, heq⟩ := List.exists_cons_of_ne_nil hne
        rw [heq, List.getLastD_cons, List.getLastD_cons, List.getLastD_cons]
      simp only [Function.comp_apply, folderItemAt, hlast, List.intercalate_cons_of_ne_nil hne,
        List.append_assoc]
      rfl

/-- `split_group_path` gives names without the separator. -/
theorem notMem_of_mem_splitGroupPath {groupPath part : Text} (h : part ∈ splitGroupPath groupPath) :
    '>' ∉ part := by
  obtain ⟨piece, hpiece, rfl⟩ := List.mem_map.mp (List.mem_filter.mp h).1
  exact fun hmem => Text.notMem_of_mem_splitOn hpiece (Text.mem_of_mem_trim hmem)

theorem intercalate_injective {p q : List Text} (hp : p ≠ []) (hq : q ≠ [])
    (hpsep : ∀ part ∈ p, '>' ∉ part) (hqsep : ∀ part ∈ q, '>' ∉ part)
    (h : ['>'].intercalate p = ['>'].intercalate q) : p = q := by
  rw [← List.splitOn_intercalate '>' hpsep hp, h, List.splitOn_intercalate '>' hqsep hq]

/-! ## The tree of the sessions -/

variable {sessions : List SessionTreeSummary} {p : List Text}

/-- The paths of the folders that are made for sessions. -/
theorem mem_descendants_pathed :
    p ∈ (Trie.ofPairs (pathed sessions)).descendants.map Prod.fst ↔
      p ≠ [] ∧ ∃ e ∈ pathed sessions, p <+: e.1 := by
  rw [List.mem_map, ← Trie.continuing_ne_nil]
  constructor
  · rintro ⟨e, he, rfl⟩
    obtain ⟨hne, hcontinuing, -⟩ := Trie.mem_descendants_ofPairs.mp he
    exact ⟨hne, hcontinuing⟩
  · rintro ⟨hne, hcontinuing⟩
    exact ⟨_, Trie.mem_descendants_ofPairs.mpr ⟨hne, hcontinuing, rfl⟩, rfl⟩

theorem mem_foldersOf : p ∈ (foldersOf (itemsIn [] (Trie.ofPairs (pathed sessions)))).map Prod.fst ↔
    p ≠ [] ∧ ∃ e ∈ pathed sessions, p <+: e.1 := by
  rw [← mem_descendants_pathed, foldersOf_itemsIn, List.map_map]
  rfl

theorem notMem_of_mem_descendants
    (h : p ∈ (Trie.ofPairs (pathed sessions)).descendants.map Prod.fst) : ∀ part ∈ p, '>' ∉ part := by
  obtain ⟨-, e, he, hp⟩ := mem_descendants_pathed.mp h
  obtain ⟨session, -, rfl⟩ := List.mem_map.mp he
  exact fun part hpart => notMem_of_mem_splitGroupPath (hp.subset hpart)

/-- The items in a folder of the tree show the sessions whose paths continue that of the folder. -/
theorem sessionsOf_children {e : List Text × TreeItem}
    (h : e ∈ foldersOf (itemsIn [] (Trie.ofPairs (pathed sessions)))) :
    Trie.continuing e.1 (pathed sessions) ≠ [] ∧ (sessionsOf e.2.children).Perm
      ((Trie.continuing e.1 (pathed sessions)).map fun e => (e.1, sessionSummaryToTreeItem e.2)) := by
  rw [foldersOf_itemsIn] at h
  obtain ⟨d, hd, rfl⟩ := List.mem_map.mp h
  obtain ⟨-, hcontinuing, hsub⟩ := Trie.mem_descendants_ofPairs.mp hd
  refine ⟨hcontinuing, ?_⟩
  rw [folderItemAt, folderNodeToTreeItem_eq, sessionsOf_itemsIn, hsub]
  exact (Trie.entries_ofPairs _).map _

/-- A folder contains the sessions whose paths continue its path. -/
theorem contains_iff {e : List Text × TreeItem} {session : SessionTreeSummary}
    (h : e ∈ foldersOf (itemsIn [] (Trie.ofPairs (pathed sessions)))) (hsession : session ∈ sessions) :
    Contains e session ↔ e.1 <+: splitGroupPath session.groupPath := by
  constructor
  · rintro ⟨rest, hpath, -⟩
    exact ⟨rest, hpath.symm⟩
  · rintro ⟨rest, hpath⟩
    have hmem : (rest, session) ∈ Trie.continuing e.1 (pathed sessions) := by
      refine Trie.mem_continuing.mpr (List.mem_map.mpr ⟨session, hsession, ?_⟩)
      rw [hpath]
    exact ⟨rest, hpath.symm, (sessionsOf_children h).2.mem_iff.mpr (List.mem_map_of_mem hmem)⟩

/-- The items that are made for sessions are the tree of the sessions. -/
theorem isTreeOf_itemsIn (sessions : List SessionTreeSummary) :
    IsTreeOf (itemsIn [] (Trie.ofPairs (pathed sessions))) sessions where
  leaves := by
    rw [sessionsOf_itemsIn]
    exact (Trie.entries_ofPairs _).map _
  ids := by
    -- the ids are the paths, joined by a character that no name holds
    have hids : (foldersOf (itemsIn [] (Trie.ofPairs (pathed sessions)))).map (fun e => e.2.id) =
        ((Trie.ofPairs (pathed sessions)).descendants.map Prod.fst).map fun p =>
          "folder:".toList ++ ['>'].intercalate p := by
      rw [foldersOf_itemsIn, List.map_map, List.map_map]
      refine List.map_congr_left fun e _ => ?_
      rw [Function.comp_apply, folderItemAt, folderNodeToTreeItem_eq]
      rfl
    rw [hids]
    refine (Trie.nodup_descendants (Trie.ordered_ofPairs _)).map_on fun p hp q hq heq => ?_
    exact intercalate_injective (mem_descendants_pathed.mp hp).1 (mem_descendants_pathed.mp hq).1
      (notMem_of_mem_descendants hp) (notMem_of_mem_descendants hq) (List.append_cancel_left heq)
  folders _ := mem_foldersOf
  below e he := (sessionsOf_children he).2
  shared s hs t ht p hp := by
    constructor
    · rintro ⟨e, he, rfl, hes, het⟩
      exact ⟨(contains_iff he hs).mp hes, (contains_iff he ht).mp het⟩
    · rintro ⟨hps, hpt⟩
      have hmem : p ∈ (foldersOf (itemsIn [] (Trie.ofPairs (pathed sessions)))).map Prod.fst := by
        rw [mem_foldersOf]
        exact ⟨hp, _, List.mem_map_of_mem hs, hps⟩
      obtain ⟨e, he, rfl⟩ := List.mem_map.mp hmem
      exact ⟨e, he, rfl, (contains_iff he hs).mpr hps, (contains_iff he ht).mpr hpt⟩
  filled e he := by
    obtain ⟨hne, hperm⟩ := sessionsOf_children he
    intro hnil
    rw [hnil] at hperm
    exact hne (List.map_eq_nil_iff.mp hperm.nil_eq.symm)

/-- The tree that the sidebar shows is that of the sessions that match the query. -/
theorem buildTreeItemsFromSummaries_isTreeOf (toLowercase : Text → Text)
    (allSessions : List SessionTreeSummary) (query : Text) :
    IsTreeOf (buildTreeItemsFromSummaries toLowercase allSessions query)
      (allSessions.filter fun s => matchesQuery toLowercase s query) := by
  have hroot : ∀ sessions : List SessionTreeSummary,
      (sessions.foldl (fun root session => root.insert (splitGroupPath session.groupPath) session)
        .empty : FolderNode) = Trie.ofPairs (pathed sessions) := by
    intro sessions
    rw [Trie.ofPairs, pathed, List.foldl_map]
  rw [buildTreeItemsFromSummaries, hroot]
  exact isTreeOf_itemsIn _

end Termua.Window
