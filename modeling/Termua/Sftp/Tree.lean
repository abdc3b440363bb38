import Mathlib
import Termua.Lib.Table
import Termua.Sftp.Path

/-!
# The tree of remote entries

`gpui_sftp/src/state.rs`: nodes by their path, the sorted rows of the expanded part, and the listing
of a directory put into the tree. The recursion over the nodes is given as much fuel as the deepest
path needs; where the children of a node are deeper than the node, more fuel makes no difference
(`flattenIntoSorted_fuel`).
-/

namespace Termua.Sftp

/-- `EntryKind`. -/
inductive EntryKind
  | dir | file | symlink | other
  deriving DecidableEq

/-- `Entry`. -/
structure Entry where
  path : Path
  name : Path
  kind : EntryKind
  size : Option ℕ := none
  modified : Option ℕ := none
  perms : Option (List Char) := none
  deriving DecidableEq

/-- `SortColumn`. -/
inductive SortColumn
  | name | type | size | modified | perms
  deriving DecidableEq

/-- `SortDirection`. -/
inductive SortDirection
  | asc | desc
  deriving DecidableEq

/-- `SortSpec`. -/
structure SortSpec where
  column : SortColumn := .name
  direction : SortDirection := .asc
  deriving DecidableEq

/-- `Entry::kind_rank`. -/
def Entry.kindRank (e : Entry) : ℕ :=
  match e.kind with
  | .dir => 0
  | .file => 1
  | .symlink => 2
  | .other => 3

/-- `opt_u64_cmp`. -/
def optU64Cmp : Option ℕ → Option ℕ → Ordering
  | some a, some b => compare a b
  | none, some _ => .gt
  | some _, none => .lt
  | none, none => .eq

/-- `compare_entries`. -/
def compareEntries (a b : Entry) (sort : SortSpec) : Ordering :=
  let kindRank (e : Entry) := if e.kind = .dir then 0 else 1
  let dirRank := compare (kindRank a) (kindRank b)
  if dirRank ≠ .eq then dirRank
  else
    let ord :=
      match sort.column with
      | .name => compare a.name b.name
      | .type => (compare a.kindRank b.kindRank).then (compare a.name b.name)
      | .size => (optU64Cmp a.size b.size).then (compare a.name b.name)
      | .modified => (optU64Cmp a.modified b.modified).then (compare a.name b.name)
      | .perms => (compare (a.perms.getD []) (b.perms.getD [])).then (compare a.name b.name)
    match sort.direction with
    | .asc => ord
    | .desc => ord.swap

/-- `Node`. -/
structure Node where
  entry : Entry
  children : List Path := []
  loadedChildren : Bool := false

/-- `TreeState`. -/
structure TreeState where
  root : Path
  nodes : AList fun _ : Path => Node
  expanded : List Path

/-- `VisibleRow`. -/
structure VisibleRow where
  id : Path
  name : Path
  kind : EntryKind
  size : Option ℕ
  modified : Option ℕ
  perms : Option (List Char)
  depth : ℕ
  isDir : Bool
  isExpanded : Bool
  loadedChildren : Bool
  deriving DecidableEq

namespace TreeState

/-- `TreeState::new`. -/
def new (root : Entry) : TreeState where
  root := root.path
  nodes := AList.singleton root.path { entry := root }
  expanded := [root.path]

/-- `is_expanded`. -/
def isExpanded (t : TreeState) (id : Path) : Bool := t.expanded.contains id

/-- `set_expanded`. -/
def setExpanded (t : TreeState) (id : Path) (expanded : Bool) : TreeState :=
  { t with expanded := if expanded then t.expanded.insert id else t.expanded.filter (· ≠ id) }

/-- One entry of `upsert_children`. -/
def upsertChild (nodes : AList fun _ : Path => Node) (child : Entry) : AList fun _ : Path => Node :=
  if child.path ∈ nodes then Table.modify child.path (fun n => { n with entry := child }) nodes
  else nodes.insert child.path { entry := child }

/-- `upsert_children`. -/
def upsertChildren (t : TreeState) (parentId : Path) (children : List Entry) : TreeState :=
  { t with
    nodes := Table.modify parentId
      (fun parent => { parent with children := children.map Entry.path, loadedChildren := true })
      (children.foldl upsertChild t.nodes) }

/-- `compare_ids`. -/
def compareIds (t : TreeState) (a b : Path) (sort : SortSpec) : Ordering :=
  match t.nodes.lookup a, t.nodes.lookup b with
  | some a, some b => compareEntries a.entry b.entry sort
  | _, _ => .eq

/-- The children of a node in the order of the rows. -/
def sortChildren (t : TreeState) (sort : SortSpec) (children : List Path) : List Path :=
  children.insertionSort fun a b => t.compareIds a b sort ≠ .gt

/-- The row of a node. -/
def rowOf (t : TreeState) (id : Path) (node : Node) (depth : ℕ) : VisibleRow where
  id := node.entry.path
  name := node.entry.name
  kind := node.entry.kind
  size := node.entry.size
  modified := node.entry.modified
  perms := node.entry.perms
  depth := depth
  isDir := node.entry.kind = .dir
  isExpanded := t.isExpanded id
  loadedChildren := node.loadedChildren

/-- `flatten_into_sorted`. -/
def flattenIntoSorted (t : TreeState) (sort : SortSpec) : ℕ → Path → ℕ → List VisibleRow
  | 0, _, _ => []
  | fuel + 1, id, depth =>
    match t.nodes.lookup id with
    | none => []
    | some node =>
      t.rowOf id node depth ::
        if node.entry.kind ≠ .dir ∨ !t.isExpanded id then []
        else (t.sortChildren sort node.children).flatMap fun child =>
          flattenIntoSorted t sort fuel child (depth + 1)

/-- A bound on the depth of the nodes. -/
def depthBound (t : TreeState) : ℕ := (t.nodes.keys.map Sftp.depth).foldr max 0

/-- `visible_rows_sorted`. -/
def visibleRowsSorted (t : TreeState) (sort : SortSpec) : List VisibleRow :=
  t.flattenIntoSorted sort (t.depthBound + 1) t.root 0

/-! ## The nodes after a listing -/

variable {t : TreeState} {nodes : AList fun _ : Path => Node} {id : Path}

/-- The node of a listed entry. -/
theorem lookup_upsertChild (child : Entry) :
    (upsertChild nodes child).lookup id =
      if id = child.path then
        some { (nodes.lookup id).getD { entry := child } with entry := child }
      else nodes.lookup id := by
  unfold upsertChild
  split
  · next hmem =>
    rw [Table.lookup_modify]
    split
    · next hid =>
      subst hid
      obtain ⟨node, hnode⟩ := Option.isSome_iff_exists.mp (AList.lookup_isSome.mpr hmem)
      rw [hnode]
      rfl
    · rfl
  · next hmem =>
    split
    · next hid =>
      subst hid
      rw [AList.lookup_insert, AList.lookup_eq_none.mpr hmem]
      rfl
    · next hid => rw [AList.lookup_insert_ne hid]

/-- The last entry of a listing with a path. -/
def lastEntry (children : List Entry) (id : Path) : Option Entry :=
  children.reverse.find? (·.path = id)

theorem lastEntry_concat (children : List Entry) (child : Entry) (id : Path) :
    lastEntry (children ++ [child]) id =
      if id = child.path then some child else lastEntry children id := by
  unfold lastEntry
  rw [List.reverse_append, List.reverse_singleton, List.singleton_append, List.find?_cons]
  by_cases hid : id = child.path
  · simp [hid]
  · simp [hid, Ne.symm hid]

/-- The node of a path after the entries of a listing. -/
theorem lookup_foldl_upsertChild (children : List Entry) :
    (children.foldl upsertChild nodes).lookup id =
      match lastEntry children id with
      | some child => some { (nodes.lookup id).getD { entry := child } with entry := child }
      | none => nodes.lookup id := by
  induction children using List.reverseRecOn with
  | nil => rfl
  | append_singleton children child ih =>
    rw [List.foldl_append, List.foldl_cons, List.foldl_nil, lookup_upsertChild, ih,
      lastEntry_concat]
    split
    · rcases lastEntry children id with _ | earlier
      · rfl
      · rcases nodes.lookup id <;> rfl
    · rfl

/-- The nodes after a listing. -/
theorem lookup_upsertChildren (parentId : Path) (children : List Entry) :
    (t.upsertChildren parentId children).nodes.lookup id =
      if id = parentId then
        ((children.foldl upsertChild t.nodes).lookup parentId).map fun parent =>
          { parent with children := children.map Entry.path, loadedChildren := true }
      else (children.foldl upsertChild t.nodes).lookup id :=
  Table.lookup_modify _

/-- The entry of a node after a listing. -/
theorem entry_upsertChildren (parentId : Path) (children : List Entry) :
    ((t.upsertChildren parentId children).nodes.lookup id).map Node.entry =
      (lastEntry children id).or ((t.nodes.lookup id).map Node.entry) := by
  have hfold : ((children.foldl upsertChild t.nodes).lookup id).map Node.entry =
      (lastEntry children id).or ((t.nodes.lookup id).map Node.entry) := by
    rw [lookup_foldl_upsertChild]
    rcases lastEntry children id <;> rfl
  rw [← hfold, lookup_upsertChildren]
  split
  · next hid =>
    subst hid
    rcases (children.foldl upsertChild t.nodes).lookup id <;> rfl
  · rfl

/-- The children of a node after a listing. -/
theorem children_upsertChildren {parentId : Path} {children : List Entry} {node' : Node}
    (h : (t.upsertChildren parentId children).nodes.lookup id = some node') :
    (id = parentId ∧ node'.children = children.map Entry.path) ∨
      id ≠ parentId ∧
        ((∃ node, t.nodes.lookup id = some node ∧ node'.children = node.children) ∨
          t.nodes.lookup id = none ∧ node'.children = []) := by
  rw [lookup_upsertChildren] at h
  split at h
  · next hid =>
    obtain ⟨node, -, rfl⟩ := Option.map_eq_some_iff.mp h
    exact .inl ⟨hid, rfl⟩
  · next hid =>
    refine .inr ⟨hid, ?_⟩
    rw [lookup_foldl_upsertChild] at h
    rcases hlast : lastEntry children id with _ | child
    · rw [hlast] at h
      exact .inl ⟨node', h, rfl⟩
    · rw [hlast] at h
      obtain rfl := Option.some.inj h
      rcases t.nodes.lookup id with _ | node
      · exact .inr ⟨rfl, rfl⟩
      · exact .inl ⟨node, rfl, rfl⟩

theorem mem_upsertChildren_iff {parentId : Path} {children : List Entry} :
    id ∈ (t.upsertChildren parentId children).nodes ↔
      id ∈ t.nodes ∨ ∃ child, lastEntry children id = some child := by
  have hfold : id ∈ children.foldl upsertChild t.nodes ↔
      id ∈ t.nodes ∨ ∃ child, lastEntry children id = some child := by
    rw [← AList.lookup_isSome, ← AList.lookup_isSome, lookup_foldl_upsertChild]
    rcases lastEntry children id with _ | child
    · simp
    · simp
  rw [← hfold, ← AList.lookup_isSome, ← AList.lookup_isSome, lookup_upsertChildren]
  split
  · next hid =>
    subst hid
    rw [Option.isSome_map]
  · rfl

/-- A listing removes no node. -/
theorem mem_upsertChildren (parentId : Path) (children : List Entry) (h : id ∈ t.nodes) :
    id ∈ (t.upsertChildren parentId children).nodes :=
  mem_upsertChildren_iff.mpr (.inl h)

/-- The entries of a listing have nodes. -/
theorem child_mem_upsertChildren (parentId : Path) {children : List Entry} {child : Entry}
    (h : child ∈ children) : child.path ∈ (t.upsertChildren parentId children).nodes := by
  refine mem_upsertChildren_iff.mpr (.inr ?_)
  rw [← Option.isSome_iff_exists]
  unfold lastEntry
  rw [List.find?_isSome]
  exact ⟨child, List.mem_reverse.mpr h, by simp⟩

/-- A listing that meets no node and no parent changes no node. -/
theorem lookup_upsertChildren_of_mem {parentId : Path} {children : List Entry}
    (hparent : parentId ∉ t.nodes) (hchildren : ∀ child ∈ children, child.path ∉ t.nodes)
    (h : id ∈ t.nodes) :
    (t.upsertChildren parentId children).nodes.lookup id = t.nodes.lookup id := by
  have hlast : lastEntry children id = none := by
    refine List.find?_eq_none.mpr fun child hchild heq => ?_
    have hpath : child.path = id := by simpa using heq
    exact hchildren child (List.mem_reverse.mp hchild) (hpath ▸ h)
  have hne : id ≠ parentId := fun heq => hparent (heq ▸ h)
  rw [lookup_upsertChildren, if_neg hne, lookup_foldl_upsertChild, hlast]

/-! ## Rows and fuel -/

theorem orderedInsert_congr {α : Type*} {r r' : α → α → Prop} [DecidableRel r] [DecidableRel r']
    {a : α} {l : List α} (h : ∀ b ∈ l, r a b ↔ r' a b) :
    l.orderedInsert r a = l.orderedInsert r' a := by
  induction l with
  | nil => rfl
  | cons b l ih =>
    rw [List.orderedInsert_cons, List.orderedInsert_cons,
      ih fun c hc => h c (List.mem_cons_of_mem _ hc)]
    exact if_congr (h b List.mem_cons_self) rfl rfl

/-- Sorting compares the elements of the list only. -/
theorem insertionSort_congr {α : Type*} {r r' : α → α → Prop} [DecidableRel r] [DecidableRel r']
    {l : List α} (h : ∀ a ∈ l, ∀ b ∈ l, r a b ↔ r' a b) :
    l.insertionSort r = l.insertionSort r' := by
  induction l with
  | nil => rfl
  | cons a l ih =>
    rw [List.insertionSort_cons, List.insertionSort_cons,
      ih fun b hb c hc => h b (List.mem_cons_of_mem _ hb) c (List.mem_cons_of_mem _ hc)]
    exact orderedInsert_congr fun b hb => h a List.mem_cons_self b
      (List.mem_cons_of_mem _ ((List.mem_insertionSort _).mp hb))

/-- The root is a node, and the children of a node are nodes and deeper than it. -/
structure WellFormed (t : TreeState) : Prop where
  root_mem : t.root ∈ t.nodes
  closed : ∀ id node, t.nodes.lookup id = some node → ∀ child ∈ node.children, child ∈ t.nodes
  deeper : ∀ id node, t.nodes.lookup id = some node →
    ∀ child ∈ node.children, Sftp.depth id < Sftp.depth child

/-- A new tree has its root for its only node. -/
theorem lookup_new {root : Entry} {node : Node} (h : (new root).nodes.lookup id = some node) :
    id = root.path ∧ node = { entry := root } := by
  have hmem : (⟨id, node⟩ : Sigma fun _ : Path => Node) ∈ (new root).nodes.entries :=
    AList.mem_lookup_iff.mp h
  simpa [new] using hmem

theorem WellFormed.new (root : Entry) : (new root).WellFormed where
  root_mem := by
    unfold TreeState.new
    rw [← AList.lookup_isSome]
    simp [AList.singleton, AList.lookup]
  closed := by
    intro id node hnode child hchild
    obtain ⟨-, rfl⟩ := lookup_new hnode
    cases hchild
  deeper := by
    intro id node hnode child hchild
    obtain ⟨-, rfl⟩ := lookup_new hnode
    cases hchild

/-- A tree with the same root and nodes. -/
theorem WellFormed.congr {t' : TreeState} (h : t.WellFormed) (hroot : t'.root = t.root)
    (hnodes : t'.nodes = t.nodes) : t'.WellFormed where
  root_mem := by
    rw [hroot, hnodes]
    exact h.root_mem
  closed := by
    rw [hnodes]
    exact h.closed
  deeper := by
    rw [hnodes]
    exact h.deeper

/-- A listing of entries that are deeper than their directory. -/
theorem WellFormed.upsertChildren (h : t.WellFormed) {parentId : Path} {children : List Entry}
    (hdeeper : ∀ child ∈ children, Sftp.depth parentId < Sftp.depth child.path) :
    (t.upsertChildren parentId children).WellFormed where
  root_mem := mem_upsertChildren parentId children h.root_mem
  closed := by
    intro id node' hnode' child hchild
    rcases children_upsertChildren hnode' with ⟨-, hlist⟩ | ⟨-, ⟨node, hnode, hlist⟩ | ⟨-, hlist⟩⟩
    · obtain ⟨entry, hentry, rfl⟩ := List.mem_map.mp (hlist ▸ hchild)
      exact child_mem_upsertChildren parentId hentry
    · exact mem_upsertChildren parentId children (h.closed id node hnode child (hlist ▸ hchild))
    · rw [hlist] at hchild
      cases hchild
  deeper := by
    intro id node' hnode' child hchild
    rcases children_upsertChildren hnode' with ⟨rfl, hlist⟩ | ⟨-, ⟨node, hnode, hlist⟩ | ⟨-, hlist⟩⟩
    · obtain ⟨entry, hentry, rfl⟩ := List.mem_map.mp (hlist ▸ hchild)
      exact hdeeper entry hentry
    · exact h.deeper id node hnode child (hlist ▸ hchild)
    · rw [hlist] at hchild
      cases hchild

theorem depth_le_depthBound (h : id ∈ t.nodes) : Sftp.depth id ≤ t.depthBound :=
  List.le_max_of_le (List.mem_map_of_mem (AList.mem_keys.mp h)) le_rfl

theorem depthBound_le {n : ℕ} (h : ∀ id ∈ t.nodes, Sftp.depth id ≤ n) : t.depthBound ≤ n := by
  refine List.max_le_of_forall_le _ _ fun d hd => ?_
  obtain ⟨id, hid, rfl⟩ := List.mem_map.mp hd
  exact h id (AList.mem_keys.mpr hid)

/-- Fuel for the depths below a node is enough. -/
theorem flattenIntoSorted_fuel (hdeeper : ∀ id node, t.nodes.lookup id = some node →
    ∀ child ∈ node.children, Sftp.depth id < Sftp.depth child) (sort : SortSpec) {n m : ℕ}
    (hn : t.depthBound < n + Sftp.depth id) (hm : t.depthBound < m + Sftp.depth id) (d : ℕ) :
    t.flattenIntoSorted sort n id d = t.flattenIntoSorted sort m id d := by
  have houtside : ∀ {id}, t.depthBound < 0 + Sftp.depth id → t.nodes.lookup id = none := by
    intro id hlt
    refine AList.lookup_eq_none.mpr fun hmem => ?_
    have hle := depth_le_depthBound hmem
    omega
  induction n generalizing m id d with
  | zero =>
    rcases m with _ | m
    · rfl
    · unfold flattenIntoSorted
      rw [houtside hn]
  | succ n ih =>
    rcases m with _ | m
    · unfold flattenIntoSorted
      rw [houtside hm]
    · unfold flattenIntoSorted
      rcases hnode : t.nodes.lookup id with _ | node
      · rfl
      · simp only
        split
        · rfl
        · refine congrArg _ (List.flatMap_congr fun child hchild => ?_)
          have hlt := hdeeper id node hnode child ((List.mem_insertionSort _).mp hchild)
          exact ih (by omega) (by omega) (d + 1)

/-- The rows depend on the nodes that are reached from the root only. -/
theorem flattenIntoSorted_congr {t' : TreeState} {inside : Path → Prop}
    (hexpanded : t'.expanded = t.expanded)
    (hlookup : ∀ id, inside id → t'.nodes.lookup id = t.nodes.lookup id)
    (hclosed : ∀ id node, inside id → t.nodes.lookup id = some node →
      ∀ child ∈ node.children, inside child)
    (sort : SortSpec) {n : ℕ} (hid : inside id) (d : ℕ) :
    t'.flattenIntoSorted sort n id d = t.flattenIntoSorted sort n id d := by
  induction n generalizing id d with
  | zero => rfl
  | succ n ih =>
    unfold flattenIntoSorted
    rw [hlookup id hid]
    rcases hnode : t.nodes.lookup id with _ | node
    · rfl
    · have hchildren := hclosed id node hid hnode
      have hsort : t'.sortChildren sort node.children = t.sortChildren sort node.children := by
        refine insertionSort_congr fun a ha b hb => ?_
        unfold compareIds
        rw [hlookup a (hchildren a ha), hlookup b (hchildren b hb)]
      have hrow : ∀ id node d, t'.rowOf id node d = t.rowOf id node d := by
        intro id node d
        unfold rowOf isExpanded
        rw [hexpanded]
      have hexpanded' : t'.isExpanded id = t.isExpanded id := by
        unfold isExpanded
        rw [hexpanded]
      simp only [hrow, hexpanded', hsort]
      split
      · rfl
      · refine congrArg _ (List.flatMap_congr fun child hchild => ?_)
        exact ih (hchildren child ((List.mem_insertionSort _).mp hchild)) (d + 1)

/-- Nodes that are added beside a tree show no rows. -/
theorem visibleRowsSorted_of_agree (t' : TreeState) (h : t.WellFormed) (hroot : t'.root = t.root)
    (hexpanded : t'.expanded = t.expanded)
    (hlookup : ∀ id ∈ t.nodes, t'.nodes.lookup id = t.nodes.lookup id) (sort : SortSpec) :
    t'.visibleRowsSorted sort = t.visibleRowsSorted sort := by
  have hbound : t.depthBound ≤ t'.depthBound := by
    refine depthBound_le fun id hid => depth_le_depthBound ?_
    rw [← AList.lookup_isSome, hlookup id hid]
    exact AList.lookup_isSome.mpr hid
  unfold visibleRowsSorted
  rw [hroot, flattenIntoSorted_congr hexpanded hlookup
    (fun id node _ hnode => h.closed id node hnode) sort h.root_mem]
  exact flattenIntoSorted_fuel h.deeper sort (by omega) (by omega) 0

end TreeState

end Termua.Sftp
