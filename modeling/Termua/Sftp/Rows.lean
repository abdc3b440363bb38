import Mathlib
import Termua.Lib.Forest
import Termua.Sftp.Table

/-!
# The rows of the tree

The rows on view are the preorder of a forest: a node is a root or a child of the expanded directory
above it, and siblings stand directories first, in the order of a column. The pass of
`apply_hidden_filter`, which sees only the depths of the rows, leaves out the hidden rows and what is
below a hidden directory.
-/

namespace Termua.Sftp

/-! ## The order of the siblings -/

theorem compares_compare {α : Type*} [LinearOrder α] (a b : α) : (compare a b).Compares a b := by
  rcases hab : compare a b with _ | _ | _
  · exact compare_lt_iff_lt.mp hab
  · exact compare_eq_iff_eq.mp hab
  · exact compare_gt_iff_gt.mp hab

/-- A text compared by its characters. -/
theorem compares_compare_text (a b : List Char) : (compare a b).Compares a b := by
  induction a generalizing b with
  | nil =>
    rcases b with _ | ⟨y, b⟩
    · rfl
    · exact List.nil_lt_cons y b
  | cons x a ih =>
    rcases b with _ | ⟨y, b⟩
    · exact List.nil_lt_cons x a
    · rw [List.compare_cons_cons]
      rcases lt_trichotomy x y with hxy | rfl | hxy
      · have hlt : compare x y = .lt := compareOfLessAndEq_eq_lt.mpr hxy
        rw [hlt]
        exact List.Lex.rel hxy
      · rw [Std.ReflOrd.compare_self]
        have htail := ih b
        rcases hab : compare a b with _ | _ | _
        · rw [hab] at htail
          exact List.Lex.cons htail
        · rw [hab] at htail
          exact congrArg (x :: ·) htail
        · rw [hab] at htail
          exact List.Lex.cons htail
      · have hgt : compare x y = .gt :=
          Std.OrientedCmp.gt_of_lt (compareOfLessAndEq_eq_lt.mpr hxy)
        rw [hgt]
        exact List.Lex.rel hxy

/-- A number that counts as the largest where it is not known. -/
def orTop (v : Option ℕ) : WithTop ℕ := v

theorem compares_optU64Cmp (a b : Option ℕ) : (optU64Cmp a b).Compares (orTop a) (orTop b) := by
  rcases a with _ | a
  · rcases b with _ | b
    · rfl
    · exact WithTop.coe_lt_top b
  · rcases b with _ | b
    · exact WithTop.coe_lt_top a
    · have hab := compares_compare a b
      change (compare a b).Compares _ _
      generalize compare a b = o at hab ⊢
      rcases o with _ | _ | _
      · exact WithTop.coe_lt_coe.mpr hab
      · exact congrArg WithTop.some hab
      · exact WithTop.coe_lt_coe.mpr hab

/-- Two comparisons, the second for what the first leaves equal. -/
theorem compares_then {α β : Type*} [LinearOrder α] [LinearOrder β] {o o' : Ordering} {a b : α}
    {a' b' : β} (h : o.Compares a b) (h' : o'.Compares a' b') :
    (o.then o').Compares (toLex (a, a')) (toLex (b, b')) := by
  rcases o with _ | _ | _
  · exact Prod.Lex.toLex_lt_toLex.mpr (.inl h)
  · obtain rfl : a = b := h
    rcases o' with _ | _ | _
    · exact Prod.Lex.toLex_lt_toLex.mpr (.inr ⟨rfl, h'⟩)
    · exact congrArg (fun x => toLex (a, x)) h'
    · exact Prod.Lex.toLex_lt_toLex.mpr (.inr ⟨rfl, h'⟩)
  · exact Prod.Lex.toLex_lt_toLex.mpr (.inl h)

/-- The order of a column: its value, where one that is not known counts as the largest, and then the
name. -/
def ColumnLE : SortColumn → Entry → Entry → Prop
  | .name, a, b => a.name ≤ b.name
  | .type, a, b => toLex (a.kindRank, a.name) ≤ toLex (b.kindRank, b.name)
  | .size, a, b => toLex (orTop a.size, a.name) ≤ toLex (orTop b.size, b.name)
  | .modified, a, b => toLex (orTop a.modified, a.name) ≤ toLex (orTop b.modified, b.name)
  | .perms, a, b => toLex (a.perms.getD [], a.name) ≤ toLex (b.perms.getD [], b.name)

/-- The order of a sort: directories first, and among themselves and among the others by the column in
its direction. -/
def Precedes (sort : SortSpec) (a b : Entry) : Prop :=
  (a.kind = .dir ∧ b.kind ≠ .dir) ∨
    ((a.kind = .dir ↔ b.kind = .dir) ∧
      match sort.direction with
      | .asc => ColumnLE sort.column a b
      | .desc => ColumnLE sort.column b a)

theorem ColumnLE.total (col : SortColumn) (a b : Entry) : ColumnLE col a b ∨ ColumnLE col b a := by
  cases col with
  | name => exact le_total _ _
  | type => exact le_total _ _
  | size => exact le_total _ _
  | modified => exact le_total _ _
  | perms => exact le_total _ _

theorem ColumnLE.trans {col : SortColumn} {a b c : Entry} (hab : ColumnLE col a b)
    (hbc : ColumnLE col b c) : ColumnLE col a c := by
  cases col with
  | name => exact le_trans hab hbc
  | type => exact le_trans hab hbc
  | size => exact le_trans hab hbc
  | modified => exact le_trans hab hbc
  | perms => exact le_trans hab hbc

/-- The comparison of a column. -/
def columnCmp (col : SortColumn) (a b : Entry) : Ordering :=
  match col with
  | .name => compare a.name b.name
  | .type => (compare a.kindRank b.kindRank).then (compare a.name b.name)
  | .size => (optU64Cmp a.size b.size).then (compare a.name b.name)
  | .modified => (optU64Cmp a.modified b.modified).then (compare a.name b.name)
  | .perms => (compare (a.perms.getD []) (b.perms.getD [])).then (compare a.name b.name)

/-- A column's comparison is not greater where its order says so. -/
theorem columnCmp_ne_gt (col : SortColumn) (a b : Entry) :
    columnCmp col a b ≠ .gt ↔ ColumnLE col a b := by
  have hname := compares_compare_text a.name b.name
  cases col with
  | name => exact hname.ne_gt
  | type => exact (compares_then (compares_compare _ _) hname).ne_gt
  | size => exact (compares_then (compares_optU64Cmp _ _) hname).ne_gt
  | modified => exact (compares_then (compares_optU64Cmp _ _) hname).ne_gt
  | perms => exact (compares_then (compares_compare_text _ _) hname).ne_gt

theorem columnCmp_ne_lt (col : SortColumn) (a b : Entry) :
    columnCmp col a b ≠ .lt ↔ ColumnLE col b a := by
  have hname := compares_compare_text a.name b.name
  cases col with
  | name => exact hname.ne_lt
  | type => exact (compares_then (compares_compare _ _) hname).ne_lt
  | size => exact (compares_then (compares_optU64Cmp _ _) hname).ne_lt
  | modified => exact (compares_then (compares_optU64Cmp _ _) hname).ne_lt
  | perms => exact (compares_then (compares_compare_text _ _) hname).ne_lt

theorem columnCmp_swap (col : SortColumn) (a b : Entry) :
    columnCmp col b a = (columnCmp col a b).swap := by
  have hgt := (columnCmp_ne_gt col a b).trans (columnCmp_ne_lt col b a).symm
  have hlt := (columnCmp_ne_lt col a b).trans (columnCmp_ne_gt col b a).symm
  generalize columnCmp col a b = o at hgt hlt ⊢
  generalize columnCmp col b a = o' at hgt hlt ⊢
  rcases o with _ | _ | _ <;> rcases o' with _ | _ | _ <;> simp_all

theorem compareEntries_eq (a b : Entry) (sort : SortSpec) :
    compareEntries a b sort =
      if a.kind = .dir ∧ b.kind ≠ .dir then .lt
      else if a.kind ≠ .dir ∧ b.kind = .dir then .gt
      else
        match sort.direction with
        | .asc => columnCmp sort.column a b
        | .desc => (columnCmp sort.column a b).swap := by
  unfold compareEntries
  by_cases ha : a.kind = .dir
  · by_cases hb : b.kind = .dir
    · simp only [ha, hb, ne_eq, not_true, and_false, false_and, if_false, if_true]
      rfl
    · simp only [ha, hb, ne_eq, not_false_eq_true, true_and, if_true, if_false]
      rfl
  · by_cases hb : b.kind = .dir
    · simp only [ha, hb, ne_eq, not_false_eq_true, not_true, and_self, if_true, if_false]
      rfl
    · simp only [ha, hb, ne_eq, not_false_eq_true, false_and, and_false, if_false]
      rfl

/-- The comparison is not greater where the order says so. -/
theorem compareEntries_ne_gt (a b : Entry) (sort : SortSpec) :
    compareEntries a b sort ≠ .gt ↔ Precedes sort a b := by
  rw [compareEntries_eq]
  unfold Precedes
  by_cases ha : a.kind = .dir
  · by_cases hb : b.kind = .dir
    · simp only [ha, hb, ne_eq, not_true, and_false, false_and, if_false, false_or, true_and]
      cases sort.direction with
      | asc => exact columnCmp_ne_gt _ a b
      | desc => exact (not_congr Ordering.swap_eq_iff_eq_swap).trans (columnCmp_ne_lt _ a b)
    · simp [ha, hb]
  · by_cases hb : b.kind = .dir
    · simp [ha, hb]
    · simp only [ha, hb, ne_eq, not_false_eq_true, and_true, and_false, if_false, false_or, true_and]
      cases sort.direction with
      | asc => exact columnCmp_ne_gt _ a b
      | desc => exact (not_congr Ordering.swap_eq_iff_eq_swap).trans (columnCmp_ne_lt _ a b)

theorem compareEntries_swap (a b : Entry) (sort : SortSpec) :
    compareEntries b a sort = (compareEntries a b sort).swap := by
  rw [compareEntries_eq, compareEntries_eq]
  by_cases ha : a.kind = .dir
  · by_cases hb : b.kind = .dir
    · simp only [ha, hb, ne_eq, not_true, and_false, false_and, if_false]
      cases sort.direction with
      | asc => exact columnCmp_swap _ a b
      | desc => exact congrArg Ordering.swap (columnCmp_swap _ a b)
    · simp [ha, hb]
  · by_cases hb : b.kind = .dir
    · simp [ha, hb]
    · simp only [ha, hb, ne_eq, and_false, if_false]
      cases sort.direction with
      | asc => exact columnCmp_swap _ a b
      | desc => exact congrArg Ordering.swap (columnCmp_swap _ a b)

/-- The comparison is not less where the order says so of the reverse. -/
theorem compareEntries_ne_lt (a b : Entry) (sort : SortSpec) :
    compareEntries a b sort ≠ .lt ↔ Precedes sort b a := by
  have hswap : (compareEntries a b sort).swap = .gt ↔ compareEntries a b sort = .lt :=
    Ordering.swap_eq_iff_eq_swap
  rw [← compareEntries_ne_gt, compareEntries_swap a b]
  exact (not_congr hswap).symm

theorem Precedes.total (sort : SortSpec) (a b : Entry) : Precedes sort a b ∨ Precedes sort b a := by
  rw [← compareEntries_ne_gt, ← compareEntries_ne_lt]
  by_contra hnot
  rw [not_or, not_not, not_not] at hnot
  cases hnot.1.symm.trans hnot.2

theorem Precedes.trans {sort : SortSpec} {a b c : Entry} (hab : Precedes sort a b)
    (hbc : Precedes sort b c) : Precedes sort a c := by
  rcases hab with ⟨ha, hb⟩ | ⟨hab, hcol⟩
  · rcases hbc with ⟨hb', -⟩ | ⟨hbc, -⟩
    · exact absurd hb' hb
    · exact .inl ⟨ha, fun hc => hb (hbc.mpr hc)⟩
  · rcases hbc with ⟨hb, hc⟩ | ⟨hbc, hcol'⟩
    · exact .inl ⟨hab.mpr hb, hc⟩
    · refine .inr ⟨hab.trans hbc, ?_⟩
      cases hdir : sort.direction with
      | asc =>
        simp only [hdir] at hcol hcol'
        exact hcol.trans hcol'
      | desc =>
        simp only [hdir] at hcol hcol'
        exact hcol'.trans hcol

/-! ## The hidden rows -/

theorem hiddenFilter_eq (limit : Option ℕ) (rows : List VisibleRow) :
    hiddenFilter limit rows =
      Forest.dropBelow VisibleRow.depth (fun row => isHiddenName row.name) VisibleRow.isDir limit
        rows := by
  induction rows generalizing limit with
  | nil => rfl
  | cons row rows ih =>
    rw [hiddenFilter, Forest.dropBelow, ih, ih, ih]

/-- The rows that neither are hidden nor have a hidden directory above them. -/
def unhiddenRows (f : Forest VisibleRow) : List VisibleRow :=
  ((f.paths []).filter fun e =>
    !isHiddenName e.2.name && !e.1.any fun row => row.isDir && isHiddenName row.name).map Prod.snd

/-- The pass over the depths of the rows sees which directories the rows are below. -/
theorem applyHiddenFilter_rows {f : Forest VisibleRow} {d : ℕ} (hlevels : f.Levels VisibleRow.depth d)
    (hinner : f.Inner VisibleRow.isDir) : applyHiddenFilter f.rows false = unhiddenRows f := by
  have habove : ([] : List VisibleRow).all (fun row => !isHiddenName row.name) = true := rfl
  unfold applyHiddenFilter unhiddenRows
  rw [if_neg Bool.false_ne_true, hiddenFilter_eq, Forest.dropBelow_rows hlevels hinner,
    Forest.rows_prune habove]
  refine congrArg _ (List.filter_congr fun e he => congrArg _ ?_)
  have hdir : ∀ row ∈ e.1, row.isDir = true := fun row hrow =>
    (hinner.paths e he row hrow).resolve_left List.not_mem_nil
  rw [List.not_any_eq_all_not, Bool.eq_iff_iff, List.all_eq_true, List.all_eq_true]
  refine forall₂_congr fun row hrow => ?_
  rw [hdir row hrow, Bool.true_and]

namespace TreeState

variable {t : TreeState} {sort : SortSpec} {id : Path} {ids : List Path} {d : ℕ}
  {f : Forest VisibleRow}

/-- A tree that listings have built, of entries that are below the directory they are listed for, with
any directories expanded. -/
inductive Built : TreeState → Prop
  | new (root : Entry) : Built (TreeState.new root)
  | upsertChildren {t : TreeState} (parentId : Path) (children : List Entry) :
    (∀ child ∈ children, Sftp.depth parentId < Sftp.depth child.path) → Built t →
      Built (t.upsertChildren parentId children)
  | expanded {t : TreeState} (ids : List Path) : Built t → Built { t with expanded := ids }

theorem Built.wellFormed (h : t.Built) : t.WellFormed := by
  induction h with
  | new root => exact WellFormed.new root
  | upsertChildren parentId children hbelow _ ih => exact ih.upsertChildren hbelow
  | expanded ids _ ih => exact ih.congr rfl rfl

/-- A node is kept by the path of its entry. -/
theorem Built.keyed (h : t.Built) {node : Node} (hnode : t.nodes.lookup id = some node) :
    node.entry.path = id := by
  induction h generalizing node with
  | new root =>
    obtain ⟨rfl, rfl⟩ := lookup_new hnode
    rfl
  | @upsertChildren t parentId children _ _ ih =>
    have hentry := @entry_upsertChildren t id parentId children
    rw [hnode, Option.map_some] at hentry
    rcases hlast : lastEntry children id with _ | child
    · rw [hlast, Option.none_or] at hentry
      obtain ⟨earlier, hearlier, heq⟩ := Option.map_eq_some_iff.mp hentry.symm
      rw [← heq]
      exact ih hearlier
    · rw [hlast, Option.some_or] at hentry
      rw [Option.some.inj hentry]
      simpa using List.find?_some hlast
  | expanded ids _ ih => exact ih hnode

/-- A sibling stands before another in the order of a sort. -/
def InOrder (t : TreeState) (sort : SortSpec) (a b : Path) : Prop :=
  ∀ na nb, t.nodes.lookup a = some na → t.nodes.lookup b = some nb →
    Precedes sort na.entry nb.entry

/-- A forest of the nodes of a tree: the ids are the roots, each with its row, and below an expanded
directory stand its children in the order of a sort. -/
inductive Lists (t : TreeState) (sort : SortSpec) : ℕ → List Path → Forest VisibleRow → Prop
  | nil {d : ℕ} : Lists t sort d [] .nil
  | closed {d : ℕ} {id : Path} {ids : List Path} {node : Node} {rest : Forest VisibleRow} :
    t.nodes.lookup id = some node → (node.entry.kind = .dir → t.isExpanded id = false) →
      Lists t sort d ids rest → Lists t sort d (id :: ids) (.node (t.rowOf id node d) .nil rest)
  | opened {d : ℕ} {id : Path} {ids children : List Path} {node : Node}
      {below rest : Forest VisibleRow} :
    t.nodes.lookup id = some node → node.entry.kind = .dir → t.isExpanded id = true →
      children.Perm node.children → children.Pairwise (t.InOrder sort) →
      Lists t sort (d + 1) children below → Lists t sort d ids rest →
      Lists t sort d (id :: ids) (.node (t.rowOf id node d) below rest)

theorem Lists.levels (h : t.Lists sort d ids f) : f.Levels VisibleRow.depth d := by
  induction h with
  | nil => trivial
  | closed _ _ _ ih => exact ⟨rfl, trivial, ih⟩
  | opened _ _ _ _ _ _ _ ihBelow ihRest => exact ⟨rfl, ihBelow, ihRest⟩

/-- Only expanded directories have something below them. -/
theorem Lists.inner (h : t.Lists sort d ids f) :
    f.Inner fun row => decide (row.kind = .dir) && row.isExpanded := by
  induction h with
  | nil => trivial
  | closed _ _ _ ih => exact ⟨.inl rfl, trivial, ih⟩
  | opened _ hkind hexpanded _ _ _ _ ihBelow ihRest =>
    exact ⟨.inr (by simp [rowOf, hkind, hexpanded]), ihBelow, ihRest⟩

/-- The directory flag of the rows. -/
theorem Lists.inner_isDir (h : t.Lists sort d ids f) : f.Inner VisibleRow.isDir := by
  induction h with
  | nil => trivial
  | closed _ _ _ ih => exact ⟨.inl rfl, trivial, ih⟩
  | opened _ hkind _ _ _ _ _ ihBelow ihRest =>
    exact ⟨.inr (by simp [rowOf, hkind]), ihBelow, ihRest⟩

theorem sortChildren_perm (t : TreeState) (sort : SortSpec) (children : List Path) :
    (t.sortChildren sort children).Perm children :=
  List.perm_insertionSort _ _

/-- The children of a node are sorted. -/
theorem sortChildren_pairwise {children : List Path} (h : ∀ child ∈ children, child ∈ t.nodes) :
    (t.sortChildren sort children).Pairwise (t.InOrder sort) := by
  -- outside the nodes `compareIds` is no order, so an entry of any kind stands in there
  let entryOf (id : Path) : Entry :=
    ((t.nodes.lookup id).map Node.entry).getD { path := [], name := [], kind := .other }
  have hcompare : ∀ a ∈ children, ∀ b ∈ children, t.compareIds a b sort ≠ .gt ↔
      compareEntries (entryOf a) (entryOf b) sort ≠ .gt := by
    intro a ha b hb
    obtain ⟨na, hna⟩ := Option.isSome_iff_exists.mp (AList.lookup_isSome.mpr (h a ha))
    obtain ⟨nb, hnb⟩ := Option.isSome_iff_exists.mp (AList.lookup_isSome.mpr (h b hb))
    simp only [compareIds, entryOf, hna, hnb, Option.map_some, Option.getD_some]
  have htotal : Std.Total fun a b => compareEntries (entryOf a) (entryOf b) sort ≠ .gt := by
    constructor
    intro a b
    rw [compareEntries_ne_gt, compareEntries_ne_gt]
    exact Precedes.total sort _ _
  have htrans : IsTrans Path fun a b => compareEntries (entryOf a) (entryOf b) sort ≠ .gt := by
    constructor
    intro a b c
    rw [compareEntries_ne_gt, compareEntries_ne_gt, compareEntries_ne_gt]
    exact Precedes.trans
  unfold sortChildren
  rw [insertionSort_congr hcompare]
  refine (List.pairwise_insertionSort _ children).imp fun {a b} hab na nb hna hnb => ?_
  have hprecedes := (compareEntries_ne_gt _ _ _).mp hab
  simpa only [entryOf, hna, hnb, Option.map_some, Option.getD_some] using hprecedes

/-- With enough fuel, the rows of nodes are those of a forest. -/
theorem exists_lists (h : t.WellFormed) {n : ℕ} (hids : ∀ id ∈ ids, id ∈ t.nodes)
    (hn : ∀ id ∈ ids, t.depthBound < n + Sftp.depth id) :
    ∃ f, t.Lists sort d ids f ∧ f.rows = ids.flatMap fun id => t.flattenIntoSorted sort n id d := by
  -- on the fuel for the levels, and on the siblings of a level
  induction n generalizing ids d with
  | zero =>
    rcases ids with _ | ⟨id, ids⟩
    · exact ⟨.nil, .nil, rfl⟩
    · have hle := depth_le_depthBound (hids id List.mem_cons_self)
      have hlt := hn id List.mem_cons_self
      omega
  | succ n ih =>
    induction ids with
    | nil => exact ⟨.nil, .nil, rfl⟩
    | cons id ids ihIds =>
      obtain ⟨rest, hrest, hrows⟩ := ihIds (fun x hx => hids x (List.mem_cons_of_mem _ hx))
        fun x hx => hn x (List.mem_cons_of_mem _ hx)
      obtain ⟨node, hnode⟩ :=
        Option.isSome_iff_exists.mp (AList.lookup_isSome.mpr (hids id List.mem_cons_self))
      by_cases hopen : node.entry.kind = .dir ∧ t.isExpanded id = true
      -- an open directory: its sorted children are deeper, so the fuel suffices
      · obtain ⟨hkind, hexpanded⟩ := hopen
        have hperm := sortChildren_perm t sort node.children
        have hlt := hn id List.mem_cons_self
        obtain ⟨below, hbelow, hbelowRows⟩ := @ih (t.sortChildren sort node.children) (d + 1)
          (fun x hx => h.closed id node hnode x (hperm.mem_iff.mp hx)) fun x hx => by
            have hdeeper := h.deeper id node hnode x (hperm.mem_iff.mp hx)
            omega
        refine ⟨_, .opened hnode hkind hexpanded hperm
          (sortChildren_pairwise (h.closed id node hnode)) hbelow hrest, ?_⟩
        rw [Forest.rows_node, List.flatMap_cons, flattenIntoSorted, hnode, hrows, hbelowRows]
        simp [hkind, hexpanded]
      · have hclosed : node.entry.kind = .dir → t.isExpanded id = false := fun hkind => by
          simpa using fun hexpanded => hopen ⟨hkind, hexpanded⟩
        refine ⟨_, .closed hnode hclosed hrest, ?_⟩
        have hif : node.entry.kind ≠ .dir ∨ (!t.isExpanded id) = true := by
          by_cases hkind : node.entry.kind = .dir
          · exact .inr (by rw [hclosed hkind]; rfl)
          · exact .inl hkind
        rw [Forest.rows_node, List.flatMap_cons, flattenIntoSorted, hnode, hrows]
        simp only [if_pos hif, Forest.rows_nil, List.nil_append, List.cons_append]

/-- The root's row and the rows below it. -/
theorem exists_lists_root (h : t.WellFormed) (sort : SortSpec) :
    ∃ row below, t.Lists sort 0 [t.root] (.node row below .nil) ∧
      t.visibleRowsSorted sort = (Forest.node row below .nil).rows := by
  obtain ⟨f, hlists, hrows⟩ := @exists_lists t sort [t.root] 0 h (t.depthBound + 1)
    (fun id hid => List.mem_singleton.mp hid ▸ h.root_mem) fun id _ => by omega
  rw [List.flatMap_singleton] at hrows
  cases hlists with
  | closed hnode hclosed hrest =>
    cases hrest
    exact ⟨_, _, .closed hnode hclosed .nil, hrows.symm⟩
  | opened hnode hkind hexpanded hperm hsorted hbelow hrest =>
    cases hrest
    exact ⟨_, _, .opened hnode hkind hexpanded hperm hsorted hbelow .nil, hrows.symm⟩

/-- For every tree that listings build, every set of expanded directories and every sort, the rows are
the preorder of the root and of the children of expanded directories, each with its distance from the
root and its siblings directories first and in the order of the column, whatever fuel from the deepest
path on the recursion gets. The comparison is a total preorder, the one that says so. Of the rows, and
of those below the root, the hidden filter keeps those that neither are hidden nor have a hidden
directory above them. -/
theorem visibleRowsSorted_preorder (h : t.Built) (sort : SortSpec) :
    (∃ row below, t.Lists sort 0 [t.root] (.node row below .nil) ∧
      t.visibleRowsSorted sort = (Forest.node row below .nil).rows ∧
      (∀ fuel, t.depthBound < fuel →
        t.flattenIntoSorted sort fuel t.root 0 = t.visibleRowsSorted sort) ∧
      applyHiddenFilter (t.visibleRowsSorted sort) false = unhiddenRows (.node row below .nil) ∧
      applyHiddenFilter ((t.visibleRowsSorted sort).drop 1) false = unhiddenRows below) ∧
    (∀ id node, t.nodes.lookup id = some node → node.entry.path = id) ∧
    (∀ a b, compareEntries a b sort ≠ .gt ↔ Precedes sort a b) ∧
    (∀ a b, compareEntries b a sort = (compareEntries a b sort).swap) ∧
    (∀ a b, compareEntries a b sort ≠ .gt ∨ compareEntries b a sort ≠ .gt) ∧
    ∀ a b c, compareEntries a b sort ≠ .gt → compareEntries b c sort ≠ .gt →
      compareEntries a c sort ≠ .gt := by
  have hwell := h.wellFormed
  refine ⟨?_, fun id node => h.keyed, fun a b => compareEntries_ne_gt a b sort,
    fun a b => compareEntries_swap a b sort, fun a b => ?_, fun a b c => ?_⟩
  · obtain ⟨row, below, hlists, hrows⟩ := exists_lists_root hwell sort
    have hlevels := hlists.levels
    have hinner := hlists.inner_isDir
    refine ⟨row, below, hlists, hrows, fun fuel hfuel => ?_, ?_, ?_⟩
    · exact flattenIntoSorted_fuel hwell.deeper sort (by omega) (by omega) 0
    · rw [hrows, applyHiddenFilter_rows hlevels hinner]
    · have hbelow : (Forest.node row below .nil).rows.drop 1 = below.rows := by
        rw [Forest.rows_node, Forest.rows_nil, List.append_nil, List.drop_one, List.tail_cons]
      rw [hrows, hbelow, applyHiddenFilter_rows hlevels.2.1 hinner.2.1]
  · rw [compareEntries_ne_gt, compareEntries_ne_gt]
    exact Precedes.total sort a b
  · rw [compareEntries_ne_gt, compareEntries_ne_gt, compareEntries_ne_gt]
    exact Precedes.trans

/-- A tree with a hidden directory that is expanded. -/
def sampleTree : TreeState :=
  let root : Entry := { path := "/".toList, name := "/".toList, kind := .dir }
  let git : Entry := { path := "/.git".toList, name := ".git".toList, kind := .dir }
  let config : Entry := { path := "/.git/config".toList, name := "config".toList, kind := .file }
  let notes : Entry := { path := "/notes".toList, name := "notes".toList, kind := .file }
  { ((new root).upsertChildren root.path [notes, git]).upsertChildren git.path [config] with
    expanded := [root.path, git.path] }

theorem built_sampleTree : sampleTree.Built := by
  refine .expanded _ (.upsertChildren _ _ ?_ (.upsertChildren _ _ ?_ (.new _)))
  · decide +kernel
  · decide +kernel

theorem visibleRowsSorted_preorder_sample :
    ∃ row below, sampleTree.Lists {} 0 [sampleTree.root] (.node row below .nil) ∧
      sampleTree.visibleRowsSorted {} = (Forest.node row below .nil).rows :=
  let ⟨row, below, hlists, hrows, _⟩ := (visibleRowsSorted_preorder built_sampleTree {}).1
  ⟨row, below, hlists, hrows⟩

end TreeState

end Termua.Sftp
