import Mathlib
import Termua.Lib.Entries
import Termua.Sftp.Browser

/-!
# The listings of a tree

Where every completion is timely, the tree is that of the last `cd` and holds the listings that were
asked for last. The invariant `BrowserInv` says of every node that its children are those of the last
answer for it, and every event keeps it.
-/

namespace Termua.Sftp

open Transition

namespace Browser

/-- The listing that a directory got last since the tree was set. -/
def lastAnswer (s : Browser) (dir : Path) : Option (List Entry) :=
  (s.answers.reverse.find? (·.2.1 = dir)).map fun answer => answer.2.2

/-- The children of a node are those that its directory got last. -/
def NodeListed (s : Browser) (dir : Path) (node : Node) : Prop :=
  match s.lastAnswer dir with
  | some children => ChildrenAre s.table.tree node children
  | none => node.children = []

/-- What holds of a browser whose completions were timely. -/
structure BrowserInv (s : Browser) : Prop where
  wellFormed : s.table.tree.WellFormed
  shown : s.table.Shown
  root : ∀ dir, s.lastCd = some dir → s.table.tree.root = dir
  cdNav : s.cdNav ≤ s.nav
  numbers : (s.requests.map Request.number).Nodup
  sentBelow : ∀ r ∈ s.requests, r.number < s.issued
  sentNav : ∀ r ∈ s.requests, r.nav ≤ s.nav
  sent : ∀ r ∈ s.requests, r.nav = s.nav → ∀ dir, r.target = some dir → (r.number, dir) ∈ s.asked
  settled : ∀ asked ∈ s.asked,
    (∃ r ∈ s.requests, r.number = asked.1 ∧ r.nav = s.nav ∧ r.target = some asked.2) ∨
      asked.1 ∈ s.failures ∨ ∃ children, (asked.1, asked.2, children) ∈ s.answers
  askedBelow : ∀ asked ∈ s.asked, asked.1 < s.issued
  askedOrdered : s.asked.Pairwise fun a b => a.1 < b.1
  answered : ∀ n dir children, (n, dir, children) ∈ s.answers →
    (n, dir) ∈ s.asked ∧ dir ∈ s.table.tree.nodes
  answersOrdered : s.answers.Pairwise fun a b => a.2.1 = b.2.1 → a.1 < b.1
  listed : ∀ dir node, s.table.tree.nodes.lookup dir = some node → s.NodeListed dir node
  undisturbed : s.disturbed = false

variable {s : Browser}

theorem lastAnswer_mem {dir : Path} {children : List Entry} (h : s.lastAnswer dir = some children) :
    ∃ n, (n, dir, children) ∈ s.answers := by
  obtain ⟨⟨n, dir', children'⟩, hfind, rfl⟩ := Option.map_eq_some_iff.mp h
  have hdir : dir' = dir := by simpa using List.find?_some hfind
  subst hdir
  exact ⟨n, List.mem_reverse.mp (List.mem_of_find?_eq_some hfind)⟩

/-- The last listing that a directory got is that of the refresh that was sent last. -/
theorem BrowserInv.lastAnswer_eq (h : BrowserInv s) {dir : Path} {n : ℕ} {children : List Entry}
    (hasked : s.lastAsked dir = some n) (hanswer : (n, dir, children) ∈ s.answers) :
    s.lastAnswer dir = some children := by
  obtain ⟨⟨m, dir'⟩, hfindAsked, rfl⟩ := Option.map_eq_some_iff.mp hasked
  rcases hfind : s.answers.reverse.find? (·.2.1 = dir) with _ | ⟨k, dir'', children'⟩
  · exact absurd (List.find?_eq_none.mp hfind _ (List.mem_reverse.mpr hanswer)) (by simp)
  · have hdir : dir'' = dir := by simpa using List.find?_some hfind
    subst hdir
    have hmem := List.mem_reverse.mp (List.mem_of_find?_eq_some hfind)
    -- the refresh sent last is not before the one that was answered last, nor after it
    have hle : k ≤ m := by
      rcases List.rel_of_find?_reverse h.askedOrdered hfindAsked (h.answered k dir'' _ hmem).1
        (by simp) with heq | hlt
      · exact (congrArg Prod.fst heq).le
      · exact hlt.le
    rcases List.rel_of_find?_reverse h.answersOrdered hfind hanswer (by simp) with heq | hlt
    · obtain ⟨-, -, rfl⟩ : m = k ∧ dir'' = dir'' ∧ children = children' := by simpa using heq
      unfold lastAnswer
      rw [hfind]
      rfl
    · exact absurd (hlt rfl) (by simpa using hle)

/-- The invariant gives what a quiet browser shows. -/
theorem BrowserInv.fresh (h : BrowserInv s) (hquiet : s.requests = []) : Fresh s where
  root := h.root
  listed := by
    intro dir node n hnode hasked
    obtain ⟨⟨m, dir'⟩, hfind, rfl⟩ := Option.map_eq_some_iff.mp hasked
    have hdir : dir' = dir := by simpa using List.find?_some hfind
    subst hdir
    have hmem := List.mem_reverse.mp (List.mem_of_find?_eq_some hfind)
    rcases h.settled _ hmem with ⟨r, hr, -⟩ | hfailed | ⟨children, hanswer⟩
    · rw [hquiet] at hr
      cases hr
    · exact .inl hfailed
    · have hlisted := h.listed dir' node hnode
      unfold NodeListed at hlisted
      rw [h.lastAnswer_eq hasked hanswer] at hlisted
      exact .inr ⟨children, hanswer, hlisted⟩
  unasked := by
    intro dir node hnode hasked
    have hlisted := h.listed dir node hnode
    unfold NodeListed at hlisted
    rcases hanswer : s.lastAnswer dir with _ | children
    · rw [hanswer] at hlisted
      exact hlisted
    · obtain ⟨n, hmem⟩ := lastAnswer_mem hanswer
      have hnone := Option.map_eq_none_iff.mp hasked
      exact absurd (List.find?_eq_none.mp hnone _ (List.mem_reverse.mpr (h.answered n dir _ hmem).1))
        (by simp)
  undisturbed := h.undisturbed

/-- A node that keeps its children and their entries, and whose directory got nothing new. -/
theorem NodeListed.congr {s' : Browser} {dir : Path} {node node' : Node} (h : s.NodeListed dir node)
    (hanswer : s'.lastAnswer dir = s.lastAnswer dir) (hchildren : node'.children = node.children)
    (hentries : ∀ id ∈ node.children, (s'.table.tree.nodes.lookup id).map Node.entry =
      (s.table.tree.nodes.lookup id).map Node.entry) : s'.NodeListed dir node' := by
  unfold NodeListed at h ⊢
  rw [hanswer]
  split at h
  · exact ⟨hchildren.trans h.1, fun id hid =>
      (hentries id (hchildren ▸ hid)).trans (h.2 id (hchildren ▸ hid))⟩
  · exact hchildren.trans h

/-! ## Events that leave the nodes -/

/-- A table with the same nodes. -/
theorem BrowserInv.table (h : BrowserInv s) {table : SftpTable}
    (hroot : table.tree.root = s.table.tree.root) (hnodes : table.tree.nodes = s.table.tree.nodes)
    (hshown : table.Shown) : BrowserInv { s with table := table } where
  wellFormed := h.wellFormed.congr hroot hnodes
  shown := hshown
  root := fun dir hdir => hroot.trans (h.root dir hdir)
  cdNav := h.cdNav
  numbers := h.numbers
  sentBelow := h.sentBelow
  sentNav := h.sentNav
  sent := h.sent
  settled := h.settled
  askedBelow := h.askedBelow
  askedOrdered := h.askedOrdered
  answered := by
    show ∀ n dir children, (n, dir, children) ∈ s.answers →
      (n, dir) ∈ s.asked ∧ dir ∈ table.tree.nodes
    rw [hnodes]
    exact h.answered
  answersOrdered := h.answersOrdered
  listed := by
    intro dir node hnode
    refine (h.listed dir node (hnodes ▸ hnode)).congr rfl rfl fun id _ => ?_
    show (table.tree.nodes.lookup id).map Node.entry = _
    rw [hnodes]
  undisturbed := h.undisturbed

/-- A request that is sent has a number of its own. -/
theorem BrowserInv.numbers_send (h : BrowserInv s) (target : Option Path) :
    ((s.requests ++ [(⟨s.issued, s.nav, target⟩ : Request)]).map Request.number).Nodup := by
  rw [List.map_append, List.nodup_append']
  refine ⟨h.numbers, List.nodup_singleton _, ?_⟩
  intro n hn hn'
  obtain ⟨r, hr, heq⟩ := List.mem_map.mp hn
  have hlt : r.number < s.issued := h.sentBelow r hr
  have hnew : n = s.issued := List.mem_singleton.mp hn'
  omega

theorem BrowserInv.sentBelow_send (h : BrowserInv s) (target : Option Path) :
    ∀ r ∈ s.requests ++ [⟨s.issued, s.nav, target⟩], r.number < s.issued + 1 := by
  intro r hr
  rcases List.mem_append.mp hr with hr | hr
  · exact (h.sentBelow r hr).trans (Nat.lt_succ_self _)
  · obtain rfl := List.mem_singleton.mp hr
    exact Nat.lt_succ_self _

theorem BrowserInv.sentNav_send (h : BrowserInv s) (target : Option Path) :
    ∀ r ∈ s.requests ++ [⟨s.issued, s.nav, target⟩], r.nav ≤ s.nav := by
  intro r hr
  rcases List.mem_append.mp hr with hr | hr
  · exact h.sentNav r hr
  · obtain rfl := List.mem_singleton.mp hr
    exact le_rfl

theorem BrowserInv.settled_send (h : BrowserInv s) (target : Option Path) : ∀ asked ∈ s.asked,
    (∃ r ∈ s.requests ++ [⟨s.issued, s.nav, target⟩],
      r.number = asked.1 ∧ r.nav = s.nav ∧ r.target = some asked.2) ∨
      asked.1 ∈ s.failures ∨ ∃ children, (asked.1, asked.2, children) ∈ s.answers := by
  intro asked hasked
  refine (h.settled asked hasked).imp_left ?_
  rintro ⟨r, hr, hsame⟩
  exact ⟨r, List.mem_append_left _ hr, hsame⟩

theorem BrowserInv.send_none (h : BrowserInv s) : BrowserInv (s.send none) where
  wellFormed := h.wellFormed
  shown := h.shown
  root := h.root
  cdNav := h.cdNav
  numbers := h.numbers_send none
  sentBelow := h.sentBelow_send none
  sentNav := h.sentNav_send none
  settled := h.settled_send none
  sent := by
    intro r hr hnav dir htarget
    rcases List.mem_append.mp hr with hr | hr
    · exact h.sent r hr hnav dir htarget
    · obtain rfl := List.mem_singleton.mp hr
      cases htarget
  askedBelow := fun asked hasked => (h.askedBelow asked hasked).trans (Nat.lt_succ_self _)
  askedOrdered := h.askedOrdered
  answered := h.answered
  answersOrdered := h.answersOrdered
  listed := h.listed
  undisturbed := h.undisturbed

theorem BrowserInv.refreshDir (h : BrowserInv s) (dir : Path) : BrowserInv (s.refreshDir dir) := by
  unfold Browser.refreshDir
  split
  -- without a connection nothing is asked
  · exact h
  · have htable : BrowserInv { s with table := s.table.refreshStart dir } :=
      h.table rfl rfl (SftpTable.shown_rebuildVisible _)
    exact
      { wellFormed := htable.wellFormed
        shown := htable.shown
        root := htable.root
        cdNav := h.cdNav
        numbers := h.numbers_send (some dir)
        sentBelow := h.sentBelow_send (some dir)
        sentNav := h.sentNav_send (some dir)
        settled := by
          intro asked hasked
          -- the new request is the one that is asked last, under the next number
          rcases List.mem_append.mp hasked with hasked | hasked
          · exact h.settled_send (some dir) asked hasked
          · obtain rfl := List.mem_singleton.mp hasked
            exact .inl ⟨_, List.mem_append_right _ (List.mem_singleton_self _), rfl, rfl, rfl⟩
        sent := by
          intro r hr hnav dir' htarget
          rcases List.mem_append.mp hr with hr | hr
          · exact List.mem_append_left _ (h.sent r hr hnav dir' htarget)
          · obtain rfl := List.mem_singleton.mp hr
            obtain rfl := Option.some.inj htarget
            exact List.mem_append_right _ (List.mem_singleton_self _)
        askedBelow := by
          intro asked hasked
          rcases List.mem_append.mp hasked with hasked | hasked
          · exact (h.askedBelow asked hasked).trans (Nat.lt_succ_self _)
          · obtain rfl := List.mem_singleton.mp hasked
            exact Nat.lt_succ_self _
        askedOrdered := by
          refine List.pairwise_append.mpr ⟨h.askedOrdered, List.pairwise_singleton _ _, ?_⟩
          intro a ha b hb
          obtain rfl := List.mem_singleton.mp hb
          exact h.askedBelow a ha
        answered := fun n dir' children hanswer =>
          ⟨List.mem_append_left _ (htable.answered n dir' children hanswer).1,
            (htable.answered n dir' children hanswer).2⟩
        answersOrdered := h.answersOrdered
        listed := htable.listed
        undisturbed := h.undisturbed }

/-! ## Events that set the tree -/

/-- A new tree, before anything is asked for it. -/
theorem BrowserInv.newTree (h : BrowserInv s) {s' : Browser} {root : Entry}
    (htree : s'.table.tree = TreeState.new root) (hshown : s'.table.Shown)
    (hroot : ∀ dir, s'.lastCd = some dir → root.path = dir) (hnav : s'.nav = s.nav + 1)
    (hcdNav : s'.cdNav ≤ s'.nav) (hrequests : s'.requests.Sublist s.requests)
    (hissued : s'.issued = s.issued) (hasked : s'.asked = []) (hanswers : s'.answers = []) (hundisturbed : s'.disturbed = false) :
    BrowserInv s' where
  wellFormed := by
    rw [htree]
    exact .new root
  shown := hshown
  root := by
    rw [htree]
    exact hroot
  cdNav := hcdNav
  numbers := h.numbers.sublist (hrequests.map _)
  sentBelow := by
    intro r hr
    rw [hissued]
    exact h.sentBelow r (hrequests.subset hr)
  -- what is on its way was asked for an earlier tree
  sentNav := by
    intro r hr
    have hle := h.sentNav r (hrequests.subset hr)
    omega
  sent := by
    intro r hr hnav'
    have hle := h.sentNav r (hrequests.subset hr)
    omega
  settled := by
    rw [hasked]
    nofun
  askedBelow := by
    rw [hasked]
    nofun
  askedOrdered := by
    rw [hasked]
    exact .nil
  answered := by
    rw [hanswers]
    nofun
  answersOrdered := by
    rw [hanswers]
    exact .nil
  -- the tree is its root, which has no children yet
  listed := by
    intro dir node hnode
    rw [htree] at hnode
    obtain ⟨-, rfl⟩ := TreeState.lookup_new hnode
    unfold NodeListed lastAnswer
    rw [hanswers]
    rfl
  undisturbed := hundisturbed

theorem BrowserInv.cd (h : BrowserInv s) (dir : Path) : BrowserInv (s.cd dir) := by
  unfold Browser.cd
  split
  · exact h
  · refine BrowserInv.refreshDir ?_ dir
    refine h.newTree rfl (SftpTable.shown_rebuildVisible _) ?_ rfl le_rfl (.refl _) rfl rfl rfl rfl
    intro dir' hdir'
    exact Option.some.inj hdir'

theorem BrowserInv.canonicalizeDone (h : BrowserInv s) {r : Request} {root : Option Path}
    (hcd : s.lastCd = none) : BrowserInv (s.canonicalizeDone r root) := by
  unfold Browser.canonicalizeDone
  refine BrowserInv.refreshDir ?_ _
  refine h.newTree rfl (SftpTable.shown_rebuildVisible _) ?_ rfl
    (h.cdNav.trans (Nat.le_succ _)) List.filter_sublist rfl rfl rfl ?_
  · intro dir hdir
    exact absurd (hcd.symm.trans hdir) (by simp)
  · show (s.disturbed || s.disturbs r (s.table.bootstrapDone root)) = false
    unfold disturbs
    rw [h.undisturbed, hcd]
    rfl

/-! ## Listings -/

/-- The request that completes is the one in flight with its number. -/
theorem BrowserInv.eq_of_number (h : BrowserInv s) {r r' : Request} (hr : r ∈ s.requests)
    (hr' : r' ∈ s.requests) (hnumber : r'.number = r.number) : r' = r :=
  List.inj_on_of_nodup_map h.numbers hr' hr hnumber

/-- A refresh that was asked for is in flight, failed or answered also after a completion. -/
theorem BrowserInv.settled_done (h : BrowserInv s) {r : Request} (hr : r ∈ s.requests)
    {failures : List ℕ} {answers : List (ℕ × Path × List Entry)} (hfailures : s.failures ⊆ failures)
    (hanswers : s.answers ⊆ answers) (hdone : r.nav = s.nav → ∀ dir, r.target = some dir →
      r.number ∈ failures ∨ ∃ children, (r.number, dir, children) ∈ answers) :
    ∀ asked ∈ s.asked, (∃ r' ∈ s.requests.filter (·.number ≠ r.number),
      r'.number = asked.1 ∧ r'.nav = s.nav ∧ r'.target = some asked.2) ∨
      asked.1 ∈ failures ∨ ∃ children, (asked.1, asked.2, children) ∈ answers := by
  intro asked hasked
  rcases h.settled asked hasked with ⟨r', hr', hnumber, hnav, htarget⟩ | hfailed | ⟨children, hanswer⟩
  · by_cases hsame : r'.number = r.number
    · obtain rfl := h.eq_of_number hr hr' hsame
      rw [← hnumber]
      exact .inr (hdone hnav asked.2 htarget)
    · exact .inl ⟨r', List.mem_filter.mpr ⟨hr', by simpa using hsame⟩, hnumber, hnav, htarget⟩
  · exact .inr (.inl (hfailures hfailed))
  · exact .inr (.inr ⟨children, hanswers hanswer⟩)

theorem BrowserInv.numbers_done (h : BrowserInv s) (n : ℕ) :
    ((s.requests.filter (·.number ≠ n)).map Request.number).Nodup :=
  h.numbers.sublist (List.filter_sublist.map _)

/-- A request that failed. -/
theorem BrowserInv.readDirDone_failed (h : BrowserInv s) {r : Request} {dir : Path}
    (hr : r ∈ s.requests) :
    BrowserInv (s.readDirDone r dir none) := by
  have htable : BrowserInv { s with table := s.table.refreshDone dir none } :=
    h.table rfl rfl (SftpTable.shown_refreshDone)
  -- a failure changes neither the rows nor the root
  have hquiet : s.disturbs r (s.table.refreshDone dir none) = false := by
    have hvisible : (s.table.refreshDone dir none).visible = s.table.visible := h.shown.symm
    have hentry : rootEntry (s.table.refreshDone dir none) = rootEntry s.table := rfl
    unfold disturbs
    rw [hvisible, hentry]
    simp
  exact
    { htable with
      numbers := h.numbers_done r.number
      sentBelow := fun r hr => h.sentBelow r (List.mem_of_mem_filter hr)
      sentNav := fun r hr => h.sentNav r (List.mem_of_mem_filter hr)
      sent := fun r hr => h.sent r (List.mem_of_mem_filter hr)
      settled := by
        refine h.settled_done hr ?_ (List.Subset.refl _) ?_
        · intro n hn
          unfold Browser.readDirDone
          simp only
          split
          · exact List.mem_cons_of_mem _ hn
          · exact hn
        · intro hnav dir' _
          have hfailures : (s.readDirDone r dir none).failures = r.number :: s.failures :=
            if_pos ⟨rfl, hnav⟩
          rw [hfailures]
          exact .inl (List.mem_cons_self ..)
      undisturbed := by
        show (s.disturbed || s.disturbs r (s.table.refreshDone dir none)) = false
        rw [h.undisturbed, hquiet]
        rfl }

/-- No entry of a listing is the directory. -/
theorem lastEntry_dir {dir : Path} {found : List (Path × Metadata)} :
    TreeState.lastEntry (listedChildren dir found) dir = none := by
  refine List.find?_eq_none.mpr fun child hchild heq => ?_
  have hlt := depth_lt_of_mem_listedChildren (List.mem_reverse.mp hchild)
  have hpath : child.path = dir := by simpa using heq
  rw [hpath] at hlt
  exact lt_irrefl _ hlt

theorem lastEntry_eq_none {children : List Entry} {id : Path}
    (h : ∀ child ∈ children, child.path ≠ id) : TreeState.lastEntry children id = none :=
  List.find?_eq_none.mpr fun child hchild heq =>
    h child (List.mem_reverse.mp hchild) (by simpa using heq)

/-- A node that is not a directory with a listing has no answer. -/
theorem BrowserInv.lastAnswer_eq_none (h : BrowserInv s) {dir : Path}
    (hdir : s.table.tree.nodes.lookup dir = none) : s.lastAnswer dir = none := by
  rcases hanswer : s.lastAnswer dir with _ | children
  · rfl
  · obtain ⟨n, hmem⟩ := lastAnswer_mem hanswer
    exact absurd (h.answered n dir children hmem).2 (AList.lookup_eq_none.mp hdir)

theorem readDirDone_answers {r : Request} {dir : Path} {found : List (Path × Metadata)}
    (hnav : r.nav = s.nav) : (s.readDirDone r dir (some found)).answers =
      s.answers ++ [(r.number, dir, listedChildren dir found)] :=
  if_pos hnav

/-- A current listing. -/
theorem BrowserInv.readDirDone_current (h : BrowserInv s) {r : Request} {dir : Path}
    {found : List (Path × Metadata)} (hr : r ∈ s.requests) (htarget : r.target = some dir)
    (hnav : r.nav = s.nav) (hcurrent : Current s r.number dir (listedChildren dir found)) :
    BrowserInv (s.readDirDone r dir (some found)) where
  wellFormed := h.wellFormed.upsertChildren fun child hchild => depth_lt_of_mem_listedChildren hchild
  shown := SftpTable.shown_refreshDone
  root := h.root
  cdNav := h.cdNav
  numbers := h.numbers_done r.number
  sentBelow := fun r hr => h.sentBelow r (List.mem_of_mem_filter hr)
  sentNav := fun r hr => h.sentNav r (List.mem_of_mem_filter hr)
  sent := fun r hr => h.sent r (List.mem_of_mem_filter hr)
  settled := by
    rw [readDirDone_answers hnav]
    refine h.settled_done hr (List.Subset.refl _) (List.subset_append_left _ _) ?_
    intro _ dir' htarget'
    obtain rfl := Option.some.inj (htarget.symm.trans htarget')
    exact .inr ⟨_, List.mem_append_right _ (List.mem_singleton_self _)⟩
  askedBelow := h.askedBelow
  askedOrdered := h.askedOrdered
  answered := by
    intro n dir' children hanswer
    rw [readDirDone_answers hnav] at hanswer
    rcases List.mem_append.mp hanswer with hanswer | hanswer
    · obtain ⟨hasked, hmem⟩ := h.answered n dir' children hanswer
      exact ⟨hasked, TreeState.mem_upsertChildren dir _ hmem⟩
    · obtain ⟨rfl, rfl, rfl⟩ : n = r.number ∧ dir' = dir ∧ children = listedChildren dir found := by
        simpa using hanswer
      exact ⟨h.sent r hr hnav dir' htarget, TreeState.mem_upsertChildren dir' _ hcurrent.mem⟩
  -- the answer is a later one than all that its directory had
  answersOrdered := by
    rw [readDirDone_answers hnav]
    refine List.pairwise_append.mpr ⟨h.answersOrdered, List.pairwise_singleton _ _, ?_⟩
    rintro ⟨m, dir', children⟩ ha b hb heq
    obtain rfl := List.mem_singleton.mp hb
    obtain rfl : dir' = dir := heq
    exact hcurrent.latest m children ha
  listed := by
    intro id node' hnode'
    have hlast : (s.readDirDone r dir (some found)).lastAnswer id =
        if dir = id then some (listedChildren dir found) else s.lastAnswer id := by
      unfold lastAnswer
      rw [readDirDone_answers hnav, List.find?_reverse_concat]
      by_cases hdir : dir = id <;> simp [hdir]
    have hnodes : (s.table.tree.upsertChildren dir (listedChildren dir found)).nodes.lookup id =
      some node' := hnode'
    -- the directory has what was found as its children, and every other node keeps its own
    rcases TreeState.children_upsertChildren hnodes with ⟨rfl, hchildren⟩ | ⟨hne, hold⟩
    · unfold NodeListed
      rw [hlast, if_pos rfl]
      refine ⟨hchildren, fun c hc => ?_⟩
      obtain ⟨child, hchild, rfl⟩ := List.mem_map.mp (hchildren ▸ hc)
      obtain ⟨last, hlast⟩ : ∃ last,
          TreeState.lastEntry (listedChildren id found) child.path = some last := by
        rw [← Option.isSome_iff_exists]
        unfold TreeState.lastEntry
        rw [List.find?_isSome]
        exact ⟨child, List.mem_reverse.mpr hchild, by simp⟩
      rw [hlast]
      exact (TreeState.entry_upsertChildren id _).trans (by rw [hlast, Option.some_or])
    · rw [if_neg (Ne.symm hne)] at hlast
      -- an entry that was found is no child of another directory, so their entries stay too
      rcases hold with ⟨node, hnode, hchildren⟩ | ⟨hnone, hchildren⟩
      · refine (h.listed id node hnode).congr hlast hchildren fun c hc => ?_
        have hnone : TreeState.lastEntry (listedChildren dir found) c = none :=
          lastEntry_eq_none fun child hchild heq =>
            hcurrent.apart id node hne hnode child hchild (heq ▸ hc)
        exact (TreeState.entry_upsertChildren dir _).trans (by rw [hnone, Option.none_or])
      · unfold NodeListed
        rw [hlast, h.lastAnswer_eq_none hnone]
        exact hchildren
  undisturbed := by
    show (s.disturbed || s.disturbs r _) = false
    have hle := h.cdNav
    have hnot : ¬ r.nav < s.cdNav := by omega
    unfold disturbs
    rw [h.undisturbed, decide_eq_false hnot, Bool.and_false]
    rfl

/-- A listing for an earlier tree that meets no node of this one. -/
theorem BrowserInv.readDirDone_apart (h : BrowserInv s) {r : Request} {dir : Path}
    {found : List (Path × Metadata)} (hr : r ∈ s.requests) (hnav : r.nav ≠ s.nav)
    (hapart : Apart s dir (listedChildren dir found)) :
    BrowserInv (s.readDirDone r dir (some found)) := by
  have hanswers : (s.readDirDone r dir (some found)).answers = s.answers := if_neg hnav
  have hlookup : ∀ id ∈ s.table.tree.nodes,
      (s.table.tree.upsertChildren dir (listedChildren dir found)).nodes.lookup id =
        s.table.tree.nodes.lookup id :=
    fun id hid => TreeState.lookup_upsertChildren_of_mem hapart.dir hapart.children hid
  -- the directory is no node of the tree, and its children do not bring it in
  have hdir : (s.table.tree.upsertChildren dir (listedChildren dir found)).nodes.lookup dir = none := by
    refine AList.lookup_eq_none.mpr fun hmem => ?_
    rcases TreeState.mem_upsertChildren_iff.mp hmem with hmem | ⟨child, hchild⟩
    · exact hapart.dir hmem
    · rw [lastEntry_dir] at hchild
      cases hchild
  -- no node of the tree changes, and neither do the rows
  have hvisible : (s.table.refreshDone dir (some found)).visible = s.table.visible := by
    have hrows := TreeState.visibleRowsSorted_of_agree (s.table.tree.upsertChildren dir
      (listedChildren dir found)) h.wellFormed rfl rfl hlookup s.table.sort
    have hshown : s.table.visible = s.table.shownRows := h.shown
    rw [hshown]
    unfold SftpTable.shownRows
    rw [← hrows]
    rfl
  have hentry : rootEntry (s.table.refreshDone dir (some found)) = rootEntry s.table :=
    congrArg (Option.map Node.entry) (hlookup _ h.wellFormed.root_mem)
  exact
    { wellFormed :=
        h.wellFormed.upsertChildren fun child hchild => depth_lt_of_mem_listedChildren hchild
      shown := SftpTable.shown_refreshDone
      root := h.root
      cdNav := h.cdNav
      numbers := h.numbers_done r.number
      sentBelow := fun r hr => h.sentBelow r (List.mem_of_mem_filter hr)
      sentNav := fun r hr => h.sentNav r (List.mem_of_mem_filter hr)
      sent := fun r hr => h.sent r (List.mem_of_mem_filter hr)
      settled := by
        rw [hanswers]
        exact h.settled_done hr (List.Subset.refl _) (List.Subset.refl _) fun heq => absurd heq hnav
      askedBelow := h.askedBelow
      askedOrdered := h.askedOrdered
      answered := by
        rw [hanswers]
        intro n dir' children hanswer
        obtain ⟨hasked, hmem⟩ := h.answered n dir' children hanswer
        exact ⟨hasked, TreeState.mem_upsertChildren dir _ hmem⟩
      answersOrdered := by
        rw [hanswers]
        exact h.answersOrdered
      listed := by
        intro id node' hnode'
        have hnodes : (s.table.tree.upsertChildren dir (listedChildren dir found)).nodes.lookup id =
          some node' := hnode'
        have hlast : (s.readDirDone r dir (some found)).lastAnswer id = s.lastAnswer id := by
          unfold lastAnswer
          rw [hanswers]
        -- the nodes are those that were there and the found ones, which nobody has asked for
        rcases TreeState.children_upsertChildren hnodes with
          ⟨rfl, -⟩ | ⟨-, ⟨node, hnode, hchildren⟩ | ⟨hnone, hchildren⟩⟩
        · rw [hdir] at hnodes
          cases hnodes
        · refine (h.listed id node hnode).congr hlast hchildren fun c hc => ?_
          exact congrArg _ (hlookup c (h.wellFormed.closed id node hnode c hc))
        · unfold NodeListed
          rw [hlast, h.lastAnswer_eq_none hnone]
          exact hchildren
      undisturbed := by
        show (s.disturbed || s.disturbs r (s.table.refreshDone dir (some found))) = false
        unfold disturbs
        rw [h.undisturbed, hvisible, hentry]
        simp }

/-! ## Runs -/

theorem BrowserInv.toggleDir (h : BrowserInv s) (rowIx : ℕ) : BrowserInv (s.toggleDir rowIx) := by
  have hlocal : BrowserInv { s with table := (s.table.toggleDirLocal rowIx).1 } :=
    h.table (SftpTable.toggleDirLocal_tree rowIx).1 (SftpTable.toggleDirLocal_tree rowIx).2
      (SftpTable.shown_toggleDirLocal h.shown rowIx)
  unfold Browser.toggleDir
  rcases hlocal' : s.table.toggleDirLocal rowIx with ⟨table, _ | dir⟩
  · rw [hlocal'] at hlocal
    exact hlocal
  · rw [hlocal'] at hlocal
    exact hlocal.refreshDir dir

theorem BrowserInv.start : BrowserInv {} where
  wellFormed := .new _
  shown := rfl
  root := nofun
  cdNav := le_rfl
  numbers := .nil
  sentBelow := nofun
  sentNav := nofun
  sent := nofun
  settled := nofun
  askedBelow := nofun
  askedOrdered := .nil
  answered := nofun
  answersOrdered := .nil
  listed := by
    intro dir node hnode
    obtain ⟨-, rfl⟩ := TreeState.lookup_new hnode
    rfl
  undisturbed := rfl

/-- Every timely event keeps the invariant. -/
theorem BrowserInv.step (h : BrowserInv s) {e : Event} {s' : Browser} (htimely : Timely s e)
    (hs : s.step e = some s') : BrowserInv s' := by
  cases e with
  | cd dir =>
    obtain rfl := Option.some.inj hs
    exact h.cd dir
  | refreshDir dir =>
    obtain rfl := Option.some.inj hs
    exact h.refreshDir dir
  | bootstrapRoot =>
    obtain rfl := Option.some.inj hs
    unfold Browser.bootstrapRoot
    split
    · exact h
    · exact h.send_none
  | readDirDone number res =>
    unfold Browser.step at hs
    simp only at hs
    split at hs
    · next n nav dir hrequest =>
      obtain rfl := Option.some.inj hs
      have hmem : (⟨n, nav, some dir⟩ : Request) ∈ s.requests := List.mem_of_find?_eq_some hrequest
      rcases res with _ | found
      · exact h.readDirDone_failed hmem
      · have hwhen := htimely _ dir hrequest rfl
        split at hwhen
        · next hnav => exact h.readDirDone_current hmem rfl hnav hwhen
        · next hnav => exact h.readDirDone_apart hmem hnav hwhen
    · cases hs
  | canonicalizeDone number root =>
    unfold Browser.step at hs
    simp only at hs
    split at hs
    · obtain rfl := Option.some.inj hs
      exact h.canonicalizeDone htimely
    · cases hs
  | setSort col =>
    obtain rfl := Option.some.inj hs
    exact h.table rfl rfl (SftpTable.shown_rebuildVisible _)
  | toggleHidden =>
    obtain rfl := Option.some.inj hs
    exact h.table rfl rfl (SftpTable.shown_rebuildVisible _)
  | toggleDir rowIx =>
    obtain rfl := Option.some.inj hs
    exact h.toggleDir rowIx
  | disconnect =>
    obtain rfl := Option.some.inj hs
    exact h.table rfl rfl h.shown

/-- Once nothing is in flight after a run whose completions were timely, the table shows the listings
that were asked for last in the directory of the last `cd`. -/
theorem fresh_run {es : List Event} (h : Run (Guarded (ofPartial Browser.step) Timely) {} es s)
    (hquiet : s.requests = []) : Fresh s := by
  have hinv : BrowserInv s := by
    refine h.invariant .start fun _ _ _ _ _ hb hs => ?_
    exact hb.step hs.1 hs.2
  exact hinv.fresh hquiet

/-- A listing is current where what is in the tree and what was answered says so. -/
theorem Current.of_entries {n : ℕ} {dir : Path} {children : List Entry}
    (hmem : dir ∈ s.table.tree.nodes) (hlatest : ∀ answer ∈ s.answers, answer.2.1 = dir → answer.1 < n)
    (hapart : ∀ entry ∈ s.table.tree.nodes.entries, entry.1 ≠ dir →
      ∀ child ∈ children, child.path ∉ entry.2.children) : Current s n dir children where
  mem := hmem
  latest := fun m found hanswer => hlatest (m, dir, found) hanswer rfl
  apart := fun dir' node hne hnode => hapart ⟨dir', node⟩ (AList.mem_lookup_iff.mp hnode) hne

/-- Two directories one after the other, the second refreshed once more; the listing of the first comes when
its tree is gone, between those of the second. -/
def listedRun : List Event :=
  [.cd "/a".toList, .cd "/b".toList, .refreshDir "/b".toList,
    .readDirDone 1 (some [("/b/x".toList, { ty := .file })]),
    .readDirDone 0 (some [("/a/y".toList, { ty := .file })]),
    .readDirDone 2 (some [("/b/x".toList, { ty := .file }), ("/b/z".toList, { ty := .dir })])]

theorem fresh_run_listed : ∃ s, Run (Guarded (ofPartial Browser.step) Timely) {} listedRun s ∧
    s.requests = [] ∧ Fresh s ∧ s.lastAsked "/b".toList = some 2 := by
  let s₀ : Browser := ((Browser.cd {} "/a".toList).cd "/b".toList).refreshDir "/b".toList
  let s₁ := s₀.readDirDone ⟨1, 2, some "/b".toList⟩ "/b".toList
    (some [("/b/x".toList, { ty := .file })])
  let s₂ := s₁.readDirDone ⟨0, 1, some "/a".toList⟩ "/a".toList
    (some [("/a/y".toList, { ty := .file })])
  have htimely₁ : Timely s₀ (.readDirDone 1 (some [("/b/x".toList, { ty := .file })])) := by
    intro r dir hrequest htarget
    obtain rfl : (⟨1, 2, some "/b".toList⟩ : Request) = r := Option.some.inj hrequest
    obtain rfl : "/b".toList = dir := Option.some.inj htarget
    exact Current.of_entries (by decide +kernel) (by decide +kernel) (by decide +kernel)
  have htimely₀ : Timely s₁ (.readDirDone 0 (some [("/a/y".toList, { ty := .file })])) := by
    intro r dir hrequest htarget
    obtain rfl : (⟨0, 1, some "/a".toList⟩ : Request) = r := Option.some.inj hrequest
    obtain rfl : "/a".toList = dir := Option.some.inj htarget
    exact ⟨by decide +kernel, by decide +kernel⟩
  have htimely₂ : Timely s₂ (.readDirDone 2
      (some [("/b/x".toList, { ty := .file }), ("/b/z".toList, { ty := .dir })])) := by
    intro r dir hrequest htarget
    obtain rfl : (⟨2, 2, some "/b".toList⟩ : Request) = r := Option.some.inj hrequest
    obtain rfl : "/b".toList = dir := Option.some.inj htarget
    exact Current.of_entries (by decide +kernel) (by decide +kernel) (by decide +kernel)
  have hstart : Run (Guarded (ofPartial Browser.step) Timely) {}
      [.cd "/a".toList, .cd "/b".toList, .refreshDir "/b".toList] s₀ :=
    .next (.next (.next .start ⟨trivial, rfl⟩) ⟨trivial, rfl⟩) ⟨trivial, rfl⟩
  have hrun : Run (Guarded (ofPartial Browser.step) Timely) {} listedRun _ :=
    .next (.next (.next hstart ⟨htimely₁, rfl⟩) ⟨htimely₀, rfl⟩) ⟨htimely₂, rfl⟩
  exact ⟨_, hrun, rfl, fresh_run hrun rfl, rfl⟩

/-- The start directory is known after a `cd`. -/
def lateStart : List Event :=
  [.bootstrapRoot, .cd "/var".toList, .readDirDone 1 (some []),
    .canonicalizeDone 0 (some "/home/u".toList), .readDirDone 2 (some [])]

/-- The start directory takes the place of the directory of the last `cd`. -/
theorem not_fresh_lateStart : ∃ s, Run (ofPartial Browser.step) {} lateStart s ∧ s.requests = [] ∧
    ¬ Fresh s := by
  obtain ⟨s, hrun, hs⟩ := exists_run_of_any {} lateStart (f := Browser.step)
    (p := fun s => s.requests.isEmpty && decide (s.lastCd = some "/var".toList) &&
      decide (s.table.tree.root ≠ "/var".toList)) (by decide)
  simp only [Bool.and_eq_true, decide_eq_true_eq, List.isEmpty_iff] at hs
  obtain ⟨⟨hquiet, hcd⟩, hroot⟩ := hs
  exact ⟨s, hrun, hquiet, fun h => hroot (h.root _ hcd)⟩

end Browser

end Termua.Sftp
