import Mathlib
import Termua.Lib.Run
import Termua.Sftp.Table

/-!
# Browsing remote directories

The table with its requests in flight. A completion finds its request by number and writes into the
tree that is there by then; nothing in the table tells it whether the tree is the one that the request
was made for. Beside the state stands what the requests were since the tree was set: `nav` counts how
often it was, `asked`, `answers` and `failures` hold the refreshes since then, the listings they
returned and those that failed, and `disturbed` says that a request from before the last `cd` has
changed the root's entry or a row.
-/

namespace Termua.Sftp

open Transition

/-- A request in flight: to read a directory, or for the canonical path of the start directory. -/
structure Request where
  number : ℕ
  nav : ℕ
  target : Option Path

/-- The table, its requests, and their history. -/
structure Browser where
  table : SftpTable := .new
  requests : List Request := []
  issued : ℕ := 0
  nav : ℕ := 0
  lastCd : Option Path := none
  cdNav : ℕ := 0
  asked : List (ℕ × Path) := []
  answers : List (ℕ × Path × List Entry) := []
  failures : List ℕ := []
  disturbed : Bool := false

namespace Browser

/-- The entry of the root. -/
def rootEntry (d : SftpTable) : Option Entry := (d.tree.nodes.lookup d.tree.root).map Node.entry

/-- A request from before the last `cd` has changed what is shown. -/
def disturbs (s : Browser) (r : Request) (after : SftpTable) : Bool :=
  s.lastCd.isSome && decide (r.nav < s.cdNav) &&
    decide (rootEntry after ≠ rootEntry s.table ∨ after.visible ≠ s.table.visible)

/-- A request that is sent. -/
def send (s : Browser) (target : Option Path) : Browser :=
  { s with requests := s.requests ++ [⟨s.issued, s.nav, target⟩], issued := s.issued + 1 }

/-- `refresh_dir`. -/
def refreshDir (s : Browser) (dir : Path) : Browser :=
  if !s.table.sftp then s
  else
    { s with table := s.table.refreshStart dir, asked := s.asked ++ [(s.issued, dir)] }.send
      (some dir)

/-- The tree is set. -/
def setTree (s : Browser) (table : SftpTable) : Browser :=
  { s with table, nav := s.nav + 1, asked := [], answers := [], failures := [] }

/-- `cd`. -/
def cd (s : Browser) (dir : Path) : Browser :=
  if !s.table.sftp then s
  else
    { s.setTree (s.table.cdStart dir) with
      lastCd := some dir
      cdNav := s.nav + 1
      disturbed := false }.refreshDir dir

/-- `bootstrap_root`. -/
def bootstrapRoot (s : Browser) : Browser := if !s.table.sftp then s else s.send none

/-- The completion of a request to read a directory. -/
def readDirDone (s : Browser) (r : Request) (dir : Path) (res : Option (List (Path × Metadata))) :
    Browser :=
  { s with
    table := s.table.refreshDone dir res
    requests := s.requests.filter (·.number ≠ r.number)
    answers :=
      match res with
      | some found =>
        if r.nav = s.nav then s.answers ++ [(r.number, dir, listedChildren dir found)] else s.answers
      | none => s.answers
    failures := if res.isNone ∧ r.nav = s.nav then r.number :: s.failures else s.failures
    disturbed := s.disturbed || s.disturbs r (s.table.refreshDone dir res) }

/-- The completion of a request for the canonical start directory. -/
def canonicalizeDone (s : Browser) (r : Request) (root : Option Path) : Browser :=
  { s.setTree (s.table.bootstrapDone root) with
    requests := s.requests.filter (·.number ≠ r.number)
    disturbed := s.disturbed || s.disturbs r (s.table.bootstrapDone root) }.refreshDir
      (root.getD ['.'])

/-- `toggle_dir`. -/
def toggleDir (s : Browser) (rowIx : ℕ) : Browser :=
  match s.table.toggleDirLocal rowIx with
  | (table, some dir) => { s with table }.refreshDir dir
  | (table, none) => { s with table }

/-- What the user and the server do. -/
inductive Event
  | cd (dir : Path)
  | refreshDir (dir : Path)
  | bootstrapRoot
  | readDirDone (number : ℕ) (res : Option (List (Path × Metadata)))
  | canonicalizeDone (number : ℕ) (root : Option Path)
  | setSort (col : SortColumn)
  | toggleHidden
  | toggleDir (rowIx : ℕ)
  | disconnect

/-- The request in flight with a number. -/
def request (s : Browser) (number : ℕ) : Option Request :=
  s.requests.find? (·.number = number)

/-- One event; a completion needs its request in flight. -/
def step (s : Browser) : Event → Option Browser
  | .cd dir => some (s.cd dir)
  | .refreshDir dir => some (s.refreshDir dir)
  | .bootstrapRoot => some s.bootstrapRoot
  | .readDirDone number res =>
    match s.request number with
    | some ⟨n, nav, some dir⟩ => some (s.readDirDone ⟨n, nav, some dir⟩ dir res)
    | _ => none
  | .canonicalizeDone number root =>
    match s.request number with
    | some ⟨n, nav, none⟩ => some (s.canonicalizeDone ⟨n, nav, none⟩ root)
    | _ => none
  | .setSort col => some { s with table := s.table.setSort col }
  | .toggleHidden => some { s with table := s.table.toggleHidden }
  | .toggleDir rowIx => some (s.toggleDir rowIx)
  | .disconnect => some { s with table := s.table.disconnect }

/-! ## What a quiet browser shows -/

/-- The refresh of a directory that was sent last since the tree was set. -/
def lastAsked (s : Browser) (dir : Path) : Option ℕ :=
  (s.asked.reverse.find? (·.2 = dir)).map Prod.fst

/-- The children of a node are those of a listing. -/
def ChildrenAre (t : TreeState) (node : Node) (children : List Entry) : Prop :=
  node.children = children.map Entry.path ∧
    ∀ id ∈ node.children, (t.nodes.lookup id).map Node.entry = TreeState.lastEntry children id

/-- The tree is that of the last `cd`, every directory of it holds what the refresh of it that was
sent last returned, unless that one failed, and no request from before the `cd` has changed what is
shown. -/
structure Fresh (s : Browser) : Prop where
  root : ∀ dir, s.lastCd = some dir → s.table.tree.root = dir
  listed : ∀ dir node n, s.table.tree.nodes.lookup dir = some node → s.lastAsked dir = some n →
    n ∈ s.failures ∨
      ∃ children, (n, dir, children) ∈ s.answers ∧ ChildrenAre s.table.tree node children
  unasked : ∀ dir node, s.table.tree.nodes.lookup dir = some node → s.lastAsked dir = none →
    node.children = []
  undisturbed : s.disturbed = false

/-- The listing of a directory is for the tree that is there, and later than those that it has. -/
structure Current (s : Browser) (n : ℕ) (dir : Path) (children : List Entry) : Prop where
  mem : dir ∈ s.table.tree.nodes
  latest : ∀ m found, (m, dir, found) ∈ s.answers → m < n
  apart : ∀ dir' node, dir' ≠ dir → s.table.tree.nodes.lookup dir' = some node →
    ∀ child ∈ children, child.path ∉ node.children

/-- The listing of a directory meets no node of the tree that is there. -/
structure Apart (s : Browser) (dir : Path) (children : List Entry) : Prop where
  dir : dir ∉ s.table.tree.nodes
  children : ∀ child ∈ children, child.path ∉ s.table.tree.nodes

/-- The condition on a step: a listing that was asked for since the tree was set is current, one that
was asked for before meets no node, and the start directory does not come after a `cd`. -/
def Timely (s : Browser) : Event → Prop
  | .readDirDone number (some found) =>
    ∀ r dir, s.request number = some r → r.target = some dir →
      if r.nav = s.nav then Current s r.number dir (listedChildren dir found)
      else Apart s dir (listedChildren dir found)
  | .canonicalizeDone .. => s.lastCd = none
  | _ => True

end Browser

end Termua.Sftp
