import Mathlib
import Termua.Lib.Clamp
import Termua.Lib.Run

/-!
# The viewport over the scrollback

`compute_viewport_plan` of `gpui_term/src/backends/wezterm/mod.rs` and the scrolling of that backend.
A row has a physical index, which shifts when the scrollback drops its oldest rows, and a stable one,
which does not. The viewport is pinned to the stable index of its top row, or it follows the live view
at the bottom. The screen of the terminal library is a parameter; `Screen.Lawful` says what the
backend relies on.
-/

namespace Termua.Scroll

open Transition (Run)

/-- What the backend asks a `Screen` of the terminal library, with lines of any kind. -/
structure Screen (Line : Type*) where
  physicalRows : ℕ
  physicalCols : ℕ
  scrollbackRows : ℕ
  physToStableRowIndex : ℕ → ℤ
  physRow : ℕ → ℕ
  stableRange : ℤ × ℤ → ℕ × ℕ
  linesInPhysRange : ℕ × ℕ → List Line

/-- `ViewportPlan`. -/
structure ViewportPlan where
  cols : ℕ
  rows : ℕ
  topStable : ℤ
  baseStable : ℤ
  viewportTopStable : ℤ
  normalizedTopStable : Option ℤ
  displayOffset : ℕ
  physRange : ℕ × ℕ
  scrolledToTop : Bool

variable {Line : Type*}

namespace Screen

/-- The stable index of the topmost row that the scrollback still has. -/
def topStable (screen : Screen Line) : ℤ := screen.physToStableRowIndex 0

/-- The stable index of the first row of the live view. -/
def baseStable (screen : Screen Line) : ℤ := screen.physToStableRowIndex (screen.physRow 0)

/-- How the terminal library addresses its rows: the live view is at the bottom, stable indices count
on from that of the topmost row, and a range of rows that are there is found by subtraction. -/
structure Lawful (screen : Screen Line) : Prop where
  topStable_nonneg : 0 ≤ screen.topStable
  rows_pos : 0 < screen.physicalRows
  live : screen.physRow 0 + screen.physicalRows = screen.scrollbackRows
  physToStable : ∀ row, screen.physToStableRowIndex row = screen.topStable + row
  stableRange : ∀ first last : ℕ, first < last → last ≤ screen.scrollbackRows →
    screen.stableRange (screen.topStable + first, screen.topStable + last) = (first, last)

/-- A row has scrolled out of the live view and is not dropped yet. -/
def InScrollback (screen : Screen Line) (row : ℤ) : Prop :=
  screen.topStable ≤ row ∧ row < screen.baseStable

theorem Lawful.baseStable {screen : Screen Line} (h : screen.Lawful) :
    screen.baseStable = screen.topStable + screen.physRow 0 := h.physToStable _

theorem Lawful.top_le_base {screen : Screen Line} (h : screen.Lawful) :
    screen.topStable ≤ screen.baseStable := by
  rw [h.baseStable]
  omega

/-- A screen of `rows` rows at the bottom of `total` ones, the topmost with the stable index `top`;
its lines are their stable indices. -/
def ring (rows total top : ℕ) : Screen ℤ where
  physicalRows := rows
  physicalCols := 80
  scrollbackRows := total
  physToStableRowIndex row := top + row
  physRow row := total - rows + row
  stableRange range := ((range.1 - top).toNat, (range.2 - top).toNat)
  linesInPhysRange range := (List.range' range.1 (range.2 - range.1)).map (top + ↑·)

theorem lawful_ring (rows total top : ℕ) (hrows : 0 < rows) (hle : rows ≤ total) :
    (ring rows total top).Lawful where
  topStable_nonneg := Int.natCast_nonneg _
  rows_pos := hrows
  live := Nat.sub_add_cancel hle
  physToStable row := by
    show (top : ℤ) + row = top + (0 : ℕ) + row
    rw [Nat.cast_zero, add_zero]
  stableRange first last _ _ := by
    show (((top : ℤ) + (0 : ℕ) + first - top).toNat, ((top : ℤ) + (0 : ℕ) + last - top).toNat) = _
    rw [Prod.mk.injEq]
    omega

end Screen

/-- `compute_viewport_plan`. -/
def computeViewportPlan (screen : Screen Line) (requestedTop : Option ℤ) : ViewportPlan :=
  let cols := max screen.physicalCols 1
  let rows := max screen.physicalRows 1
  let topStable := screen.physToStableRowIndex 0
  let basePhys := screen.physRow 0
  let baseStable := screen.physToStableRowIndex basePhys
  let viewportTopStable := requestedTop.getD baseStable
  let viewportTopStable := if viewportTopStable < topStable then topStable else viewportTopStable
  let viewportTopStable := if baseStable ≤ viewportTopStable then baseStable else viewportTopStable
  { cols
    rows
    topStable
    baseStable
    viewportTopStable
    normalizedTopStable :=
      if baseStable ≤ viewportTopStable then none else some viewportTopStable
    displayOffset := (baseStable - viewportTopStable).toNat
    physRange := screen.stableRange (viewportTopStable, viewportTopStable + rows)
    scrolledToTop := decide (viewportTopStable = topStable) }

/-- A plan lies in the scrollback, its offset is the distance to the live view, it normalizes to none
exactly when it follows the live view, and what it normalizes to has the same plan. -/
structure Screen.Plans (screen : Screen Line) (plan : ViewportPlan) : Prop where
  top_le : screen.topStable ≤ plan.viewportTopStable
  le_base : plan.viewportTopStable ≤ screen.baseStable
  displayOffset : (plan.displayOffset : ℤ) = screen.baseStable - plan.viewportTopStable
  follows : plan.normalizedTopStable = none ↔ plan.viewportTopStable = screen.baseStable
  replan : computeViewportPlan screen plan.normalizedTopStable = plan

/-- The part of `WezTermBackend` that scrolls. `pendingOps` has the deltas of the queued scroll
operations, `numLines` is the height of the content. -/
structure WezTermBackend (Line : Type*) where
  screen : Screen Line
  viewportTopStable : Option ℤ := none
  pendingOps : List ℤ := []
  numLines : ℕ

namespace WezTermBackend

/-- `compute_viewport_plan` of the backend. -/
def plan (b : WezTermBackend Line) : ViewportPlan := computeViewportPlan b.screen b.viewportTopStable

/-- `queue_scroll_delta`. -/
def queueScrollDelta (b : WezTermBackend Line) (delta : ℤ) : WezTermBackend Line :=
  if delta = 0 then b
  else
    match b.pendingOps.getLast? with
    | some prev => { b with pendingOps := b.pendingOps.dropLast ++ [prev + delta] }
    | none => { b with pendingOps := b.pendingOps ++ [delta] }

/-- `sync` at a `TermOp::Scroll`. -/
def applyScroll (b : WezTermBackend Line) (delta : ℤ) : WezTermBackend Line :=
  let plan := b.plan
  let top := plan.viewportTopStable
  let top := if 0 < delta then top - delta else top + (-delta)
  let top := if top < plan.topStable then plan.topStable else top
  { b with viewportTopStable := if plan.baseStable ≤ top then none else some top }

/-- The part of `snapshot` that keeps the position. -/
def snapshot (b : WezTermBackend Line) : WezTermBackend Line :=
  { b with viewportTopStable := b.plan.normalizedTopStable }

/-- `sync`. -/
def sync (b : WezTermBackend Line) : WezTermBackend Line :=
  (b.pendingOps.foldl applyScroll { b with pendingOps := [] }).snapshot

/-- The stable indices of the rows that are shown. -/
def shownRows (b : WezTermBackend Line) : List ℤ :=
  (List.range' b.plan.physRange.1 (b.plan.physRange.2 - b.plan.physRange.1)).map
    b.screen.physToStableRowIndex

/-- What happens to the backend: a scroll by a delta is queued, output leads to another screen of the
same size, and a sync carries out what is queued. -/
inductive Event (Line : Type*)
  | scroll (delta : ℤ)
  | output (screen : Screen Line)
  | sync

/-- A step of the backend. -/
inductive Step : WezTermBackend Line → Event Line → WezTermBackend Line → Prop
  | scroll (b : WezTermBackend Line) (delta : ℤ) : Step b (.scroll delta) (b.queueScrollDelta delta)
  | output {b : WezTermBackend Line} {screen : Screen Line} (hlawful : screen.Lawful)
      (hrows : screen.physicalRows = b.screen.physicalRows)
      (hcols : screen.physicalCols = b.screen.physicalCols) :
      Step b (.output screen) { b with screen }
  | sync (b : WezTermBackend Line) : Step b .sync b.sync

/-- The viewport is pinned to a row of the scrollback, and no scroll is queued. -/
structure Pinned (b : WezTermBackend Line) (row : ℤ) : Prop where
  lawful : b.screen.Lawful
  top : b.viewportTopStable = some row
  inScrollback : b.screen.InScrollback row
  idle : b.pendingOps = []

/-- The event scrolls nothing and leaves the row in the scrollback. -/
def Event.Keeps (row : ℤ) : Event Line → Prop
  | .scroll _ => False
  | .output screen => screen.InScrollback row
  | .sync => True

end WezTermBackend

/-! ## The plan -/

section Plan

variable {screen : Screen Line} {requested : Option ℤ} {row : ℤ}

/-- The top of the viewport is the requested row, clamped to the scrollback. -/
theorem viewportTopStable_plan (h : screen.topStable ≤ screen.baseStable) :
    (computeViewportPlan screen requested).viewportTopStable =
      min screen.baseStable (max screen.topStable (requested.getD screen.baseStable)) := by
  unfold Screen.topStable Screen.baseStable at h ⊢
  unfold computeViewportPlan
  simp only
  split_ifs <;> omega

theorem viewportTopStable_plan_mem (h : screen.topStable ≤ screen.baseStable) :
    screen.topStable ≤ (computeViewportPlan screen requested).viewportTopStable ∧
      (computeViewportPlan screen requested).viewportTopStable ≤ screen.baseStable := by
  rw [viewportTopStable_plan h]
  exact ⟨le_min h (le_max_left _ _), min_le_left _ _⟩

theorem displayOffset_plan (h : screen.topStable ≤ screen.baseStable) :
    ((computeViewportPlan screen requested).displayOffset : ℤ) =
      screen.baseStable - (computeViewportPlan screen requested).viewportTopStable :=
  Int.toNat_of_nonneg (Int.sub_nonneg.mpr (viewportTopStable_plan_mem h).2)

theorem normalizedTopStable_plan :
    (computeViewportPlan screen requested).normalizedTopStable =
      if screen.baseStable ≤ (computeViewportPlan screen requested).viewportTopStable then none
      else some (computeViewportPlan screen requested).viewportTopStable := rfl

theorem normalizedTopStable_plan_eq_none_iff (h : screen.topStable ≤ screen.baseStable) :
    (computeViewportPlan screen requested).normalizedTopStable = none ↔
      (computeViewportPlan screen requested).viewportTopStable = screen.baseStable := by
  have hle : (computeViewportPlan screen requested).viewportTopStable ≤ screen.baseStable :=
    (viewportTopStable_plan_mem h).2
  rw [normalizedTopStable_plan]
  split
  · next hbase => exact iff_of_true rfl (hle.antisymm hbase)
  · next hbase => exact iff_of_false nofun fun heq => hbase heq.ge

/-- Two requests with the same top of the viewport have the same plan. -/
theorem plan_congr {requested' : Option ℤ}
    (h : (computeViewportPlan screen requested).viewportTopStable =
      (computeViewportPlan screen requested').viewportTopStable) :
    computeViewportPlan screen requested = computeViewportPlan screen requested' := by
  unfold computeViewportPlan at h ⊢
  simp only at h ⊢
  rw [h]

/-- What a plan normalizes to has the same plan. -/
theorem plan_normalized (h : screen.topStable ≤ screen.baseStable) :
    computeViewportPlan screen (computeViewportPlan screen requested).normalizedTopStable =
      computeViewportPlan screen requested := by
  obtain ⟨htop, hbase⟩ := @viewportTopStable_plan_mem _ screen requested h
  refine plan_congr ?_
  rw [viewportTopStable_plan h, normalizedTopStable_plan]
  split
  · next hge =>
    rw [Option.getD_none, max_eq_right h, min_self]
    exact hbase.antisymm' hge
  · rw [Option.getD_some, max_eq_right htop, min_eq_right hbase]

/-- A row of the scrollback is shown at the top of the viewport that is pinned to it. -/
theorem viewportTopStable_plan_some (h : screen.InScrollback row) :
    (computeViewportPlan screen (some row)).viewportTopStable = row := by
  rw [viewportTopStable_plan (h.1.trans h.2.le), Option.getD_some, max_eq_right h.1,
    min_eq_right h.2.le]

theorem normalizedTopStable_plan_some (h : screen.InScrollback row) :
    (computeViewportPlan screen (some row)).normalizedTopStable = some row := by
  rw [normalizedTopStable_plan, viewportTopStable_plan_some h, if_neg (Int.not_le.mpr h.2)]

end Plan

namespace WezTermBackend

variable {b b' : WezTermBackend Line} {row : ℤ} {e : Event Line} {es : List (Event Line)}

/-! ## What a scroll leaves alone -/

@[simp]
theorem screen_queueScrollDelta (b : WezTermBackend Line) (delta : ℤ) :
    (b.queueScrollDelta delta).screen = b.screen := by
  unfold queueScrollDelta
  split
  · rfl
  · split <;> rfl

@[simp]
theorem screen_foldl_applyScroll (b : WezTermBackend Line) (deltas : List ℤ) :
    (deltas.foldl applyScroll b).screen = b.screen := by
  induction deltas generalizing b with
  | nil => rfl
  | cons delta deltas ih => exact ih _

@[simp]
theorem numLines_foldl_applyScroll (b : WezTermBackend Line) (deltas : List ℤ) :
    (deltas.foldl applyScroll b).numLines = b.numLines := by
  induction deltas generalizing b with
  | nil => rfl
  | cons delta deltas ih => exact ih _

@[simp]
theorem pendingOps_foldl_applyScroll (b : WezTermBackend Line) (deltas : List ℤ) :
    (deltas.foldl applyScroll b).pendingOps = b.pendingOps := by
  induction deltas generalizing b with
  | nil => rfl
  | cons delta deltas ih => exact ih _

@[simp]
theorem screen_sync (b : WezTermBackend Line) : b.sync.screen = b.screen :=
  screen_foldl_applyScroll _ _

@[simp]
theorem numLines_sync (b : WezTermBackend Line) : b.sync.numLines = b.numLines :=
  numLines_foldl_applyScroll _ _

@[simp]
theorem pendingOps_sync (b : WezTermBackend Line) : b.sync.pendingOps = [] :=
  pendingOps_foldl_applyScroll _ _

/-! ## What is shown -/

/-- The rows that are shown stand below one another from the top of the viewport. -/
theorem shownRows_eq (h : b.screen.Lawful) :
    b.shownRows = (List.range b.screen.physicalRows).map (b.plan.viewportTopStable + ↑·) := by
  obtain ⟨htop, hbase⟩ : b.screen.topStable ≤ b.plan.viewportTopStable ∧
    b.plan.viewportTopStable ≤ b.screen.baseStable := viewportTopStable_plan_mem h.top_le_base
  obtain ⟨first, hfirst⟩ := Int.le.dest htop
  have hrows := h.rows_pos
  have hrange : b.plan.physRange = (first, first + b.screen.physicalRows) := by
    have hlive := h.live
    have hbaseStable := h.baseStable
    have heq : b.plan.physRange = b.screen.stableRange
      (b.plan.viewportTopStable, b.plan.viewportTopStable + (max b.screen.physicalRows 1 : ℕ)) := rfl
    rw [heq, max_eq_left hrows, ← hfirst, add_assoc, ← Nat.cast_add]
    exact h.stableRange _ _ (by omega) (by omega)
  unfold shownRows
  rw [hrange, Nat.add_sub_cancel_left, List.range'_eq_map_range, List.map_map]
  refine List.map_congr_left fun i _ => ?_
  show b.screen.physToStableRowIndex (first + i) = b.plan.viewportTopStable + i
  rw [h.physToStable, Nat.cast_add, ← add_assoc, hfirst]

/-! ## A pinned viewport -/

theorem Pinned.viewportTopStable_plan (h : b.Pinned row) : b.plan.viewportTopStable = row := by
  unfold plan
  rw [h.top]
  exact viewportTopStable_plan_some h.inScrollback

/-- A sync without a queued scroll leaves the viewport pinned. -/
theorem Pinned.sync (h : b.Pinned row) : b.sync = b := by
  have hnormalized : b.plan.normalizedTopStable = b.viewportTopStable := by
    unfold plan
    rw [h.top]
    exact normalizedTopStable_plan_some h.inScrollback
  obtain ⟨screen, top, pendingOps, numLines⟩ := b
  obtain rfl : pendingOps = [] := h.idle
  exact congrArg (WezTermBackend.mk screen · [] numLines) hnormalized

/-- A step that keeps the row in the scrollback keeps the viewport pinned to it. -/
theorem Pinned.step (h : b.Pinned row) (hkeeps : e.Keeps row) (hs : Step b e b') :
    b'.Pinned row ∧ b'.screen.physicalRows = b.screen.physicalRows := by
  cases hs with
  | scroll => exact hkeeps.elim
  | output hlawful hrows => exact ⟨⟨hlawful, h.top, hkeeps, h.idle⟩, hrows⟩
  | sync => exact h.sync.symm ▸ ⟨h, rfl⟩

theorem Pinned.run (h : b.Pinned row) (hkeeps : ∀ e ∈ es, e.Keeps row) (hrun : Run Step b es b') :
    b'.Pinned row ∧ b'.screen.physicalRows = b.screen.physicalRows := by
  induction hrun with
  | start => exact ⟨h, rfl⟩
  | next _ hs ih =>
    obtain ⟨hpinned, hrows⟩ := ih fun e he => hkeeps e (List.mem_append_left _ he)
    obtain ⟨hpinned', hrows'⟩ :=
      hpinned.step (hkeeps _ (List.mem_append_right _ (List.mem_singleton_self _))) hs
    exact ⟨hpinned', hrows'.trans hrows⟩

theorem lawful_of_run (h : b.screen.Lawful) (hrun : Run Step b es b') : b'.screen.Lawful := by
  refine hrun.invariant (I := fun b => b.screen.Lawful) h fun _ _ _ _ _ hlawful hs => ?_
  cases hs with
  | scroll => rwa [screen_queueScrollDelta]
  | output hlawful' => exact hlawful'
  | sync => rwa [screen_sync]

/-- The plan of every screen is sound, and after any run a viewport that is pinned to a row shows the
same rows until the row leaves the scrollback. -/
theorem viewport_plan (screen : Screen Line) (requested : Option ℤ)
    (h : screen.topStable ≤ screen.baseStable) :
    screen.Plans (computeViewportPlan screen requested) ∧
    ∀ (b b' b'' : WezTermBackend Line) (es fs : List (Event Line)) (row : ℤ), b.screen.Lawful →
      Run Step b es b' → b'.viewportTopStable = some row → b'.screen.InScrollback row →
      b'.pendingOps = [] → (∀ e ∈ fs, e.Keeps row) → Run Step b' fs b'' →
      b''.viewportTopStable = some row ∧ b''.shownRows = b'.shownRows := by
  obtain ⟨htop, hbase⟩ := @viewportTopStable_plan_mem _ screen requested h
  refine ⟨⟨htop, hbase, displayOffset_plan h, normalizedTopStable_plan_eq_none_iff h,
    plan_normalized h⟩, ?_⟩
  intro b b' b'' es fs row hlawful hrun htop hin hidle hkeeps hrun'
  have hlawful' := lawful_of_run hlawful hrun
  have hpinned : b'.Pinned row := ⟨hlawful', htop, hin, hidle⟩
  obtain ⟨hpinned', hrows⟩ := hpinned.run hkeeps hrun'
  refine ⟨hpinned'.top, ?_⟩
  rw [shownRows_eq hlawful', shownRows_eq hpinned'.lawful, hpinned.viewportTopStable_plan,
    hpinned'.viewportTopStable_plan, hrows]

/-- Two rows up from the live view. -/
def scrolledUp : WezTermBackend ℤ where
  screen := .ring 3 8 40
  viewportTopStable := some 43
  numLines := 3

theorem viewport_plan_ring :
    (Screen.ring 3 8 40).Plans (computeViewportPlan (.ring 3 8 40) (some 43)) ∧
      ∃ b'', Run Step scrolledUp [.output (.ring 3 8 43), .sync] b'' ∧
        b''.viewportTopStable = some 43 ∧ b''.shownRows = [43, 44, 45] := by
  obtain ⟨hplans, hrun⟩ := viewport_plan (.ring 3 8 40) (some 43) (by decide)
  have hstep := (Run.start.next (.output (Screen.lawful_ring 3 8 43 (by decide) (by decide)) rfl rfl) :
    Run Step scrolledUp [.output (.ring 3 8 43)] _).next (.sync _)
  refine ⟨hplans, _, hstep, ?_⟩
  have hrows : scrolledUp.shownRows = [43, 44, 45] := by decide
  rw [← hrows]
  refine hrun scrolledUp scrolledUp _ [] _ 43 (Screen.lawful_ring 3 8 40 (by decide) (by decide))
    .start rfl ⟨by decide, by decide⟩ rfl ?_ hstep
  rintro e (_ | ⟨_, _ | ⟨_, ⟨⟩⟩⟩)
  · exact ⟨by decide, by decide⟩
  · trivial

end WezTermBackend

end Termua.Scroll
