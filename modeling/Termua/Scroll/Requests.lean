import Mathlib
import Termua.Scroll.Viewport

/-!
# Scroll requests between two syncs

Both backends of `gpui_term/src/backends` queue the scrolls by lines and carry them out at the next
sync. Lines that are queued behind lines are added to them, so they are clamped to the scrollback only
once; in the WezTerm backend a jump to an end of the scrollback acts at once, before what is queued.
The viewport is the one that the requests lead to one at a time as long as neither shows
(`compose_iff`).
-/

namespace Termua.Scroll

open Clamp (clamp Additive)

/-- The scroll requests of `TerminalBackend`. -/
inductive Request
  | scrollLineUp
  | scrollUpBy (lines : ℕ)
  | scrollLineDown
  | scrollDownBy (lines : ℕ)
  | scrollPageUp
  | scrollPageDown
  | scrollToTop
  | scrollToBottom
  deriving DecidableEq

/-! ## The backend of alacritty -/

/-- `Scroll` of the alacritty grid. -/
inductive AlacScroll
  | delta (count : ℤ)
  | pageUp
  | pageDown
  | top
  | bottom
  deriving DecidableEq

/-- What scrolling reads of an alacritty `Grid`. -/
structure Grid where
  displayOffset : ℕ
  historySize : ℕ
  lines : ℕ
  displayOffset_le : displayOffset ≤ historySize
  deriving DecidableEq

/-- The offset that `Grid::scroll_display` sets. -/
def Grid.scrolledOffset (g : Grid) : AlacScroll → ℕ
  | .delta count => min (max ((g.displayOffset : ℤ) + count) 0).toNat g.historySize
  | .pageUp => min (g.displayOffset + g.lines) g.historySize
  | .pageDown => g.displayOffset - g.lines
  | .top => g.historySize
  | .bottom => 0

theorem Grid.scrolledOffset_le (g : Grid) (scroll : AlacScroll) :
    g.scrolledOffset scroll ≤ g.historySize := by
  cases scroll with
  | delta count => exact min_le_right _ _
  | pageUp => exact min_le_right _ _
  | pageDown => exact (Nat.sub_le _ _).trans g.displayOffset_le
  | top => exact le_rfl
  | bottom => exact Nat.zero_le _

/-- `Grid::scroll_display`. -/
def Grid.scrollDisplay (g : Grid) (scroll : AlacScroll) : Grid :=
  { g with
    displayOffset := g.scrolledOffset scroll
    displayOffset_le := g.scrolledOffset_le scroll }

/-- The part of `AlacrittyBackend` that scrolls. `pendingOps` has the queued scroll operations. -/
structure AlacrittyBackend where
  grid : Grid
  pendingOps : List AlacScroll := []
  deriving DecidableEq

namespace AlacrittyBackend

/-- `queue_scroll_delta`. -/
def queueScrollDelta (b : AlacrittyBackend) (delta : ℤ) : AlacrittyBackend :=
  if delta = 0 then b
  else
    match b.pendingOps.getLast? with
    | some (.delta prev) =>
      { b with pendingOps := b.pendingOps.dropLast ++ [.delta (prev + delta)] }
    | _ => { b with pendingOps := b.pendingOps ++ [.delta delta] }

/-- An operation is queued behind the others. -/
def push (b : AlacrittyBackend) (scroll : AlacScroll) : AlacrittyBackend :=
  { b with pendingOps := b.pendingOps ++ [scroll] }

/-- The scroll requests. -/
def request (b : AlacrittyBackend) : Request → AlacrittyBackend
  | .scrollLineUp => b.queueScrollDelta 1
  | .scrollUpBy lines => b.queueScrollDelta lines
  | .scrollLineDown => b.queueScrollDelta (-1)
  | .scrollDownBy lines => b.queueScrollDelta (-lines)
  | .scrollPageUp => b.push .pageUp
  | .scrollPageDown => b.push .pageDown
  | .scrollToTop => b.push .top
  | .scrollToBottom => b.push .bottom

/-- `apply_pending_ops`. -/
def applyPendingOps (b : AlacrittyBackend) : AlacrittyBackend where
  grid := b.pendingOps.foldl Grid.scrollDisplay b.grid

end AlacrittyBackend

/-! ## The backend of WezTerm -/

namespace WezTermBackend

variable {Line : Type*}

/-- The scroll requests. -/
def request (b : WezTermBackend Line) : Request → WezTermBackend Line
  | .scrollLineUp => b.queueScrollDelta 1
  | .scrollUpBy lines => b.queueScrollDelta lines
  | .scrollLineDown => b.queueScrollDelta (-1)
  | .scrollDownBy lines => b.queueScrollDelta (-lines)
  | .scrollPageUp => b.queueScrollDelta ((max b.numLines 1 - 1 : ℕ) : ℤ)
  | .scrollPageDown => b.queueScrollDelta (-((max b.numLines 1 - 1 : ℕ) : ℤ))
  | .scrollToTop => { b with viewportTopStable := some 0 }
  | .scrollToBottom => { b with viewportTopStable := none }

end WezTermBackend

/-! ## Requests one at a time -/

namespace AlacrittyBackend

/-- Every request is carried out before the next one. -/
def oneAtATime (b : AlacrittyBackend) (requests : List Request) : AlacrittyBackend :=
  requests.foldl (fun b r => (b.request r).applyPendingOps) b

/-- The lines that a request scrolls by; none where it is queued as an operation of its own. -/
def linesOf : Request → Option ℤ
  | .scrollLineUp => some 1
  | .scrollUpBy lines => some lines
  | .scrollLineDown => some (-1)
  | .scrollDownBy lines => some (-lines)
  | _ => none

/-- The request may join what is queued: where it adds lines to queued ones that have gone past an end
of the scrollback, the added lines go on past the same end, none of them back, or they lead to the
other end or past it, across the whole scrollback. -/
def Composes (b : AlacrittyBackend) (r : Request) : Prop :=
  match linesOf r, b.pendingOps.getLast? with
  | some lines, some (.delta queued) =>
    Additive b.grid.historySize
      ((b.pendingOps.dropLast.foldl Grid.scrollDisplay b.grid).displayOffset + queued) lines
  | _, _ => True

end AlacrittyBackend

namespace WezTermBackend

variable {Line : Type*}

/-- Every request is carried out before the next one. -/
def oneAtATime (b : WezTermBackend Line) (requests : List Request) : WezTermBackend Line :=
  requests.foldl (fun b r => (b.request r).sync) b

/-- The number of rows above the live view. -/
def historySize (b : WezTermBackend Line) : ℤ := b.screen.baseStable - b.screen.topStable

/-- The lines that a request scrolls by; none for a jump to an end of the scrollback. -/
def linesOf (b : WezTermBackend Line) : Request → Option ℤ
  | .scrollLineUp => some 1
  | .scrollUpBy lines => some lines
  | .scrollLineDown => some (-1)
  | .scrollDownBy lines => some (-lines)
  | .scrollPageUp => some (max b.numLines 1 - 1 : ℕ)
  | .scrollPageDown => some (-(max b.numLines 1 - 1 : ℕ))
  | .scrollToTop | .scrollToBottom => none

/-- The request may join what is queued: a jump to an end of the scrollback finds no lines queued that
lead away from it, and lines that are added to queued ones that have gone past an end of the
scrollback go on past the same end, none of them back, or lead to the other end or past it, across the
whole scrollback. -/
def Composes (b : WezTermBackend Line) (r : Request) : Prop :=
  match b.linesOf r with
  | some lines => Additive b.historySize (b.plan.displayOffset + b.pendingOps.sum) lines
  | none =>
    b.historySize = 0 ∨ if r = .scrollToTop then 0 ≤ b.pendingOps.sum else b.pendingOps.sum ≤ 0

end WezTermBackend

/-- What holds of the empty list and, by a condition on each item, of one item more holds of every
prefix exactly when each item meets its condition. -/
theorem forall_prefix_iff {α : Type*} {P : List α → Prop} {Q : List α → α → Prop} (h₀ : P [])
    (hstep : ∀ init a, P init → (P (init ++ [a]) ↔ Q init a)) (l : List α) :
    (∀ init, init <+: l → P init) ↔ ∀ init a, init ++ [a] <+: l → Q init a := by
  constructor
  · intro h init a hprefix
    exact (hstep init a (h init ((List.prefix_append _ _).trans hprefix))).mp (h _ hprefix)
  · intro h init
    induction init using List.reverseRecOn with
    | nil => exact fun _ => h₀
    | append_singleton init a ih =>
      intro hprefix
      exact (hstep init a (ih ((List.prefix_append _ _).trans hprefix))).mpr (h init a hprefix)

instance (b : AlacrittyBackend) (r : Request) : Decidable (b.Composes r) := by
  unfold AlacrittyBackend.Composes
  split <;> infer_instance

instance {Line : Type*} (b : WezTermBackend Line) (r : Request) : Decidable (b.Composes r) := by
  unfold WezTermBackend.Composes
  split <;> infer_instance

/-! ## What is queued and what was carried out -/

namespace AlacrittyBackend

variable {b : AlacrittyBackend} {r : Request} {lines : ℤ}

@[simp]
theorem historySize_foldl (g : Grid) (scrolls : List AlacScroll) :
    (scrolls.foldl Grid.scrollDisplay g).historySize = g.historySize := by
  induction scrolls generalizing g with
  | nil => rfl
  | cons scroll scrolls ih => exact ih _

theorem displayOffset_scrollDisplay_delta (g : Grid) (count : ℤ) :
    ((g.scrollDisplay (.delta count)).displayOffset : ℤ) =
      clamp g.historySize (g.displayOffset + count) := by
  show ((min (max ((g.displayOffset : ℤ) + count) 0).toNat g.historySize : ℕ) : ℤ) = _
  unfold Clamp.clamp
  omega

/-- Scrolling by a sum of lines or by the one and then the other. -/
theorem scrollDisplay_add_eq_iff {g : Grid} {queued : ℤ} :
    g.scrollDisplay (.delta (queued + lines)) =
        (g.scrollDisplay (.delta queued)).scrollDisplay (.delta lines) ↔
      Additive g.historySize (g.displayOffset + queued) lines := by
  have hgrid : g.scrollDisplay (.delta (queued + lines)) =
      (g.scrollDisplay (.delta queued)).scrollDisplay (.delta lines) ↔
      ((g.scrollDisplay (.delta (queued + lines))).displayOffset : ℤ) =
        ((g.scrollDisplay (.delta queued)).scrollDisplay (.delta lines)).displayOffset := by
    unfold Grid.scrollDisplay
    simp only [Grid.mk.injEq, and_true, Nat.cast_inj]
  rw [hgrid, displayOffset_scrollDisplay_delta, displayOffset_scrollDisplay_delta,
    displayOffset_scrollDisplay_delta, ← add_assoc, eq_comm]
  exact Clamp.clamp_clamp_add_iff (Int.natCast_nonneg _)

theorem request_of_linesOf (h : linesOf r = some lines) (b : AlacrittyBackend) :
    b.request r = b.queueScrollDelta lines := by
  cases r <;> cases h <;> rfl

@[simp]
theorem grid_applyPendingOps_push (b : AlacrittyBackend) (scroll : AlacScroll) :
    (b.push scroll).applyPendingOps.grid = b.applyPendingOps.grid.scrollDisplay scroll := by
  unfold push applyPendingOps
  rw [List.foldl_append]
  rfl

@[simp]
theorem applyPendingOps_applyPendingOps (b : AlacrittyBackend) :
    b.applyPendingOps.applyPendingOps = b.applyPendingOps := rfl

theorem applyPendingOps_eq_iff {b' : AlacrittyBackend} :
    b.applyPendingOps = b'.applyPendingOps ↔
      b.applyPendingOps.grid = b'.applyPendingOps.grid := by
  unfold applyPendingOps
  simp only [AlacrittyBackend.mk.injEq, and_true]

/-- Lines that join no queued lines are queued as an operation of their own. -/
theorem queueScrollDelta_eq_push (hlines : lines ≠ 0)
    (h : ∀ queued, b.pendingOps.getLast? ≠ some (.delta queued)) :
    b.queueScrollDelta lines = b.push (.delta lines) := by
  unfold queueScrollDelta
  rw [if_neg hlines]
  split
  · next prev hprev => exact absurd hprev (h prev)
  · rfl

theorem queueScrollDelta_eq_join (hlines : lines ≠ 0) {queued : ℤ}
    (h : b.pendingOps.getLast? = some (.delta queued)) :
    b.queueScrollDelta lines =
      { b with pendingOps := b.pendingOps.dropLast }.push (.delta (queued + lines)) := by
  unfold queueScrollDelta
  rw [if_neg hlines, h]
  rfl

/-- A request that is queued as an operation of its own is carried out behind the others. -/
theorem applyPendingOps_request_of_none (h : linesOf r = none) :
    (b.request r).applyPendingOps = (b.applyPendingOps.request r).applyPendingOps := by
  have hpush (scroll : AlacScroll) :
      (b.push scroll).applyPendingOps = (b.applyPendingOps.push scroll).applyPendingOps := by
    rw [applyPendingOps_eq_iff, grid_applyPendingOps_push, grid_applyPendingOps_push]
    rfl
  cases r with
  | scrollPageUp | scrollPageDown | scrollToTop | scrollToBottom => exact hpush _
  | _ => cases h

theorem applyPendingOps_queueScrollDelta_iff (hlines : lines ≠ 0) :
    (b.queueScrollDelta lines).applyPendingOps =
        (b.applyPendingOps.queueScrollDelta lines).applyPendingOps ↔
      ∀ queued, b.pendingOps.getLast? = some (.delta queued) →
        Additive b.grid.historySize
          ((b.pendingOps.dropLast.foldl Grid.scrollDisplay b.grid).displayOffset + queued) lines := by
  have hidle : b.applyPendingOps.queueScrollDelta lines = b.applyPendingOps.push (.delta lines) :=
    queueScrollDelta_eq_push hlines fun _ => nofun
  rw [hidle, applyPendingOps_eq_iff, grid_applyPendingOps_push]
  by_cases h : ∃ queued, b.pendingOps.getLast? = some (.delta queued)
  · obtain ⟨queued, hqueued⟩ := h
    obtain ⟨init, hinit⟩ := List.getLast?_eq_some_iff.mp hqueued
    have hgrid : b.applyPendingOps.grid =
        (init.foldl Grid.scrollDisplay b.grid).scrollDisplay (.delta queued) := by
      unfold applyPendingOps
      rw [hinit, List.foldl_append]
      rfl
    have hinit' : b.pendingOps.dropLast = init := by rw [hinit, List.dropLast_concat]
    rw [queueScrollDelta_eq_join hlines hqueued, grid_applyPendingOps_push, hqueued, hinit',
      applyPendingOps_applyPendingOps, hgrid]
    simp only [Option.some.injEq, AlacScroll.delta.injEq, forall_eq']
    rw [← historySize_foldl b.grid init]
    exact scrollDisplay_add_eq_iff
  · rw [queueScrollDelta_eq_push hlines fun queued hqueued => h ⟨queued, hqueued⟩,
      grid_applyPendingOps_push]
    exact iff_of_true rfl fun queued hqueued => absurd ⟨queued, hqueued⟩ h

/-- A request composes with what is queued exactly when the condition is met. -/
theorem applyPendingOps_request_iff :
    (b.request r).applyPendingOps = (b.applyPendingOps.request r).applyPendingOps ↔
      b.Composes r := by
  unfold Composes
  rcases hr : linesOf r with _ | lines
  · exact iff_of_true (applyPendingOps_request_of_none hr) trivial
  · rw [request_of_linesOf hr, request_of_linesOf hr]
    rcases eq_or_ne lines 0 with rfl | hlines
    · have hzero (b : AlacrittyBackend) : b.queueScrollDelta 0 = b := if_pos rfl
      rw [hzero, hzero]
      refine iff_of_true rfl ?_
      split
      · next heq _ =>
        obtain rfl := Option.some.inj heq
        exact Clamp.additive_zero
      · trivial
    · rw [applyPendingOps_queueScrollDelta_iff hlines]
      split
      · next lines' queued heq hqueued =>
        obtain rfl := Option.some.inj heq
        rw [hqueued]
        simp only [Option.some.injEq, AlacScroll.delta.injEq, forall_eq']
      · next hnot => exact iff_of_true (fun queued hqueued => (hnot _ _ rfl hqueued).elim) trivial

theorem oneAtATime_concat (b : AlacrittyBackend) (rs : List Request) (r : Request) :
    b.oneAtATime (rs ++ [r]) = ((b.oneAtATime rs).request r).applyPendingOps := by
  unfold oneAtATime
  rw [List.foldl_append]
  rfl

theorem pendingOps_oneAtATime (hidle : b.pendingOps = []) (rs : List Request) :
    (b.oneAtATime rs).pendingOps = [] := by
  induction rs using List.reverseRecOn with
  | nil => exact hidle
  | append_singleton rs r _ =>
    rw [oneAtATime_concat]
    rfl

theorem applyPendingOps_of_idle (hidle : b.pendingOps = []) : b.applyPendingOps = b := by
  obtain ⟨grid, pendingOps⟩ := b
  obtain rfl : pendingOps = [] := hidle
  rfl

/-- Lines that are queued alone move the offset and clamp it. -/
theorem displayOffset_queueScrollDelta_of_idle (hidle : b.pendingOps = []) (lines : ℤ) :
    ((b.queueScrollDelta lines).applyPendingOps.grid.displayOffset : ℤ) =
      clamp b.grid.historySize (b.grid.displayOffset + lines) := by
  rcases eq_or_ne lines 0 with rfl | hlines
  · have hzero : b.queueScrollDelta 0 = b := if_pos rfl
    have hle : (b.grid.displayOffset : ℤ) ≤ b.grid.historySize :=
      Int.ofNat_le.mpr b.grid.displayOffset_le
    rw [hzero, applyPendingOps_of_idle hidle, add_zero,
      Clamp.clamp_eq_self (Int.natCast_nonneg _) hle]
  · rw [queueScrollDelta_eq_push hlines (by rw [hidle]; exact fun _ => nofun),
      grid_applyPendingOps_push, applyPendingOps_of_idle hidle, displayOffset_scrollDisplay_delta]

/-- The queued requests lead to where they lead one at a time, after each of them, exactly when every
one composes with what is queued before it. -/
theorem grid_requests_iff (hidle : b.pendingOps = []) (requests : List Request) :
    (∀ rs, rs <+: requests →
        (rs.foldl request b).applyPendingOps.grid = (b.oneAtATime rs).grid) ↔
      ∀ rs r, rs ++ [r] <+: requests → (rs.foldl request b).Composes r := by
  refine forall_prefix_iff (by rw [List.foldl_nil, applyPendingOps_of_idle hidle]; rfl) ?_ requests
  intro rs r heq
  have hidle' := applyPendingOps_of_idle (pendingOps_oneAtATime hidle rs)
  have hsynced : b.oneAtATime rs = (rs.foldl request b).applyPendingOps := by
    rw [← hidle', applyPendingOps_eq_iff, hidle']
    exact heq.symm
  rw [oneAtATime_concat, hsynced, List.foldl_append, ← applyPendingOps_eq_iff]
  exact applyPendingOps_request_iff

end AlacrittyBackend

namespace WezTermBackend

variable {Line : Type*} {b b' : WezTermBackend Line} {r : Request} {lines : ℤ}

theorem historySize_nonneg (h : b.screen.Lawful) : 0 ≤ b.historySize :=
  Int.sub_nonneg.mpr h.top_le_base

/-- The offset of the viewport is clamped to the scrollback. -/
theorem displayOffset_eq (h : b.screen.Lawful) :
    (b.plan.displayOffset : ℤ) =
      clamp b.historySize (b.screen.baseStable - b.viewportTopStable.getD b.screen.baseStable) := by
  have hle := h.top_le_base
  unfold plan historySize
  rw [displayOffset_plan hle, viewportTopStable_plan hle]
  unfold Clamp.clamp
  omega

theorem displayOffset_mem (h : b.screen.Lawful) :
    0 ≤ (b.plan.displayOffset : ℤ) ∧ (b.plan.displayOffset : ℤ) ≤ b.historySize := by
  rw [displayOffset_eq h]
  exact ⟨Clamp.clamp_nonneg, Clamp.clamp_le (historySize_nonneg h)⟩

theorem viewportTopStable_applyScroll (b : WezTermBackend Line) (delta : ℤ) :
    (b.applyScroll delta).viewportTopStable =
      if b.screen.baseStable ≤ max b.screen.topStable (b.plan.viewportTopStable - delta) then none
      else some (max b.screen.topStable (b.plan.viewportTopStable - delta)) := by
  have hmove : (if 0 < delta then b.plan.viewportTopStable - delta
      else b.plan.viewportTopStable + -delta) = b.plan.viewportTopStable - delta := by
    split <;> omega
  have hclamp : (if b.plan.viewportTopStable - delta < b.screen.topStable then b.screen.topStable
      else b.plan.viewportTopStable - delta) =
        max b.screen.topStable (b.plan.viewportTopStable - delta) := by
    split <;> omega
  rw [← hclamp, ← hmove]
  rfl

/-- A scroll at a sync moves the offset and clamps it. -/
theorem displayOffset_applyScroll (h : b.screen.Lawful) (delta : ℤ) :
    ((b.applyScroll delta).plan.displayOffset : ℤ) =
      clamp b.historySize (b.plan.displayOffset + delta) := by
  have hscreen : (b.applyScroll delta).screen = b.screen := rfl
  have hhistory : (b.applyScroll delta).historySize = b.historySize := rfl
  have hoffset : (b.plan.displayOffset : ℤ) = b.screen.baseStable - b.plan.viewportTopStable :=
    displayOffset_plan h.top_le_base
  have hle := h.top_le_base
  rw [displayOffset_eq (by rwa [hscreen]), hscreen, hhistory, viewportTopStable_applyScroll, hoffset]
  unfold historySize Clamp.clamp
  split
  · rw [Option.getD_none]
    omega
  · rw [Option.getD_some]
    omega

theorem displayOffset_snapshot (h : b.screen.Lawful) :
    b.snapshot.plan.displayOffset = b.plan.displayOffset :=
  congrArg ViewportPlan.displayOffset (plan_normalized h.top_le_base)

/-- A sync carries out a single queued scroll. -/
theorem displayOffset_sync (h : b.screen.Lawful) (hsingle : b.pendingOps.length ≤ 1) :
    (b.sync.plan.displayOffset : ℤ) =
      clamp b.historySize (b.plan.displayOffset + b.pendingOps.sum) := by
  unfold sync
  rw [displayOffset_snapshot (by rwa [screen_foldl_applyScroll])]
  obtain ⟨hnonneg, hle⟩ := displayOffset_mem h
  rcases hpending : b.pendingOps with _ | ⟨delta, _ | ⟨delta', rest⟩⟩
  · rw [List.sum_nil, add_zero, Clamp.clamp_eq_self hnonneg hle]
    rfl
  · rw [List.sum_singleton]
    exact displayOffset_applyScroll (b := { b with pendingOps := [] }) h delta
  · rw [hpending] at hsingle
    exact absurd hsingle (by simp)

/-! ## Requests -/

/-- The offset that a request leads to before it is clamped. -/
def aim (b : WezTermBackend Line) (r : Request) : ℤ :=
  match b.linesOf r with
  | some lines => b.plan.displayOffset + lines
  | none => if r = .scrollToTop then b.historySize else 0

/-- What a request leaves of the backend, up to what it queues. -/
structure Requested (b b' : WezTermBackend Line) : Prop where
  screen : b'.screen = b.screen
  numLines : b'.numLines = b.numLines
  single : b'.pendingOps.length ≤ 1

theorem queueScrollDelta_spec (hsingle : b.pendingOps.length ≤ 1) (delta : ℤ) :
    Requested b (b.queueScrollDelta delta) ∧ (b.queueScrollDelta delta).plan = b.plan ∧
      (b.queueScrollDelta delta).pendingOps.sum = b.pendingOps.sum + delta := by
  obtain ⟨screen, top, pendingOps, numLines⟩ := b
  rcases eq_or_ne delta 0 with rfl | hdelta
  · have hzero : (WezTermBackend.mk screen top pendingOps numLines).queueScrollDelta 0 =
        ⟨screen, top, pendingOps, numLines⟩ := if_pos rfl
    rw [hzero, add_zero]
    exact ⟨⟨rfl, rfl, hsingle⟩, rfl, rfl⟩
  · unfold queueScrollDelta
    rw [if_neg hdelta]
    rcases pendingOps with _ | ⟨queued, _ | ⟨queued', rest⟩⟩
    · exact ⟨⟨rfl, rfl, le_rfl⟩, rfl, by simp⟩
    · exact ⟨⟨rfl, rfl, le_rfl⟩, rfl, by simp⟩
    · exact absurd hsingle (by simp)

theorem request_spec (h : b.screen.Lawful) (hsingle : b.pendingOps.length ≤ 1) (r : Request) :
    Requested b (b.request r) ∧
      clamp b.historySize ((b.request r).plan.displayOffset + (b.request r).pendingOps.sum) =
        clamp b.historySize (b.aim r + b.pendingOps.sum) := by
  have hlines (delta : ℤ) : Requested b (b.queueScrollDelta delta) ∧
      clamp b.historySize ((b.queueScrollDelta delta).plan.displayOffset +
          (b.queueScrollDelta delta).pendingOps.sum) =
        clamp b.historySize (b.plan.displayOffset + delta + b.pendingOps.sum) := by
    obtain ⟨hreq, hplan, hsum⟩ := queueScrollDelta_spec hsingle delta
    rw [hplan, hsum, add_assoc, add_comm delta]
    exact ⟨hreq, rfl⟩
  cases r with
  | scrollToTop =>
    have hoffset : ((b.request .scrollToTop).plan.displayOffset : ℤ) = b.historySize := by
      refine (displayOffset_eq (b := b.request .scrollToTop) h).trans ?_
      refine Clamp.clamp_of_le (historySize_nonneg h) ?_
      have htop := h.topStable_nonneg
      show b.screen.baseStable - b.screen.topStable ≤ b.screen.baseStable - 0
      omega
    rw [hoffset]
    exact ⟨⟨rfl, rfl, hsingle⟩, rfl⟩
  | scrollToBottom =>
    have hoffset : ((b.request .scrollToBottom).plan.displayOffset : ℤ) = 0 := by
      refine (displayOffset_eq (b := b.request .scrollToBottom) h).trans ?_
      exact Clamp.clamp_of_nonpos (Int.sub_self _).le
    rw [hoffset]
    exact ⟨⟨rfl, rfl, hsingle⟩, rfl⟩
  | _ => exact hlines _

theorem displayOffset_request_sync (h : b.screen.Lawful) (hsingle : b.pendingOps.length ≤ 1)
    (r : Request) :
    ((b.request r).sync.plan.displayOffset : ℤ) =
      clamp b.historySize (b.aim r + b.pendingOps.sum) := by
  obtain ⟨hreq, hclamp⟩ := request_spec h hsingle r
  have hhistory : (b.request r).historySize = b.historySize := by
    unfold historySize
    rw [hreq.screen]
  rw [displayOffset_sync (by rwa [hreq.screen]) hreq.single, hhistory, hclamp]

/-- A request composes with what is queued exactly when the condition is met. -/
theorem clamp_aim_iff (h : b.screen.Lawful) (hsingle : b.pendingOps.length ≤ 1) :
    clamp b.historySize (b.aim r + b.pendingOps.sum) = clamp b.historySize (b.sync.aim r) ↔
      b.Composes r := by
  have hpos := historySize_nonneg h
  have hhistory : b.sync.historySize = b.historySize := by
    unfold historySize
    rw [screen_sync]
  have hlines : b.sync.linesOf r = b.linesOf r := by
    unfold linesOf
    rw [numLines_sync]
  unfold aim Composes
  rw [hlines, hhistory]
  rcases b.linesOf r with _ | lines
  · simp only
    unfold Clamp.clamp
    split <;> omega
  · simp only
    rw [displayOffset_sync h hsingle, add_right_comm, eq_comm]
    exact Clamp.clamp_clamp_add_iff hpos

theorem oneAtATime_concat (b : WezTermBackend Line) (rs : List Request) (r : Request) :
    b.oneAtATime (rs ++ [r]) = ((b.oneAtATime rs).request r).sync := by
  unfold oneAtATime
  rw [List.foldl_append]
  rfl

theorem requested_foldl (h : b.screen.Lawful) (hsingle : b.pendingOps.length ≤ 1)
    (rs : List Request) : Requested b (rs.foldl request b) := by
  induction rs using List.reverseRecOn with
  | nil => exact ⟨rfl, rfl, hsingle⟩
  | append_singleton rs r ih =>
    rw [List.foldl_append]
    obtain ⟨hreq, -⟩ := request_spec (b := rs.foldl request b) (by rwa [ih.screen]) ih.single r
    exact ⟨hreq.screen.trans ih.screen, hreq.numLines.trans ih.numLines, hreq.single⟩

theorem requested_oneAtATime (h : b.screen.Lawful) (hidle : b.pendingOps = []) (rs : List Request) :
    Requested b (b.oneAtATime rs) ∧ (b.oneAtATime rs).pendingOps = [] := by
  induction rs using List.reverseRecOn with
  | nil => exact ⟨⟨rfl, rfl, by rw [oneAtATime, List.foldl_nil, hidle]; exact Nat.zero_le _⟩, hidle⟩
  | append_singleton rs r ih =>
    rw [oneAtATime_concat]
    obtain ⟨hreq, -⟩ := request_spec (b := b.oneAtATime rs) (by rwa [ih.1.screen]) ih.1.single r
    refine ⟨⟨?_, ?_, ?_⟩, pendingOps_sync _⟩
    · rw [screen_sync, hreq.screen, ih.1.screen]
    · rw [numLines_sync, hreq.numLines, ih.1.numLines]
    · rw [pendingOps_sync]
      exact Nat.zero_le _

theorem aim_congr (hscreen : b.screen = b'.screen) (hnumLines : b.numLines = b'.numLines)
    (hoffset : b.plan.displayOffset = b'.plan.displayOffset) (r : Request) : b.aim r = b'.aim r := by
  unfold aim linesOf historySize
  rw [hscreen, hnumLines, hoffset]

/-- The queued requests lead to where they lead one at a time, after each of them, exactly when every
one composes with what is queued before it. -/
theorem displayOffset_requests_iff (h : b.screen.Lawful) (hidle : b.pendingOps = [])
    (requests : List Request) :
    (∀ rs, rs <+: requests →
        (rs.foldl request b).sync.plan.displayOffset = (b.oneAtATime rs).plan.displayOffset) ↔
      ∀ rs r, rs ++ [r] <+: requests → (rs.foldl request b).Composes r := by
  have hsingle : b.pendingOps.length ≤ 1 := by
    rw [hidle]
    exact Nat.zero_le _
  refine forall_prefix_iff ?_ ?_ requests
  · have hsync := displayOffset_sync h hsingle
    obtain ⟨hnonneg, hle⟩ := displayOffset_mem h
    rw [hidle, List.sum_nil, add_zero, Clamp.clamp_eq_self hnonneg hle] at hsync
    exact_mod_cast hsync
  · intro rs r heq
    have hqueued := requested_foldl h hsingle rs
    obtain ⟨hone, hpending⟩ := requested_oneAtATime h hidle rs
    have hlawful : (rs.foldl request b).screen.Lawful := by rwa [hqueued.screen]
    have hlawful' : (b.oneAtATime rs).screen.Lawful := by rwa [hone.screen]
    have haim : (b.oneAtATime rs).aim r = (rs.foldl request b).sync.aim r := by
      refine aim_congr ?_ ?_ heq.symm r
      · rw [screen_sync, hqueued.screen, hone.screen]
      · rw [numLines_sync, hqueued.numLines, hone.numLines]
    have hhistory : (b.oneAtATime rs).historySize = (rs.foldl request b).historySize := by
      unfold historySize
      rw [hqueued.screen, hone.screen]
    rw [oneAtATime_concat, List.foldl_append, ← clamp_aim_iff hlawful hqueued.single]
    rw [← Nat.cast_inj (R := ℤ)]
    show (((rs.foldl request b).request r).sync.plan.displayOffset : ℤ) = _ ↔ _
    rw [displayOffset_request_sync hlawful hqueued.single,
      displayOffset_request_sync hlawful' hone.single, hpending, List.sum_nil, add_zero, haim, hhistory]

end WezTermBackend

/-- In both backends: the viewport after a sync is, after each request of a sequence, the one that the
requests lead to one at a time exactly when every request composes with what is queued before it. -/
theorem compose_iff {Line : Type*} :
    (∀ (b : AlacrittyBackend) (requests : List Request), b.pendingOps = [] →
      ((∀ rs, rs <+: requests →
          (rs.foldl .request b).applyPendingOps.grid = (b.oneAtATime rs).grid) ↔
        ∀ rs r, rs ++ [r] <+: requests → (rs.foldl .request b).Composes r)) ∧
    ∀ (b : WezTermBackend Line) (requests : List Request), b.screen.Lawful → b.pendingOps = [] →
      ((∀ rs, rs <+: requests →
          (rs.foldl .request b).sync.plan.displayOffset = (b.oneAtATime rs).plan.displayOffset) ↔
        ∀ rs r, rs ++ [r] <+: requests → (rs.foldl .request b).Composes r) :=
  ⟨fun _ requests hidle => AlacrittyBackend.grid_requests_iff hidle requests,
    fun _ requests h hidle => WezTermBackend.displayOffset_requests_iff h hidle requests⟩

/-- Three rows over a scrollback of ten, at the live view. -/
def atBottom : AlacrittyBackend where
  grid := ⟨0, 10, 3, Nat.zero_le _⟩

/-- Three rows over a scrollback of five, at the live view. -/
def following : WezTermBackend ℤ where
  screen := .ring 3 8 40
  numLines := 3

theorem compose_iff_atBottom :
    (∀ rs, rs <+: [.scrollUpBy 4, .scrollLineDown] →
        (rs.foldl .request atBottom).applyPendingOps.grid = (atBottom.oneAtATime rs).grid) ∧
      ∀ rs, rs <+: [.scrollUpBy 4, .scrollLineDown] →
        (rs.foldl .request following).sync.plan.displayOffset =
          (following.oneAtATime rs).plan.displayOffset := by
  obtain ⟨halacritty, hwezterm⟩ := @compose_iff ℤ
  refine ⟨(halacritty atBottom _ rfl).mpr ?_,
    (hwezterm following _ (Screen.lawful_ring 3 8 40 (by decide) (by decide)) rfl).mpr ?_⟩
  all_goals
    rintro rs r ⟨rest, hrest⟩
    rcases rs with _ | ⟨r₁, _ | ⟨r₂, rs⟩⟩
    · obtain ⟨rfl, -⟩ := List.cons.inj hrest
      decide
    · obtain ⟨rfl, hrest'⟩ := List.cons.inj hrest
      obtain ⟨rfl, -⟩ := List.cons.inj hrest'
      decide
    · simp at hrest

/-- A line down at the bottom is lost one at a time and is subtracted from the next line up in the
queue; a jump to the bottom is made before the line that waits. -/
theorem not_compose_pastEnd :
    (¬ ∀ (b : AlacrittyBackend) (requests : List Request), b.pendingOps = [] →
      (requests.foldl .request b).applyPendingOps.grid = (b.oneAtATime requests).grid) ∧
    ¬ ∀ (b : WezTermBackend ℤ) (requests : List Request), b.screen.Lawful → b.pendingOps = [] →
      (requests.foldl .request b).sync.plan.displayOffset =
        (b.oneAtATime requests).plan.displayOffset := by
  constructor
  · intro h
    exact absurd (h atBottom [.scrollLineDown, .scrollLineUp] rfl) (by decide)
  · intro h
    exact absurd (h following [.scrollLineUp, .scrollToBottom]
      (Screen.lawful_ring 3 8 40 (by decide) (by decide)) rfl) (by decide)

end Termua.Scroll
