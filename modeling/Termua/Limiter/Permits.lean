import Mathlib
import Termua.Lib.Entries
import Termua.Limiter.PermitPool

/-!
# Fairness and cancel-safety of the permit pool

`PoolInv lost` is the invariant of the pool, where `lost` counts the grants whose future was dropped
before it received them. A dropped future takes its grant along, so every lost grant stays counted
in `inflight` for good, and the pool is sound exactly along the runs that lose none.
-/

namespace Termua.Limiter

open Transition

namespace PermitPool

variable {s s' : PermitPool} {lost m : ℕ} {call w : CallId} {a b : Acquire} {e : Event}

/-! ## Counting the calls -/

/-- The permits that callers hold or have been sent. -/
def heldBy (calls : List Acquire) : ℕ :=
  calls.countP Acquire.isPermit + calls.countP Acquire.isGranted

/-- What a call counts for in `heldBy`. -/
def weight (a : Acquire) : ℕ := (if a.isPermit then 1 else 0) + (if a.isGranted then 1 else 0)

theorem heldBy_set {calls : List Acquire} (h : calls[call]? = some a) :
    heldBy (calls.set call b) + weight a = heldBy calls + weight b := by
  unfold heldBy weight
  have hpermit := List.countP_set_add (p := Acquire.isPermit) (b := b) h
  have hgranted := List.countP_set_add (p := Acquire.isGranted) (b := b) h
  omega

theorem heldBy_append {calls : List Acquire} : heldBy (calls ++ [a]) = heldBy calls + weight a := by
  unfold heldBy weight
  simp only [List.countP_append, List.countP_singleton]
  omega

/-! ## The invariant -/

/-- What holds of a pool that has lost `lost` grants. -/
structure PoolInv (lost : ℕ) (s : PermitPool) : Prop where
  counted : heldBy s.calls + lost = s.inflight
  admitted : ∀ g ∈ s.grants, g.inflight < g.max
  known : ∀ g ∈ s.grants, g.call < s.calls.length
  grantsOrdered : (s.grants.map Grant.call).Pairwise (· < ·)
  waitersOrdered : s.waiters.Pairwise (· < ·)
  waiters : ∀ w ∈ s.waiters, ∃ a, s.calls[w]? = some a ∧ (a.isWaiting ∨ a = .dropped)
  queued : ∀ w a, s.calls[w]? = some a → a.isWaiting → w ∈ s.waiters
  ahead : ∀ g ∈ s.grants, ∀ w, s.LiveWaiter w → g.call < w
  accounted : ∀ w a, s.calls[w]? = some a →
    a = .dropped ∨ a.isWaiting ∨ w ∈ s.grants.map Grant.call

/-- A live waiter is queued only while the pool is full. -/
def Conserving (s : PermitPool) : Prop := ∀ w, s.LiveWaiter w → s.max ≤ s.inflight

theorem poolInv_new : PoolInv 0 (new m) where
  counted := rfl
  admitted := by simp [new]
  known := by simp [new]
  grantsOrdered := .nil
  waitersOrdered := .nil
  waiters := by simp [new]
  queued := by simp [new]
  ahead := by simp [new]
  accounted := by simp [new]

/-- Setting a call that is not waiting makes no new live waiter. -/
theorem LiveWaiter.of_set (hb : b.isWaiting = false)
    (h : { s with calls := s.calls.set call b }.LiveWaiter w) : w ≠ call ∧ s.LiveWaiter w := by
  obtain ⟨hw, a, ha, hwaiting⟩ := h
  rcases List.getElem?_set_cases ha with ⟨-, rfl⟩ | ⟨hne, ha⟩
  · rw [hb] at hwaiting
    cases hwaiting
  · exact ⟨hne, hw, a, ha, hwaiting⟩

/-! ## Granting -/

/-- A live waiter's sender sends; the call then has its grant. -/
theorem trySend_of_isWaiting (h : s.calls[w]? = some a) (ha : a.isWaiting) :
    ∃ rx : Channel Unit 1, Acquire.isGranted (.waiting rx) ∧
      s.trySend w = some { s with calls := s.calls.set w (.waiting rx) } := by
  obtain ⟨rx⟩ | _ | _ | _ := a <;> try cases ha
  have hempty : rx.queue = [] := by simpa [Acquire.isWaiting] using ha
  refine ⟨⟨[()], le_rfl⟩, rfl, ?_⟩
  have hsend : rx.trySend () = some ⟨[()], le_rfl⟩ := by
    rw [Channel.trySend_eq_some, hempty]
    exact ⟨Nat.one_pos, rfl⟩
  unfold trySend
  rw [h]
  simp only [hsend, Option.map_some]

/-- The sender of a dropped future fails. -/
theorem trySend_of_dropped (h : s.calls[w]? = some .dropped) : s.trySend w = none := by
  unfold trySend
  rw [h]

theorem Acquire.isWaiting_of_isGranted (h : b.isGranted) : b.isWaiting = false := by
  obtain ⟨rx⟩ | _ | _ | _ := b <;> try rfl
  simpa [Acquire.isGranted, Acquire.isWaiting] using h

theorem weight_of_isWaiting (h : a.isWaiting) : weight a = 0 := by
  obtain ⟨rx⟩ | _ | _ | _ := a <;> try cases h
  have hempty : rx.queue = [] := by simpa [Acquire.isWaiting] using h
  simp [weight, Acquire.isPermit, Acquire.isGranted, hempty]

theorem weight_of_isGranted (h : a.isGranted) : weight a = 1 := by
  obtain ⟨rx⟩ | _ | _ | _ := a <;> try cases h
  simp [weight, Acquire.isPermit, h]

/-- A grant to the oldest waiter. -/
theorem PoolInv.grant {ws : List CallId} (h : PoolInv lost s) (hws : s.waiters = w :: ws)
    (hroom : s.inflight < s.max) (hw : s.calls[w]? = some a) (ha : a.isWaiting)
    (hb : b.isGranted) :
    PoolInv lost ({ s with waiters := ws, calls := s.calls.set w b }.count w) := by
  have hlive : s.LiveWaiter w := ⟨by rw [hws]; exact List.mem_cons_self, a, hw, ha⟩
  have horder := h.waitersOrdered
  rw [hws, List.pairwise_cons] at horder
  have hlt : w < s.calls.length := (List.getElem?_eq_some_iff.mp hw).1
  have hbw := Acquire.isWaiting_of_isGranted hb
  have hne : ∀ v ∈ ws, v ≠ w := fun v hv => (horder.1 v hv).ne'
  have hlater : ∀ v, { s with waiters := ws, calls := s.calls.set w b }.LiveWaiter v →
      v ∈ ws ∧ s.LiveWaiter v := by
    intro v hv
    have hmem : v ∈ s.waiters := by rw [hws]; exact List.mem_cons_of_mem w hv.1
    exact ⟨hv.1, (LiveWaiter.of_set hbw (s := s) ⟨hmem, hv.2⟩).2⟩
  refine
    { counted := ?_, admitted := ?_, known := ?_, grantsOrdered := ?_, waitersOrdered := horder.2,
      waiters := ?_, queued := ?_, ahead := ?_, accounted := ?_ }
  -- counted: the waiter holds the permit that the count grows by
  · have hset := heldBy_set (b := b) hw
    rw [weight_of_isWaiting ha, weight_of_isGranted hb] at hset
    have := h.counted
    show heldBy (s.calls.set w b) + lost = s.inflight + 1
    omega
  · intro g hg
    rcases List.mem_append.mp hg with hg | hg
    · exact h.admitted g hg
    · obtain rfl := List.mem_singleton.mp hg
      exact hroom
  · intro g hg
    show g.call < (s.calls.set w b).length
    rw [List.length_set]
    rcases List.mem_append.mp hg with hg | hg
    · exact h.known g hg
    · obtain rfl := List.mem_singleton.mp hg
      exact hlt
  -- the oldest waiter came after all that were granted
  · show ((s.grants ++ [_]).map Grant.call).Pairwise (· < ·)
    rw [List.map_append, List.pairwise_append]
    refine ⟨h.grantsOrdered, List.pairwise_singleton _ _, fun x hx y hy => ?_⟩
    obtain ⟨g, hg, rfl⟩ := List.mem_map.mp hx
    obtain rfl : y = w := by simpa using hy
    exact h.ahead g hg y hlive
  · intro v hv
    obtain ⟨c, hc, hcw⟩ := h.waiters v (by rw [hws]; exact List.mem_cons_of_mem w hv)
    exact ⟨c, by rw [count, List.getElem?_set_ne (hne v hv).symm]; exact hc, hcw⟩
  · intro v c hc hcw
    have hmem : v ∈ s.waiters ∧ v ≠ w := by
      rcases List.getElem?_set_cases hc with ⟨-, rfl⟩ | ⟨hvw, hc⟩
      · rw [hbw] at hcw
        cases hcw
      · exact ⟨h.queued v c hc hcw, hvw⟩
    rw [hws, List.mem_cons] at hmem
    exact hmem.1.resolve_left hmem.2
  -- ahead: the other waiters came after the one that is granted now
  · intro g hg v hv
    obtain ⟨hvws, hvlive⟩ := hlater v hv
    rcases List.mem_append.mp hg with hg | hg
    · exact h.ahead g hg v hvlive
    · obtain rfl := List.mem_singleton.mp hg
      exact horder.1 v hvws
  · intro v c hc
    rcases List.getElem?_set_cases hc with ⟨rfl, -⟩ | ⟨-, hc⟩
    · exact .inr (.inr (by simp [count]))
    · rcases h.accounted v c hc with hd | hd | hd
      · exact .inl hd
      · exact .inr (.inl hd)
      · exact .inr (.inr (by simpa [count] using .inl (by simpa using hd)))

/-- The sender of a dropped future leaves the queue. -/
theorem PoolInv.skip {ws : List CallId} (h : PoolInv lost s) (hws : s.waiters = w :: ws)
    (hw : s.calls[w]? = some .dropped) : PoolInv lost { s with waiters := ws } := by
  have horder := h.waitersOrdered
  rw [hws, List.pairwise_cons] at horder
  have hmem : ∀ v ∈ ws, v ∈ s.waiters := fun v hv => by rw [hws]; exact List.mem_cons_of_mem w hv
  refine { h with waitersOrdered := horder.2, waiters := ?_, queued := ?_, ahead := ?_ }
  · exact fun v hv => h.waiters v (hmem v hv)
  · intro v c hc hcw
    have hv := h.queued v c hc hcw
    rw [hws, List.mem_cons] at hv
    refine hv.resolve_left ?_
    rintro rfl
    obtain rfl := Option.some.inj (hw.symm.trans hc)
    cases hcw
  · exact fun g hg v hv => h.ahead g hg v ⟨hmem v hv.1, hv.2⟩

/-- `grant_waiters` keeps the invariant, and afterwards nobody waits for a permit that is free. -/
theorem PoolInv.grantLoop {ws : List CallId} (h : PoolInv lost s) (hws : s.waiters = ws) :
    PoolInv lost (PermitPool.grantLoop ws s) ∧ Conserving (PermitPool.grantLoop ws s) := by
  induction ws generalizing s with
  | nil =>
    refine ⟨h, fun w hw => ?_⟩
    have := hw.1
    rw [PermitPool.grantLoop, hws] at this
    cases this
  | cons w ws ih =>
    unfold PermitPool.grantLoop
    split
    · next hroom =>
      obtain ⟨a, hw, ha | rfl⟩ := h.waiters w (by rw [hws]; exact List.mem_cons_self)
      · obtain ⟨rx, hrx, hsend⟩ := trySend_of_isWaiting (s := { s with waiters := ws }) hw ha
        simp only [hsend]
        exact ih (h.grant hws hroom hw ha hrx) rfl
      · simp only [trySend_of_dropped (s := { s with waiters := ws }) hw]
        exact ih (h.skip hws hw) rfl
    · next hfull => exact ⟨h, fun _ _ => Nat.le_of_not_lt hfull⟩

/-! ## The steps -/

/-- A call stops waiting, or a call that was granted goes on. -/
theorem PoolInv.set {inflight lost' : ℕ} (h : PoolInv lost s) (ha : s.calls[call]? = some a)
    (hb : b.isWaiting = false) (hab : b = .dropped ∨ a ≠ .dropped ∧ a.isWaiting = false)
    (hcount : heldBy (s.calls.set call b) + lost' = inflight) :
    PoolInv lost' { s with inflight := inflight, calls := s.calls.set call b } := by
  refine
    { h with
      counted := hcount, known := ?_, waiters := ?_, queued := ?_, ahead := ?_, accounted := ?_ }
  · simpa using h.known
  -- the call may still be among the waiters: then it is one that was dropped
  · intro w hw
    rw [List.getElem?_set]
    split
    · next heq =>
      subst heq
      obtain ⟨c, hc, hcw⟩ := h.waiters call hw
      obtain rfl := Option.some.inj (ha.symm.trans hc)
      refine ⟨b, if_pos (List.getElem?_eq_some_iff.mp ha).1, .inr (hab.resolve_right ?_)⟩
      rintro ⟨hnd, hnw⟩
      rcases hcw with hcw | hcw
      · rw [hnw] at hcw
        cases hcw
      · exact hnd hcw
    · exact h.waiters w hw
  · intro w c hc hcw
    rcases List.getElem?_set_cases hc with ⟨-, rfl⟩ | ⟨-, hc⟩
    · rw [hb] at hcw
      cases hcw
    · exact h.queued w c hc hcw
  · exact fun g hg w hw => h.ahead g hg w (LiveWaiter.of_set (s := s) hb hw).2
  · intro w c hc
    rcases List.getElem?_set_cases hc with ⟨rfl, rfl⟩ | ⟨-, hc⟩
    · rcases hab with rfl | ⟨hnd, hnw⟩
      · exact .inl rfl
      · rcases h.accounted w a ha with had | haw | hmem
        · exact absurd had hnd
        · rw [hnw] at haw
          cases haw
        · exact .inr (.inr hmem)
    · exact h.accounted w c hc

/-- A new call is counted at once when there is room, and then nobody waits. -/
theorem PoolInv.acquire_room (h : PoolInv lost s) (hc : Conserving s) (hroom : s.inflight < s.max) :
    PoolInv lost { s.count s.calls.length with calls := s.calls ++ [Acquire.returned] } ∧
      Conserving { s.count s.calls.length with calls := s.calls ++ [Acquire.returned] } := by
  have hlt : ∀ w ∈ s.waiters, w < s.calls.length := fun w hw =>
    have ⟨_, ha, _⟩ := h.waiters w hw
    (List.getElem?_eq_some_iff.mp ha).1
  -- a pool that grants on has no waiter while there is room
  have hnone : ∀ w, ¬ { s.count s.calls.length with calls := s.calls ++ [Acquire.returned] }.LiveWaiter w := by
    rintro w ⟨hw, a, ha, haw⟩
    rw [List.getElem?_append_left (hlt w hw)] at ha
    exact absurd (hc w ⟨hw, a, ha, haw⟩) (Nat.not_le_of_lt hroom)
  refine
    ⟨{ counted := ?_, admitted := ?_, known := ?_, grantsOrdered := ?_,
       waitersOrdered := h.waitersOrdered, waiters := ?_, queued := ?_, ahead := ?_,
       accounted := ?_ }, fun w hw => absurd hw (hnone w)⟩
  -- counted: the new call holds one, and the count grows by it
  · have := h.counted
    have hweight : weight .returned = 1 := rfl
    show heldBy (s.calls ++ [Acquire.returned]) + lost = s.inflight + 1
    rw [heldBy_append]
    omega
  · intro g hg
    rcases List.mem_append.mp hg with hg | hg
    · exact h.admitted g hg
    · obtain rfl := List.mem_singleton.mp hg
      exact hroom
  · intro g hg
    show g.call < (s.calls ++ [Acquire.returned]).length
    rw [List.length_append]
    rcases List.mem_append.mp hg with hg | hg
    · exact Nat.lt_add_right 1 (h.known g hg)
    · obtain rfl := List.mem_singleton.mp hg
      exact Nat.lt_succ_self _
  -- the new call comes after all that were known
  · show ((s.grants ++ [_]).map Grant.call).Pairwise (· < ·)
    rw [List.map_append, List.pairwise_append]
    refine ⟨h.grantsOrdered, List.pairwise_singleton _ _, fun x hx y hy => ?_⟩
    obtain ⟨g, hg, rfl⟩ := List.mem_map.mp hx
    obtain rfl : y = s.calls.length := by simpa using hy
    exact h.known g hg
  · intro w hw
    obtain ⟨a, ha, haw⟩ := h.waiters w hw
    exact ⟨a, by rw [List.getElem?_append_left (hlt w hw)]; exact ha, haw⟩
  · intro w a ha haw
    rcases List.getElem?_concat_cases ha with ha | ⟨-, rfl⟩
    · exact h.queued w a ha haw
    · cases haw
  · exact fun _ _ w hw => absurd hw (hnone w)
  · intro w a ha
    rcases List.getElem?_concat_cases ha with ha | ⟨rfl, -⟩
    · rcases h.accounted w a ha with hd | hd | hd
      · exact .inl hd
      · exact .inr (.inl hd)
      · exact .inr (.inr (by simpa [count] using .inl (by simpa using hd)))
    · exact .inr (.inr (by simp [count]))

/-- A new call queues behind the others when the pool is full. -/
theorem PoolInv.acquire_full (h : PoolInv lost s) (hfull : s.max ≤ s.inflight) :
    PoolInv lost { s with
        waiters := s.waiters ++ [s.calls.length], calls := s.calls ++ [Acquire.waiting .empty] } ∧
      Conserving { s with
        waiters := s.waiters ++ [s.calls.length], calls := s.calls ++ [Acquire.waiting .empty] } := by
  have hlt : ∀ w ∈ s.waiters, w < s.calls.length := fun w hw =>
    have ⟨_, ha, _⟩ := h.waiters w hw
    (List.getElem?_eq_some_iff.mp ha).1
  refine
    ⟨{ h with
       counted := ?_, known := ?_, waitersOrdered := ?_, waiters := ?_, queued := ?_, ahead := ?_,
       accounted := ?_ }, fun _ _ => hfull⟩
  -- counted: the call waits, and so holds nothing
  · have := h.counted
    have hweight : weight (.waiting .empty) = 0 := rfl
    show heldBy (s.calls ++ [Acquire.waiting .empty]) + lost = s.inflight
    rw [heldBy_append]
    omega
  · intro g hg
    show g.call < (s.calls ++ [Acquire.waiting .empty]).length
    rw [List.length_append]
    exact Nat.lt_add_right 1 (h.known g hg)
  -- its number is the greatest there is
  · show (s.waiters ++ [s.calls.length]).Pairwise (· < ·)
    rw [List.pairwise_append]
    refine ⟨h.waitersOrdered, List.pairwise_singleton _ _, fun x hx y hy => ?_⟩
    obtain rfl := List.mem_singleton.mp hy
    exact hlt x hx
  · intro w hw
    rcases List.mem_append.mp hw with hw | hw
    · obtain ⟨a, ha, haw⟩ := h.waiters w hw
      exact ⟨a, by rw [List.getElem?_append_left (hlt w hw)]; exact ha, haw⟩
    · obtain rfl := List.mem_singleton.mp hw
      exact ⟨.waiting .empty, by simp, .inl rfl⟩
  · intro w a ha haw
    rcases List.getElem?_concat_cases ha with ha | ⟨rfl, -⟩
    · exact List.mem_append_left _ (h.queued w a ha haw)
    · exact List.mem_append_right _ (List.mem_singleton_self _)
  · rintro g hg w ⟨hw, a, ha, haw⟩
    rcases List.mem_append.mp hw with hw | hw
    · rw [List.getElem?_append_left (hlt w hw)] at ha
      exact h.ahead g hg w ⟨hw, a, ha, haw⟩
    · obtain rfl := List.mem_singleton.mp hw
      exact h.known g hg
  · intro w a ha
    rcases List.getElem?_concat_cases ha with ha | ⟨-, rfl⟩
    · exact h.accounted w a ha
    · exact .inr (.inl rfl)

theorem PoolInv.acquire (h : PoolInv lost s) (hc : Conserving s) :
    PoolInv lost s.acquire ∧ Conserving s.acquire := by
  unfold PermitPool.acquire lockOnce
  by_cases hroom : s.inflight < s.max
  · rw [if_pos hroom]
    exact h.acquire_room hc hroom
  · rw [if_neg hroom]
    exact h.acquire_full (Nat.le_of_not_lt hroom)

/-- A poll hands over a grant that was sent, or changes nothing: a waiting call is queued, so its
channel never closes under it. -/
theorem poll_cases (h : PoolInv lost s) (hs : s.poll call = some s') :
    s' = s ∨ ∃ a, s.calls[call]? = some a ∧ a.isGranted ∧
      s' = { s with calls := s.calls.set call .returned } := by
  unfold poll at hs
  split at hs
  · next rx hrx =>
    split at hs
    · next hrecv =>
      refine .inr ⟨.waiting rx, hrx, ?_, (Option.some.inj hs).symm⟩
      have hqueue := Channel.recv_eq_some.mp hrecv
      simp [Acquire.isGranted, hqueue]
    · next hrecv =>
      have hqueued : call ∈ s.waiters :=
        h.queued call _ hrx (by simp [Acquire.isWaiting, Channel.recv_eq_none.mp hrecv])
      rw [if_pos hqueued] at hs
      exact .inl (Option.some.inj hs).symm
  · cases hs

theorem Conserving.set (hc : Conserving s) (hb : b.isWaiting = false) :
    Conserving { s with calls := s.calls.set call b } :=
  fun w hw => hc w (LiveWaiter.of_set (s := s) hb hw).2

/-- One step keeps the invariant. It loses a grant exactly when it drops a future that one was sent
to. -/
theorem PoolInv.step (h : PoolInv lost s) (hc : Conserving s) (hs : s.step e = some s') :
    ∃ lost', PoolInv lost' s' ∧ Conserving s' ∧ lost ≤ lost' ∧
      (s.KeepsGrants e ↔ lost' = lost) := by
  cases e with
  | acquire =>
    obtain rfl := Option.some.inj hs
    obtain ⟨h', hc'⟩ := h.acquire hc
    exact ⟨lost, h', hc', le_rfl, iff_of_true trivial rfl⟩
  -- a poll takes a grant that is there and moves its weight to the permit
  | poll call =>
    rcases poll_cases h hs with rfl | ⟨a, ha, hgranted, rfl⟩
    · exact ⟨lost, h, hc, le_rfl, iff_of_true trivial rfl⟩
    · have hwaiting := Acquire.isWaiting_of_isGranted hgranted
      have hnd : a ≠ .dropped := by rintro rfl; cases hgranted
      have hset := heldBy_set (b := .returned) ha
      have hweight : weight .returned = 1 := rfl
      rw [weight_of_isGranted hgranted, hweight] at hset
      have hcounted := h.counted
      exact ⟨lost, h.set ha rfl (.inr ⟨hnd, hwaiting⟩) (by omega), hc.set rfl, le_rfl,
        iff_of_true trivial rfl⟩
  -- a permit that is dropped makes room, which is granted on
  | dropPermit call =>
    change s.dropPermit call = some s' at hs
    unfold dropPermit at hs
    split at hs
    · next ha =>
      obtain rfl := Option.some.inj hs
      have hset := heldBy_set (b := .released) ha
      have hreturned : weight .returned = 1 := rfl
      have hreleased : weight .released = 0 := rfl
      have hcounted := h.counted
      have h' : PoolInv lost { s with
          inflight := s.inflight - 1, calls := s.calls.set call .released } :=
        h.set ha rfl (.inr ⟨nofun, rfl⟩) (by omega)
      obtain ⟨h'', hc'⟩ := h'.grantLoop rfl
      exact ⟨lost, h'', hc', le_rfl, iff_of_true trivial rfl⟩
    · cases hs
  | setMax m =>
    obtain rfl := Option.some.inj hs
    unfold setMax
    by_cases hsame : s.max = clampMax m
    · rw [if_pos hsame]
      exact ⟨lost, h, hc, le_rfl, iff_of_true trivial rfl⟩
    · rw [if_neg hsame]
      have h' : PoolInv lost { s with max := clampMax m } := { h with }
      obtain ⟨h'', hc'⟩ := h'.grantLoop rfl
      exact ⟨lost, h'', hc', le_rfl, iff_of_true trivial rfl⟩
  -- a future that is dropped with a grant takes its weight with it
  | cancel call =>
    change s.cancel call = some s' at hs
    unfold cancel at hs
    split at hs
    · next rx ha =>
      obtain rfl := Option.some.inj hs
      have hset := heldBy_set (b := .dropped) ha
      have hdropped : weight .dropped = 0 := rfl
      have hcounted := h.counted
      refine ⟨lost + weight (.waiting rx), h.set ha rfl (.inl rfl) (by omega), hc.set rfl,
        Nat.le_add_right _ _, ?_⟩
      -- the weight of a waiting call is one exactly when it was sent a grant
      show (s.calls[call]?).any Acquire.isGranted = false ↔ _
      rw [ha, Option.any_some]
      by_cases hgranted : Acquire.isGranted (.waiting rx)
      · rw [weight_of_isGranted hgranted]
        simp [hgranted]
      · simp [weight, Acquire.isPermit, hgranted]
    · cases hs

/-- Along a run the invariant holds for some number of lost grants, which is zero exactly when no
step dropped a future that a grant was sent to. -/
theorem poolInv_run {es : List Event} (h : Run (ofPartial PermitPool.step) (new m) es s) :
    ∃ lost, PoolInv lost s ∧ Conserving s ∧
      (Run (Guarded (ofPartial PermitPool.step) KeepsGrants) (new m) es s ↔ lost = 0) := by
  induction h with
  | start => exact ⟨0, poolInv_new, by simp [Conserving, LiveWaiter, new], iff_of_true .start rfl⟩
  | next hrun hs ih =>
    obtain ⟨lost, h, hc, hiff⟩ := ih
    obtain ⟨lost', h', hc', hle, hkeeps⟩ := h.step hc hs
    refine ⟨lost', h', hc', ?_⟩
    rw [run_guarded_concat_iff hrun hs, hiff, hkeeps]
    omega

/-! ## Fairness -/

/-- The pool is fair, work-conserving and bounded. -/
structure Fair (s : PermitPool) : Prop where
  counted : s.inflight = s.livePermits + s.grantsSent
  admitted : ∀ g ∈ s.grants, g.inflight < g.max
  logged : ∀ w a, s.calls[w]? = some a → a.isPermit ∨ a.isGranted → w ∈ s.grants.map Grant.call
  conserving : ∀ w, s.LiveWaiter w → s.max ≤ s.inflight
  ordered : (s.grants.map Grant.call).Pairwise (· < ·)
  noBarging : ∀ i j a, i < j → j ∈ s.grants.map Grant.call → s.calls[i]? = some a →
    a ≠ .dropped → i ∈ s.grants.map Grant.call

theorem PoolInv.fair (h : PoolInv 0 s) (hc : Conserving s) : Fair s where
  counted := h.counted.symm
  admitted := h.admitted
  logged := by
    intro w a ha hheld
    rcases h.accounted w a ha with rfl | hwaiting | hmem
    · rcases hheld with hheld | hheld <;> cases hheld
    · have := weight_of_isWaiting hwaiting
      unfold weight at this
      rcases hheld with hheld | hheld <;> simp [hheld] at this
    · exact hmem
  conserving := hc
  ordered := h.grantsOrdered
  noBarging := by
    intro i j a hij hj ha hnd
    rcases h.accounted i a ha with hd | hwaiting | hmem
    · exact absurd hd hnd
    · -- a call still waiting is behind every grant
      obtain ⟨g, hg, rfl⟩ := List.mem_map.mp hj
      exact absurd (h.ahead g hg i ⟨h.queued i a ha hwaiting, a, ha, hwaiting⟩) hij.not_gt
    · exact hmem

/-- While no future is dropped that a grant was sent to, `inflight` counts the live permits and the
grants on their way, permits are counted only below the limit and nobody waits below it, and they
go to the surviving callers in the order of their calls. -/
theorem fair_run {es : List Event}
    (h : Run (Guarded (ofPartial PermitPool.step) KeepsGrants) (new m) es s) : Fair s := by
  obtain ⟨lost, hinv, hc, hiff⟩ := poolInv_run h.unguard
  obtain rfl := hiff.mp h
  exact hinv.fair hc

/-- Three callers of a pool of one permit, the second of which gives up; raising the limit grants
the third. -/
def resized : List Event :=
  [.acquire, .acquire, .acquire, .cancel 1, .setMax 2, .poll 2, .dropPermit 0]

theorem fair_run_resized :
    ∃ s, Run (Guarded (ofPartial PermitPool.step) KeepsGrants) (new 1) resized s ∧ Fair s ∧
      s.grants.map Grant.call = [0, 2] := by
  obtain ⟨s, hrun, hs⟩ := exists_run_of_any (new 1) resized
    (f := fun s e => if s.KeepsGrants e then s.step e else none)
    (p := fun s => s.grants.map Grant.call = [0, 2]) (by decide)
  rw [← guarded_ofPartial] at hrun
  exact ⟨s, hrun, fair_run hrun, of_decide_eq_true hs⟩

/-! ## Cancel-safety -/

/-- No permit is live and no call of `acquire` is pending. -/
def Idle (s : PermitPool) : Prop := ∀ a ∈ s.calls, a.isPermit = false ∧ a.isPending = false

/-- `inflight` is zero, and the next `max` calls of `acquire` return without waiting. -/
def Drained (s : PermitPool) : Prop :=
  s.inflight = 0 ∧
    ∀ i < s.max, (PermitPool.acquire^[s.max] s).calls[s.calls.length + i]? = some .returned

theorem Idle.heldBy (h : Idle s) : heldBy s.calls = 0 := by
  have hgranted : ∀ a : Acquire, a.isPending = false → a.isGranted = false := by
    intro a ha
    obtain ⟨rx⟩ | _ | _ | _ := a <;> first | rfl | cases ha
  unfold PermitPool.heldBy
  rw [List.countP_eq_zero.mpr fun a ha => by simp [(h a ha).1],
    List.countP_eq_zero.mpr fun a ha => by simp [hgranted a (h a ha).2]]

/-- Calls of `acquire` return at once while there is room. -/
theorem acquire_iterate (s : PermitPool) (n : ℕ) (h : s.inflight + n ≤ s.max) :
    (PermitPool.acquire^[n] s).inflight = s.inflight + n ∧
      (PermitPool.acquire^[n] s).max = s.max ∧
      (PermitPool.acquire^[n] s).calls = s.calls ++ List.replicate n .returned := by
  induction n with
  | zero => simp
  | succ n ih =>
    obtain ⟨hinflight, hmax, hcalls⟩ := ih (by omega)
    rw [Function.iterate_succ_apply']
    generalize PermitPool.acquire^[n] s = t at hinflight hmax hcalls
    have hroom : t.inflight < t.max := by omega
    unfold PermitPool.acquire lockOnce
    rw [if_pos hroom]
    refine ⟨by show t.inflight + 1 = _; omega, hmax, ?_⟩
    show t.calls ++ [Acquire.returned] = _
    rw [hcalls, List.replicate_succ', List.append_assoc]

/-- Once nobody holds a permit or waits for one, the pool is drained exactly when no future was
dropped that a grant had been sent to. -/
theorem drained_iff_keepsGrants {es : List Event}
    (h : Run (ofPartial PermitPool.step) (new m) es s) (hidle : Idle s) :
    Drained s ↔ Run (Guarded (ofPartial PermitPool.step) KeepsGrants) (new m) es s := by
  obtain ⟨lost, hinv, -, hiff⟩ := poolInv_run h
  have hcounted := hinv.counted
  rw [hidle.heldBy, Nat.zero_add] at hcounted
  rw [hiff, hcounted]
  refine ⟨fun hdrained => hdrained.1, fun hzero => ⟨hzero, fun i hi => ?_⟩⟩
  obtain ⟨-, -, hcalls⟩ := acquire_iterate s s.max (by omega)
  rw [hcalls, List.getElem?_append_right (Nat.le_add_right _ _), Nat.add_sub_cancel_left]
  simp [hi]

/-- Two callers of a pool of one permit, which the second gets when the first is done. -/
def handedOver : List Event :=
  [.acquire, .acquire, .dropPermit 0, .poll 1, .dropPermit 1]

theorem drained_iff_keepsGrants_handedOver :
    ∃ s, Run (ofPartial PermitPool.step) (new 1) handedOver s ∧ Drained s := by
  obtain ⟨s, hrun, hs⟩ := exists_run_of_any (new 1) handedOver
    (f := fun s e => if s.KeepsGrants e then s.step e else none)
    (p := fun s => s.calls.all fun a => !a.isPermit && !a.isPending) (by decide)
  rw [← guarded_ofPartial] at hrun
  have hidle : Idle s := by simpa [Idle] using hs
  exact ⟨s, hrun.unguard, (drained_iff_keepsGrants hrun.unguard hidle).mpr hrun⟩

/-- The second caller gives up after the grant was sent to it, and the pool's only permit is gone. -/
theorem not_drained_grantDropped :
    ∃ s, Run (ofPartial PermitPool.step) (new 1)
        [.acquire, .acquire, .dropPermit 0, .cancel 1] s ∧
      Idle s ∧ s.inflight = 1 ∧ ¬ Drained s := by
  obtain ⟨s, hrun, hs⟩ := exists_run_of_any (new 1)
    [.acquire, .acquire, .dropPermit 0, .cancel 1] (f := PermitPool.step)
    (p := fun s => s.inflight = 1 ∧ s.calls.all fun a => !a.isPermit && !a.isPending) (by decide)
  obtain ⟨hinflight, hidle⟩ := of_decide_eq_true hs
  exact ⟨s, hrun, by simpa [Idle] using hidle, hinflight, fun hdrained => by
    have := hdrained.1
    omega⟩

end PermitPool

end Termua.Limiter
