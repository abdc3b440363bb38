import Mathlib
import Termua.Lib.Run

/-!
# Shutting a terminal down

`ShutdownState`, `poll_shutdown` and the shutdown of the WezTerm backend in
`gpui_term/src/backends/wezterm/mod.rs`. The policies of several requests are merged into the time of
the first request and the shortest delay. A delay that a later request shortens runs from the first
request, not from its own; `KeepsDelay` is the condition under which no request does that. The log
of requests, exits and kills is kept beside the state.
-/

namespace Termua.Terminal

open Transition

/-- `TerminalShutdownPolicy`. -/
inductive ShutdownPolicy
  | graceful
  | gracefulThenKill (d : ℕ)
  | kill
  deriving DecidableEq

/-- `ShutdownState`. -/
structure ShutdownState where
  requestedAt : Option ℕ := none
  killAfter : Option ℕ := none
  killSent : Bool := false
  deriving DecidableEq

/-- What the embedding application sees: requests and kills with their times, and the exit of the
child as the backend hears of it. -/
inductive LogEntry
  | request (t : ℕ) (policy : ShutdownPolicy)
  | exit
  | kill (t : ℕ)
  deriving DecidableEq

/-- The part of `WezTermBackend` that a shutdown uses, with the clock and the log. -/
structure Backend where
  shutdown : ShutdownState := {}
  exited : Bool := false
  writerClosed : Bool := false
  now : ℕ := 0
  log : List LogEntry := []
  deriving DecidableEq

/-- `ChildKiller::kill`. -/
def Backend.childKill (b : Backend) : Backend := { b with log := b.log ++ [LogEntry.kill b.now] }

/-- `poll_shutdown`. -/
def pollShutdown (b : Backend) : Backend :=
  if b.exited || b.shutdown.killSent then b
  else
    match b.shutdown.requestedAt, b.shutdown.killAfter with
    | some requestedAt, some killAfter =>
      if killAfter ≤ b.now - requestedAt then
        { b.childKill with shutdown := { b.shutdown with killSent := true } }
      else b
    | _, _ => b

/-- The delay that a policy asks for. -/
def ShutdownPolicy.killAfter : ShutdownPolicy → Option ℕ
  | .graceful => none
  | .gracefulThenKill d => some d
  | .kill => some 0

/-- The request merged into the pending one. -/
def ShutdownState.request (s : ShutdownState) (now : ℕ) (policy : ShutdownPolicy) :
    ShutdownState where
  requestedAt := some (s.requestedAt.getD now)
  killAfter :=
    match policy.killAfter with
    | some new => some (match s.killAfter with | some existing => min existing new | none => new)
    | none => s.killAfter
  killSent := s.killSent

/-- `shutdown`. -/
def shutdown (b : Backend) (policy : ShutdownPolicy) : Backend :=
  let b := { b with log := b.log ++ [LogEntry.request b.now policy] }
  if b.exited then b
  else
    let b := { b with writerClosed := true, shutdown := b.shutdown.request b.now policy }
    if policy = .kill && !b.shutdown.killSent then
      { b.childKill with shutdown := { b.shutdown with killSent := true } }
    else b

/-- `handle_backend_event` of `PtyExit`. -/
def ptyExit (b : Backend) : Backend :=
  if b.exited then b else { b with exited := true, log := b.log ++ [LogEntry.exit] }

/-- What happens to the backend. -/
inductive Event
  | shutdown (policy : ShutdownPolicy)
  | sync
  | ptyExit
  deriving DecidableEq

/-- An event at a time that the clock has not passed. -/
def step (b : Backend) (e : ℕ × Event) : Option Backend :=
  if b.now ≤ e.1 then
    let b := { b with now := e.1 }
    match e.2 with
    | .shutdown policy => some (shutdown b policy)
    | .sync => some (pollShutdown b)
    | .ptyExit => some (ptyExit b)
  else none

/-! ## The law -/

/-- A kill was due: a request for an immediate one, or a delay that has run since its request. -/
def Due (log : List LogEntry) (t : ℕ) : Prop :=
  (∃ t₀, LogEntry.request t₀ .kill ∈ log) ∨
    ∃ t₀ d, LogEntry.request t₀ (.gracefulThenKill d) ∈ log ∧ t₀ + d ≤ t

/-- What a log may say: a kill comes at most once, not after the exit, and when it is due. -/
structure Lawful (log : List LogEntry) : Prop where
  once : ∀ before t after, log = before ++ LogEntry.kill t :: after → ∀ t', LogEntry.kill t' ∉ before
  alive : ∀ before t after, log = before ++ LogEntry.kill t :: after → LogEntry.exit ∉ before
  due : ∀ before t after, log = before ++ LogEntry.kill t :: after → Due before t

theorem Lawful.nil : Lawful [] := by
  constructor <;> intro before t after h <;> exact absurd h.symm (by simp)

/-- Where a log with one more entry is split, it is split at that entry or before. -/
theorem split_concat {log before after : List LogEntry} {e x : LogEntry}
    (h : log ++ [e] = before ++ x :: after) :
    (e = x ∧ log = before) ∨ ∃ rest, log = before ++ x :: rest := by
  rcases List.eq_nil_or_concat after with rfl | ⟨rest, y, rfl⟩
  · obtain ⟨rfl, hx⟩ := List.append_inj' h rfl
    exact .inl ⟨List.singleton_inj.mp hx, rfl⟩
  · rw [List.concat_eq_append, ← List.cons_append, ← List.append_assoc] at h
    exact .inr ⟨rest, (List.append_inj' h rfl).1⟩

/-- An entry that is no kill keeps the law. -/
theorem Lawful.concat {log : List LogEntry} (h : Lawful log) {e : LogEntry}
    (he : ∀ t, e ≠ .kill t) : Lawful (log ++ [e]) := by
  constructor
  · intro before t after hsplit
    rcases split_concat hsplit with ⟨rfl, -⟩ | ⟨rest, hrest⟩
    · exact absurd rfl (he t)
    · exact h.once before t rest hrest
  · intro before t after hsplit
    rcases split_concat hsplit with ⟨rfl, -⟩ | ⟨rest, hrest⟩
    · exact absurd rfl (he t)
    · exact h.alive before t rest hrest
  · intro before t after hsplit
    rcases split_concat hsplit with ⟨rfl, -⟩ | ⟨rest, hrest⟩
    · exact absurd rfl (he t)
    · exact h.due before t rest hrest

/-- A first kill that is due, of a child that has not exited, keeps the law. -/
theorem Lawful.concat_kill {log : List LogEntry} (h : Lawful log) {t : ℕ}
    (hfirst : ∀ t', LogEntry.kill t' ∉ log) (halive : LogEntry.exit ∉ log) (hdue : Due log t) :
    Lawful (log ++ [.kill t]) := by
  constructor
  · intro before t' after hsplit
    rcases split_concat hsplit with ⟨-, rfl⟩ | ⟨rest, hrest⟩
    · exact hfirst
    · exact h.once before t' rest hrest
  · intro before t' after hsplit
    rcases split_concat hsplit with ⟨-, rfl⟩ | ⟨rest, hrest⟩
    · exact halive
    · exact h.alive before t' rest hrest
  · intro before t' after hsplit
    rcases split_concat hsplit with ⟨ht, rfl⟩ | ⟨rest, hrest⟩
    · obtain rfl := LogEntry.kill.inj ht
      exact hdue
    · exact h.due before t' rest hrest

theorem Due.append {log : List LogEntry} {t : ℕ} (h : Due log t) (e : LogEntry) :
    Due (log ++ [e]) t := by
  rcases h with ⟨t₀, h⟩ | ⟨t₀, d, h, hd⟩
  · exact .inl ⟨t₀, List.mem_append_left _ h⟩
  · exact .inr ⟨t₀, d, List.mem_append_left _ h, hd⟩

/-! ## Requests that keep the pending delay -/

/-- A request for a kill after `d` does not shorten a delay that runs from an earlier request: it is
the first, or made at the time of the first, or for a kill now, or for one not sooner than the delay
that is pending, or made when that delay has run out. -/
def KeepsDelay (s : ShutdownState) (t d : ℕ) : Prop :=
  s.requestedAt = none ∨ s.requestedAt = some t ∨ d = 0 ∨
    ∃ t₀ k, s.requestedAt = some t₀ ∧ s.killAfter = some k ∧ (k ≤ d ∨ t₀ + k ≤ t)

/-- The condition on a step. -/
def StepKeepsDelay (b : Backend) (e : ℕ × Event) : Prop :=
  ∀ d, e.2 = .shutdown (.gracefulThenKill d) → b.exited = false → b.shutdown.killSent = false →
    KeepsDelay b.shutdown e.1 d

/-- What holds of the backend and its log. -/
structure BackendInv (b : Backend) : Prop where
  lawful : Lawful b.log
  exit : LogEntry.exit ∈ b.log → b.exited = true
  killed : ∀ t, LogEntry.kill t ∈ b.log → b.shutdown.killSent = true
  unasked : b.shutdown.requestedAt = none → b.shutdown.killAfter = none
  asked : ∀ t₀, b.shutdown.requestedAt = some t₀ → t₀ ≤ b.now
  due : ∀ t₀ k t, b.exited = false → b.shutdown.killSent = false →
    b.shutdown.requestedAt = some t₀ → b.shutdown.killAfter = some k → b.now ≤ t → t₀ + k ≤ t →
    Due b.log t

theorem BackendInv.start : BackendInv {} where
  lawful := .nil
  exit := nofun
  killed := nofun
  unasked := fun _ => rfl
  asked := nofun
  due := nofun

theorem BackendInv.wait {b : Backend} (h : BackendInv b) {t : ℕ} (ht : b.now ≤ t) :
    BackendInv { b with now := t } where
  lawful := h.lawful
  exit := h.exit
  killed := h.killed
  unasked := h.unasked
  asked := fun t₀ hrequested => (h.asked t₀ hrequested).trans ht
  due := fun t₀ k t' hexited hkillSent hrequested hkillAfter ht' hk =>
    h.due t₀ k t' hexited hkillSent hrequested hkillAfter (ht.trans ht') hk

/-- A kill of a child that has not been killed or exited. -/
theorem BackendInv.kill {b : Backend} (h : BackendInv b) (hexited : b.exited = false)
    (hkillSent : b.shutdown.killSent = false) (hdue : Due b.log b.now) :
    BackendInv { b.childKill with shutdown := { b.shutdown with killSent := true } } where
  lawful := by
    refine h.lawful.concat_kill (fun t' hkill => ?_) (fun hexit => ?_) hdue
    · exact absurd (h.killed t' hkill) (by simp [hkillSent])
    · exact absurd (h.exit hexit) (by simp [hexited])
  exit := by
    intro hexit
    rcases List.mem_append.mp hexit with hexit | hexit
    · exact h.exit hexit
    · exact absurd (List.mem_singleton.mp hexit) (by simp)
  killed := fun _ _ => rfl
  unasked := h.unasked
  asked := h.asked
  due := by
    intro t₀ k t _ hkillSent'
    cases hkillSent'

theorem BackendInv.pollShutdown {b : Backend} (h : BackendInv b) :
    BackendInv (pollShutdown b) := by
  unfold Terminal.pollShutdown
  split
  · exact h
  · next hlive =>
    simp only [Bool.or_eq_true, not_or, Bool.not_eq_true] at hlive
    split
    · next requestedAt killAfter hrequested hkillAfter =>
      split
      · next helapsed =>
        refine h.kill hlive.1 hlive.2 ?_
        have hle := h.asked requestedAt hrequested
        exact h.due requestedAt killAfter b.now hlive.1 hlive.2 hrequested hkillAfter le_rfl
          (by omega)
      · exact h
    · exact h

/-- An entry that is no kill and no exit, beside the state. -/
theorem BackendInv.log {b : Backend} (h : BackendInv b) {e : LogEntry} (hkill : ∀ t, e ≠ .kill t)
    (hexit : e ≠ .exit) : BackendInv { b with log := b.log ++ [e] } where
  lawful := h.lawful.concat hkill
  exit := by
    intro hmem
    rcases List.mem_append.mp hmem with hmem | hmem
    · exact h.exit hmem
    · exact absurd (List.mem_singleton.mp hmem).symm hexit
  killed := by
    intro t hmem
    rcases List.mem_append.mp hmem with hmem | hmem
    · exact h.killed t hmem
    · exact absurd (List.mem_singleton.mp hmem).symm (hkill t)
  unasked := h.unasked
  asked := h.asked
  due := fun t₀ k t hexited hkillSent hrequested hkillAfter ht hk =>
    (h.due t₀ k t hexited hkillSent hrequested hkillAfter ht hk).append e

/-- The time of the first request stays. -/
theorem ShutdownState.request_requestedAt {s : ShutdownState} {now t₀ : ℕ} {policy : ShutdownPolicy}
    (h : (s.request now policy).requestedAt = some t₀) :
    s.requestedAt = some t₀ ∨ s.requestedAt = none ∧ t₀ = now := by
  unfold request at h
  rcases hrequested : s.requestedAt with _ | t₁
  · exact .inr ⟨rfl, by simpa [hrequested] using h.symm⟩
  · exact .inl (by simpa [hrequested] using h)

theorem ShutdownState.request_le {s : ShutdownState} {now t₀ : ℕ} (policy : ShutdownPolicy)
    (hs : ∀ t₀, s.requestedAt = some t₀ → t₀ ≤ now)
    (h : (s.request now policy).requestedAt = some t₀) : t₀ ≤ now := by
  rcases request_requestedAt h with hrequested | ⟨-, rfl⟩
  · exact hs t₀ hrequested
  · exact le_rfl

/-- The shorter of the two delays is pending after a request. -/
theorem ShutdownState.request_killAfter {s : ShutdownState} {now d k : ℕ}
    (h : (s.request now (.gracefulThenKill d)).killAfter = some k) :
    (k = d ∧ ∀ k', s.killAfter = some k' → d ≤ k') ∨ s.killAfter = some k ∧ k ≤ d := by
  unfold request at h
  rcases hkillAfter : s.killAfter with _ | existing
  · rw [hkillAfter] at h
    exact .inl ⟨(Option.some.inj h).symm, nofun⟩
  · rw [hkillAfter] at h
    obtain rfl : min existing d = k := Option.some.inj h
    rcases Nat.le_total existing d with hle | hle
    · rw [Nat.min_eq_left hle]
      exact .inr ⟨rfl, hle⟩
    · rw [Nat.min_eq_right hle]
      exact .inl ⟨rfl, fun k' hk' => Option.some.inj hk' ▸ hle⟩

/-- A request that keeps the pending delay, merged into the state after it was logged. -/
theorem BackendInv.request {b : Backend} (h : BackendInv b) {policy : ShutdownPolicy}
    (hlog : LogEntry.request b.now policy ∈ b.log)
    (hkeeps : ∀ d, policy = .gracefulThenKill d → b.exited = false → b.shutdown.killSent = false →
      KeepsDelay b.shutdown b.now d) :
    BackendInv { b with writerClosed := true, shutdown := b.shutdown.request b.now policy } where
  lawful := h.lawful
  exit := h.exit
  killed := h.killed
  unasked := nofun
  asked := fun t₀ hrequested => ShutdownState.request_le policy h.asked hrequested
  due := by
    intro t₀ k t hexited hkillSent hrequested hkillAfter ht hk
    replace hrequested := ShutdownState.request_requestedAt hrequested
    change b.now ≤ t at ht
    have hold : ∀ k', b.shutdown.killAfter = some k' → t₀ + k' ≤ t → Due b.log t := by
      intro k' hkillAfter' hk'
      rcases hrequested with hrequested | ⟨hnone, -⟩
      · exact h.due t₀ k' t hexited hkillSent hrequested hkillAfter' ht hk'
      · rw [h.unasked hnone] at hkillAfter'
        cases hkillAfter'
    rcases policy with _ | d | _
    · exact hold k hkillAfter hk
    · -- the delay that runs out at `t` is the pending one or the one of this request
      have hnew : b.now + d ≤ t → Due b.log t := fun hd => .inr ⟨b.now, d, hlog, hd⟩
      rcases ShutdownState.request_killAfter hkillAfter with ⟨rfl, hshorter⟩ | ⟨hpending, -⟩
      swap
      · exact hold k hpending hk
      rcases hkeeps k rfl hexited hkillSent with hnone | hnow | rfl | ⟨t₁, k', hfirst, hpending, hk'⟩
      · rcases hrequested with hrequested | ⟨-, rfl⟩
        · exact absurd (hnone.symm.trans hrequested) (by simp)
        · exact hnew hk
      · rcases hrequested with hrequested | ⟨-, rfl⟩
        · obtain rfl := Option.some.inj (hnow.symm.trans hrequested)
          exact hnew hk
        · exact hnew hk
      · exact hnew ht
      · have hle := hshorter k' hpending
        refine hold k' hpending ?_
        rcases hrequested with hrequested | ⟨hnone, -⟩
        · obtain rfl := Option.some.inj (hfirst.symm.trans hrequested)
          omega
        · exact absurd (hnone.symm.trans hfirst) (by simp)
    · exact .inl ⟨b.now, hlog⟩

theorem BackendInv.shutdown {b : Backend} (h : BackendInv b) {policy : ShutdownPolicy}
    (hkeeps : ∀ d, policy = .gracefulThenKill d → b.exited = false → b.shutdown.killSent = false →
      KeepsDelay b.shutdown b.now d) :
    BackendInv (shutdown b policy) := by
  have hlog : BackendInv { b with log := b.log ++ [LogEntry.request b.now policy] } :=
    h.log nofun nofun
  have hmem : LogEntry.request b.now policy ∈ b.log ++ [LogEntry.request b.now policy] :=
    List.mem_append_right _ (List.mem_singleton_self _)
  have hrequest := hlog.request hmem hkeeps
  unfold Terminal.shutdown
  simp only
  split
  · exact hlog
  · next hlive =>
    split
    · next hkill =>
      simp only [Bool.and_eq_true, Bool.not_eq_true', decide_eq_true_eq] at hkill
      obtain ⟨rfl, hkillSent⟩ := hkill
      exact hrequest.kill (Bool.eq_false_iff.mpr hlive) hkillSent (.inl ⟨b.now, hmem⟩)
    · exact hrequest

theorem BackendInv.ptyExit {b : Backend} (h : BackendInv b) : BackendInv (ptyExit b) := by
  unfold Terminal.ptyExit
  split
  · exact h
  · exact
      { lawful := h.lawful.concat nofun
        exit := fun _ => rfl
        killed := by
          intro t hmem
          rcases List.mem_append.mp hmem with hmem | hmem
          · exact h.killed t hmem
          · exact absurd (List.mem_singleton.mp hmem) (by simp)
        unasked := h.unasked
        asked := h.asked
        due := by
          intro t₀ k t hexited
          cases hexited }

/-- Every step that meets the condition keeps the invariant. -/
theorem BackendInv.step {b b' : Backend} {e : ℕ × Event} (h : BackendInv b)
    (hkeeps : StepKeepsDelay b e) (hs : step b e = some b') : BackendInv b' := by
  obtain ⟨t, event⟩ := e
  unfold Terminal.step at hs
  split at hs
  · next ht =>
    have hwait := h.wait ht
    rcases event with policy | _ | _
    · obtain rfl := Option.some.inj hs
      refine hwait.shutdown ?_
      rintro d rfl
      exact hkeeps d rfl
    · obtain rfl := Option.some.inj hs
      exact hwait.pollShutdown
    · obtain rfl := Option.some.inj hs
      exact hwait.ptyExit
  · cases hs

/-! ## A request that shortens the pending delay -/

/-- What the log says about the merged state of a backend that is not killed. -/
structure Merged (b : Backend) : Prop where
  asked : ∀ t₀, b.shutdown.requestedAt = some t₀ → t₀ ≤ b.now
  unkilled : b.exited = false → b.shutdown.killSent = false → ∀ t, LogEntry.request t .kill ∉ b.log
  shortest : b.exited = false → b.shutdown.killSent = false →
    ∀ t d, LogEntry.request t (.gracefulThenKill d) ∈ b.log →
      ∃ t₀ k, b.shutdown.requestedAt = some t₀ ∧ b.shutdown.killAfter = some k ∧ t₀ ≤ t ∧ k ≤ d

theorem Merged.start : Merged {} where
  asked := nofun
  unkilled := nofun
  shortest := nofun

theorem Merged.wait {b : Backend} (h : Merged b) {t : ℕ} (ht : b.now ≤ t) :
    Merged { b with now := t } where
  asked := fun t₀ hrequested => (h.asked t₀ hrequested).trans ht
  unkilled := h.unkilled
  shortest := h.shortest

theorem Merged.pollShutdown {b : Backend} (h : Merged b) : Merged (pollShutdown b) := by
  unfold Terminal.pollShutdown
  split
  · exact h
  · split
    · split
      · exact ⟨h.asked, nofun, nofun⟩
      · exact h
    · exact h

theorem Merged.ptyExit {b : Backend} (h : Merged b) : Merged (ptyExit b) := by
  unfold Terminal.ptyExit
  split
  · exact h
  · exact ⟨h.asked, nofun, nofun⟩

/-- A request is merged into the shortest delay since the first one. -/
theorem Merged.request {b : Backend} (h : Merged b) {policy : ShutdownPolicy}
    (hpolicy : policy ≠ .kill) :
    Merged { b with
      writerClosed := true
      shutdown := b.shutdown.request b.now policy
      log := b.log ++ [LogEntry.request b.now policy] } where
  asked := fun t₀ hrequested => ShutdownState.request_le policy h.asked hrequested
  unkilled := by
    intro hexited hkillSent t hmem
    rcases List.mem_append.mp hmem with hmem | hmem
    · exact h.unkilled hexited hkillSent t hmem
    · exact hpolicy (LogEntry.request.inj (List.mem_singleton.mp hmem)).2.symm
  -- an earlier request keeps its delay or gets a shorter one, and the new one counts from the first
  shortest := by
    intro hexited hkillSent t d hmem
    rcases List.mem_append.mp hmem with hmem | hmem
    · obtain ⟨t₀, k, hrequested, hkillAfter, ht, hk⟩ := h.shortest hexited hkillSent t d hmem
      rcases policy with _ | new | _
      · exact ⟨t₀, k, by simp [ShutdownState.request, hrequested], hkillAfter, ht, hk⟩
      · exact ⟨t₀, min k new, by simp [ShutdownState.request, hrequested],
          by simp [ShutdownState.request, ShutdownPolicy.killAfter, hkillAfter], ht, by omega⟩
      · exact absurd rfl hpolicy
    · obtain ⟨rfl, rfl⟩ := LogEntry.request.inj (List.mem_singleton.mp hmem)
      have hasked : b.shutdown.requestedAt.getD b.now ≤ b.now := by
        rcases hrequested : b.shutdown.requestedAt with _ | t₀
        · exact le_rfl
        · exact h.asked t₀ hrequested
      rcases hkillAfter : b.shutdown.killAfter with _ | k
      · exact ⟨_, d, rfl, by simp [ShutdownState.request, ShutdownPolicy.killAfter, hkillAfter],
          hasked, le_rfl⟩
      · exact ⟨_, min k d, rfl,
          by simp [ShutdownState.request, ShutdownPolicy.killAfter, hkillAfter], hasked,
          Nat.min_le_right k d⟩

theorem Merged.shutdown {b : Backend} (h : Merged b) {policy : ShutdownPolicy} :
    Merged (shutdown b policy) := by
  unfold Terminal.shutdown
  simp only
  split
  · next hexited => exact ⟨h.asked, by simp [hexited], by simp [hexited]⟩
  · split
    · exact ⟨fun t₀ hrequested => ShutdownState.request_le policy h.asked hrequested, nofun, nofun⟩
    · next hkill =>
      by_cases hpolicy : policy = .kill
      · subst hpolicy
        have hkillSent : b.shutdown.killSent = true := by
          simpa [ShutdownState.request] using hkill
        refine ⟨fun t₀ hrequested => ShutdownState.request_le .kill h.asked hrequested,
          fun _ hkillSent' => ?_, fun _ hkillSent' => ?_⟩
        · exact absurd (hkillSent.symm.trans hkillSent') (by simp)
        · exact absurd (hkillSent.symm.trans hkillSent') (by simp)
      · exact h.request hpolicy

theorem Merged.step {b b' : Backend} {e : ℕ × Event} (h : Merged b) (hs : step b e = some b') :
    Merged b' := by
  obtain ⟨t, event⟩ := e
  unfold Terminal.step at hs
  split at hs
  · next ht =>
    have hwait := h.wait ht
    rcases event with policy | _ | _
    · obtain rfl := Option.some.inj hs
      exact hwait.shutdown
    · obtain rfl := Option.some.inj hs
      exact hwait.pollShutdown
    · obtain rfl := Option.some.inj hs
      exact hwait.ptyExit
  · cases hs

/-- A request that does not keep the pending delay can be followed by a kill before any delay has run
since its request. -/
theorem not_lawful_of_not_keepsDelay {es : List (ℕ × Event)} {b : Backend}
    (h : Run (ofPartial step) {} es b) {t d : ℕ} (ht : b.now ≤ t) (hexited : b.exited = false)
    (hkillSent : b.shutdown.killSent = false) (hkeeps : ¬ KeepsDelay b.shutdown t d) :
    ∃ t' b', Run (ofPartial step) b [(t, .shutdown (.gracefulThenKill d)), (t', .sync)] b' ∧
      ¬ Lawful b'.log := by
  have hmerged : Merged b := h.invariant .start fun _ _ _ _ _ hb hs => hb.step hs
  unfold KeepsDelay at hkeeps
  push Not at hkeeps
  obtain ⟨hasked, hlater, hd, hpending⟩ := hkeeps
  obtain ⟨t₀, hrequested⟩ := Option.ne_none_iff_exists'.mp hasked
  have ht₀ := hmerged.asked t₀ hrequested
  have hne : t₀ ≠ t := fun heq => hlater (heq ▸ hrequested)
  -- the request makes `d` the pending delay, and it runs from `t₀`
  have hnew : (b.shutdown.request t (.gracefulThenKill d)).killAfter = some d := by
    rcases hkillAfter : b.shutdown.killAfter with _ | k
    · simp [ShutdownState.request, ShutdownPolicy.killAfter, hkillAfter]
    · have hlt := (hpending t₀ k hrequested hkillAfter).1
      have hmin : min k d = d := Nat.min_eq_right hlt.le
      simp [ShutdownState.request, ShutdownPolicy.killAfter, hkillAfter, hmin]
  have hfirst : (b.shutdown.request t (.gracefulThenKill d)).requestedAt = some t₀ := by
    simp [ShutdownState.request, hrequested]
  have hrequest : Terminal.step b (t, .shutdown (.gracefulThenKill d)) = some { b with
      now := t
      writerClosed := true
      shutdown := b.shutdown.request t (.gracefulThenKill d)
      log := b.log ++ [LogEntry.request t (.gracefulThenKill d)] } := by
    unfold Terminal.step Terminal.shutdown
    simp [ht, hexited]
  have hsync : Terminal.step { b with
      now := t
      writerClosed := true
      shutdown := b.shutdown.request t (.gracefulThenKill d)
      log := b.log ++ [LogEntry.request t (.gracefulThenKill d)] } (max t (t₀ + d), .sync) =
      some { b with
        now := max t (t₀ + d)
        writerClosed := true
        shutdown := { b.shutdown.request t (.gracefulThenKill d) with killSent := true }
        log := b.log ++ [LogEntry.request t (.gracefulThenKill d)] ++
          [LogEntry.kill (max t (t₀ + d))] } := by
    have helapsed : d ≤ max t (t₀ + d) - t₀ := by omega
    have hle : t ≤ max t (t₀ + d) := by omega
    unfold Terminal.step Terminal.pollShutdown
    simp only [if_pos hle, hexited, hfirst, hnew, if_pos helapsed]
    simp [ShutdownState.request, hkillSent, Backend.childKill]
  refine ⟨max t (t₀ + d), _, .next (.next .start hrequest) hsync, fun hlawful => ?_⟩
  rcases hlawful.due _ _ [] rfl with ⟨t₁, hmem⟩ | ⟨t₁, d₁, hmem, hdue⟩
  · rcases List.mem_append.mp hmem with hmem | hmem
    · exact hmerged.unkilled hexited hkillSent t₁ hmem
    · exact absurd (List.mem_singleton.mp hmem) (by simp)
  · rcases List.mem_append.mp hmem with hmem | hmem
    · obtain ⟨t₂, k, hrequested', hkillAfter, ht₁, hk⟩ :=
        hmerged.shortest hexited hkillSent t₁ d₁ hmem
      obtain rfl := Option.some.inj (hrequested.symm.trans hrequested')
      have hlt := hpending t₀ k hrequested hkillAfter
      omega
    · obtain ⟨rfl, hd₁⟩ := LogEntry.request.inj (List.mem_singleton.mp hmem)
      obtain rfl := ShutdownPolicy.gracefulThenKill.inj hd₁
      omega

/-! ## Runs -/

/-- In every run whose requests keep the pending delay, a kill comes at most once, not after the
exit, and when it is due. -/
theorem lawful_run {es : List (ℕ × Event)} {b : Backend}
    (h : Run (Guarded (ofPartial step) StepKeepsDelay) {} es b) : Lawful b.log := by
  have hinv : BackendInv b := by
    refine h.invariant .start fun _ _ _ _ _ hb hs => ?_
    exact hb.step hs.1 hs.2
  exact hinv.lawful

/-! ## Two runs -/

/-- Two requests with delays, of which the later one is not the shorter. -/
theorem lawful_run_twoDelays : ∃ b : Backend,
    Run (Guarded (ofPartial step) StepKeepsDelay) {}
      [(0, .shutdown (.gracefulThenKill 3)), (2, .shutdown (.gracefulThenKill 5)), (4, .sync)] b ∧
    LogEntry.kill 4 ∈ b.log ∧ Lawful b.log := by
  -- the first request sets the delay, and the second asks for a later kill
  have hfirst : StepKeepsDelay {} (0, .shutdown (.gracefulThenKill 3)) :=
    fun _ _ _ _ => .inl rfl
  have hsecond : StepKeepsDelay
      { shutdown := ⟨some 0, some 3, false⟩
        writerClosed := true
        log := [LogEntry.request 0 (.gracefulThenKill 3)] }
      (2, .shutdown (.gracefulThenKill 5)) := by
    intro d hd _ _
    obtain rfl := ShutdownPolicy.gracefulThenKill.inj (Event.shutdown.inj hd)
    exact .inr (.inr (.inr ⟨0, 3, rfl, rfl, .inl (by omega)⟩))
  have hrun₁ : Run (Guarded (ofPartial step) StepKeepsDelay) {} [(0, .shutdown (.gracefulThenKill 3))]
      { shutdown := ⟨some 0, some 3, false⟩
        writerClosed := true
        log := [LogEntry.request 0 (.gracefulThenKill 3)] } := .next .start ⟨hfirst, rfl⟩
  have hrun₂ : Run (Guarded (ofPartial step) StepKeepsDelay) {}
      [(0, .shutdown (.gracefulThenKill 3)), (2, .shutdown (.gracefulThenKill 5))]
      { shutdown := ⟨some 0, some 3, false⟩
        writerClosed := true
        now := 2
        log := [LogEntry.request 0 (.gracefulThenKill 3), LogEntry.request 2 (.gracefulThenKill 5)] } :=
    .next hrun₁ ⟨hsecond, rfl⟩
  have hrun₃ : Run (Guarded (ofPartial step) StepKeepsDelay) {}
      [(0, .shutdown (.gracefulThenKill 3)), (2, .shutdown (.gracefulThenKill 5)), (4, .sync)]
      { shutdown := ⟨some 0, some 3, true⟩
        writerClosed := true
        now := 4
        log := [LogEntry.request 0 (.gracefulThenKill 3), LogEntry.request 2 (.gracefulThenKill 5),
          LogEntry.kill 4] } :=
    .next hrun₂ ⟨nofun, rfl⟩
  exact ⟨_, hrun₃, by decide, lawful_run hrun₃⟩

/-- A graceful request, and ten seconds later one for a kill after three: the next poll kills. -/
theorem not_lawful_laterDelay : ∃ b : Backend,
    Run (ofPartial step) {}
      [(0, .shutdown .graceful), (10, .shutdown (.gracefulThenKill 3)), (10, .sync)] b ∧
    ¬ Lawful b.log := by
  refine ⟨{ shutdown := ⟨some 0, some 3, true⟩
            writerClosed := true
            now := 10
            log := [LogEntry.request 0 .graceful, LogEntry.request 10 (.gracefulThenKill 3),
              LogEntry.kill 10] },
    run_ofPartial_iff.mpr rfl, fun hlawful => ?_⟩
  rcases hlawful.due
      [LogEntry.request 0 .graceful, LogEntry.request 10 (.gracefulThenKill 3)] 10 [] rfl with
    ⟨t₀, hmem⟩ | ⟨t₀, d, hmem, hdue⟩
  · simp at hmem
  · obtain ⟨rfl, rfl⟩ : t₀ = 10 ∧ d = 3 := by simpa using hmem
    omega

end Termua.Terminal
