import Mathlib

/-!
# Computations that change a state and can fail

`Effect σ ε α` is a computation on a state of type `σ` that returns a value or an error; what it did
to the state before the error stays done. `outcome` is what a run returns and `after` the state it
leaves. The rules for `>>=` below run a computation one step at a time; `Moves R` says that a run,
failed or not, leads to a related state, and `Atomic` that a failed run leaves the state as it was.
-/

/-- Computations on a state `σ` with errors in `ε`. -/
abbrev Effect (σ ε α : Type) := ExceptT ε (StateM σ) α

namespace Effect

variable {σ ε α β : Type} {R : σ → σ → Prop}

/-- What a run from `s` returns. -/
def outcome (m : Effect σ ε α) (s : σ) : Except ε α := (m.run.run s).1

/-- The state that a run from `s` leaves. -/
def after (m : Effect σ ε α) (s : σ) : σ := (m.run.run s).2

/-- A step that fails or does nothing. -/
def check (fails : Bool) (e : ε) : Effect σ ε Unit := if fails then throw e else pure ()

/-- A step that changes the state. -/
def change (f : σ → σ) : Effect σ ε Unit := modify f

/-- The computation with an error of its own in place of the error it fails with. -/
def mapError (f : ε → ε) (m : Effect σ ε α) : Effect σ ε α :=
  ExceptT.mk do
    match ← m.run with
    | .ok a => pure (.ok a)
    | .error e => pure (.error (f e))

/-! ## One step at a time -/

@[simp] theorem outcome_pure (a : α) (s : σ) : outcome (pure a : Effect σ ε α) s = .ok a := rfl

@[simp] theorem after_pure (a : α) (s : σ) : after (pure a : Effect σ ε α) s = s := rfl

@[simp] theorem outcome_change (f : σ → σ) (s : σ) :
    outcome (change f : Effect σ ε Unit) s = .ok () := rfl

@[simp] theorem after_change (f : σ → σ) (s : σ) :
    after (change f : Effect σ ε Unit) s = f s := rfl

@[simp] theorem outcome_get (s : σ) : outcome (get : Effect σ ε σ) s = .ok s := rfl

@[simp] theorem after_get (s : σ) : after (get : Effect σ ε σ) s = s := rfl

theorem outcome_bind (m : Effect σ ε α) (k : α → Effect σ ε β) (s : σ) :
    outcome (m >>= k) s =
      match outcome m s with
      | .ok a => outcome (k a) (after m s)
      | .error e => .error e := by
  show ((ExceptT.bindCont k (m.run.run s).1).run (m.run.run s).2).1 = _
  unfold outcome after
  rcases (m.run.run s).1 with e | a <;> rfl

theorem after_bind (m : Effect σ ε α) (k : α → Effect σ ε β) (s : σ) :
    after (m >>= k) s =
      match outcome m s with
      | .ok a => after (k a) (after m s)
      | .error _ => after m s := by
  show ((ExceptT.bindCont k (m.run.run s).1).run (m.run.run s).2).2 = _
  unfold outcome after
  rcases (m.run.run s).1 with e | a <;> rfl

/-- A computation that returns a value went through all of its steps. -/
theorem outcome_bind_eq_ok {m : Effect σ ε α} {k : α → Effect σ ε β} {s : σ} {b : β}
    (h : outcome (m >>= k) s = .ok b) :
    ∃ a, outcome m s = .ok a ∧ outcome (k a) (after m s) = .ok b ∧
      after (m >>= k) s = after (k a) (after m s) := by
  rw [outcome_bind] at h
  rw [after_bind]
  rcases houtcome : outcome m s with e | a
  · rw [houtcome] at h
    cases h
  · rw [houtcome] at h
    exact ⟨a, rfl, h, rfl⟩

@[simp] theorem outcome_check (fails : Bool) (e : ε) (s : σ) :
    outcome (check fails e) s = if fails then .error e else .ok () := by
  unfold check
  split <;> rfl

@[simp] theorem after_check (fails : Bool) (e : ε) (s : σ) : after (check fails e) s = s := by
  unfold check
  split <;> rfl

/-- A check in front of a computation lets it run or not. -/
theorem after_check_bind (fails : Bool) (e : ε) (k : Unit → Effect σ ε β) (s : σ) :
    after (check fails e >>= k) s = if fails then s else after (k ()) s := by
  rw [after_bind, outcome_check, after_check]
  rcases fails with _ | _ <;> rfl

theorem outcome_check_bind (fails : Bool) (e : ε) (k : Unit → Effect σ ε β) (s : σ) :
    outcome (check fails e >>= k) s = if fails then .error e else outcome (k ()) s := by
  rw [outcome_bind, outcome_check, after_check]
  rcases fails with _ | _ <;> rfl

@[simp] theorem after_mapError (f : ε → ε) (m : Effect σ ε α) (s : σ) :
    after (mapError f m) s = after m s := by
  show (StateT.run (match (m.run.run s).1 with
    | .ok a => (pure (.ok a) : StateM σ (Except ε α))
    | .error e => pure (.error (f e))) (m.run.run s).2).2 = (m.run.run s).2
  rcases (m.run.run s).1 with e | a <;> rfl

theorem outcome_mapError (f : ε → ε) (m : Effect σ ε α) (s : σ) :
    outcome (mapError f m) s =
      match outcome m s with
      | .ok a => .ok a
      | .error e => .error (f e) := by
  show (StateT.run (match (m.run.run s).1 with
    | .ok a => (pure (.ok a) : StateM σ (Except ε α))
    | .error e => pure (.error (f e))) (m.run.run s).2).1 = _
  unfold outcome
  rcases (m.run.run s).1 with e | a <;> rfl

theorem outcome_mapError_eq_ok {f : ε → ε} {m : Effect σ ε α} {s : σ} {a : α}
    (h : outcome (mapError f m) s = .ok a) : outcome m s = .ok a := by
  rw [outcome_mapError] at h
  rcases houtcome : outcome m s with e | b
  · rw [houtcome] at h
    cases h
  · rw [houtcome] at h
    exact h

theorem outcome_check_eq_ok {fails : Bool} {e : ε} {s : σ}
    (h : outcome (check fails e) s = .ok ()) : fails = false := by
  rw [outcome_check] at h
  rcases fails with _ | _
  · rfl
  · cases h

/-! ## Relations kept by a run -/

/-- Every run, failed or not, leads to a related state. -/
def Moves (R : σ → σ → Prop) (m : Effect σ ε α) : Prop := ∀ s, R s (after m s)

theorem Moves.check (hrefl : ∀ s, R s s) (fails : Bool) (e : ε) :
    Moves R (Effect.check fails e : Effect σ ε Unit) := by
  intro s
  rw [after_check]
  exact hrefl s

theorem Moves.get (hrefl : ∀ s, R s s) : Moves R (MonadState.get : Effect σ ε σ) := hrefl

theorem Moves.change {f : σ → σ} (h : ∀ s, R s (f s)) :
    Moves R (Effect.change f : Effect σ ε Unit) := h

theorem Moves.bind (htrans : ∀ s s' s'', R s s' → R s' s'' → R s s'') {m : Effect σ ε α}
    {k : α → Effect σ ε β} (hm : Moves R m) (hk : ∀ a, Moves R (k a)) : Moves R (m >>= k) := by
  intro s
  rw [after_bind]
  rcases outcome m s with e | a
  · exact hm s
  · exact htrans _ _ _ (hm s) (hk a _)

theorem Moves.mapError {m : Effect σ ε α} (hm : Moves R m) (f : ε → ε) :
    Moves R (mapError f m) := by
  intro s
  rw [after_mapError]
  exact hm s

/-! ## Computations that are done whole or not at all -/

/-- A run that fails leaves the state as it was. -/
def Atomic (m : Effect σ ε α) : Prop := ∀ s e, outcome m s = .error e → after m s = s

theorem Atomic.change {f : σ → σ} : Atomic (Effect.change f : Effect σ ε Unit) := by
  rintro s e h
  cases h

/-- A computation is atomic when what it does before its last step only reads. -/
theorem Atomic.bind {m : Effect σ ε α} {k : α → Effect σ ε β} (hm : Moves (fun s s' => s' = s) m)
    (hk : ∀ a, Atomic (k a)) : Atomic (m >>= k) := by
  intro s e h
  have hs : after m s = s := hm s
  rw [outcome_bind] at h
  rw [after_bind]
  rcases hout : outcome m s with e' | a
  · exact hs
  · rw [hout, hs] at h
    show after (k a) (after m s) = s
    rw [hs]
    exact hk a s e h

/-- An atomic computation stays so with steps after it that do not fail. -/
theorem Atomic.bind_ok {m : Effect σ ε α} {k : α → Effect σ ε β} (hm : Atomic m)
    (hk : ∀ a s, ∃ b, outcome (k a) s = .ok b) : Atomic (m >>= k) := by
  intro s e h
  rw [outcome_bind] at h
  rw [after_bind]
  rcases hout : outcome m s with e' | a
  · exact hm s e' hout
  · rw [hout] at h
    obtain ⟨b, hb⟩ := hk a (after m s)
    cases hb.symm.trans h

theorem Atomic.mapError {m : Effect σ ε α} (hm : Atomic m) (f : ε → ε) : Atomic (mapError f m) := by
  intro s e h
  rw [after_mapError]
  rw [outcome_mapError] at h
  rcases hout : outcome m s with e' | a
  · exact hm s e' hout
  · rw [hout] at h
    cases h

/-- Where a computation with an atomic last step fails, it leaves what the steps before left. -/
theorem after_bind_atomic {m : Effect σ ε α} {k : α → Effect σ ε β} (hk : ∀ a, Atomic (k a)) {s : σ}
    {e : ε} (h : outcome (m >>= k) s = .error e) : after (m >>= k) s = after m s := by
  rw [outcome_bind] at h
  rw [after_bind]
  rcases hout : outcome m s with e' | a
  · rfl
  · rw [hout] at h
    exact hk a _ e h

end Effect
