import Mathlib

/-!
# What a machine answers along a run

A machine takes inputs and answers each with outputs, until it takes none. `entries step s inputs` is
the log of a run: an entry for each input that was taken, with the state before and after it.

* `forall_mem_entries` is the induction rule: what every step does from a state of an invariant, every
  entry does.
* `pairwise_entries` orders two kinds of entries: after one that leads into an invariant, all others
  are such as a step from the invariant makes.
-/

namespace History

variable {σ ι ο : Type*}

/-- An input that was taken. -/
structure Entry (σ ι ο : Type*) where
  before : σ
  input : ι
  outputs : List ο
  after : σ

/-- The log of a run, which ends where the machine takes no input. -/
def entries (step : σ → ι → Option (List ο × σ)) : σ → List ι → List (Entry σ ι ο)
  | _, [] => []
  | s, input :: inputs =>
    match step s input with
    | none => []
    | some (outputs, s') => ⟨s, input, outputs, s'⟩ :: entries step s' inputs

variable {step : σ → ι → Option (List ο × σ)} {s s' : σ} {input : ι} {inputs : List ι}
  {outputs : List ο} {I : σ → Prop} {P Q : Entry σ ι ο → Prop}

@[simp] theorem entries_nil : entries step s [] = [] := rfl

theorem entries_cons_of_none (h : step s input = none) : entries step s (input :: inputs) = [] := by
  rw [entries, h]

theorem entries_cons_of_some (h : step s input = some (outputs, s')) :
    entries step s (input :: inputs) = ⟨s, input, outputs, s'⟩ :: entries step s' inputs := by
  rw [entries, h]

/-- What a step from the invariant does, every entry of a run from the invariant does. -/
theorem forall_mem_entries
    (hstep : ∀ s input outputs s', I s → step s input = some (outputs, s') →
      P ⟨s, input, outputs, s'⟩ ∧ I s')
    (h₀ : I s) (inputs : List ι) : ∀ e ∈ entries step s inputs, P e := by
  induction inputs generalizing s with
  | nil => exact List.forall_mem_nil _
  | cons input inputs ih =>
    rcases hs : step s input with _ | ⟨outputs, s'⟩
    · rw [entries_cons_of_none hs]
      exact List.forall_mem_nil _
    · -- the rest of the log begins in the invariant again
      obtain ⟨hentry, hnext⟩ := hstep s input outputs s' h₀ hs
      rw [entries_cons_of_some hs]
      exact List.forall_mem_cons.mpr ⟨hentry, ih hnext⟩

/-- After an entry that leads into the invariant come only entries that a step from it makes. -/
theorem pairwise_entries
    (henter : ∀ s input outputs s', step s input = some (outputs, s') →
      P ⟨s, input, outputs, s'⟩ → I s')
    (hstep : ∀ s input outputs s', I s → step s input = some (outputs, s') →
      Q ⟨s, input, outputs, s'⟩ ∧ I s')
    (s : σ) (inputs : List ι) : (entries step s inputs).Pairwise fun e e' => P e → Q e' := by
  induction inputs generalizing s with
  | nil => exact .nil
  | cons input inputs ih =>
    rcases hs : step s input with _ | ⟨outputs, s'⟩
    · rw [entries_cons_of_none hs]
      exact .nil
    · rw [entries_cons_of_some hs]
      refine .cons (fun e' he' hentry => ?_) (ih s')
      exact forall_mem_entries hstep (henter s input outputs s' hs hentry) inputs e' he'

end History
