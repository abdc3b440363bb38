import Mathlib

/-!
# Runs of a labelled transition system

A system is a step relation `σ → ε → σ → Prop` and a start state. `Run step s₀ es s` says that the
events `es`, taken in this order from `s₀`, lead to `s`; every prefix of a run is a run, so a
statement about the last state of every run is a statement about every state reached.

* `Run.invariant` is the induction rule: what holds at the start and is kept by a step holds in
  every state reached. The step case may use that the state before it was reached by a run.
* `Guarded step ok` is the system whose steps are those taken where `ok` holds of the state before
  and of the event; its runs are the runs all of whose steps meet that condition.
* `Run.simulate` transfers runs to a system that each step simulates.
* `ofFun` and `ofPartial` are the systems of a total and of a partial step function.
-/

namespace Transition

variable {σ ε : Type*}

/-- The events `es`, taken one after the other from `s₀`, lead to `s`. -/
inductive Run (step : σ → ε → σ → Prop) (s₀ : σ) : List ε → σ → Prop
  | start : Run step s₀ [] s₀
  | next {es : List ε} {s s' : σ} {e : ε} :
      Run step s₀ es s → step s e s' → Run step s₀ (es ++ [e]) s'

/-- The steps taken where `ok` holds of the state before the step and of its event. -/
def Guarded (step : σ → ε → σ → Prop) (ok : σ → ε → Prop) (s : σ) (e : ε) (s' : σ) : Prop :=
  ok s e ∧ step s e s'

/-- The system of a total step function. -/
def ofFun (f : σ → ε → σ) (s : σ) (e : ε) (s' : σ) : Prop := f s e = s'

/-- The system of a partial step function, `none` where an event is not enabled. -/
def ofPartial (f : σ → ε → Option σ) (s : σ) (e : ε) (s' : σ) : Prop := f s e = some s'

variable {step : σ → ε → σ → Prop} {s₀ s : σ} {es fs : List ε}

/-! ## Induction over a run -/

/-- A property of the events so far and of the state they lead to holds along every run when it
holds at the start and every step keeps it. -/
theorem Run.historyInvariant {I : List ε → σ → Prop} (h₀ : I [] s₀)
    (hstep : ∀ es s e s', Run step s₀ es s → I es s → step s e s' → I (es ++ [e]) s')
    (h : Run step s₀ es s) : I es s := by
  induction h with
  | start => exact h₀
  | next hrun hs ih => exact hstep _ _ _ _ hrun ih hs

/-- A property of states holds in every state reached when it holds at the start and every step
from a state reached keeps it. -/
theorem Run.invariant {I : σ → Prop} (h₀ : I s₀)
    (hstep : ∀ es s e s', Run step s₀ es s → I s → step s e s' → I s')
    (h : Run step s₀ es s) : I s :=
  h.historyInvariant (I := fun _ s => I s) h₀ hstep

/-- A run of the guarded system is a run of the system. -/
theorem Run.unguard {ok : σ → ε → Prop} (h : Run (Guarded step ok) s₀ es s) :
    Run step s₀ es s := by
  induction h with
  | start => exact .start
  | next _ hs ih => exact .next ih hs.2

/-- A run whose steps all meet the condition is a run of the guarded system. -/
theorem Run.guard {ok : σ → ε → Prop} (h : Run step s₀ es s)
    (hok : ∀ i e m, es[i]? = some e → Run step s₀ (es.take i) m → ok m e) :
    Run (Guarded step ok) s₀ es s := by
  induction h with
  | start => exact .start
  | @next es m s' e hrun hs ih =>
    refine .next (ih fun i e' m' hi hm' => ?_) ⟨hok es.length e m (by simp) (by simpa using hrun), hs⟩
    have hlt := (List.getElem?_eq_some_iff.mp hi).1
    refine hok i e' m' (by rwa [List.getElem?_append_left hlt]) ?_
    rwa [List.take_append_of_le_length hlt.le]

/-! ## Splitting and joining runs -/

/-- Two runs, the second from where the first ends, join into one. -/
theorem Run.append {m : σ} (h : Run step s₀ es m) (h' : Run step m fs s) :
    Run step s₀ (es ++ fs) s := by
  induction h' with
  | start => simpa using h
  | next _ hs ih => rw [← List.append_assoc]; exact .next ih hs

/-- A run that ends with `e` took it as its last step. -/
theorem Run.last {e : ε} (h : Run step s₀ (es ++ [e]) s) :
    ∃ m, Run step s₀ es m ∧ step m e s := by
  generalize hes : es ++ [e] = all at h
  cases h with
  | start => exact absurd hes (by simp)
  | next hrun hs =>
    obtain ⟨rfl, he⟩ := List.append_inj' hes rfl
    obtain rfl : e = _ := by simpa using he
    exact ⟨_, hrun, hs⟩

/-! ## Simulation -/

/-- When every step of a system is, seen through `abs`, a run of another system, then so is every
run. -/
theorem Run.simulate {σ' ε' : Type*} {step' : σ' → ε' → σ' → Prop} (abs : σ → σ')
    (hstep : ∀ es s e s', Run step s₀ es s → step s e s' → ∃ fs, Run step' (abs s) fs (abs s'))
    (h : Run step s₀ es s) : ∃ fs, Run step' (abs s₀) fs (abs s) := by
  induction h with
  | start => exact ⟨[], .start⟩
  | next hrun hs ih =>
    obtain ⟨fs, hfs⟩ := ih
    obtain ⟨gs, hgs⟩ := hstep _ _ _ _ hrun hs
    exact ⟨fs ++ gs, hfs.append hgs⟩

/-! ## Systems given by a function -/

/-- The runs of a total step function are its folds. -/
theorem run_ofFun_iff {f : σ → ε → σ} : Run (ofFun f) s₀ es s ↔ es.foldl f s₀ = s := by
  constructor
  · intro h
    induction h with
    | start => rfl
    | next _ hs ih => rw [List.foldl_append, ih]; exact hs
  · rintro rfl
    induction es using List.reverseRecOn with
    | nil => exact .start
    | append_singleton es e ih => exact .next ih (by simp [ofFun])

/-- Where a step from a state of the invariant is good by a condition on it, and good steps keep the
invariant, all steps of a sequence are good exactly when all of them meet the condition. -/
theorem forall_prefix_concat_iff {f : σ → ε → σ} {I : σ → Prop} {good ok : σ → ε → Prop} (h₀ : I s₀)
    (hstep : ∀ s e, I s → (good s e ↔ ok s e)) (hkeep : ∀ s e, I s → good s e → I (f s e))
    (es : List ε) :
    (∀ fs e, fs ++ [e] <+: es → good (fs.foldl f s₀) e) ↔
      ∀ fs e, fs ++ [e] <+: es → ok (fs.foldl f s₀) e := by
  have hreach (h : ∀ fs e, fs ++ [e] <+: es → I (fs.foldl f s₀) → good (fs.foldl f s₀) e)
      (fs : List ε) : fs <+: es → I (fs.foldl f s₀) := by
    induction fs using List.reverseRecOn with
    | nil => exact fun _ => h₀
    | append_singleton fs e ih =>
      intro hprefix
      have hfs := ih ((List.prefix_append _ _).trans hprefix)
      rw [List.foldl_append]
      exact hkeep _ _ hfs (h fs e hprefix hfs)
  constructor
  · intro h fs e hprefix
    exact (hstep _ _ (hreach (fun fs e hprefix _ => h fs e hprefix) fs
      ((List.prefix_append _ _).trans hprefix))).mp (h fs e hprefix)
  · intro h fs e hprefix
    exact (hstep _ _ (hreach (fun fs e hprefix hfs => (hstep _ _ hfs).mpr (h fs e hprefix)) fs
      ((List.prefix_append _ _).trans hprefix))).mpr (h fs e hprefix)

/-- The runs of a partial step function are its folds in `Option`. -/
theorem run_ofPartial_iff {f : σ → ε → Option σ} :
    Run (ofPartial f) s₀ es s ↔ es.foldlM f s₀ = some s := by
  constructor
  · intro h
    induction h with
    | start => rfl
    | next _ hs ih => rw [List.foldlM_append, ih]; simpa [ofPartial] using hs
  · intro h
    induction es using List.reverseRecOn generalizing s with
    | nil => obtain rfl : s₀ = s := by simpa using h
             exact .start
    | append_singleton es e ih =>
      rw [List.foldlM_append] at h
      obtain ⟨m, hm, hs⟩ := Option.bind_eq_some_iff.mp h
      exact .next (ih hm) (by simpa [ofPartial] using hs)

/-- A partial step function leads to one state. -/
theorem run_ofPartial_unique {f : σ → ε → Option σ} {s' : σ} (h : Run (ofPartial f) s₀ es s)
    (h' : Run (ofPartial f) s₀ es s') : s = s' :=
  Option.some.inj ((run_ofPartial_iff.mp h).symm.trans (run_ofPartial_iff.mp h'))

/-- One more step meets the condition when the run did and the step does. -/
theorem run_guarded_concat_iff {f : σ → ε → Option σ} {ok : σ → ε → Prop} {e : ε} {s' : σ}
    (h : Run (ofPartial f) s₀ es s) (hs : f s e = some s') :
    Run (Guarded (ofPartial f) ok) s₀ (es ++ [e]) s' ↔
      Run (Guarded (ofPartial f) ok) s₀ es s ∧ ok s e := by
  constructor
  · intro hrun
    obtain ⟨m, hm, hok, -⟩ := hrun.last
    obtain rfl := run_ofPartial_unique h hm.unguard
    exact ⟨hm, hok⟩
  · rintro ⟨hrun, hok⟩
    exact .next hrun ⟨hok, hs⟩

/-- A decidable condition on the steps of a partial step function is one more reason for `none`. -/
theorem guarded_ofPartial {f : σ → ε → Option σ} {ok : σ → ε → Prop}
    [∀ s e, Decidable (ok s e)] :
    Guarded (ofPartial f) ok = ofPartial fun s e => if ok s e then f s e else none := by
  funext s e s'
  show (ok s e ∧ f s e = some s') = _
  unfold ofPartial
  by_cases hok : ok s e <;> simp [hok]

/-- A run that is found by evaluation, with what is observed of the state it leads to. -/
theorem exists_run_of_any (s₀ : σ) (es : List ε) {f : σ → ε → Option σ} {p : σ → Bool}
    (h : (es.foldlM f s₀).any p = true) : ∃ s, Run (ofPartial f) s₀ es s ∧ p s = true := by
  obtain ⟨s, hs, hp⟩ := (Option.any_eq_true _ _).mp h
  exact ⟨s, run_ofPartial_iff.mpr hs, hp⟩

end Transition
