import Mathlib

/-!
# Logs of runs

A pass over a list that merges neighbours writes outputs that are closed and keeps one that is still
open. `RunLog closed opened out active items` says that the outputs, the open one last, stand for
consecutive runs of `items` and that nothing else of `items` is left; `closed` and `opened` say what it
means that an output stands for a run. A pass begins a run, extends the open one or closes it, and each
of these has its rule.
-/

variable {α β γ : Type*} {closed : γ → List α → Prop} {opened : β → List α → Prop} {out : List γ}
  {active : Option β} {items run : List α} {b b' : β} {c : γ} {x : α}

/-- An open output stands for the run, and where no output is open the run is empty. -/
def OpenRun (opened : β → List α → Prop) : Option β → List α → Prop
  | none, run => run = []
  | some b, run => opened b run

/-- The outputs, the open one last, stand for consecutive runs that make up the items. -/
def RunLog (closed : γ → List α → Prop) (opened : β → List α → Prop) (out : List γ)
    (active : Option β) (items : List α) : Prop :=
  ∃ runs run, List.Forall₂ closed out runs ∧ OpenRun opened active run ∧
    items = runs.flatten ++ run

namespace RunLog

theorem nil : RunLog closed opened [] none ([] : List α) :=
  ⟨[], [], .nil, rfl, rfl⟩

/-- The open run is closed. -/
theorem close (h : RunLog closed opened out (some b) items)
    (hclose : ∀ run, opened b run → closed c run) :
    RunLog closed opened (out ++ [c]) none items := by
  obtain ⟨runs, run, hout, hopen, rfl⟩ := h
  refine ⟨runs ++ [run], [], ?_, rfl, ?_⟩
  · exact List.rel_append hout (.cons (hclose run hopen) .nil)
  · rw [List.flatten_append, List.flatten_singleton, List.append_nil]

/-- A run begins where none is open. -/
theorem start (h : RunLog closed opened out none items) (hstart : opened b [x]) :
    RunLog closed opened out (some b) (items ++ [x]) := by
  obtain ⟨runs, run, hout, rfl, rfl⟩ := h
  exact ⟨runs, [x], hout, hstart, by rw [List.append_nil]⟩

/-- The open run goes on with an item. -/
theorem extend (h : RunLog closed opened out (some b) items)
    (hextend : ∀ run, opened b run → opened b' (run ++ [x])) :
    RunLog closed opened out (some b') (items ++ [x]) := by
  obtain ⟨runs, run, hout, hopen, rfl⟩ := h
  exact ⟨runs, run ++ [x], hout, hextend run hopen, List.append_assoc ..⟩

/-- Where no run is open, the closed outputs stand for all items. -/
theorem forall₂ (h : RunLog closed opened out none items) :
    ∃ runs, List.Forall₂ closed out runs ∧ runs.flatten = items := by
  obtain ⟨runs, run, hout, rfl, rfl⟩ := h
  exact ⟨runs, hout, (List.append_nil _).symm⟩

/-- What each closed output says of its run, all of them say of the items. -/
theorem flatMap_eq {δ : Type*} {f : γ → List δ} {g : List α → List δ} {runs : List (List α)}
    (hout : List.Forall₂ closed out runs) (hf : ∀ c run, closed c run → f c = g run) :
    out.flatMap f = runs.flatMap g := by
  induction hout with
  | nil => rfl
  | cons h _ ih => rw [List.flatMap_cons, List.flatMap_cons, hf _ _ h, ih]

end RunLog
