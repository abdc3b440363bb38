import Mathlib

/-!
# Runs of a list that read as a text

Every item of a list has a text. The runs of neighbours whose texts join to a given text are listed
from left to right (`runs`); those with given texts, one for each item, are found by a window of that
length (`filter_runs`). The scans that look for them stop at a number of results (`foldl_take`).
-/

namespace Windows

variable {α β γ : Type*} [DecidableEq γ]

/-- The runs of neighbours whose texts join to `whole`, by their starts. -/
def runs (text : α → List γ) (whole : List γ) (xs : List α) : List (List α) :=
  (xs.tails.flatMap List.inits).filter fun run => run.flatMap text = whole

/-- The items at the start of a list that have these texts. -/
def window (text : α → List γ) (texts : List (List γ)) (xs : List α) : Option (List α) :=
  if (xs.take texts.length).map text = texts then some (xs.take texts.length) else none

variable {text : α → List γ} {texts : List (List γ)} {whole : List γ} {xs : List α}

theorem window_eq_none_of_length_lt (h : xs.length < texts.length) :
    window text texts xs = none := by
  refine if_neg fun heq => ?_
  have hlength := congrArg List.length heq
  rw [List.length_map, List.length_take] at hlength
  omega

theorem window_cons {t : List γ} {x : α} :
    window text (t :: texts) (x :: xs) =
      if text x = t then (window text texts xs).map (x :: ·) else none := by
  unfold window
  simp only [List.length_cons, List.take_succ_cons, List.map_cons, List.cons.injEq]
  by_cases hx : text x = t
  · simp only [hx, true_and, if_true]
    split <;> rfl
  · rw [if_neg hx, if_neg fun h => hx h.1]

/-- Of the beginnings of a list the window is the one with these texts. -/
theorem filter_inits (xs : List α) :
    xs.inits.filter (fun run => run.map text = texts) = (window text texts xs).toList := by
  induction xs generalizing texts with
  | nil => cases texts <;> rfl
  | cons x xs ih =>
    cases texts with
    | nil => simp [window, List.filter_map, Function.comp_def]
    | cons t texts =>
      rw [List.inits_cons, List.filter_cons_of_neg (by simp), List.filter_map, window_cons]
      by_cases hx : text x = t
      · have hfilter : ((fun run : List α => decide (run.map text = t :: texts)) ∘ (x :: ·)) =
            fun run => decide (run.map text = texts) := by
          funext run
          simp [hx]
        rw [hfilter, ih, if_pos hx]
        cases window text texts xs <;> rfl
      · rw [if_neg hx, List.filter_eq_nil_iff.mpr fun run _ => by simp [hx]]
        rfl

/-- The windows of a list are its runs with these texts. -/
theorem filter_runs (h : texts.flatten = whole) (xs : List α) :
    (runs text whole xs).filter (fun run => run.map text = texts) =
      xs.tails.flatMap fun rest => (window text texts rest).toList := by
  have himp : ∀ run : List α, run.map text = texts → run.flatMap text = whole := by
    intro run hrun
    rw [List.flatMap_def, hrun, h]
  have hfilter : (fun run : List α => decide (run.map text = texts) &&
      decide (run.flatMap text = whole)) = fun run => decide (run.map text = texts) := by
    funext run
    by_cases hrun : run.map text = texts
    · simp [hrun, himp run hrun]
    · simp [hrun]
  unfold runs
  rw [List.filter_filter, hfilter, List.filter_flatMap]
  exact List.flatMap_congr fun rest _ => filter_inits rest

theorem tails_eq_map_drop (xs : List α) :
    xs.tails = (List.range (xs.length + 1)).map fun i => xs.drop i := by
  refine List.ext_getElem (by simp) fun i h₁ h₂ => ?_
  rw [List.getElem_tails, List.getElem_map, List.getElem_range]

/-- A scan from left to right finds the runs with these texts. -/
theorem filterMap_window (h : texts.flatten = whole) (hpos : texts ≠ [])
    (hlen : texts.length ≤ xs.length) :
    (List.range (xs.length - texts.length + 1)).filterMap (fun i => window text texts (xs.drop i)) =
      (runs text whole xs).filter fun run => run.map text = texts := by
  have hrange : List.range (xs.length + 1) = List.range (xs.length - texts.length + 1) ++
      (List.range texts.length).map (xs.length - texts.length + 1 + ·) := by
    rw [← List.range_add]
    congr 1
    omega
  have hnone : ((List.range texts.length).map (xs.length - texts.length + 1 + ·)).filterMap
      (fun i => window text texts (xs.drop i)) = [] := by
    rw [List.filterMap_map]
    refine List.filterMap_eq_nil_iff.mpr fun i _ => window_eq_none_of_length_lt ?_
    have hpos := List.length_pos_of_ne_nil hpos
    simp only [List.length_drop]
    omega
  rw [filter_runs h, tails_eq_map_drop, List.flatMap_map, ← List.filterMap_eq_flatMap_toList, hrange,
    List.filterMap_append, hnone, List.append_nil]

/-- A scan that stops at a number of results. -/
theorem foldl_take {limit : ℕ} {step : List β → α → List β} {found : α → List β} {xs : List α}
    (hfull : ∀ out x, limit ≤ out.length → step out x = out)
    (hstep : ∀ x ∈ xs, ∀ out, out.length < limit →
      step out x = out ++ (found x).take (limit - out.length))
    (out : List β) (hout : out.length ≤ limit) :
    xs.foldl step out = out ++ (xs.flatMap found).take (limit - out.length) := by
  induction xs generalizing out with
  | nil => simp
  | cons x xs ih =>
    have ih := ih fun y hy => hstep y (List.mem_cons_of_mem x hy)
    rw [List.foldl_cons, List.flatMap_cons]
    rcases hout.eq_or_lt with heq | hlt
    · rw [hfull out x heq.ge, ih out hout, heq, Nat.sub_self, List.take_zero, List.take_zero]
    · rw [hstep x List.mem_cons_self out hlt, ih, List.append_assoc, List.take_append]
      · congr 3
        rw [List.length_append, List.length_take]
        omega
      · rw [List.length_append, List.length_take]
        omega

/-- The first results that pass a test are the first results exactly when these pass it. -/
theorem take_filter_eq_iff {f : α → β} {p : α → Bool} {l : List α} (hnodup : (l.map f).Nodup)
    (limit : ℕ) :
    ((l.filter p).map f).take limit = (l.map f).take limit ↔ ∀ x ∈ l.take limit, p x = true := by
  induction l generalizing limit with
  | nil => simp
  | cons x l ih =>
    obtain ⟨hnot, hnodup⟩ := List.nodup_cons.mp hnodup
    cases limit with
    | zero => simp
    | succ limit =>
      by_cases hx : p x = true
      · rw [List.filter_cons_of_pos hx, List.map_cons, List.map_cons, List.take_succ_cons,
          List.take_succ_cons, List.take_succ_cons, List.cons.injEq, ih hnodup limit]
        simp [hx]
      · rw [List.filter_cons_of_neg hx, List.take_succ_cons]
        refine iff_of_false (fun heq => hnot ?_) fun hall => hx (hall x List.mem_cons_self)
        have hmem : f x ∈ ((l.filter p).map f).take (limit + 1) := by
          rw [heq]
          exact List.mem_cons_self
        obtain ⟨y, hy, hfy⟩ := List.mem_map.mp (List.mem_of_mem_take hmem)
        exact List.mem_map.mpr ⟨y, List.mem_of_mem_filter hy, hfy⟩

/-- At most one run begins at the start of a list whose items have texts. -/
theorem pairwise_filter_inits {r : List α → List α → Prop} (htext : ∀ x ∈ xs, text x ≠ []) :
    (xs.inits.filter fun run => run.flatMap text = whole).Pairwise r := by
  induction xs generalizing whole r with
  | nil => exact (List.pairwise_singleton r []).filter _
  | cons x xs ih =>
    have hx := htext x List.mem_cons_self
    rw [List.inits_cons, List.filter_cons, List.filter_map]
    split
    · next hnil =>
      rw [List.filter_eq_nil_iff.mpr]
      · exact List.pairwise_singleton _ _
      · intro run _ hrun
        have hwhole : [] = whole := of_decide_eq_true hnil
        have hrun : (x :: run).flatMap text = whole := of_decide_eq_true hrun
        rw [← hwhole, List.flatMap_cons, List.append_eq_nil_iff] at hrun
        exact hx hrun.1
    · by_cases hprefix : ∃ rest, whole = text x ++ rest
      · obtain ⟨rest, rfl⟩ := hprefix
        have hfilter : ((fun run : List α => decide (run.flatMap text = text x ++ rest)) ∘ (x :: ·)) =
            fun run => decide (run.flatMap text = rest) := by
          funext run
          simp
        rw [hfilter, List.pairwise_map]
        exact ih fun y hy => htext y (List.mem_cons_of_mem x hy)
      · rw [List.filter_eq_nil_iff.mpr]
        · exact List.Pairwise.nil
        · intro run _ hrun
          exact hprefix ⟨run.flatMap text, (of_decide_eq_true hrun : _ = _).symm⟩

/-- The runs of items that stand for others are what the runs of the others stand for. -/
theorem runs_map (f : β → α) (xs : List β) :
    runs text whole (xs.map f) = (runs (text ∘ f) whole xs).map (List.map f) := by
  have hfilter : ((fun run : List α => decide (run.flatMap text = whole)) ∘ List.map f) =
      fun run => decide (run.flatMap (text ∘ f) = whole) := by
    funext run
    simp [List.flatMap_map, Function.comp_def]
  unfold runs
  rw [List.filter_flatMap, List.filter_flatMap, List.map_flatMap, List.map_tails, List.flatMap_map]
  refine List.flatMap_congr fun rest _ => ?_
  rw [List.map_inits, List.filter_map, hfilter]

/-- A run is not empty and is a run of neighbours. -/
theorem mem_runs (hwhole : whole ≠ []) {run : List α} (h : run ∈ runs text whole xs) :
    run ≠ [] ∧ run <:+: xs := by
  obtain ⟨hmem, hrun⟩ := List.mem_filter.mp h
  obtain ⟨rest, hrest, hinit⟩ := List.mem_flatMap.mp hmem
  refine ⟨?_, ((List.mem_inits _ _).mp hinit).isInfix.trans ((List.mem_tails _ _).mp hrest).isInfix⟩
  rintro rfl
  exact hwhole (of_decide_eq_true hrun : _ = _).symm

theorem runs_nil (hwhole : whole ≠ []) : runs text whole [] = [] :=
  List.eq_nil_iff_forall_not_mem.mpr fun _ hrun =>
    (mem_runs hwhole hrun).1 (List.infix_nil.mp (mem_runs hwhole hrun).2)

theorem runs_cons (x : α) (xs : List α) :
    runs text whole (x :: xs) =
      ((x :: xs).inits.filter fun run => run.flatMap text = whole) ++ runs text whole xs := by
  rw [runs, List.tails_cons, List.flatMap_cons, List.filter_append, runs]

/-- The runs of items with texts stand in the order of the items they begin with. -/
theorem pairwise_runs {r : α → α → Prop} (hwhole : whole ≠ []) (htext : ∀ x ∈ xs, text x ≠ [])
    (hxs : xs.Pairwise r) :
    (runs text whole xs).Pairwise fun run run' => ∀ x ∈ run.head?, ∀ y ∈ run'.head?, r x y := by
  induction xs with
  | nil =>
    refine List.Pairwise.filter _ ?_
    exact List.pairwise_singleton _ _
  | cons x xs ih =>
    obtain ⟨hx, hxs⟩ := List.pairwise_cons.mp hxs
    rw [runs_cons]
    refine List.pairwise_append.mpr ⟨pairwise_filter_inits htext,
      ih (fun y hy => htext y (List.mem_cons_of_mem x hy)) hxs, ?_⟩
    intro run hrun run' hrun' z hz y hy
    have hprefix : run <+: x :: xs := (List.mem_inits _ _).mp (List.mem_of_mem_filter hrun)
    have hzx : z = x := by
      obtain ⟨rest, hrest⟩ := hprefix
      cases run with
      | nil => exact absurd hz (by simp)
      | cons w run =>
        have hw : w = z := by simpa using hz
        rw [← hw]
        exact (List.cons.inj hrest).1
    subst hzx
    exact hx y ((mem_runs hwhole hrun').2.subset (List.mem_of_mem_head? hy))

end Windows
