import Mathlib

/-!
# Texts up to the length of their blanks

`collapse p` makes one mark of every run of blanks, the elements that satisfy `p`. `looseMatch p`
reads a text off the front of another one up to that, taking whole runs of blanks: what it leaves is
determined by the collapsed texts (`looseMatch_eq_some_iff`). With more blanks more texts are equal
(`collapse_mono`).
-/

namespace Blank

variable {α : Type*} {p q : α → Bool} {c : α} {l m a b full pre rest : List α}

/-- A collapsed text without a mark at its front. -/
def dropMark : List (Option α) → List (Option α)
  | none :: l => l
  | l => l

/-- One mark for each run of blanks; the other elements stay. -/
def collapse (p : α → Bool) : List α → List (Option α)
  | [] => []
  | c :: l => if p c then none :: dropMark (collapse p l) else some c :: collapse p l

/-- What is left of a text after another one, up to the length of the blanks. -/
def looseMatch [DecidableEq α] (p : α → Bool) : List α → List α → Option (List α)
  | full, [] => some full
  | full, c :: pre =>
    if p c then
      if full.takeWhile p = [] then none else looseMatch p (full.dropWhile p) (pre.dropWhile p)
    else
      match full with
      | [] => none
      | f :: full => if f = c then looseMatch p full pre else none
termination_by _ pre => pre.length
decreasing_by
  · exact Nat.lt_succ_of_le (List.dropWhile_suffix p).length_le
  · exact Nat.lt_succ_self _

/-- Behind a text that ends with a blank no blank is left. -/
def Ends (p : α → Bool) (pre rest : List α) : Prop :=
  (∃ c, pre.getLast? = some c ∧ p c = true) → ∀ d, rest.head? = some d → p d = false

/-! ## Collapsed texts -/

@[simp] theorem collapse_nil : collapse p [] = [] := rfl

theorem collapse_cons : collapse p (c :: l) =
    if p c then none :: dropMark (collapse p l) else some c :: collapse p l := rfl

theorem collapse_cons_of_neg (hc : p c = false) : collapse p (c :: l) = some c :: collapse p l := by
  rw [collapse_cons, if_neg (by simp [hc])]

theorem dropMark_collapse (p : α → Bool) (l : List α) :
    dropMark (collapse p l) = collapse p (l.dropWhile p) := by
  induction l with
  | nil => rfl
  | cons c l ih =>
    rcases hc : p c with _ | _
    · rw [List.dropWhile_cons_of_neg (by simp [hc]), collapse_cons_of_neg hc]
      rfl
    · rw [List.dropWhile_cons_of_pos hc, collapse_cons, if_pos hc, ← ih]
      rfl

theorem collapse_cons_of_pos (hc : p c = true) :
    collapse p (c :: l) = none :: collapse p (l.dropWhile p) := by
  rw [← dropMark_collapse, collapse_cons, if_pos hc]

theorem collapse_eq_nil (h : collapse p l = []) : l = [] := by
  rcases l with _ | ⟨c, l⟩
  · rfl
  · rw [collapse_cons] at h
    split at h <;> cases h

/-- A text that begins with a mark begins with a blank. -/
theorem collapse_eq_none_cons {t : List (Option α)} (h : collapse p l = none :: t) :
    ∃ c l', l = c :: l' ∧ p c = true ∧ collapse p (l.dropWhile p) = t := by
  rcases l with _ | ⟨c, l⟩
  · cases h
  · rcases hc : p c with _ | _
    · rw [collapse_cons_of_neg hc] at h
      cases h
    · rw [collapse_cons_of_pos hc] at h
      refine ⟨c, l, rfl, hc, ?_⟩
      rw [List.dropWhile_cons_of_pos hc]
      exact (List.cons.inj h).2

/-- A text that begins with an element begins with it. -/
theorem collapse_eq_some_cons {t : List (Option α)} (h : collapse p l = some c :: t) :
    ∃ l', l = c :: l' ∧ p c = false ∧ collapse p l' = t := by
  rcases l with _ | ⟨d, l⟩
  · cases h
  · rcases hd : p d with _ | _
    · rw [collapse_cons_of_neg hd] at h
      obtain ⟨hcd, ht⟩ := List.cons.inj h
      obtain rfl := Option.some.inj hcd
      exact ⟨l, rfl, hd, ht⟩
    · rw [collapse_cons_of_pos hd] at h
      cases h

/-- A text and a run of blanks at its end that goes on. -/
theorem collapse_append_run (hlast : ∃ c, m.getLast? = some c ∧ p c = true)
    (hrun : ∀ d ∈ l, p d = true) : collapse p (m ++ l) = collapse p m := by
  induction m with
  | nil =>
    obtain ⟨c, hc, -⟩ := hlast
    cases hc
  | cons d m ih =>
    rcases m with _ | ⟨e, m⟩
    · obtain ⟨c, hc, hpc⟩ := hlast
      obtain rfl : d = c := Option.some.inj hc
      rw [List.singleton_append, collapse_cons_of_pos hpc, collapse_cons_of_pos hpc,
        List.dropWhile_eq_nil_iff.mpr hrun]
      rfl
    · have htail := ih (by rwa [List.getLast?_cons_cons] at hlast)
      rw [List.cons_append, collapse_cons, htail]
      rfl

/-- The end of a text is the end of the collapsed text. -/
theorem getLast?_collapse :
    (collapse p l).getLast? = some none ↔ ∃ c, l.getLast? = some c ∧ p c = true := by
  induction l with
  | nil => simp
  | cons d l ih =>
    rcases l with _ | ⟨e, l⟩
    · rcases hd : p d with _ | _
      · simp [collapse_cons_of_neg hd, hd]
      · simp [collapse_cons_of_pos hd, hd]
    · rw [List.getLast?_cons_cons, ← ih]
      have hne : collapse p (e :: l) ≠ [] := fun h => List.cons_ne_nil _ _ (collapse_eq_nil h)
      obtain ⟨x, t, hx⟩ := List.exists_cons_of_ne_nil hne
      rw [collapse_cons, hx]
      split
      · rcases x with _ | x
        · rcases t with _ | ⟨y, t⟩
          · rfl
          · show (none :: y :: t).getLast? = _ ↔ (none :: y :: t).getLast? = _
            rfl
        · show (none :: some x :: t).getLast? = _ ↔ _
          rw [List.getLast?_cons_cons]
      · rw [List.getLast?_cons_cons]

/-- What begins without blanks begins so up to the blanks, too. -/
theorem prefix_of_collapse (h : collapse p m = collapse p (a ++ b)) (ha : ∀ c ∈ a, p c = false) :
    a <+: m := by
  induction a generalizing m with
  | nil => exact List.nil_prefix
  | cons c a ih =>
    rw [List.cons_append, collapse_cons_of_neg (ha c List.mem_cons_self)] at h
    obtain ⟨m', rfl, -, hm'⟩ := collapse_eq_some_cons h
    exact (List.prefix_cons_inj c).mpr (ih hm' fun d hd => ha d (List.mem_cons_of_mem _ hd))

/-- Only the blanks of the text itself matter. -/
theorem collapse_congr (h : ∀ c ∈ l, p c = q c) : collapse p l = collapse q l := by
  induction l with
  | nil => rfl
  | cons c l ih =>
    rw [collapse_cons, collapse_cons, h c List.mem_cons_self,
      ih fun d hd => h d (List.mem_cons_of_mem _ hd)]

/-- What two texts with the same marks have in common, with more blanks. -/
def recollapse (q : α → Bool) : List (Option α) → List (Option α)
  | [] => []
  | none :: l => none :: dropMark (recollapse q l)
  | some c :: l => if q c then none :: dropMark (recollapse q l) else some c :: recollapse q l

theorem dropMark_recollapse (q : α → Bool) (l : List (Option α)) :
    dropMark (recollapse q (dropMark l)) = dropMark (recollapse q l) := by
  rcases l with _ | ⟨_ | c, l⟩
  · rfl
  · rfl
  · rfl

theorem recollapse_collapse (h : ∀ c, p c = true → q c = true) (l : List α) :
    recollapse q (collapse p l) = collapse q l := by
  induction l with
  | nil => rfl
  | cons c l ih =>
    rcases hc : p c with _ | _
    · rw [collapse_cons_of_neg hc, collapse_cons, ← ih]
      rfl
    · rw [collapse_cons, if_pos hc, collapse_cons, if_pos (h c hc), ← ih]
      show none :: dropMark (recollapse q (dropMark (collapse p l))) = _
      rw [dropMark_recollapse]

/-- With more blanks more texts are equal. -/
theorem collapse_mono (h : ∀ c, p c = true → q c = true) (hab : collapse p a = collapse p b) :
    collapse q a = collapse q b := by
  rw [← recollapse_collapse h, hab, recollapse_collapse h]

/-- Two collapsed texts behind each other. -/
def glue : List (Option α) → List (Option α) → List (Option α)
  | [], y => y
  | [none], y => none :: dropMark y
  | x :: xs, y => x :: glue xs y

theorem collapse_append (p : α → Bool) (a b : List α) :
    collapse p (a ++ b) = glue (collapse p a) (collapse p b) := by
  induction a with
  | nil => rfl
  | cons c a ih =>
    rw [List.cons_append, collapse_cons, ih, collapse_cons]
    split
    · rcases collapse p a with _ | ⟨_ | d, t⟩
      · rfl
      · rcases t with _ | ⟨x, t⟩ <;> rfl
      · rfl
    · rfl

/-- Equal texts stay equal when the same text follows. -/
theorem collapse_append_congr (hab : collapse p a = collapse p b) (l : List α) :
    collapse p (a ++ l) = collapse p (b ++ l) := by
  rw [collapse_append, hab, collapse_append]

/-! ## Matching -/

theorem Ends.of_cons (h : Ends p (c :: pre) rest) : Ends p pre rest := by
  rintro ⟨d, hd, hpd⟩
  refine h ⟨d, ?_, hpd⟩
  rcases pre with _ | ⟨e, pre⟩
  · cases hd
  · rwa [List.getLast?_cons_cons]

theorem Ends.cons_of_neg (h : Ends p pre rest) (hc : p c = false) : Ends p (c :: pre) rest := by
  rintro ⟨d, hd, hpd⟩
  rcases pre with _ | ⟨e, pre⟩
  · obtain rfl : c = d := Option.some.inj hd
    rw [hc] at hpd
    cases hpd
  · exact h ⟨d, by rwa [List.getLast?_cons_cons] at hd, hpd⟩

/-- The end of a text is that of every part of its end. -/
theorem getLast?_of_suffix (h : m <:+ l) (hne : m ≠ []) : m.getLast? = l.getLast? := by
  obtain ⟨t, rfl⟩ := h
  rw [List.getLast?_append_of_ne_nil t hne]

theorem Ends.of_suffix (h : Ends p l rest) (hsuffix : m <:+ l) : Ends p m rest := by
  rintro ⟨d, hd, hpd⟩
  have hne : m ≠ [] := by
    rintro rfl
    cases hd
  exact h ⟨d, (getLast?_of_suffix hsuffix hne).symm.trans hd, hpd⟩

variable [DecidableEq α]

theorem looseMatch_nil (p : α → Bool) (full : List α) : looseMatch p full [] = some full := by
  rw [looseMatch]

theorem looseMatch_of_pos (hc : p c = true) (full pre : List α) :
    looseMatch p full (c :: pre) =
      if full.takeWhile p = [] then none
      else looseMatch p (full.dropWhile p) (pre.dropWhile p) := by
  rw [looseMatch.eq_def]
  exact if_pos hc

theorem looseMatch_of_neg (hc : p c = false) (f : α) (full pre : List α) :
    looseMatch p (f :: full) (c :: pre) = if f = c then looseMatch p full pre else none := by
  rw [looseMatch.eq_def]
  exact if_neg (by simp [hc])

theorem looseMatch_nil_of_neg (hc : p c = false) (pre : List α) :
    looseMatch p [] (c :: pre) = none := by
  rw [looseMatch.eq_def]
  exact if_neg (by simp [hc])

omit [DecidableEq α] in
theorem head?_dropWhile_neg {d : α} (hd : (full.dropWhile p).head? = some d) : p d = false := by
  have hnot := List.head?_dropWhile_not p full
  rw [hd] at hnot
  simpa using hnot

omit [DecidableEq α] in
/-- A run of blanks before a text that matches the rest behind a run of blanks. -/
theorem exists_append_of_dropWhile {m : List α} (hrun : full.takeWhile p ≠ [])
    (hfull : full.dropWhile p = m ++ rest) (hm : collapse p m = collapse p (pre.dropWhile p))
    (hends : Ends p (pre.dropWhile p) rest) :
    ∃ m', full = m' ++ rest ∧ collapse p m' = none :: collapse p (pre.dropWhile p) ∧
      Ends p (c :: pre) rest := by
  refine ⟨full.takeWhile p ++ m, ?_, ?_, ?_⟩
  · rw [List.append_assoc, ← hfull, List.takeWhile_append_dropWhile]
  · obtain ⟨d, t, hdt⟩ := List.exists_cons_of_ne_nil hrun
    have hall : ∀ e ∈ d :: t, p e = true := fun e he => List.mem_takeWhile_imp (hdt ▸ he)
    have hstop : m.dropWhile p = m := by
      rcases m with _ | ⟨e, m⟩
      · rfl
      · have he : (full.dropWhile p).head? = some e := by rw [hfull]; rfl
        exact List.dropWhile_cons_of_neg (by simpa using head?_dropWhile_neg he)
    rw [hdt, List.cons_append, collapse_cons_of_pos (hall d List.mem_cons_self),
      List.dropWhile_append_of_pos fun e he => hall e (List.mem_cons_of_mem _ he), hstop, hm]
  · intro hlast
    rcases hdrop : pre.dropWhile p with _ | ⟨e, t⟩
    · rw [hdrop] at hm
      rw [collapse_eq_nil hm, List.nil_append] at hfull
      rw [← hfull]
      exact fun d => head?_dropWhile_neg
    · obtain ⟨d, hd, hpd⟩ := hlast
      have hsuffix : pre.dropWhile p <:+ c :: pre :=
        (List.dropWhile_suffix p).trans (List.suffix_cons c pre)
      exact hends ⟨d, (getLast?_of_suffix hsuffix (by simp [hdrop])).trans hd, hpd⟩

omit [DecidableEq α] in
/-- A text that begins with a run of blanks matches the rest behind them. -/
theorem dropWhile_append_of_collapse {m : List α} (hc : p c = true)
    (hm : collapse p m = none :: collapse p (pre.dropWhile p)) (hends : Ends p (c :: pre) rest) :
    (m ++ rest).dropWhile p = m.dropWhile p ++ rest ∧
      collapse p (m.dropWhile p) = collapse p (pre.dropWhile p) := by
  obtain ⟨d, m', -, -, hm'⟩ := collapse_eq_none_cons hm
  refine ⟨?_, hm'⟩
  rw [List.dropWhile_append]
  split
  · next hempty =>
    have hnil := List.isEmpty_iff.mp hempty
    rw [hnil] at hm' ⊢
    have hall : ∀ e ∈ c :: pre, p e = true := by
      intro e he
      rcases List.mem_cons.mp he with rfl | he
      · exact hc
      · exact List.dropWhile_eq_nil_iff.mp (collapse_eq_nil hm'.symm) e he
    have hrest := hends ⟨_, List.getLast?_eq_some_getLast (List.cons_ne_nil c pre),
      hall _ (List.getLast_mem _)⟩
    rw [List.nil_append]
    rcases rest with _ | ⟨e, rest⟩
    · rfl
    · exact List.dropWhile_cons_of_neg (by simpa using hrest e rfl)
  · rfl

/-- What is left is what follows a text that is equal up to the length of the blanks, and takes the
last run of them whole. -/
theorem looseMatch_eq_some_iff :
    looseMatch p full pre = some rest ↔
      ∃ m, full = m ++ rest ∧ collapse p m = collapse p pre ∧ Ends p pre rest := by
  -- on the length of the pattern: a blank at its head drops the whole run
  induction hn : pre.length using Nat.strong_induction_on generalizing full pre with
  | _ n ih =>
    subst hn
    rcases pre with _ | ⟨c, pre⟩
    · rw [looseMatch_nil]
      constructor
      · intro h
        obtain rfl := Option.some.inj h
        exact ⟨[], rfl, rfl, by rintro ⟨c, hc, -⟩; cases hc⟩
      · rintro ⟨m, rfl, hm, -⟩
        rw [collapse_eq_nil hm, List.nil_append]
    -- a character that is no blank is matched by itself alone
    rcases hc : p c with _ | _
    · rw [collapse_cons_of_neg hc]
      rcases full with _ | ⟨f, full⟩
      · rw [looseMatch_nil_of_neg hc]
        refine ⟨nofun, ?_⟩
        rintro ⟨m, hfull, hm, -⟩
        obtain ⟨m', rfl, -, -⟩ := collapse_eq_some_cons hm
        cases hfull
      rw [looseMatch_of_neg hc]
      split
      · next heq =>
        subst heq
        rw [ih pre.length (Nat.lt_succ_self _) rfl]
        constructor
        · rintro ⟨m, rfl, hm, hends⟩
          exact ⟨f :: m, rfl, by rw [collapse_cons_of_neg hc, hm], hends.cons_of_neg hc⟩
        · rintro ⟨m, hfull, hm, hends⟩
          obtain ⟨m', rfl, -, hm'⟩ := collapse_eq_some_cons hm
          exact ⟨m', (List.cons.inj hfull).2, hm', hends.of_cons⟩
      · next hne =>
        refine ⟨nofun, ?_⟩
        rintro ⟨m, hfull, hm, -⟩
        obtain ⟨m', rfl, -, -⟩ := collapse_eq_some_cons hm
        exact absurd (List.cons.inj hfull).1 hne
    -- a blank stands for the run on both sides
    · rw [collapse_cons_of_pos hc, looseMatch_of_pos hc]
      have hlt : (pre.dropWhile p).length < (c :: pre).length :=
        Nat.lt_succ_of_le (List.dropWhile_suffix p).length_le
      split
      · next hnone =>
        refine ⟨nofun, ?_⟩
        rintro ⟨m, rfl, hm, -⟩
        obtain ⟨d, m', rfl, hd, -⟩ := collapse_eq_none_cons hm
        rw [List.cons_append, List.takeWhile_cons_of_pos hd] at hnone
        cases hnone
      · next hrun =>
        rw [ih _ hlt rfl]
        constructor
        · rintro ⟨m, hfull, hm, hends⟩
          exact exists_append_of_dropWhile hrun hfull hm hends
        · rintro ⟨m, rfl, hm, hends⟩
          obtain ⟨hdrop, hm'⟩ := dropWhile_append_of_collapse hc hm hends
          exact ⟨m.dropWhile p, hdrop, hm', hends.of_suffix
            ((List.dropWhile_suffix p).trans (List.suffix_cons c pre))⟩

/-- Texts over other elements are matched alike. -/
theorem looseMatch_map {β : Type*} [DecidableEq β] {f : β → α} (hf : Function.Injective f)
    (full pre : List β) :
    looseMatch p (full.map f) (pre.map f) = (looseMatch (p ∘ f) full pre).map (List.map f) := by
  induction hn : pre.length using Nat.strong_induction_on generalizing full pre with
  | _ n ih =>
    subst hn
    rcases pre with _ | ⟨c, pre⟩
    · rw [List.map_nil, looseMatch_nil, looseMatch_nil, Option.map_some]
    rw [List.map_cons]
    rcases hc : p (f c) with _ | _
    · rcases full with _ | ⟨d, full⟩
      · rw [List.map_nil, looseMatch_nil_of_neg hc, looseMatch_nil_of_neg (p := p ∘ f) hc,
          Option.map_none]
      · rw [List.map_cons, looseMatch_of_neg hc, looseMatch_of_neg (p := p ∘ f) hc,
          ih pre.length (Nat.lt_succ_self _) full pre rfl]
        simp only [hf.eq_iff]
        split <;> rfl
    · have hlt : (pre.dropWhile (p ∘ f)).length < (c :: pre).length :=
        Nat.lt_succ_of_le (List.dropWhile_suffix _).length_le
      rw [looseMatch_of_pos hc, looseMatch_of_pos (p := p ∘ f) hc, List.takeWhile_map,
        List.dropWhile_map, List.dropWhile_map, ih _ hlt _ _ rfl]
      simp only [List.map_eq_nil_iff]
      split <;> rfl

/-- A text matches as soon as some part of the front is equal to it: the run of blanks that it ends
with is taken along. -/
theorem exists_looseMatch (h : collapse p m = collapse p pre) (rest : List α) :
    ∃ rest', looseMatch p (m ++ rest) pre = some rest' := by
  by_cases hlast : ∃ c, pre.getLast? = some c ∧ p c = true
  · have hlast' : ∃ c, m.getLast? = some c ∧ p c = true := by
      rw [← getLast?_collapse, h, getLast?_collapse]
      exact hlast
    refine ⟨rest.dropWhile p, looseMatch_eq_some_iff.mpr ⟨m ++ rest.takeWhile p, ?_, ?_, ?_⟩⟩
    · rw [List.append_assoc, List.takeWhile_append_dropWhile]
    · rw [collapse_append_run hlast' fun d hd => List.mem_takeWhile_imp hd, h]
    · intro _ d hd
      have hnot := List.head?_dropWhile_not p rest
      rw [hd] at hnot
      simpa using hnot
  · exact ⟨rest, looseMatch_eq_some_iff.mpr ⟨m, rfl, h, fun hsome => absurd hsome hlast⟩⟩

/-- Matching with fewer and with more blanks agree exactly where the part that matches with more
blanks is still equal with fewer. -/
theorem looseMatch_eq_iff (hpq : ∀ c, p c = true → q c = true) :
    looseMatch p full pre = looseMatch q full pre ↔
      ∀ m rest, full = m ++ rest → collapse q m = collapse q pre → Ends q pre rest →
        collapse p m = collapse p pre := by
  constructor
  · intro heq m rest hfull hm hends
    have hq := looseMatch_eq_some_iff.mpr ⟨m, hfull, hm, hends⟩
    obtain ⟨m', hfull', hm', -⟩ := looseMatch_eq_some_iff.mp (heq.trans hq)
    obtain rfl := List.append_cancel_right (hfull.symm.trans hfull')
    exact hm'
  · intro hall
    rcases hq : looseMatch q full pre with _ | rest
    · rcases hp : looseMatch p full pre with _ | rest
      · rfl
      · obtain ⟨m, rfl, hm, -⟩ := looseMatch_eq_some_iff.mp hp
        obtain ⟨rest', hrest'⟩ := exists_looseMatch (collapse_mono hpq hm) rest
        rw [hq] at hrest'
        cases hrest'
    · obtain ⟨m, hfull, hm, hends⟩ := looseMatch_eq_some_iff.mp hq
      refine looseMatch_eq_some_iff.mpr ⟨m, hfull, hall m rest hfull hm hends, ?_⟩
      rintro ⟨c, hc, hpc⟩ d hd
      have hnot := hends ⟨c, hc, hpq c hpc⟩ d hd
      rcases hpd : p d with _ | _
      · rfl
      · rw [hpq d hpd] at hnot
        cases hnot

end Blank
