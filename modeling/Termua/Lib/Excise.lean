import Mathlib

/-!
# Cutting patterns out of a stream

`Excised P text out` says that `out` is what a scan from left to right leaves of `text` when it drops
each pattern of `P` it comes upon. Where no pattern begins inside another, the patterns of a text stand
apart. The scan of a stream in chunks then leaves the same as the scan of the whole stream exactly when
no chunk ends inside a pattern (`flatMap_eq_iff`).
-/

namespace Excise

variable {α : Type*}

/-- Where a pattern begins there is one only, and inside it no other one begins. -/
structure Separate (P : List α → Prop) : Prop where
  ne_nil : ∀ {w}, P w → w ≠ []
  unique : ∀ {w w' r s}, P w → P w' → w ++ r = w' ++ s → w = w'
  apart : ∀ {u v w r s}, P (u ++ v) → u ≠ [] → v ≠ [] → P w → v ++ r ≠ w ++ s

/-- A pattern begins the text. -/
def Begins (P : List α → Prop) (text : List α) : Prop := ∃ w, P w ∧ w <+: text

inductive Excised (P : List α → Prop) : List α → List α → Prop
  | nil : Excised P [] []
  | keep {c : α} {rest out : List α} (h : ¬ Begins P (c :: rest)) (hrest : Excised P rest out) :
      Excised P (c :: rest) (c :: out)
  | drop {w rest out : List α} (hw : P w) (hrest : Excised P rest out) : Excised P (w ++ rest) out

/-- A pattern begins in the first text and ends in the second. -/
def Straddles (P : List α → Prop) (x y : List α) : Prop :=
  ∃ u v, P (u ++ v) ∧ u ≠ [] ∧ v ≠ [] ∧ u <:+ x ∧ v <+: y

variable {P : List α → Prop} {text out out' x y w rest : List α} {c : α}

theorem Begins.append (h : Begins P x) : Begins P (x ++ y) := by
  obtain ⟨w, hw, hprefix⟩ := h
  exact ⟨w, hw, hprefix.trans (List.prefix_append x y)⟩

theorem Excised.eq_nil (hsep : Separate P) (h : Excised P text out) (htext : text = []) :
    out = [] := by
  cases h with
  | nil => rfl
  | keep => cases htext
  | drop hw => exact absurd (List.append_eq_nil_iff.mp htext).1 (hsep.ne_nil hw)

theorem Excised.exists_drop (hsep : Separate P) (hw : P w) (h : Excised P text out)
    (htext : text = w ++ rest) : Excised P rest out := by
  cases h with
  | nil => exact absurd (List.append_eq_nil_iff.mp htext.symm).1 (hsep.ne_nil hw)
  | keep hnot => exact absurd ⟨w, hw, rest, htext.symm⟩ hnot
  | drop hw' hrest =>
    obtain rfl := hsep.unique hw' hw htext
    rwa [← List.append_cancel_left htext]

theorem Excised.exists_keep (h : Excised P text out) (htext : text = c :: rest)
    (hnot : ¬ Begins P (c :: rest)) : ∃ out', out = c :: out' ∧ Excised P rest out' := by
  cases h with
  | nil => cases htext
  | keep _ hrest =>
    obtain ⟨rfl, rfl⟩ := List.cons.inj htext
    exact ⟨_, rfl, hrest⟩
  | drop hw =>
    rw [← htext] at hnot
    exact absurd ⟨_, hw, List.prefix_append _ _⟩ hnot

/-- The scan leaves one text. -/
theorem Excised.unique (hsep : Separate P) (h : Excised P text out) (h' : Excised P text out') :
    out = out' := by
  induction h generalizing out' with
  | nil => exact (h'.eq_nil hsep rfl).symm
  | keep hnot _ ih =>
    obtain ⟨rest', rfl, hrest'⟩ := h'.exists_keep rfl hnot
    rw [ih hrest']
  | drop hw _ ih => exact ih (h'.exists_drop hsep hw rfl)

/-- A kept beginning: no pattern begins in it. -/
theorem Excised.append_left {before : List α}
    (hfree : ∀ u v, before = u ++ v → v ≠ [] → ¬ Begins P (v ++ rest)) (h : Excised P rest out) :
    Excised P (before ++ rest) (before ++ out) := by
  induction before with
  | nil => exact h
  | cons c before ih =>
    refine .keep (hfree [] (c :: before) rfl (List.cons_ne_nil _ _)) (ih fun u v huv hv => ?_)
    exact hfree (c :: u) v (congrArg (c :: ·) huv) hv

theorem Excised.of_free (hfree : ∀ u v, text = u ++ v → v ≠ [] → ¬ Begins P v) :
    Excised P text text := by
  have hfree' : ∀ u v, text = u ++ v → v ≠ [] → ¬ Begins P (v ++ []) := by
    intro u v huv hv
    rw [List.append_nil]
    exact hfree u v huv hv
  have h := Excised.append_left hfree' .nil
  rwa [List.append_nil] at h

theorem not_straddles_nil_left : ¬ Straddles P [] y :=
  fun ⟨_, _, _, hu, _, hsuffix, _⟩ => hu (List.suffix_nil.mp hsuffix)

theorem Straddles.append_left (h : Straddles P x y) (before : List α) :
    Straddles P (before ++ x) y := by
  obtain ⟨u, v, huv, hu, hv, hsuffix, hprefix⟩ := h
  exact ⟨u, v, huv, hu, hv, hsuffix.trans (List.suffix_append before x), hprefix⟩

/-- What straddles the end of two texts begins in one of them. -/
theorem Straddles.of_append_left {before : List α} (h : Straddles P (before ++ x) y) :
    Straddles P before (x ++ y) ∨ Straddles P x y := by
  obtain ⟨u, v, huv, hu, hv, ⟨a, ha⟩, hprefix⟩ := h
  rcases List.append_eq_append_iff.mp ha with ⟨b, rfl, rfl⟩ | ⟨b, rfl, rfl⟩
  · rcases eq_or_ne b [] with rfl | hb
    · exact .inr ⟨x, v, huv, by rwa [List.nil_append] at hu, hv, List.suffix_rfl, hprefix⟩
    · refine .inl ⟨b, x ++ v, by rwa [← List.append_assoc], hb, List.append_ne_nil_of_right_ne_nil x hv,
        List.suffix_append a b, ?_⟩
      exact (List.prefix_append_right_inj x).mpr hprefix
  · exact .inr ⟨u, v, huv, hu, hv, List.suffix_append b u, hprefix⟩

section Strip

variable {strip : List α → List α} (hsep : Separate P) (hstrip : ∀ text, Excised P text (strip text))

include hsep hstrip

theorem strip_nil : strip [] = [] := (hstrip []).unique hsep .nil

theorem strip_drop (hw : P w) : strip (w ++ rest) = strip rest :=
  (hstrip _).unique hsep (.drop hw (hstrip rest))

theorem strip_keep (hnot : ¬ Begins P (c :: rest)) : strip (c :: rest) = c :: strip rest :=
  (hstrip _).unique hsep (.keep hnot (hstrip rest))

theorem strip_of_free (hfree : ∀ u v, text = u ++ v → v ≠ [] → ¬ Begins P v) : strip text = text :=
  (hstrip _).unique hsep (.of_free hfree)

/-- Two texts that no pattern straddles are scanned one after the other. -/
theorem strip_append (hnot : ¬ Straddles P x y) : strip (x ++ y) = strip x ++ strip y := by
  induction hlength : x.length using Nat.strong_induction_on generalizing x with
  | _ n ih =>
    subst hlength
    rcases x with _ | ⟨c, x⟩
    · rw [List.nil_append, strip_nil hsep hstrip, List.nil_append]
    by_cases hbegins : Begins P (c :: x ++ y)
    · obtain ⟨w, hw, r, hr⟩ := hbegins
      rcases List.append_eq_append_iff.mp hr with ⟨rest, hrest, rfl⟩ | ⟨v, rfl, rfl⟩
      · have hlt : rest.length < (c :: x).length := by
          have hpos := List.length_pos_of_ne_nil (hsep.ne_nil hw)
          rw [hrest, List.length_append]
          omega
        have hrest' : ¬ Straddles P rest y := fun ⟨u, v, huv, hu, hv, hsuffix, hprefix⟩ =>
          hnot ⟨u, v, huv, hu, hv, hsuffix.trans (hrest ▸ List.suffix_append w rest), hprefix⟩
        rw [hrest, List.append_assoc, strip_drop hsep hstrip hw, strip_drop hsep hstrip hw,
          ih _ hlt hrest' rfl]
      · rcases eq_or_ne v [] with rfl | hv
        · -- the pattern ends where the first text does
          rw [List.append_nil] at hw
          have hnil : strip (c :: x ++ []) = strip [] := strip_drop hsep hstrip hw
          rw [List.append_nil, strip_nil hsep hstrip] at hnil
          rw [strip_drop hsep hstrip hw, hnil, List.nil_append, List.nil_append]
        · exact absurd ⟨c :: x, v, hw, List.cons_ne_nil c x, hv, List.suffix_rfl,
            List.prefix_append v r⟩ hnot
    · have hrest : ¬ Straddles P x y := fun ⟨u, v, huv, hu, hv, hsuffix, hprefix⟩ =>
        hnot ⟨u, v, huv, hu, hv, hsuffix.trans (List.suffix_cons c x), hprefix⟩
      have hcons : strip (c :: x ++ y) = c :: strip (x ++ y) := strip_keep hsep hstrip hbegins
      rw [hcons,
        strip_keep hsep hstrip fun h => hbegins h.append, ih _ (Nat.lt_succ_self _) hrest rfl,
        List.cons_append]

/-- A text with a pattern in it. -/
theorem strip_append_pattern (hw : P w) : strip (x ++ (w ++ y)) = strip x ++ strip y := by
  have hnot : ¬ Straddles P x (w ++ y) := fun ⟨u, v, huv, hu, hv, _, r, hr⟩ =>
    hsep.apart huv hu hv hw hr
  rw [strip_append hsep hstrip hnot, strip_drop hsep hstrip hw]

/-- A part of a pattern has no pattern in it, and none straddles its ends. -/
theorem strip_append_part {u v : List α} (huv : P (u ++ v)) (hu : u ≠ []) (hv : v ≠ []) :
    strip (x ++ u) = strip x ++ u ∧ strip (v ++ y) = v ++ strip y := by
  have hleft : strip u = u := by
    refine strip_of_free hsep hstrip fun a b hab hb ⟨w, hw, r, hr⟩ => ?_
    have heq : (b ++ v) ++ [] = w ++ (r ++ v) := by
      rw [List.append_nil, ← hr, List.append_assoc]
    rw [hab, List.append_assoc] at huv
    rcases eq_or_ne a [] with rfl | ha
    · have hsame := hsep.unique huv hw heq
      have hlength := congrArg List.length hr
      rw [← hsame, List.nil_append, List.length_append, List.length_append] at hlength
      have hpos := List.length_pos_of_ne_nil hv
      omega
    · exact hsep.apart huv ha (List.append_ne_nil_of_left_ne_nil hb v) hw heq
  have hright : strip v = v := by
    refine strip_of_free hsep hstrip fun a b hab hb ⟨w, hw, r, hr⟩ => ?_
    rw [hab, ← List.append_assoc] at huv
    refine hsep.apart huv (List.append_ne_nil_of_left_ne_nil hu a) hb hw (r := []) (s := r) ?_
    rw [List.append_nil, hr]
  constructor
  · rw [strip_append hsep hstrip, hleft]
    rintro ⟨a, b, hab, ha, hb, -, r, hr⟩
    refine hsep.apart hab ha hb huv (r := r ++ v) (s := []) ?_
    rw [← List.append_assoc, hr, List.append_nil]
  · rw [strip_append hsep hstrip, hright]
    rintro ⟨a, b, hab, ha, hb, ⟨r, hr⟩, -⟩
    rw [← hr, ← List.append_assoc] at huv
    refine hsep.apart huv (List.append_ne_nil_of_left_ne_nil hu r) ha hab (r := b) (s := []) ?_
    rw [List.append_nil]

/-- Where a pattern straddles two texts, less is left of them together. -/
theorem length_strip_append_lt (h : Straddles P x y) :
    (strip (x ++ y)).length < (strip x).length + (strip y).length := by
  obtain ⟨u, v, huv, hu, hv, ⟨a, rfl⟩, ⟨b, rfl⟩⟩ := h
  have hpos := List.length_pos_of_ne_nil hu
  have hwhole : strip ((a ++ u) ++ (v ++ b)) = strip a ++ strip b := by
    rw [List.append_assoc, ← List.append_assoc u, strip_append_pattern hsep hstrip huv]
  rw [hwhole, (strip_append_part hsep hstrip (y := b) huv hu hv).1,
    (strip_append_part hsep hstrip (x := a) huv hu hv).2, List.length_append, List.length_append,
    List.length_append]
  omega

theorem length_strip_append_le :
    (strip (x ++ y)).length ≤ (strip x).length + (strip y).length := by
  by_cases h : Straddles P x y
  · exact (length_strip_append_lt hsep hstrip h).le
  · rw [strip_append hsep hstrip h, List.length_append]

theorem length_strip_flatten_le (chunks : List (List α)) :
    (strip chunks.flatten).length ≤ (chunks.flatMap strip).length := by
  induction chunks with
  | nil => rw [List.flatten_nil, strip_nil hsep hstrip, List.flatMap_nil]
  | cons chunk chunks ih =>
    have hle := length_strip_append_le hsep hstrip (x := chunk) (y := chunks.flatten)
    rw [List.flatten_cons, List.flatMap_cons, List.length_append]
    omega

/-- The chunks are scanned as their stream is exactly when no chunk ends inside a pattern. -/
theorem flatMap_eq_iff (chunks : List (List α)) :
    chunks.flatMap strip = strip chunks.flatten ↔
      ∀ i, ¬ Straddles P (chunks.take i).flatten (chunks.drop i).flatten := by
  induction chunks with
  | nil =>
    rw [List.flatMap_nil, List.flatten_nil, strip_nil hsep hstrip]
    refine iff_of_true rfl fun i => ?_
    rw [List.take_nil, List.drop_nil]
    exact not_straddles_nil_left
  | cons chunk chunks ih =>
    rw [List.flatMap_cons, List.flatten_cons]
    constructor
    · intro h
      -- a pattern across the first border is missed, and no later chunk makes up for it
      have hhead : ¬ Straddles P chunk chunks.flatten := by
        intro hstraddles
        have hlt := length_strip_append_lt hsep hstrip hstraddles
        have hle := length_strip_flatten_le hsep hstrip chunks
        rw [← h, List.length_append] at hlt
        omega
      rw [strip_append hsep hstrip hhead, List.append_cancel_left_eq, ih] at h
      intro i
      cases i with
      | zero => exact not_straddles_nil_left
      | succ i =>
        intro hstraddles
        rw [List.take_succ_cons, List.flatten_cons, List.drop_succ_cons] at hstraddles
        -- a border further on is crossed from the first chunk, or from those behind it
        rcases hstraddles.of_append_left with hleft | hright
        · rw [← List.flatten_append, List.take_append_drop] at hleft
          exact hhead hleft
        · exact h i hright
    · intro h
      have hhead : ¬ Straddles P chunk chunks.flatten := by
        have hone := h 1
        rwa [List.take_succ_cons, List.take_zero, List.flatten_singleton, List.drop_succ_cons,
          List.drop_zero] at hone
      rw [strip_append hsep hstrip hhead, ih.mpr]
      intro i hstraddles
      refine h (i + 1) ?_
      rw [List.take_succ_cons, List.flatten_cons, List.drop_succ_cons]
      exact hstraddles.append_left chunk

end Strip

end Excise
