import Mathlib

/-!
# Binary search in a partitioned list

`partitionPoint p` halves what is left of a list until one element remains, as the function of that
name on slices. Where the elements that satisfy `p` come first it is their number
(`partitionPoint_eq`), so that a slice between two such points is a filter (`slice_partitionPoint`).
`locate` compares three ways and stops at an element; among strictly increasing values it finds the one
place of a value (`locate_eq_some`).
-/

namespace Bisect

variable {α : Type*} {p q : α → Bool} {xs : List α}

/-- The search among `size` indices from `base` on. -/
def search (p : ℕ → Bool) (base size : ℕ) : ℕ :=
  if size ≤ 1 then
    if p base then base + 1 else base
  else
    let mid := base + size / 2
    search p (if p mid then mid else base) (size - size / 2)
termination_by size
decreasing_by omega

/-- `partition_point`. -/
def partitionPoint (p : α → Bool) (xs : List α) : ℕ :=
  if xs.isEmpty then 0 else search (fun i => xs[i]?.any p) 0 xs.length

/-- The elements that satisfy `p` come first. -/
def Partitioned (p : α → Bool) (xs : List α) : Prop := xs.Pairwise fun a b => p b → p a

/-- A search finds the end of the indices that satisfy `p`. -/
theorem search_eq {p : ℕ → Bool} {base size n : ℕ} (hsize : 0 < size)
    (hp : ∀ i, i < base + size → (p i = true ↔ i < n)) (hbase : base ≤ n) (hn : n ≤ base + size) :
    search p base size = n := by
  induction hs : size using Nat.strong_induction_on generalizing base size with
  | _ s ih =>
    subst hs
    rw [search.eq_def]
    split
    · have hone := hp base (by omega)
      split
      · next hpos =>
        have := hone.mp hpos
        omega
      · next hneg =>
        have : ¬base < n := fun h => hneg (hone.mpr h)
        omega
    · have hmid := hp (base + size / 2) (by omega)
      simp only
      split
      · next hpos =>
        have := hmid.mp hpos
        exact ih _ (by omega) (by omega) (fun i hi => hp i (by omega)) (by omega) (by omega) rfl
      · next hneg =>
        have : ¬base + size / 2 < n := fun h => hneg (hmid.mpr h)
        exact ih _ (by omega) (by omega) (fun i hi => hp i (by omega)) (by omega) (by omega) rfl

theorem Partitioned.sublist {ys : List α} (h : Partitioned p xs) (hys : ys.Sublist xs) :
    Partitioned p ys :=
  List.Pairwise.sublist hys h

/-- Behind an element that does not satisfy `p` none does. -/
theorem Partitioned.filter_eq_nil {x : α} (h : Partitioned p (x :: xs)) (hx : p x = false) :
    xs.filter p = [] := by
  refine List.filter_eq_nil_iff.mpr fun y hy hpy => ?_
  have := (List.pairwise_cons.mp h).1 y hy hpy
  rw [hx] at this
  cases this

theorem Partitioned.filter_append (h : Partitioned p xs) :
    xs.filter p ++ xs.filter (fun x => !p x) = xs := by
  induction xs with
  | nil => rfl
  | cons x xs ih =>
    rcases hx : p x with _ | _
    · have hnil := h.filter_eq_nil hx
      have htail := ih (List.pairwise_cons.mp h).2
      rw [hnil, List.nil_append] at htail
      rw [List.filter_cons_of_neg (by simp [hx]), hnil, List.filter_cons_of_pos (by simp [hx]),
        htail]
      rfl
    · rw [List.filter_cons_of_pos hx, List.filter_cons_of_neg (by simp [hx]), List.cons_append,
        ih (List.pairwise_cons.mp h).2]

theorem Partitioned.getElem?_any_iff (h : Partitioned p xs) (i : ℕ) :
    xs[i]?.any p = true ↔ i < (xs.filter p).length := by
  have hsplit := h.filter_append
  constructor
  · intro hany
    by_contra hge
    rw [← hsplit, List.getElem?_append_right (by omega)] at hany
    obtain ⟨x, hx, hpx⟩ := (Option.any_eq_true ..).mp hany
    have hnot := (List.mem_filter.mp (List.mem_of_getElem? hx)).2
    rw [hpx] at hnot
    cases hnot
  · intro hlt
    rw [← hsplit, List.getElem?_append_left hlt, List.getElem?_eq_getElem hlt]
    exact (List.mem_filter.mp (List.getElem_mem hlt)).2

/-- In a partitioned list the search finds how many elements satisfy `p`. -/
theorem partitionPoint_eq (h : Partitioned p xs) :
    partitionPoint p xs = (xs.filter p).length := by
  unfold partitionPoint
  split
  · next hnil =>
    rw [List.isEmpty_iff.mp hnil]
    rfl
  · next hne =>
    have hpos : 0 < xs.length := List.length_pos_iff.mpr fun hnil => hne (List.isEmpty_iff.mpr hnil)
    refine search_eq hpos (fun i _ => h.getElem?_any_iff i) (Nat.zero_le _) ?_
    rw [Nat.zero_add]
    exact List.length_filter_le ..

theorem take_partitionPoint (h : Partitioned p xs) :
    xs.take (partitionPoint p xs) = xs.filter p := by
  rw [partitionPoint_eq h]
  exact (congrArg (List.take _) h.filter_append.symm).trans List.take_left

theorem drop_partitionPoint (h : Partitioned p xs) :
    xs.drop (partitionPoint p xs) = xs.filter fun x => !p x := by
  rw [partitionPoint_eq h]
  exact (congrArg (List.drop _) h.filter_append.symm).trans List.drop_left

/-- The slice between the points of two predicates has the elements that satisfy only the second. -/
theorem slice_partitionPoint (hp : Partitioned p xs) (hq : Partitioned q xs)
    (hpq : ∀ x, p x = true → q x = true) :
    (xs.take (partitionPoint q xs)).drop (partitionPoint p xs) =
      xs.filter fun x => !p x && q x := by
  have hcount : partitionPoint p xs = partitionPoint p (xs.filter q) := by
    rw [partitionPoint_eq hp, partitionPoint_eq (hp.sublist List.filter_sublist),
      List.filter_filter]
    refine congrArg List.length (List.filter_congr fun x _ => ?_)
    rcases hx : p x with _ | _
    · rfl
    · rw [hpq x hx]
      rfl
  rw [take_partitionPoint hq, hcount, drop_partitionPoint (hp.sublist List.filter_sublist),
    List.filter_filter]

/-! ## Comparing three ways -/

variable {β : Type*} [LinearOrder β] {f : ℤ → Option β} {value : ℤ → β} {x : β} {lo hi : ℤ}

/-- The place of `x` among the values of `f` from `lo` to `hi`; the outer `none` is a value that cannot be
read. -/
def locate (f : ℤ → Option β) (x : β) (lo hi : ℤ) : Option (Option ℤ) :=
  if lo ≤ hi then
    let mid := lo + (hi - lo) / 2
    match f mid with
    | none => none
    | some y =>
      if y < x then locate f x (mid + 1) hi
      else if x < y then locate f x lo (mid - 1)
      else some (some mid)
  else some none
termination_by (hi + 1 - lo).toNat
decreasing_by all_goals omega

/-- One comparison, where all values can be read. -/
theorem locate_step (hf : ∀ i, lo ≤ i → i ≤ hi → f i = some (value i)) (hle : lo ≤ hi) :
    locate f x lo hi =
      if value (lo + (hi - lo) / 2) < x then locate f x (lo + (hi - lo) / 2 + 1) hi
      else if x < value (lo + (hi - lo) / 2) then locate f x lo (lo + (hi - lo) / 2 - 1)
      else some (some (lo + (hi - lo) / 2)) := by
  rw [locate, if_pos hle]
  simp only [hf (lo + (hi - lo) / 2) (by omega) (by omega)]

theorem locate_eq_some (hf : ∀ i, lo ≤ i → i ≤ hi → f i = some (value i))
    (hmono : ∀ i j, lo ≤ i → i < j → j ≤ hi → value i < value j) {i : ℤ} (hlo : lo ≤ i) (hhi : i ≤ hi)
    (hx : value i = x) : locate f x lo hi = some (some i) := by
  induction h : (hi + 1 - lo).toNat using Nat.strong_induction_on generalizing lo hi with
  | _ n ih =>
    subst h
    rw [locate_step hf (by omega)]
    set mid := lo + (hi - lo) / 2 with hmid
    have hbounds : lo ≤ mid ∧ mid ≤ hi := by omega
    split
    · next hlt =>
      -- the place is behind the middle
      have hi' : mid < i := by
        by_contra hle
        rcases eq_or_lt_of_le (not_lt.mp hle) with rfl | hlt'
        · exact absurd hx (ne_of_lt hlt)
        · exact lt_asymm hlt (hx ▸ hmono i mid hlo hlt' hbounds.2)
      exact ih _ (by omega) (fun j hj => hf j (by omega)) (fun j k hj => hmono j k (by omega))
        (by omega) hhi rfl
    · split
      · next hgt =>
        have hi' : i < mid := by
          by_contra hle
          rcases eq_or_lt_of_le (not_lt.mp hle) with heq | hlt'
          · exact absurd (heq ▸ hx) (ne_of_gt hgt)
          · exact lt_asymm hgt (hx ▸ hmono mid i hbounds.1 hlt' hhi)
        exact ih _ (by omega) (fun j hj hj' => hf j hj (by omega))
          (fun j k hj hjk hk => hmono j k hj hjk (by omega)) hlo (by omega) rfl
      · next hge hle =>
        have heq : value mid = value i := hx ▸ le_antisymm (not_lt.mp hle) (not_lt.mp hge)
        rcases lt_trichotomy mid i with h | h | h
        · exact absurd heq (ne_of_lt (hmono mid i hbounds.1 h hhi))
        · rw [h]
        · exact absurd heq (ne_of_gt (hmono i mid hlo h hbounds.2))

end Bisect
