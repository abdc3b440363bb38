import Mathlib

/-!
# Ring buffers

A ring buffer is a list of slots with the index `start` of its first element; what it holds is
`slots.rotate start`. `wrapIndex` finds the slot of an element with one comparison.

Blocks of such a list are moved by swaps over a fixed distance: `swap_ascending` and
`swap_descending` say which blocks change places when each element of a block is swapped with the
one `k` behind it, in either order. `update_descending` is the loop that rewrites a block.
-/

namespace Ring

variable {α β : Type*} {l : List α} {start i : ℕ}

/-- The slot of the element `i` in a ring of `n` slots that starts at `start`. -/
def wrapIndex (n start i : ℕ) : ℕ := if n ≤ start + i then start + i - n else start + i

/-- Exchange two elements, `none` where one of them is not there. -/
def swapAt (l : List α) (i j : ℕ) : Option (List α) := do
  let a ← l[i]?
  let b ← l[j]?
  return (l.set i b).set j a

/-- Rewrite an element, `none` where it is not there or `f` fails on it. -/
def updateAt (f : α → Option α) (l : List α) (i : ℕ) : Option (List α) := do
  let a ← l[i]?
  let b ← f a
  return l.set i b

/-! ## Slots and elements -/

theorem wrapIndex_eq_mod {n : ℕ} (hz : start < n) (hi : i < n) :
    wrapIndex n start i = (i + start) % n := by
  unfold wrapIndex
  split
  · next hle =>
    rw [Nat.add_comm i, Nat.mod_eq_sub_mod hle, Nat.mod_eq_of_lt (by omega)]
  · rw [Nat.add_comm i, Nat.mod_eq_of_lt (by omega)]

theorem wrapIndex_lt {n : ℕ} (hz : start < n) (hi : i < n) : wrapIndex n start i < n := by
  rw [wrapIndex_eq_mod hz hi]
  exact Nat.mod_lt _ (by omega)

/-- The slot of an element holds it. -/
theorem getElem?_wrapIndex (hz : start < l.length) (hi : i < l.length) :
    l[wrapIndex l.length start i]? = (l.rotate start)[i]? := by
  rw [wrapIndex_eq_mod hz hi, List.getElem?_rotate hi]

/-- Writing the slot of an element writes that element. -/
theorem rotate_set_wrapIndex (hz : start < l.length) (hi : i < l.length) (a : α) :
    (l.set (wrapIndex l.length start i) a).rotate start = (l.rotate start).set i a := by
  refine List.ext_getElem? fun j => ?_
  by_cases hj : j < l.length
  · have hslot := wrapIndex_lt hz hi
    rw [List.getElem?_rotate (by simpa using hj), List.length_set, List.getElem?_set,
      List.getElem?_set, List.getElem?_rotate hj, List.length_rotate]
    have hinj : wrapIndex l.length start i = (j + start) % l.length ↔ i = j := by
      rw [wrapIndex_eq_mod hz hi]
      constructor
      · intro h
        exact Nat.ModEq.eq_of_lt_of_lt (Nat.ModEq.add_right_cancel' start h) hi hj
      · rintro rfl
        rfl
    simp only [hinj, hslot, hi, if_true]
  · rw [List.getElem?_eq_none (by simpa using hj), List.getElem?_eq_none (by simpa using hj)]

theorem zip_set (l : List α) (l' : List β) (i : ℕ) (x : α × β) :
    (l.set i x.1).zip (l'.set i x.2) = (l.zip l').set i x := by
  induction l generalizing l' i with
  | nil => rfl
  | cons a l ih =>
    cases l' with
    | nil => cases i <;> rfl
    | cons b l' =>
      cases i with
      | zero => rfl
      | succ i => exact congrArg ((a, b) :: ·) (ih l' i)

/-! ## Swapping blocks -/

theorem swapAt_comm (l : List α) (i j : ℕ) : swapAt l i j = swapAt l j i := by
  unfold swapAt
  rcases hi : l[i]? with _ | a <;> rcases hj : l[j]? with _ | b <;> try rfl
  by_cases hij : i = j
  · subst hij
    rw [hi] at hj
    cases hj
    rfl
  · show some _ = some _
    rw [List.set_comm _ _ hij]

/-- Two elements of a list written out around them change places. -/
theorem swapAt_split (pre mid post : List α) (a b : α) :
    swapAt (pre ++ a :: (mid ++ b :: post)) pre.length (pre.length + (mid.length + 1)) =
      some (pre ++ b :: (mid ++ a :: post)) := by
  have hb : (pre ++ a :: (mid ++ b :: post))[pre.length + (mid.length + 1)]? = some b := by
    rw [List.getElem?_append_right (by omega), Nat.add_sub_cancel_left, List.getElem?_cons_succ,
      List.getElem?_append_right (le_refl _), Nat.sub_self]
    rfl
  have ha : (pre ++ a :: (mid ++ b :: post))[pre.length]? = some a := by
    rw [List.getElem?_append_right (le_refl _), Nat.sub_self]
    rfl
  unfold swapAt
  rw [ha, hb]
  show some _ = some _
  congr 1
  rw [List.set_append_right _ _ (le_refl _), Nat.sub_self, List.set_cons_zero,
    List.set_append_right _ _ (by omega), Nat.add_sub_cancel_left, List.set_cons_succ,
    List.set_append_right _ _ (le_refl _), Nat.sub_self, List.set_cons_zero]

theorem swapAt_self {i : ℕ} (hi : i < l.length) : swapAt l i i = some l := by
  unfold swapAt
  rw [List.getElem?_eq_getElem hi]
  show some _ = some _
  rw [List.set_set, List.set_getElem_self]

/-- The elements from `base` on, `n` of them, each swapped with the one `k` behind it. -/
def swapAscending (k base n : ℕ) (l : List α) : Option (List α) :=
  (List.range' base n).foldlM (fun l i => swapAt l i (i + k)) l

/-- The same swaps, the last element first. -/
def swapDescending (k base n : ℕ) (l : List α) : Option (List α) :=
  (List.range' base n).reverse.foldlM (fun l i => swapAt l i (i + k)) l

/-- Swapped in ascending order, the `k` elements in front of a block get behind it. -/
theorem swap_ascending (pre front block post : List α) :
    ∃ behind, behind.Perm front ∧
      swapAscending front.length pre.length block.length (pre ++ (front ++ (block ++ post))) =
        some (pre ++ (block ++ (behind ++ post))) := by
  induction block generalizing pre front with
  | nil => exact ⟨front, .refl _, rfl⟩
  | cons b block ih =>
    unfold swapAscending at ih ⊢
    rw [List.length_cons, List.range'_succ, List.foldlM_cons]
    cases front with
    | nil =>
      obtain ⟨behind, hperm, hih⟩ := ih (pre ++ [b]) []
      refine ⟨behind, hperm, ?_⟩
      rw [List.length_nil, Nat.add_zero, swapAt_self (by simp)]
      simpa using hih
    | cons a front =>
      obtain ⟨behind, hperm, hih⟩ := ih (pre ++ [b]) (front ++ [a])
      refine ⟨behind, hperm.trans List.perm_append_comm, ?_⟩
      have hswap := swapAt_split pre front (block ++ post) a b
      rw [List.length_cons, List.cons_append, List.cons_append, hswap]
      simpa using hih

/-- Swapped in descending order, the `k` elements behind a block get in front of it. -/
theorem swap_descending (pre block back post : List α) :
    ∃ before, before.Perm back ∧
      swapDescending back.length pre.length block.length (pre ++ (block ++ (back ++ post))) =
        some (pre ++ (before ++ (block ++ post))) := by
  induction block using List.reverseRecOn generalizing back post with
  | nil => exact ⟨back, .refl _, rfl⟩
  | append_singleton block b ih =>
    unfold swapDescending at ih ⊢
    rw [List.length_append, List.length_singleton, List.range'_concat, List.reverse_append,
      List.reverse_singleton, List.singleton_append, List.foldlM_cons, Nat.one_mul]
    rcases List.eq_nil_or_concat back with rfl | ⟨back, a, rfl⟩
    · obtain ⟨before, hperm, hih⟩ := ih [] (b :: post)
      refine ⟨before, hperm, ?_⟩
      rw [List.length_nil, Nat.add_zero, swapAt_self (by simp)]
      simpa using hih
    · obtain ⟨before, hperm, hih⟩ := ih (a :: back) (b :: post)
      refine ⟨before, by simpa using hperm.trans (List.perm_append_singleton a back).symm, ?_⟩
      have hswap := swapAt_split (pre ++ block) back post b a
      rw [List.length_append, List.append_assoc, List.append_assoc] at hswap
      simp only [List.concat_eq_append, List.length_append, List.length_singleton,
        List.append_assoc, List.singleton_append] at hih ⊢
      rw [hswap]
      simpa using hih

/-! ## Rewriting blocks -/

theorem updateAt_eq_some {f : α → Option α} {a b : α} (ha : l[i]? = some a) (hf : f a = some b) :
    updateAt f l i = some (l.set i b) := by
  unfold updateAt
  rw [ha, Option.bind_eq_bind, Option.bind_some, hf]
  rfl

/-- Elements rewritten one by one, each once and in any order, are each rewritten where they are. -/
theorem foldlM_updateAt {ι : Type*} {pos : ι → ℕ} {f : ι → α → Option α} {is : List ι}
    (hnodup : (is.map pos).Nodup) (hf : ∀ i ∈ is, ((l[pos i]?).bind (f i)).isSome) :
    ∃ r, is.foldlM (fun l i => updateAt (f i) l (pos i)) l = some r ∧
      (∀ i ∈ is, r[pos i]? = (l[pos i]?).bind (f i)) ∧
      ∀ p, (∀ i ∈ is, pos i ≠ p) → r[p]? = l[p]? := by
  induction is generalizing l with
  | nil => exact ⟨l, rfl, by simp, fun _ _ => rfl⟩
  | cons i is ih =>
    rw [List.map_cons, List.nodup_cons] at hnodup
    obtain ⟨hnew, hnodup⟩ := hnodup
    obtain ⟨b, hb⟩ := Option.isSome_iff_exists.mp (hf i (by simp))
    obtain ⟨a, ha, hfa⟩ := Option.bind_eq_some_iff.mp hb
    have hlt := (List.getElem?_eq_some_iff.mp ha).1
    have hother {j : ι} (hj : j ∈ is) : (l.set (pos i) b)[pos j]? = l[pos j]? :=
      List.getElem?_set_ne fun h => hnew (List.mem_map.mpr ⟨j, hj, h.symm⟩)
    obtain ⟨r, hr, hin, hout⟩ := ih (l := l.set (pos i) b) hnodup fun j hj => by
      rw [hother hj]
      exact hf j (List.mem_cons_of_mem _ hj)
    refine ⟨r, ?_, ?_, ?_⟩
    · rw [List.foldlM_cons, updateAt_eq_some ha hfa]
      exact hr
    · intro j hj
      rcases List.mem_cons.mp hj with rfl | hj
      · rw [hout _ fun i' hi' h => hnew (List.mem_map.mpr ⟨i', hi', h⟩), hb,
          List.getElem?_set_self hlt]
      · rw [hin j hj, hother hj]
    · intro p hp
      rw [hout p fun j hj => hp j (List.mem_cons_of_mem _ hj),
        List.getElem?_set_ne (hp i (by simp))]

/-- Rewriting the elements of a block rewrites the block. -/
theorem foldlM_updateAt_block {ι : Type*} {pos : ι → ℕ} {f : ι → α → Option α} {is : List ι}
    {pre block rewritten post : List α} (hnodup : (is.map pos).Nodup)
    (hpos : ∀ p, (∃ i ∈ is, pos i = p) ↔ pre.length ≤ p ∧ p < pre.length + block.length)
    (hlen : rewritten.length = block.length)
    (hf : ∀ i ∈ is, ∀ a, block[pos i - pre.length]? = some a →
      f i a = rewritten[pos i - pre.length]?) :
    is.foldlM (fun l i => updateAt (f i) l (pos i)) (pre ++ (block ++ post)) =
      some (pre ++ (rewritten ++ post)) := by
  have hblock {i : ι} (hi : i ∈ is) : pre.length ≤ pos i ∧ pos i < pre.length + block.length :=
    (hpos _).mp ⟨i, hi, rfl⟩
  have hold {i : ι} (hi : i ∈ is) :
      ((pre ++ (block ++ post))[pos i]?).bind (f i) = rewritten[pos i - pre.length]? := by
    have := hblock hi
    have hlt : pos i - pre.length < block.length := by omega
    rw [List.getElem?_append_right this.1, List.getElem?_append_left hlt]
    exact hf i hi _ (List.getElem?_eq_getElem hlt) ▸ by rw [List.getElem?_eq_getElem hlt]; rfl
  -- each place of the block is rewritten once, and no other place
  obtain ⟨r, hr, hin, hout⟩ := foldlM_updateAt (l := pre ++ (block ++ post)) hnodup
    fun i hi => by
      have := hblock hi
      rw [hold hi, List.getElem?_eq_getElem (by omega)]
      rfl
  rw [hr]
  congr 1
  refine List.ext_getElem? fun p => ?_
  by_cases hp : pre.length ≤ p ∧ p < pre.length + block.length
  · obtain ⟨i, hi, rfl⟩ := (hpos p).mpr hp
    rw [hin i hi, hold hi, List.getElem?_append_right hp.1, List.getElem?_append_left (by omega)]
  · rw [hout p fun i hi h => hp (h ▸ hblock hi)]
    rcases Nat.lt_or_ge p pre.length with hpre | hpre
    · rw [List.getElem?_append_left hpre, List.getElem?_append_left hpre]
    · rw [List.getElem?_append_right hpre, List.getElem?_append_right hpre,
        List.getElem?_append_right (by omega), List.getElem?_append_right (by omega), hlen]

/-- A loop that counts in steps of `d` beside its state is the loop over the numbers it counts. -/
theorem foldlM_counter {f : β → ℕ → ℤ → Option β} (b : β) (c d : ℤ) (n : ℕ) :
    (List.range n).foldlM (fun p j => (f p.1 j p.2).map fun b => (b, p.2 + d)) (b, c) =
      ((List.range n).foldlM (fun b j => f b j (c + j * d)) b).map fun b => (b, c + n * d) := by
  induction n with
  | zero => simp
  | succ n ih =>
    rw [List.range_succ, List.foldlM_append, List.foldlM_append, ih]
    rcases (List.range n).foldlM (fun b j => f b j (c + j * d)) b with _ | b'
    · rfl
    · simp only [Option.map_some, Option.bind_eq_bind, Option.bind_some, List.foldlM_cons,
        List.foldlM_nil, bind_pure, Nat.cast_add, Nat.cast_one, add_assoc, add_mul, one_mul]

end Ring
