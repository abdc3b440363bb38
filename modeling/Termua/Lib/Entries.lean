import Mathlib

/-!
# Lists as growing tables

Entries are added behind the others and replaced in place; an entry's position is its name.
-/

namespace List

variable {α : Type*} {l : List α} {a b : α} {i : ℕ}

/-- An entry after one more was put behind the others. -/
theorem getElem?_concat_cases (h : (l ++ [a])[i]? = some b) :
    l[i]? = some b ∨ i = l.length ∧ a = b := by
  rw [List.getElem?_append] at h
  split at h
  · exact .inl h
  · next hge =>
    rw [List.getElem?_singleton] at h
    split at h
    · exact .inr ⟨by omega, Option.some.inj h⟩
    · cases h

/-- An entry after one was replaced. -/
theorem getElem?_set_cases {j : ℕ} (h : (l.set i a)[j]? = some b) :
    j = i ∧ a = b ∨ j ≠ i ∧ l[j]? = some b := by
  rw [List.getElem?_set] at h
  split at h
  · next heq =>
    split at h
    · exact .inl ⟨heq.symm, Option.some.inj h⟩
    · cases h
  · next hne => exact .inr ⟨Ne.symm hne, h⟩

/-- What replacing an entry does to a count. -/
theorem countP_set_add {p : α → Bool} (h : l[i]? = some a) :
    (l.set i b).countP p + (if p a then 1 else 0) = l.countP p + (if p b then 1 else 0) := by
  obtain ⟨hlt, ha⟩ := List.getElem?_eq_some_iff.mp h
  have hpos : p a → 0 < l.countP p := fun hp =>
    List.countP_pos_iff.mpr ⟨a, List.mem_of_getElem? h, hp⟩
  rw [List.countP_set hlt, ha]
  by_cases hp : p a
  · have := hpos hp
    simp only [hp, if_true]
    omega
  · simp [hp]

/-- Replacing an entry by one that a function maps to the same value leaves the mapped list. -/
theorem map_set_of_eq {β : Type*} {f : α → β} (h : l[i]? = some a) (hf : f b = f a) :
    (l.set i b).map f = l.map f := by
  obtain ⟨hlt, ha⟩ := List.getElem?_eq_some_iff.mp h
  have hlt' : i < (l.map f).length := by simpa using hlt
  have hself : f b = (l.map f)[i] := by rw [hf, List.getElem_map, ha]
  rw [List.map_set, hself, List.set_getElem_self]

/-! ## The last entry with a property -/

/-- Whatever has the property stands before the last entry that has it, or is that entry. -/
theorem rel_of_find?_reverse {p : α → Bool} {R : α → α → Prop} (hl : l.Pairwise R)
    (ha : l.reverse.find? p = some a) (hb : b ∈ l) (hpb : p b = true) : b = a ∨ R b a := by
  induction l using List.reverseRecOn with
  | nil => cases hb
  | append_singleton l c ih =>
    obtain ⟨hl, -, hrel⟩ := List.pairwise_append.mp hl
    rw [List.reverse_append, List.reverse_singleton, List.singleton_append, List.find?_cons] at ha
    rcases hpc : p c with _ | _
    · simp only [hpc] at ha
      rcases List.mem_append.mp hb with hb | hb
      · exact ih hl ha hb
      · obtain rfl := List.mem_singleton.mp hb
        exact absurd (hpc.symm.trans hpb) (by simp)
    · simp only [hpc] at ha
      obtain rfl := Option.some.inj ha
      rcases List.mem_append.mp hb with hb | hb
      · exact .inr (hrel b hb c (List.mem_singleton_self c))
      · exact .inl (List.mem_singleton.mp hb)

theorem find?_reverse_concat {p : α → Bool} :
    (l ++ [a]).reverse.find? p = if p a then some a else l.reverse.find? p := by
  rw [List.reverse_append, List.reverse_singleton, List.singleton_append, List.find?_cons]
  rcases p a <;> rfl

end List
