import Mathlib

/-!
# Tables

A table is a function to `Option`; `Function.update` sets or removes an entry. A table whose entries
have an order is an `AList`; `modify` changes the value of a key in place.
-/

namespace Table

variable {α β : Type*} [DecidableEq α] {f : α → Option β} {a x : α} {b y : β}

/-- An entry after one entry was set. -/
theorem update_some_eq_some (h : Function.update f a (some b) x = some y) :
    x = a ∧ b = y ∨ x ≠ a ∧ f x = some y := by
  rw [Function.update_apply] at h
  split at h
  · next heq => exact .inl ⟨heq, Option.some.inj h⟩
  · next hne => exact .inr ⟨hne, h⟩

/-- An entry after one entry was removed. -/
theorem update_none_eq_some (h : Function.update f a none x = some y) : x ≠ a ∧ f x = some y := by
  rw [Function.update_apply] at h
  split at h
  · cases h
  · next hne => exact ⟨hne, h⟩

theorem update_none_eq_none (h : f x = none) : Function.update f a none x = none := by
  rw [Function.update_apply]
  split
  · rfl
  · exact h

/-! ## Tables with an order -/

section Ordered

variable {γ : Type*} {c : γ} {l : List (Sigma fun _ : α => γ)} {s : AList fun _ : α => γ}

/-- The table with the value of a key changed, if it has one. -/
def modify (a : α) (g : γ → γ) (s : AList fun _ : α => γ) : AList fun _ : α => γ :=
  match s.lookup a with
  | some c => s.replace a (g c)
  | none => s

theorem dlookup_kreplace :
    (l.kreplace a c).dlookup x = if x = a then (l.dlookup a).map fun _ => c else l.dlookup x := by
  induction l with
  | nil => simp [List.kreplace]
  | cons entry l ih =>
    obtain ⟨k, v⟩ := entry
    unfold List.kreplace at ih ⊢
    by_cases hk : a = k
    · subst hk
      rw [List.lookmap_cons_some _ _ (by simp; rfl)]
      by_cases hx : x = a
      · subst hx
        simp
      · simp [hx]
    · rw [List.lookmap_cons_none _ _ (by simp [hk])]
      by_cases hx : x = k
      · subst hx
        simp [Ne.symm hk]
      · simp [hx, hk, ih]

theorem lookup_modify (g : γ → γ) :
    (modify a g s).lookup x = if x = a then (s.lookup a).map g else s.lookup x := by
  unfold modify
  rcases h : s.lookup a with _ | c
  · by_cases hx : x = a
    · subst hx
      simp [h]
    · simp [hx]
  · refine dlookup_kreplace.trans ?_
    rw [show s.entries.dlookup a = some c from h]
    rfl

omit [DecidableEq α] in
theorem nodupKeys_concat (c : γ) (h : a ∉ s) :
    (s.entries ++ [(⟨a, c⟩ : Sigma fun _ : α => γ)]).NodupKeys := by
  unfold List.NodupKeys
  rw [List.keys_append]
  exact List.nodup_append.mpr ⟨s.nodupKeys, List.nodup_singleton _, fun x hx y hy heq => by
    obtain rfl := List.mem_singleton.mp hy
    exact h (heq ▸ hx)⟩

/-- The table with a new key behind the others; one with the key stays. -/
def push (a : α) (c : γ) (s : AList fun _ : α => γ) : AList fun _ : α => γ :=
  if h : a ∈ s then s else ⟨s.entries ++ [⟨a, c⟩], nodupKeys_concat c h⟩

theorem lookup_push (h : a ∉ s) : (push a c s).lookup x = if x = a then some c else s.lookup x := by
  unfold push
  rw [dif_neg h]
  show (s.entries ++ [(⟨a, c⟩ : Sigma fun _ : α => γ)]).dlookup x = _
  rw [List.dlookup_append]
  by_cases hx : x = a
  · subst hx
    rw [List.dlookup_eq_none.mpr h, if_pos rfl, Option.none_or, List.dlookup_cons_eq]
  · rw [if_neg hx, List.dlookup_cons_ne _ _ hx, List.dlookup_nil, Option.or_none]
    rfl

theorem mem_modify (g : γ → γ) : x ∈ modify a g s ↔ x ∈ s := by
  rw [← AList.lookup_isSome, ← AList.lookup_isSome, lookup_modify]
  by_cases hx : x = a
  · subst hx
    rw [if_pos rfl, Option.isSome_map]
  · rw [if_neg hx]

theorem mem_push (h : a ∉ s) : x ∈ push a c s ↔ x = a ∨ x ∈ s := by
  rw [← AList.lookup_isSome, ← AList.lookup_isSome, lookup_push h]
  by_cases hx : x = a
  · simp [hx]
  · simp [hx]

end Ordered

end Table
