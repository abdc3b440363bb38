import Mathlib

/-!
# Code that may panic

`Returns x Q` says of a computation in `Option`, whose `none` is a panic, that it does not panic and that
what it returns satisfies `Q`. The rules follow the code: a step and what comes after it (`bind`), a branch
(`ite`), a loop with an invariant (`foldlM`).
-/

variable {α β : Type} {Q : α → Prop}

/-- The computation returns, and what it returns satisfies `Q`. -/
def Returns (x : Option α) (Q : α → Prop) : Prop := ∃ a, x = some a ∧ Q a

namespace Returns

theorem some {a : α} (h : Q a) : Returns (some a) Q := ⟨a, rfl, h⟩

theorem pure {a : α} (h : Q a) : Returns (pure a) Q := ⟨a, rfl, h⟩

theorem mono {x : Option α} {Q' : α → Prop} (h : Returns x Q) (hQ : ∀ a, Q a → Q' a) :
    Returns x Q' := by
  obtain ⟨a, rfl, ha⟩ := h
  exact ⟨a, rfl, hQ a ha⟩

theorem bind {x : Option α} {f : α → Option β} {R : β → Prop} (h : Returns x Q)
    (hf : ∀ a, Q a → Returns (f a) R) : Returns (x >>= f) R := by
  obtain ⟨a, rfl, ha⟩ := h
  exact hf a ha

theorem map {x : Option α} {f : α → β} {R : β → Prop} (h : Returns x Q) (hf : ∀ a, Q a → R (f a)) :
    Returns (x.map f) R := by
  obtain ⟨a, rfl, ha⟩ := h
  exact ⟨f a, rfl, hf a ha⟩

theorem ite {c : Prop} [Decidable c] {x y : Option α} (hx : c → Returns x Q) (hy : ¬c → Returns y Q) :
    Returns (if c then x else y) Q := by
  split
  · next h => exact hx h
  · next h => exact hy h

/-- A loop keeps an invariant that each of its steps keeps. -/
theorem foldlM {ι : Type*} {f : α → ι → Option α} {is : List ι} {a : α} (ha : Q a)
    (hf : ∀ a, ∀ i ∈ is, Q a → Returns (f a i) Q) : Returns (is.foldlM f a) Q := by
  induction is generalizing a with
  | nil => exact pure ha
  | cons i is ih =>
    rw [List.foldlM_cons]
    exact (hf a i List.mem_cons_self ha).bind fun b hb =>
      ih hb fun c j hj => hf c j (List.mem_cons_of_mem _ hj)

end Returns
