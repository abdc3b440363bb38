import Mathlib

/-!
# Clamped sums

A value that is kept between zero and a bound while deltas are added to it. Clamping after each delta
or after all of them comes to the same unless a delta meets a sum that is past an end and does not
stay there (`clamp_clamp_add_iff`).
-/

namespace Clamp

/-- The value in `[0, h]` next to `x`. -/
def clamp (h x : ℤ) : ℤ := max 0 (min x h)

variable {h x d : ℤ}

theorem clamp_nonneg : 0 ≤ clamp h x := le_max_left _ _

theorem clamp_le (hpos : 0 ≤ h) : clamp h x ≤ h := max_le hpos (min_le_right _ _)

theorem clamp_eq_self (hx : 0 ≤ x) (hle : x ≤ h) : clamp h x = x := by
  unfold clamp
  rw [min_eq_left hle, max_eq_right hx]

theorem clamp_of_nonpos (hx : x ≤ 0) : clamp h x = 0 := max_eq_left ((min_le_left _ _).trans hx)

theorem clamp_of_le (hpos : 0 ≤ h) (hx : h ≤ x) : clamp h x = h := by
  unfold clamp
  rw [min_eq_right hx, max_eq_right hpos]

/-- A delta may be added before clamping: the value is within the bounds, or the delta goes on past the
same end, or it crosses the whole range. -/
def Additive (h x d : ℤ) : Prop :=
  h = 0 ∨ (x < 0 → d ≤ 0 ∨ h ≤ x + d) ∧ (h < x → 0 ≤ d ∨ x + d ≤ 0)

instance : Decidable (Additive h x d) := by unfold Additive; infer_instance

theorem additive_zero : Additive h x 0 :=
  .inr ⟨fun _ => .inl le_rfl, fun _ => .inl le_rfl⟩

theorem clamp_clamp_add_iff (hpos : 0 ≤ h) :
    clamp h (clamp h x + d) = clamp h (x + d) ↔ Additive h x d := by
  unfold Additive
  rcases lt_trichotomy x 0 with hneg | rfl | hx
  · rw [clamp_of_nonpos hneg.le]
    unfold clamp
    omega
  · rw [clamp_of_nonpos le_rfl]
    omega
  · rcases le_or_gt x h with hle | hlt
    · rw [clamp_eq_self hx.le hle]
      omega
    · rw [clamp_of_le hpos hlt.le]
      unfold clamp
      omega

end Clamp
