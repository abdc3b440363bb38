import Mathlib

/-!
# Append-only tables

A table that only grows: an entry gives a key a value or takes it away, and the last entry of a key is
the one that counts.
-/

namespace Overlay

variable {κ α : Type*} [DecidableEq κ] {log : List (κ × Option α)} {k : κ} {a : α}

/-- The value of a key, from its last entry. -/
def current (log : List (κ × Option α)) (k : κ) : Option α :=
  ((log.reverse.find? fun entry => entry.1 = k).map (·.2)).join

theorem current_concat (log : List (κ × Option α)) (entry : κ × Option α) :
    current (log ++ [entry]) k = if entry.1 = k then entry.2 else current log k := by
  unfold current
  rw [List.reverse_append, List.reverse_singleton, List.singleton_append]
  by_cases h : entry.1 = k
  · rw [List.find?_cons_of_pos (by simpa using h), if_pos h]
    rfl
  · rw [List.find?_cons_of_neg (by simpa using h), if_neg h]

/-- Keys that are all given one value, or all taken away. -/
theorem current_append (log : List (κ × Option α)) (keys : List κ) (v : Option α) :
    current (log ++ keys.map (·, v)) k = if k ∈ keys then v else current log k := by
  induction keys using List.reverseRecOn with
  | nil => simp
  | append_singleton keys last ih =>
    rw [List.map_append, ← List.append_assoc, List.map_singleton, current_concat, ih]
    by_cases hlast : last = k
    · subst hlast
      simp
    · rw [if_neg hlast]
      by_cases hk : k ∈ keys
      · rw [if_pos hk, if_pos (List.mem_append_left _ hk)]
      · rw [if_neg hk, if_neg]
        simp [hk, Ne.symm hlast]

/-- The value of a key has an entry. -/
theorem mem_of_current (h : current log k = some a) : (k, some a) ∈ log := by
  induction log using List.reverseRecOn with
  | nil => exact absurd h nofun
  | append_singleton log last ih =>
    rw [current_concat] at h
    split at h
    · next hlast =>
      exact List.mem_append_right _ (List.mem_singleton.mpr (Prod.ext hlast.symm h.symm))
    · exact List.mem_append_left _ (ih h)

/-- In a table that takes nothing away, every key with an entry has a value. -/
theorem exists_current (hall : ∀ entry ∈ log, entry.2.isSome) (hk : ∃ entry ∈ log, entry.1 = k) :
    ∃ a, current log k = some a := by
  induction log using List.reverseRecOn with
  | nil => simp at hk
  | append_singleton log last ih =>
    rw [current_concat]
    split
    · exact Option.isSome_iff_exists.mp (hall last (by simp))
    · next hlast =>
      refine ih (fun entry he => hall entry (List.mem_append_left _ he)) ?_
      obtain ⟨entry, he, rfl⟩ := hk
      rcases List.mem_append.mp he with he | he
      · exact ⟨entry, he, rfl⟩
      · exact absurd (congrArg Prod.fst (List.mem_singleton.mp he)).symm hlast

end Overlay
