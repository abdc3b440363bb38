import Mathlib

/-!
# The first free candidate

`firstFree` draws candidates from a generator until one is not among the occupied ones. A generator is
a state with a step that gives a candidate and the next state; the fuel bounds the draws. Where no
candidate comes twice, one draw more than there are occupied ones is enough (`exists_firstFree`).
-/

namespace Fresh

variable {σ α : Type*} [DecidableEq α] (next : σ → α × σ) (occupied : List α)

/-- The first candidate that is not occupied, with the state of the generator behind it. -/
def firstFree : ℕ → σ → Option (α × σ)
  | 0, _ => none
  | fuel + 1, s => if (next s).1 ∈ occupied then firstFree fuel (next s).2 else some (next s)

/-- The candidate that the draw after `n` others gives. -/
def candidate (s : σ) : ℕ → α
  | 0 => (next s).1
  | n + 1 => candidate (next s).2 n

variable {next occupied}

/-- A candidate that is found is not occupied. -/
theorem notMem_of_firstFree {fuel : ℕ} {s : σ} {found : α × σ}
    (h : firstFree next occupied fuel s = some found) : found.1 ∉ occupied := by
  induction fuel generalizing s with
  | zero => cases h
  | succ fuel ih =>
    rw [firstFree] at h
    split at h
    · exact ih h
    · next hfree =>
      obtain rfl := Option.some.inj h
      exact hfree

/-- A search that finds nothing has seen only occupied candidates. -/
theorem candidate_mem_of_firstFree {fuel : ℕ} {s : σ} (h : firstFree next occupied fuel s = none)
    {n : ℕ} (hn : n < fuel) : candidate next s n ∈ occupied := by
  induction fuel generalizing s n with
  | zero => omega
  | succ fuel ih =>
    rw [firstFree] at h
    split at h
    · next hmem =>
      cases n with
      | zero => exact hmem
      | succ n => exact ih h (by omega)
    · cases h

/-- More candidates than there are occupied ones are not all occupied. -/
theorem exists_firstFree (occupied : List α) {s : σ} (hinj : Function.Injective (candidate next s)) :
    ∃ found, firstFree next occupied (occupied.length + 1) s = some found := by
  refine Option.ne_none_iff_exists'.mp fun hnone => ?_
  -- the candidates that were drawn are among the occupied ones, and no two are the same
  let drawn := (List.range (occupied.length + 1)).map (candidate next s)
  have hnodup : drawn.Nodup := List.Nodup.map hinj List.nodup_range
  have hsubset : drawn ⊆ occupied := by
    intro a ha
    obtain ⟨n, hn, rfl⟩ := List.mem_map.mp ha
    exact candidate_mem_of_firstFree hnone (List.mem_range.mp hn)
  have hlength : drawn.length ≤ occupied.length := (hnodup.subperm hsubset).length_le
  have hdrawn : drawn.length = occupied.length + 1 := by simp [drawn]
  omega

end Fresh
