import Mathlib

/-!
# Bounded channels

A first-in first-out channel that holds at most `capacity` values. `trySend` fails on a full
channel, `recv` on an empty one; a sender that waits for room is a sender that has not taken its
step yet.
-/

/-- A channel of bounded capacity, its oldest value first. -/
structure Channel (α : Type*) (capacity : ℕ) where
  queue : List α
  length_le : queue.length ≤ capacity

namespace Channel

variable {α : Type*} {capacity : ℕ}

@[ext] theorem ext {c d : Channel α capacity} (h : c.queue = d.queue) : c = d := by
  cases c
  cases d
  cases h
  rfl

/-- The channel without values. -/
def empty : Channel α capacity := ⟨[], Nat.zero_le _⟩

@[simp] theorem queue_empty : (empty : Channel α capacity).queue = [] := rfl

/-- Put a value behind the others, if there is room. -/
def trySend (c : Channel α capacity) (a : α) : Option (Channel α capacity) :=
  if h : c.queue.length < capacity then some ⟨c.queue ++ [a], by simpa using h⟩ else none

/-- Take the oldest value. -/
def recv (c : Channel α capacity) : Option (α × Channel α capacity) :=
  match c with
  | ⟨[], _⟩ => none
  | ⟨a :: queue, h⟩ => some (a, ⟨queue, (Nat.le_succ _).trans h⟩)

theorem trySend_eq_some {c d : Channel α capacity} {a : α} :
    c.trySend a = some d ↔ c.queue.length < capacity ∧ d.queue = c.queue ++ [a] := by
  rw [trySend]
  split
  · next h => simpa [h, Channel.ext_iff] using eq_comm
  · next h => simp [h]

theorem trySend_eq_none {c : Channel α capacity} {a : α} :
    c.trySend a = none ↔ c.queue.length = capacity := by
  have hle := c.length_le
  rw [trySend]
  split
  · simp; omega
  · simp; omega

theorem recv_eq_some {c d : Channel α capacity} {a : α} :
    c.recv = some (a, d) ↔ c.queue = a :: d.queue := by
  obtain ⟨_ | ⟨b, queue⟩, h⟩ := c
  · simp [recv]
  · simp [recv, Channel.ext_iff]

theorem recv_eq_none {c : Channel α capacity} : c.recv = none ↔ c.queue = [] := by
  obtain ⟨_ | ⟨b, queue⟩, h⟩ := c <;> simp [recv]

end Channel
