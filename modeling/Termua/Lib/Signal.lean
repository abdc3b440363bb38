import Mathlib
import Termua.Lib.Run

/-!
# Coalescing notifications

A writer changes a value and then notifies a publisher through a token that is lost when one is
there already. The publisher takes the token, waits, throws away the tokens that came meanwhile, and
publishes the value it then finds. The two steps of a writer and the steps of the publisher
interleave freely, and there may be many writers.

`Signal.not_lost` is the reason why throwing tokens away is harmless: an unpublished value is
always followed by a publication.
-/

/-- Where the publisher is in its loop. -/
inductive Signal.Phase
  | waiting
  | sleeping
  | draining
  | ready
  deriving DecidableEq, Repr

/-- The value, what was last published, the number of writers between their two steps, whether a
token is there, and the publisher. -/
structure Signal (α : Type*) where
  current : α
  published : α
  notifying : ℕ
  token : Bool
  phase : Signal.Phase

namespace Signal

variable {α : Type*}

/-- A step of a writer or of the publisher. -/
inductive Event (α : Type*)
  | set (value : α)
  | notify
  | recv
  | wake
  | drain
  | drained
  | publish

/-- What the steps do. -/
inductive Step : Signal α → Event α → Signal α → Prop
  | set (s : Signal α) (value : α) :
      Step s (.set value) { s with current := value, notifying := s.notifying + 1 }
  | notify (s : Signal α) (hnotifying : 0 < s.notifying) :
      Step s .notify { s with notifying := s.notifying - 1, token := true }
  | recv (s : Signal α) (hphase : s.phase = .waiting) (htoken : s.token = true) :
      Step s .recv { s with token := false, phase := .sleeping }
  | wake (s : Signal α) (hphase : s.phase = .sleeping) : Step s .wake { s with phase := .draining }
  | drain (s : Signal α) (hphase : s.phase = .draining) (htoken : s.token = true) :
      Step s .drain { s with token := false }
  | drained (s : Signal α) (hphase : s.phase = .draining) (htoken : s.token = false) :
      Step s .drained { s with phase := .ready }
  | publish (s : Signal α) (hphase : s.phase = .ready) :
      Step s .publish { s with published := s.current, phase := .waiting }

/-- A value that no writer is about to announce is published, announced, or about to be
published. -/
def NotLost (s : Signal α) : Prop :=
  s.notifying = 0 → s.current ≠ s.published → s.token = true ∨ s.phase ≠ .waiting

/-- No step ends in a state in which a notification is lost. -/
theorem NotLost.of_step {s s' : Signal α} {e : Event α} (hs : Step s e s') : s'.NotLost := by
  intro hnotifying hne
  cases hs with
  | set value => exact absurd hnotifying (Nat.succ_ne_zero _)
  | notify _ => exact .inl rfl
  | recv _ _ => exact .inr (by simp)
  | wake _ => exact .inr (by simp)
  | drain hphase _ => exact .inr (by simp [hphase])
  | drained _ _ => exact .inr (by simp)
  | publish _ => exact absurd rfl hne

/-- No run loses a notification. -/
theorem not_lost {s₀ s : Signal α} {es : List (Event α)} (h₀ : s₀.NotLost)
    (h : Transition.Run Step s₀ es s) : s.NotLost :=
  h.invariant h₀ fun _ _ _ _ _ _ hs => .of_step hs

end Signal
