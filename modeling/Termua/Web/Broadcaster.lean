import Mathlib
import Termua.Lib.Signal
import Termua.Web.Step

/-!
# The broadcaster misses no change

Seen through `signal`, the server is a coalescing notification: `update_snapshot` is the writer and
the broadcaster task is the publisher. Every step of the server is at most one step of it
(`signal_step`), so the library's result carries over.
-/

namespace Termua.Web

open Termua.Cast (TerminalScreen letterScreen)

namespace Server

/-- Where the broadcaster is in the loop of a publisher. -/
def Broadcaster.phase : Broadcaster → Signal.Phase
  | .waiting => .waiting
  | .sleeping => .sleeping
  | .draining => .draining
  | .ready => .ready

/-- The part of the server that announces the snapshot. -/
def signal (s : Server) : Signal TerminalScreen where
  current := s.snapshot
  published := s.broadcastScreen
  notifying := s.notifying
  token := !s.tokens.queue.isEmpty
  phase := Broadcaster.phase s.broadcaster

theorem signal_authenticate (s : Server) (client : ClientId) (conn : Connection) (token : String) :
    (s.authenticate client conn token).signal = s.signal := by
  rw [authenticate]
  split <;> rfl

/-- The token channel holds at most one token. -/
theorem queue_tokens_recv {tokens tokens' : Channel Unit 1} (h : tokens.recv = some ((), tokens')) :
    tokens.queue.isEmpty = false ∧ tokens'.queue.isEmpty = true := by
  have hqueue := Channel.recv_eq_some.mp h
  have hle := tokens.length_le
  rw [hqueue] at hle
  have hempty : tokens'.queue = [] := by simpa using hle
  exact ⟨by simp [hqueue], by simp [hempty]⟩

/-- After `try_send` a token is there, whether it was sent or lost. -/
theorem queue_tokens_trySend (tokens : Channel Unit 1) :
    ((tokens.trySend ()).getD tokens).queue.isEmpty = false := by
  cases hsend : tokens.trySend () with
  | none =>
    have hlen := Channel.trySend_eq_none.mp hsend
    cases hqueue : tokens.queue with
    | nil => simp [hqueue] at hlen
    | cons _ _ => simp [hqueue]
  | some tokens' => simp [(Channel.trySend_eq_some.mp hsend).2]

/-- A step of the server is at most one step of the notification. -/
theorem signal_step {s s' : Server} {e : Event} (h : s.step e = some s') :
    ∃ fs, Transition.Run Signal.Step s.signal fs s'.signal := by
  have hquiet : ∀ {t : Server}, t.signal = s.signal →
      ∃ fs, Transition.Run Signal.Step s.signal fs t.signal := by
    intro t ht
    rw [ht]
    exact ⟨[], .start⟩
  have hone : ∀ {t : Server} {f : Signal.Event TerminalScreen} {u : Signal TerminalScreen},
      Signal.Step s.signal f u → t.signal = u →
        ∃ fs, Transition.Run Signal.Step s.signal fs t.signal := by
    intro t f u hstep ht
    rw [ht]
    exact ⟨_, .next .start hstep⟩
  -- six steps are those of the notification, and the others do not touch it
  cases step_cases h with
  | authenticated => exact hquiet (signal_authenticate _ _ _ _)
  | setSnapshot hne => exact hone (.set _ _) rfl
  | notify hnotifying =>
    exact hone (.notify _ hnotifying) (by simp [signal, queue_tokens_trySend])
  | recvToken hphase hrecv =>
    obtain ⟨htoken, hempty⟩ := queue_tokens_recv hrecv
    exact hone (.recv _ (by simp [signal, hphase, Broadcaster.phase]) (by simp [signal, htoken]))
      (by simp [signal, hempty, Broadcaster.phase])
  | wake hphase => exact hone (.wake _ (by simp [signal, hphase, Broadcaster.phase])) rfl
  | drainToken hphase hrecv =>
    obtain ⟨htoken, hempty⟩ := queue_tokens_recv hrecv
    exact hone (.drain _ (by simp [signal, hphase, Broadcaster.phase]) (by simp [signal, htoken]))
      (by simp [signal, hempty])
  | drained hphase hempty =>
    exact hone (.drained _ (by simp [signal, hphase, Broadcaster.phase]) (by simp [signal, hempty]))
      rfl
  | broadcast hphase => exact hone (.publish _ (by simp [signal, hphase, Broadcaster.phase])) rfl
  | _ => exact hquiet rfl

/-- In every state reached in which no `update_snapshot` is between its two steps, a snapshot that
differs from the broadcast screen has a token in the channel, or the broadcaster is between its
`recv` and its diff. -/
theorem no_lost_wakeup (token : String) (snapshot : TerminalScreen) (es : List Event) (s : Server)
    (h : Reaches token snapshot es s) (hnotifying : s.notifying = 0)
    (hne : s.snapshot ≠ s.broadcastScreen) :
    s.tokens.queue ≠ [] ∨ s.broadcaster ≠ .waiting := by
  obtain ⟨fs, hfs⟩ := Transition.Run.simulate signal (fun _ _ _ _ _ hstep => signal_step hstep) h
  have hstart : (bind token snapshot).signal.NotLost := fun _ hne => absurd rfl hne
  rcases Signal.not_lost hstart hfs hnotifying hne with htoken | hphase
  · exact .inl (by simpa [signal] using htoken)
  · refine .inr fun hwaiting => hphase ?_
    simp [signal, hwaiting, Broadcaster.phase]

/-- A snapshot that was set and announced while the broadcaster waits. -/
theorem no_lost_wakeup_setSnapshot :
    ∃ s, Reaches "secret" (letterScreen 'a') [.setSnapshot (letterScreen 'b'), .notify] s ∧
      (s.tokens.queue ≠ [] ∨ s.broadcaster ≠ .waiting) := by
  have hrun : Reaches "secret" (letterScreen 'a') [.setSnapshot (letterScreen 'b'), .notify] _ :=
    Transition.run_ofPartial_iff.mpr rfl
  exact ⟨_, hrun, no_lost_wakeup _ _ _ _ hrun rfl (by decide)⟩

end Server

end Termua.Web
