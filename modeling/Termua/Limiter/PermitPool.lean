import Mathlib
import Termua.Lib.Channel
import Termua.Lib.Run

/-!
# The permit pool

`PermitPool` of `gpui_common/src/limiter.rs` with the futures that its callers hold. The calls of
`acquire` are numbered in the order in which they are first polled. A call that finds no room leaves
the sender of a channel of capacity one in the queue and awaits the receiver; `grantWaiters` counts
the permit and sends the unit message, and the caller builds its permit when it is polled again.
A caller may drop its future at any time, which closes the channel but leaves the sender queued.
-/

namespace Termua.Limiter

/-- A call of `acquire`. -/
abbrev CallId := ℕ

/-- What has become of a call of `acquire`. -/
inductive Acquire
  /-- It awaits the receiver of its channel. -/
  | waiting (rx : Channel Unit 1)
  /-- It returned, and its `PermitPoolPermit` is live. -/
  | returned
  /-- Its permit was dropped. -/
  | released
  /-- The future was dropped before it returned. -/
  | dropped

namespace Acquire

/-- Its permit is live. -/
def isPermit : Acquire → Bool
  | returned => true
  | _ => false

/-- A grant was sent to it that it has not received. -/
def isGranted : Acquire → Bool
  | waiting rx => !rx.queue.isEmpty
  | _ => false

/-- It has neither returned nor been dropped. -/
def isPending : Acquire → Bool
  | waiting _ => true
  | _ => false

/-- It is still waiting for a grant. -/
def isWaiting : Acquire → Bool
  | waiting rx => rx.queue.isEmpty
  | _ => false

end Acquire

/-- A permit that was counted, with `inflight` and `max` as they were right before. -/
structure Grant where
  call : CallId
  inflight : ℕ
  max : ℕ
deriving DecidableEq

/-- The pool's state behind its lock, and its callers' futures. The waiters are the senders of their
calls' channels, and `grants` lists the permits counted so far. -/
structure PermitPool where
  max : ℕ
  inflight : ℕ
  waiters : List CallId
  calls : List Acquire
  grants : List Grant

/-- `max.clamp(1, 15)`. -/
def clampMax (m : ℕ) : ℕ := min (max m 1) 15

namespace PermitPool

/-- `PermitPool::new`. -/
def new (m : ℕ) : PermitPool where
  max := clampMax m
  inflight := 0
  waiters := []
  calls := []
  grants := []

/-- `inflight += 1` for a call. -/
def count (s : PermitPool) (call : CallId) : PermitPool :=
  { s with
    inflight := s.inflight + 1
    grants := s.grants ++ [⟨call, s.inflight, s.max⟩] }

/-- `tx.try_send(())` on the sender of a call; `none` is an error, of a channel that is full or whose
receiver was dropped. -/
def trySend (s : PermitPool) (tx : CallId) : Option PermitPool :=
  match s.calls[tx]? with
  | some (.waiting rx) =>
    (rx.trySend ()).map fun rx => { s with calls := s.calls.set tx (.waiting rx) }
  | _ => none

/-- The loop of `grant_waiters` over the queue. -/
def grantLoop : List CallId → PermitPool → PermitPool
  | [], s => s
  | tx :: waiters, s =>
    if s.inflight < s.max then
      let s := { s with waiters := waiters }
      match s.trySend tx with
      | some s => grantLoop waiters (s.count tx)
      | none => grantLoop waiters s
    else s

/-- `grant_waiters`. -/
def grantWaiters (s : PermitPool) : PermitPool := grantLoop s.waiters s

/-- `PermitPool::set_max`. -/
def setMax (s : PermitPool) (m : ℕ) : PermitPool :=
  if s.max = clampMax m then s else { s with max := clampMax m }.grantWaiters

/-- The locked part of the loop in `acquire`: the permit is counted, or a new channel's sender is
queued. -/
def lockOnce (s : PermitPool) (call : CallId) : PermitPool × Acquire :=
  if s.inflight < s.max then (s.count call, .returned)
  else ({ s with waiters := s.waiters ++ [call] }, .waiting .empty)

/-- `PermitPool::acquire` up to its first suspension. -/
def acquire (s : PermitPool) : PermitPool :=
  let (s', a) := s.lockOnce s.calls.length
  { s' with calls := s'.calls ++ [a] }

/-- A later poll of the future. A channel without message and without sender makes `recv` fail, and
the loop is taken once more. -/
def poll (s : PermitPool) (call : CallId) : Option PermitPool :=
  match s.calls[call]? with
  | some (.waiting rx) =>
    match rx.recv with
    | some _ => some { s with calls := s.calls.set call .returned }
    | none =>
      if call ∈ s.waiters then some s
      else
        let (s', a) := s.lockOnce call
        some { s' with calls := s'.calls.set call a }
  | _ => none

/-- `PermitPoolPermit::drop`. -/
def dropPermit (s : PermitPool) (call : CallId) : Option PermitPool :=
  match s.calls[call]? with
  | some .returned =>
    some { s with
      inflight := s.inflight - 1
      calls := s.calls.set call .released }.grantWaiters
  | _ => none

/-- The future is dropped before it returned, and its receiver with it. -/
def cancel (s : PermitPool) (call : CallId) : Option PermitPool :=
  match s.calls[call]? with
  | some (.waiting _) => some { s with calls := s.calls.set call .dropped }
  | _ => none

/-- What can happen to a pool. -/
inductive Event
  | acquire
  | poll (call : CallId)
  | dropPermit (call : CallId)
  | setMax (m : ℕ)
  | cancel (call : CallId)
deriving DecidableEq

/-- One step; `none` when it is not possible. -/
def step (s : PermitPool) : Event → Option PermitPool
  | .acquire => some s.acquire
  | .poll call => s.poll call
  | .dropPermit call => s.dropPermit call
  | .setMax m => some (s.setMax m)
  | .cancel call => s.cancel call

/-- The number of live permits. -/
def livePermits (s : PermitPool) : ℕ := s.calls.countP Acquire.isPermit

/-- The number of grants sent but not yet received. -/
def grantsSent (s : PermitPool) : ℕ := s.calls.countP Acquire.isGranted

/-- The call is queued, and its future is still there. -/
def LiveWaiter (s : PermitPool) (call : CallId) : Prop :=
  call ∈ s.waiters ∧ ∃ a, s.calls[call]? = some a ∧ a.isWaiting

/-- The event drops no future that a grant was sent to. -/
def KeepsGrants (s : PermitPool) : Event → Prop
  | .cancel call => (s.calls[call]?).any Acquire.isGranted = false
  | _ => True

instance (s : PermitPool) (e : Event) : Decidable (s.KeepsGrants e) :=
  match e with
  | .cancel _ => inferInstanceAs (Decidable (_ = _))
  | .acquire | .poll _ | .dropPermit _ | .setMax _ => isTrue trivial

end PermitPool

end Termua.Limiter
