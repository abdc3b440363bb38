import Mathlib
import Termua.Lib.Run

/-!
# Who may control a shared terminal

`ShareAccess` of `termua/src/web/mod.rs`: the connected clients of a web share, the client that
holds control, and the control request that waits for the operator's decision. A method that
returns a value besides changing the state returns both.

`AccessEvent` lists the seven calls that the web socket tasks and the window make. `Granted` says
from the events alone when a client holds control; `granted_of_canInput` is the induction that ties
it to the state.
-/

namespace Termua.Web

/-- `ClientId`, drawn from the global counter `NEXT_CLIENT_ID`: no two connections share one. -/
abbrev ClientId := ℕ

/-- `ControlRequestId = u64`. -/
abbrev ControlRequestId := UInt64

/-- `AccessError`. -/
inductive AccessError
  | invalidToken
  | unknownClient
  | unknownRequest
  | controllerAlreadyActive
  | requestAlreadyPending
  deriving DecidableEq, Repr

/-- `ClientAccess`. -/
inductive ClientAccess
  | readOnly
  deriving DecidableEq, Repr

/-- `ShareAccess`. -/
structure ShareAccess where
  token : String
  clients : Finset ClientId
  controller : Option ClientId
  pending : Std.ExtTreeMap ControlRequestId ClientId
  nextRequestId : ControlRequestId

namespace ShareAccess

/-- `ShareAccess::new`. -/
def new (token : String) : ShareAccess where
  token := token
  clients := ∅
  controller := none
  pending := ∅
  nextRequestId := 1

/-- `ShareAccess::connect`. -/
def connect (s : ShareAccess) (token : String) (client : ClientId) :
    Except AccessError ClientAccess × ShareAccess :=
  if token ≠ s.token then (.error .invalidToken, s)
  else (.ok .readOnly, { s with clients := insert client s.clients })

/-- `ShareAccess::can_input`. -/
def canInput (s : ShareAccess) (client : ClientId) : Bool :=
  s.controller == some client

/-- `u64::wrapping_add(1)` followed by `.max(1)`, so that no request gets the id zero. -/
def succRequestId (request : ControlRequestId) : ControlRequestId :=
  if request + 1 = 0 then 1 else request + 1

/-- `ShareAccess::request_control`. -/
def requestControl (s : ShareAccess) (client : ClientId) :
    Except AccessError ControlRequestId × ShareAccess :=
  if client ∉ s.clients then (.error .unknownClient, s)
  else if s.controller = some client then (.error .controllerAlreadyActive, s)
  else if !s.pending.isEmpty then (.error .requestAlreadyPending, s)
  else (.ok s.nextRequestId,
    { s with
      nextRequestId := succRequestId s.nextRequestId
      pending := s.pending.insert s.nextRequestId client })

/-- `ShareAccess::approve`. -/
def approve (s : ShareAccess) (request : ControlRequestId) :
    Except AccessError Unit × ShareAccess :=
  match s.pending[request]? with
  | none => (.error .unknownRequest, s)
  | some client =>
    if client ∉ s.clients then
      (.error .unknownClient, { s with pending := s.pending.erase request })
    else (.ok (), { s with controller := some client, pending := ∅ })

/-- `ShareAccess::deny`. -/
def deny (s : ShareAccess) (request : ControlRequestId) : ShareAccess :=
  { s with pending := s.pending.erase request }

/-- `ShareAccess::revoke_control`. -/
def revokeControl (s : ShareAccess) : Bool × ShareAccess :=
  (s.controller.isSome, { s with controller := none })

/-- `ShareAccess::release_control`. -/
def releaseControl (s : ShareAccess) (client : ClientId) : Bool × ShareAccess :=
  if s.controller = some client then (true, { s with controller := none })
  else (false, s)

/-- `ShareAccess::disconnect`. -/
def disconnect (s : ShareAccess) (client : ClientId) : ShareAccess :=
  { s with
    clients := s.clients.erase client
    pending := s.pending.filter fun _ pending => pending != client
    controller := if s.controller = some client then none else s.controller }

/-- `disconnect` of every client of a set, in any order (`foldl_disconnect`). -/
def disconnectAll (s : ShareAccess) (gone : Finset ClientId) : ShareAccess :=
  { s with
    clients := s.clients \ gone
    pending := s.pending.filter fun _ pending => pending ∉ gone
    controller := s.controller.filter (· ∉ gone) }

end ShareAccess

/-- One call on a `ShareAccess`. -/
inductive AccessEvent
  | connect (token : String) (client : ClientId)
  | requestControl (client : ClientId)
  | approve (request : ControlRequestId)
  | deny (request : ControlRequestId)
  | revokeControl
  | releaseControl (client : ClientId)
  | disconnect (client : ClientId)
  deriving DecidableEq, Repr

namespace ShareAccess

/-- The state after one call. -/
def apply (s : ShareAccess) : AccessEvent → ShareAccess
  | .connect token client => (s.connect token client).2
  | .requestControl client => (s.requestControl client).2
  | .approve request => (s.approve request).2
  | .deny request => s.deny request
  | .revokeControl => s.revokeControl.2
  | .releaseControl client => (s.releaseControl client).2
  | .disconnect client => s.disconnect client

/-- The state after the calls `es` on a fresh `ShareAccess`. -/
def after (token : String) (es : List AccessEvent) : ShareAccess :=
  es.foldl apply (new token)

@[simp] theorem after_nil (token : String) : after token [] = new token := rfl

@[simp] theorem after_concat (token : String) (es : List AccessEvent) (e : AccessEvent) :
    after token (es ++ [e]) = (after token es).apply e := by
  simp [after]

/-- The calls `es` are a run of the system whose steps are the calls. -/
theorem run_after (token : String) (es : List AccessEvent) :
    Transition.Run (Transition.ofFun apply) (new token) es (after token es) :=
  Transition.run_ofFun_iff.mpr rfl

/-! ## What the calls leave alone -/

section Clients

variable (s : ShareAccess)

@[simp] theorem clients_requestControl (client : ClientId) :
    (s.requestControl client).2.clients = s.clients := by
  rw [requestControl]
  split_ifs <;> rfl

@[simp] theorem clients_approve (request : ControlRequestId) :
    (s.approve request).2.clients = s.clients := by
  rw [approve]
  split
  · rfl
  · split_ifs <;> rfl

@[simp] theorem clients_deny (request : ControlRequestId) :
    (s.deny request).clients = s.clients := rfl

@[simp] theorem clients_revokeControl : s.revokeControl.2.clients = s.clients := rfl

@[simp] theorem clients_releaseControl (client : ClientId) :
    (s.releaseControl client).2.clients = s.clients := by
  rw [releaseControl]
  split_ifs <;> rfl

@[simp] theorem clients_disconnect (client : ClientId) :
    (s.disconnect client).clients = s.clients.erase client := rfl

@[simp] theorem clients_disconnectAll (gone : Finset ClientId) :
    (s.disconnectAll gone).clients = s.clients \ gone := rfl

@[simp] theorem controller_requestControl (client : ClientId) :
    (s.requestControl client).2.controller = s.controller := by
  rw [requestControl]
  split_ifs <;> rfl

/-- An approval that fails changes nobody's control. -/
theorem controller_approve_of_error {request : ControlRequestId}
    (h : (s.approve request).1 ≠ .ok ()) : (s.approve request).2.controller = s.controller := by
  rw [approve] at h ⊢
  split at h
  · rfl
  · split_ifs at h ⊢
    · exact absurd rfl h
    · rfl

/-- An approval that succeeds gives control to the client of the request. -/
theorem controller_approve {request : ControlRequestId} {client : ClientId}
    (hpending : s.pending[request]? = some client) (hclient : client ∈ s.clients) :
    (s.approve request).2.controller = some client := by
  simp [approve, hpending, hclient]

end Clients

/-! ## Several disconnects -/

/-- Disconnecting the clients of a set one after the other, in any order. -/
theorem foldl_disconnect (s : ShareAccess) (gone : List ClientId) :
    gone.foldl disconnect s = s.disconnectAll gone.toFinset := by
  -- from the last one on: each of the three parts is filtered once more
  induction gone using List.reverseRecOn with
  | nil =>
    have hpending : s.pending.filter (fun _ pending => pending ∉ (∅ : Finset ClientId)) =
        s.pending := Std.ExtTreeMap.ext_getElem? fun r => by
      cases h : s.pending[r]? <;> simp [h]
    have hcontroller : s.controller.filter (· ∉ (∅ : Finset ClientId)) = s.controller := by
      cases s.controller <;> simp
    rw [List.foldl_nil, List.toFinset_nil, disconnectAll, hpending, hcontroller, Finset.sdiff_empty]
  | append_singleton gone client ih =>
    rw [List.foldl_append, List.foldl_cons, List.foldl_nil, ih, disconnect, disconnectAll,
      disconnectAll]
    have hclients : (s.clients \ gone.toFinset).erase client =
        s.clients \ (gone ++ [client]).toFinset := by
      ext c
      simp
      tauto
    have hpending :
        (s.pending.filter fun _ pending => pending ∉ gone.toFinset).filter
            (fun _ pending => pending != client) =
          s.pending.filter fun _ pending => pending ∉ (gone ++ [client]).toFinset := by
      refine Std.ExtTreeMap.ext_getElem? fun r => ?_
      cases h : s.pending[r]? with
      | none => simp [h]
      | some c =>
        rcases eq_or_ne c client with rfl | hne
        · by_cases hc : c ∈ gone <;> simp [h, hc, Option.filter]
        · by_cases hc : c ∈ gone <;> simp [h, hc, hne, Option.filter]
    have hcontroller :
        (if s.controller.filter (· ∉ gone.toFinset) = some client then none
          else s.controller.filter (· ∉ gone.toFinset)) =
          s.controller.filter (· ∉ (gone ++ [client]).toFinset) := by
      cases s.controller with
      | none => simp
      | some c =>
        rcases eq_or_ne c client with rfl | hne
        · by_cases hc : c ∈ gone <;> simp [hc, Option.filter]
        · by_cases hc : c ∈ gone <;> simp [hc, hne, Option.filter]
    simp only [hclients, hpending, hcontroller]

/-! ## What one call does -/

/-- The calls that take control away from `client` when it holds it: a revocation, its own release
or disconnect, and the approval of another client's request. -/
def TakesAway (s : ShareAccess) (client : ClientId) : AccessEvent → Prop
  | .revokeControl => True
  | .releaseControl c => c = client
  | .disconnect c => c = client
  | .approve request => ∃ c ∈ s.clients, s.pending[request]? = some c ∧ c ≠ client
  | _ => False

/-- After a call a client controls only if it did before and the call does not take control away,
or the call approves its pending request. -/
theorem controller_apply {s : ShareAccess} {e : AccessEvent} {client : ClientId}
    (h : (s.apply e).controller = some client) :
    (s.controller = some client ∧ ¬ s.TakesAway client e) ∨
      ∃ request, e = .approve request ∧ s.pending[request]? = some client ∧
        client ∈ s.clients := by
  cases e with
  | connect token c =>
    refine .inl ⟨?_, id⟩
    simp only [apply, connect] at h
    split at h <;> exact h
  | requestControl c =>
    refine .inl ⟨?_, id⟩
    simp only [apply, requestControl] at h
    split_ifs at h <;> exact h
  -- the branches of `approve`: not pending, the client gone, and granted
  | approve request =>
    simp only [apply, approve] at h
    split at h
    · next hnone => exact .inl ⟨h, fun ⟨c, _, hc, _⟩ => by simp [hnone] at hc⟩
    · next c hsome =>
      split_ifs at h with hc
      · obtain rfl : c = client := by simpa using h
        exact .inr ⟨request, rfl, hsome, hc⟩
      · refine .inl ⟨h, fun ⟨c', hc', hp, _⟩ => hc ?_⟩
        obtain rfl : c = c' := by simpa [hsome] using hp
        exact hc'
  | deny request => exact .inl ⟨h, id⟩
  | revokeControl => simp [apply, revokeControl] at h
  | releaseControl c =>
    simp only [apply, releaseControl] at h
    split_ifs at h with hc
    exact .inl ⟨h, fun heq => hc (heq ▸ h)⟩
  | disconnect c =>
    simp only [apply, disconnect] at h
    split_ifs at h with hc
    exact .inl ⟨h, fun heq => hc (heq ▸ h)⟩

/-- A client that controls goes on to control until a call takes control away. -/
theorem controller_apply_of_not_takesAway {s : ShareAccess} {e : AccessEvent} {client : ClientId}
    (h : s.controller = some client) (hkeep : ¬ s.TakesAway client e) :
    (s.apply e).controller = some client := by
  cases e with
  | connect token c =>
    simp only [apply, connect]
    split <;> exact h
  | requestControl c =>
    simp only [apply, requestControl]
    split_ifs <;> exact h
  | approve request =>
    simp only [apply, approve]
    split
    · exact h
    · next c hsome =>
      split_ifs with hc
      · have hcc : c = client := by
          by_contra hne
          exact hkeep ⟨c, hc, hsome, hne⟩
        simp [hcc]
      · exact h
  | deny request => exact h
  | revokeControl => exact absurd trivial hkeep
  | releaseControl c =>
    have hne : client ≠ c := fun heq => hkeep heq.symm
    simp [apply, releaseControl, h, hne]
  | disconnect c =>
    have hne : client ≠ c := fun heq => hkeep heq.symm
    simp [apply, disconnect, h, hne]

/-- A request is pending after a call only if it was before and the call neither decides it nor
disconnects its client, or the call makes it while no other request is pending. -/
theorem pending_apply {s : ShareAccess} {e : AccessEvent} {request : ControlRequestId}
    {client : ClientId} (h : (s.apply e).pending[request]? = some client) :
    (s.pending[request]? = some client ∧ e ≠ .disconnect client) ∨
      (e = .requestControl client ∧ (s.requestControl client).1 = .ok request ∧
        client ∈ s.clients ∧ s.pending = ∅) := by
  cases e with
  | connect token c =>
    refine .inl ⟨?_, by simp⟩
    simp only [apply, connect] at h
    split at h <;> exact h
  | requestControl c =>
    simp only [apply, requestControl] at h
    split_ifs at h with h₁ h₂ h₃
    · exact .inl ⟨h, by simp⟩
    · exact .inl ⟨h, by simp⟩
    -- the branch that registers, where nothing else is pending
    · have hempty : s.pending = ∅ := by simpa using h₃
      simp only [hempty, Std.ExtTreeMap.getElem?_insert] at h
      split_ifs at h with hr
      · obtain rfl : s.nextRequestId = request := by simpa using hr
        obtain rfl : c = client := by simpa using h
        refine .inr ⟨rfl, ?_, h₁, hempty⟩
        simp [requestControl, h₁, h₂, hempty]
      · simp at h
    · exact .inl ⟨h, by simp⟩
  | approve r =>
    refine .inl ⟨?_, by simp⟩
    simp only [apply, approve] at h
    split at h
    · exact h
    · split_ifs at h with hc
      · simp at h
      · rw [Std.ExtTreeMap.getElem?_erase] at h
        split_ifs at h
        exact h
  | deny r =>
    refine .inl ⟨?_, by simp⟩
    simp only [apply, deny, Std.ExtTreeMap.getElem?_erase] at h
    split_ifs at h
    exact h
  | revokeControl => exact .inl ⟨h, by simp⟩
  | releaseControl c =>
    refine .inl ⟨?_, by simp⟩
    simp only [apply, releaseControl] at h
    split_ifs at h <;> exact h
  -- the requests of the client that leaves go with it
  | disconnect c =>
    simp only [apply, disconnect, Std.ExtTreeMap.getElem?_filter'] at h
    obtain ⟨hp, hne⟩ := Option.filter_eq_some_iff.mp h
    have hne : client ≠ c := by simpa using hne
    exact .inl ⟨hp, by simpa using hne.symm⟩

/-- A client that was connected stays so unless the call disconnects it. -/
theorem mem_clients_apply {s : ShareAccess} {e : AccessEvent} {client : ClientId}
    (h : client ∈ s.clients) (he : e ≠ .disconnect client) : client ∈ (s.apply e).clients := by
  cases e with
  | connect token c =>
    simp only [apply, connect]
    split
    · exact h
    · exact Finset.mem_insert_of_mem h
  | requestControl c => simp only [apply, requestControl]; split_ifs <;> exact h
  | approve r =>
    simp only [apply, approve]
    split
    · exact h
    · split_ifs <;> exact h
  | deny r => exact h
  | revokeControl => exact h
  | releaseControl c => simp only [apply, releaseControl]; split_ifs <;> exact h
  | disconnect c =>
    refine Finset.mem_erase.mpr ⟨?_, h⟩
    rintro rfl
    exact he rfl

/-- A client connected after a call was so before, or the call connects it. -/
theorem mem_clients_of_apply {s : ShareAccess} {e : AccessEvent} {client : ClientId}
    (h : client ∈ (s.apply e).clients) :
    client ∈ s.clients ∨ ∃ token, e = .connect token client := by
  cases e with
  | connect token c =>
    simp only [apply, connect] at h
    split at h
    · exact .inl h
    · rcases Finset.mem_insert.mp h with rfl | h
      · exact .inr ⟨token, rfl⟩
      · exact .inl h
  | requestControl c => simp only [apply, requestControl] at h; split_ifs at h <;> exact .inl h
  | approve r =>
    simp only [apply, approve] at h
    split at h
    · exact .inl h
    · split_ifs at h <;> exact .inl h
  | deny r => exact .inl h
  | revokeControl => exact .inl h
  | releaseControl c => simp only [apply, releaseControl] at h; split_ifs at h <;> exact .inl h
  | disconnect c => exact .inl (Finset.mem_of_mem_erase h)

/-! ## The state invariant -/

/-- The controller is connected, and at most one request is pending, of a connected client. -/
structure Inv (s : ShareAccess) : Prop where
  controller_mem : ∀ c, s.controller = some c → c ∈ s.clients
  pending_mem : ∀ (r : ControlRequestId) c, s.pending[r]? = some c → c ∈ s.clients
  pending_unique : ∀ (r : ControlRequestId) c (r' : ControlRequestId) c',
    s.pending[r]? = some c → s.pending[r']? = some c' → r = r'

theorem inv_new (token : String) : (new token).Inv := by
  constructor <;> simp [new]

/-- Every call keeps the invariant. -/
theorem Inv.apply {s : ShareAccess} (h : s.Inv) (e : AccessEvent) : (s.apply e).Inv where
  controller_mem c hc := by
    rcases controller_apply hc with ⟨hc, hkeep⟩ | ⟨r, rfl, -, hmem⟩
    · exact mem_clients_apply (h.controller_mem c hc) fun he => hkeep (by simp [he, TakesAway])
    · exact mem_clients_apply hmem (by simp)
  pending_mem r c hr := by
    rcases pending_apply hr with ⟨hr, he⟩ | ⟨rfl, -, hmem, -⟩
    · exact mem_clients_apply (h.pending_mem r c hr) he
    · exact mem_clients_apply hmem (by simp)
  pending_unique r c r' c' hr hr' := by
    rcases pending_apply hr with ⟨hr, -⟩ | ⟨he, hok, -, hempty⟩ <;>
      rcases pending_apply hr' with ⟨hr', -⟩ | ⟨he', hok', -, hempty'⟩
    · exact h.pending_unique r c r' c' hr hr'
    · simp [hempty'] at hr
    · simp [hempty] at hr'
    · obtain rfl : c = c' := by simpa [he] using he'
      simpa [hok] using hok'

/-- Disconnecting several clients keeps the invariant. -/
theorem Inv.disconnectAll {s : ShareAccess} (h : s.Inv) (gone : Finset ClientId) :
    (s.disconnectAll gone).Inv := by
  obtain ⟨clients, rfl⟩ : ∃ clients : List ClientId, clients.toFinset = gone :=
    ⟨_, gone.toList_toFinset⟩
  rw [← foldl_disconnect]
  induction clients using List.reverseRecOn with
  | nil => exact h
  | append_singleton clients client ih =>
    rw [List.foldl_append]
    exact ih.apply (.disconnect client)

theorem inv_after (token : String) (es : List AccessEvent) : (after token es).Inv :=
  (run_after token es).invariant (inv_new token) <| by
    rintro _ s e _ - h rfl
    exact h.apply e

/-! ## Request ids -/

/-- The number of control requests among the calls. -/
def requestCount (es : List AccessEvent) : ℕ :=
  es.countP fun | .requestControl _ => true | _ => false

/-- The client ids passed to `connect`, one for each call. -/
def connectIds (es : List AccessEvent) : List ClientId :=
  es.filterMap fun | .connect _ c => some c | _ => none

theorem requestCount_append (es fs : List AccessEvent) :
    requestCount (es ++ fs) = requestCount es + requestCount fs :=
  List.countP_append

theorem connectIds_append (es fs : List AccessEvent) :
    connectIds (es ++ fs) = connectIds es ++ connectIds fs :=
  List.filterMap_append

theorem toNat_succRequestId {r : ControlRequestId} (h : r.toNat + 1 < 2 ^ 64) :
    (succRequestId r).toNat = r.toNat + 1 := by
  have hadd : (r + 1).toNat = r.toNat + 1 := by
    rw [UInt64.toNat_add]; exact Nat.mod_eq_of_lt (by simpa using h)
  rw [succRequestId, if_neg]
  · exact hadd
  · intro hzero
    simp [hzero] at hadd

/-- An approval succeeds for a pending request of a connected client. -/
theorem approve_ok {s : ShareAccess} {r : ControlRequestId} (h : (s.approve r).1 = .ok ()) :
    ∃ client, s.pending[r]? = some client ∧ client ∈ s.clients := by
  rw [approve] at h
  split at h
  · cases h
  · next client hpending =>
    split_ifs at h with hclient
    exact ⟨client, hpending, hclient⟩

/-- A refused request changes nothing. -/
theorem requestControl_error {s s' : ShareAccess} {c : ClientId} {error : AccessError}
    (h : s.requestControl c = (.error error, s')) : s' = s := by
  rw [requestControl] at h
  split_ifs at h <;> simp_all

/-- A granted request takes the next id and moves it on. -/
theorem requestControl_ok {s : ShareAccess} {c : ClientId} {r : ControlRequestId}
    (h : (s.requestControl c).1 = .ok r) :
    s.nextRequestId = r ∧ (s.apply (.requestControl c)).nextRequestId = succRequestId r := by
  simp only [apply, requestControl] at h ⊢
  split_ifs at h ⊢
  obtain rfl : s.nextRequestId = r := by simpa using h
  exact ⟨rfl, rfl⟩

/-- Only a control request moves the next request id, and by one. -/
theorem nextRequestId_apply (s : ShareAccess) (e : AccessEvent) :
    (s.apply e).nextRequestId = s.nextRequestId ∨
      (s.apply e).nextRequestId = succRequestId s.nextRequestId ∧
        ∃ c, e = .requestControl c := by
  cases e with
  | requestControl c =>
    simp only [apply, requestControl]
    split_ifs
    · exact .inl rfl
    · exact .inl rfl
    · exact .inr ⟨rfl, c, rfl⟩
    · exact .inl rfl
  | connect token c => simp only [apply, connect]; split <;> exact .inl rfl
  | approve r =>
    simp only [apply, approve]
    split
    · exact .inl rfl
    · split_ifs <;> exact .inl rfl
  | deny r => exact .inl rfl
  | revokeControl => exact .inl rfl
  | releaseControl c => simp only [apply, releaseControl]; split_ifs <;> exact .inl rfl
  | disconnect c => exact .inl rfl

/-- Before the ids run out, the next id exceeds the number of requests made by at most one. -/
theorem nextRequestId_le (token : String) (es : List AccessEvent) :
    requestCount es < 2 ^ 64 - 1 → (after token es).nextRequestId.toNat ≤ requestCount es + 1 := by
  induction es using List.reverseRecOn with
  | nil => intro _; simp [new, requestCount]
  | append_singleton es e ih =>
    rw [requestCount_append, after_concat]
    intro hlt
    have ih := ih (by omega)
    rcases nextRequestId_apply (after token es) e with heq | ⟨heq, c, rfl⟩
    · rw [heq]; omega
    · have hone : requestCount [.requestControl c] = 1 := rfl
      rw [heq, toNat_succRequestId (by omega)]
      omega

/-- Before the ids run out, the next id never goes back. -/
theorem nextRequestId_mono (token : String) (es fs : List AccessEvent) :
    requestCount (es ++ fs) < 2 ^ 64 - 1 →
      (after token es).nextRequestId.toNat ≤ (after token (es ++ fs)).nextRequestId.toNat := by
  induction fs using List.reverseRecOn with
  | nil => simp
  | append_singleton fs e ih =>
    rw [← List.append_assoc, requestCount_append, after_concat]
    intro hlt
    have ih := ih (by omega)
    have hle := nextRequestId_le token (es ++ fs) (by omega)
    rcases nextRequestId_apply (after token (es ++ fs)) e with heq | ⟨heq, c, rfl⟩
    · rw [heq]; exact ih
    · have hone : requestCount [.requestControl c] = 1 := rfl
      rw [heq, toNat_succRequestId (by omega)]
      omega

/-! ## Requests over a run of calls -/

/-- The `i`-th call is a control request of `client` and was granted the id `r`. -/
def Issued (token : String) (es : List AccessEvent) (i : ℕ) (client : ClientId)
    (r : ControlRequestId) : Prop :=
  es[i]? = some (.requestControl client) ∧
    ((after token (es.take i)).requestControl client).1 = .ok r

/-- After the `i`-th call and before the end of `es` there was a point at which `r` was not
pending: its request was approved, denied or dropped with its client. -/
def Settled (token : String) (es : List AccessEvent) (i : ℕ) (r : ControlRequestId) : Prop :=
  ∃ j, i < j ∧ j ≤ es.length ∧ (after token (es.take j)).pending[r]? = none

/-- `r` was issued to a request that is no longer pending. -/
def Stale (token : String) (es : List AccessEvent) (r : ControlRequestId) : Prop :=
  ∃ i client, Issued token es i client r ∧ Settled token es i r

/-- `r` was never issued. -/
def Unknown (token : String) (es : List AccessEvent) (r : ControlRequestId) : Prop :=
  ∀ i client, ¬ Issued token es i client r

/-- `client` made a control request with id `r` as its `i`-th call, and neither a connect nor a
disconnect of `client` came since. -/
structure Requested (token : String) (es : List AccessEvent) (i : ℕ) (client : ClientId)
    (r : ControlRequestId) : Prop where
  issued : Issued token es i client r
  connected : ∃ t, .connect t client ∈ es.take i
  stays : ∀ k, i < k → es[k]? ≠ some (.disconnect client) ∧
    ∀ t, es[k]? ≠ some (.connect t client)

/-- A control request that `client` made since its last connect was approved, as the `j`-th call,
and no call since took control away. -/
def Granted (token : String) (es : List AccessEvent) (client : ClientId) : Prop :=
  ∃ i r j, i < j ∧ Requested token es i client r ∧ es[j]? = some (.approve r) ∧
    (after token (es.take j)).pending[r]? = some client ∧
    ((after token (es.take j)).approve r).1 = .ok () ∧
    ∀ k e, j < k → es[k]? = some e → ¬ (after token (es.take k)).TakesAway client e

section History

variable {token : String} {es : List AccessEvent} {e : AccessEvent} {i j : ℕ}
  {client : ClientId} {r : ControlRequestId}

theorem Issued.lt (h : Issued token es i client r) : i < es.length :=
  (List.getElem?_eq_some_iff.mp h.1).1

/-- One more call leaves the calls issued before it as they were. -/
theorem issued_concat (hi : i < es.length) :
    Issued token (es ++ [e]) i client r ↔ Issued token es i client r := by
  rw [Issued, Issued, List.getElem?_append_left hi, List.take_append_of_le_length hi.le]

theorem issued_concat_self :
    Issued token (es ++ [.requestControl client]) es.length client r ↔
      ((after token es).requestControl client).1 = .ok r := by
  simp [Issued]

/-- A connected client was connected by an earlier call. -/
theorem exists_connect_of_mem_clients (h : client ∈ (after token es).clients) :
    ∃ t, .connect t client ∈ es := by
  induction es using List.reverseRecOn with
  | nil => simp [new] at h
  | append_singleton es e ih =>
    rw [after_concat] at h
    rcases mem_clients_of_apply h with h | ⟨t, rfl⟩
    · obtain ⟨t, ht⟩ := ih h
      exact ⟨t, List.mem_append_left _ ht⟩
    · exact ⟨t, by simp⟩

/-- With fresh client ids, the last call does not connect a client that is connected already. -/
theorem not_connect_again (hids : (connectIds (es ++ [e])).Nodup)
    (h : client ∈ (after token es).clients) (t : String) : e ≠ .connect t client := by
  rintro rfl
  obtain ⟨t', ht'⟩ := exists_connect_of_mem_clients h
  rw [connectIds_append, List.nodup_append] at hids
  refine hids.2.2 client ?_ client (by simp [connectIds]) rfl
  exact List.mem_filterMap.mpr ⟨_, ht', rfl⟩

theorem Requested.concat (h : Requested token es i client r)
    (hdis : e ≠ .disconnect client) (hcon : ∀ t, e ≠ .connect t client) :
    Requested token (es ++ [e]) i client r where
  issued := (issued_concat h.issued.lt).mpr h.issued
  connected := by
    rw [List.take_append_of_le_length h.issued.lt.le]
    exact h.connected
  stays k hk := by
    rcases lt_trichotomy k es.length with hlt | rfl | hgt
    · rw [List.getElem?_append_left hlt]
      exact h.stays k hk
    · simpa using ⟨hdis, hcon⟩
    · rw [List.getElem?_eq_none (by simp; omega)]
      simp

theorem requested_concat_self (hmem : client ∈ (after token es).clients)
    (hok : ((after token es).requestControl client).1 = .ok r) :
    Requested token (es ++ [.requestControl client]) es.length client r where
  issued := issued_concat_self.mpr hok
  connected := by simpa using exists_connect_of_mem_clients hmem
  stays k hk := by
    rw [List.getElem?_eq_none (by simp; omega)]
    simp

/-- A pending request was made by its client since its last connect, and has been pending ever
since. -/
theorem requested_of_pending (hids : (connectIds es).Nodup)
    (h : (after token es).pending[r]? = some client) :
    ∃ i, Requested token es i client r ∧
      ∀ j, i < j → j ≤ es.length → (after token (es.take j)).pending[r]? = some client := by
  induction es using List.reverseRecOn with
  | nil => simp [new] at h
  | append_singleton es e ih =>
    have hids' : (connectIds es).Nodup := by
      rw [connectIds_append, List.nodup_append] at hids
      exact hids.1
    have hlast := h
    rw [after_concat] at h
    rcases pending_apply h with ⟨hp, hdis⟩ | ⟨rfl, hok, hmem, -⟩
    · obtain ⟨i, hreq, hpend⟩ := ih hids' hp
      have hmem := (inv_after token es).pending_mem r client hp
      refine ⟨i, hreq.concat hdis (not_connect_again hids hmem), fun j hij hj => ?_⟩
      rcases Nat.lt_or_ge es.length j with hlt | hge
      · rw [List.take_of_length_le (by simp; omega)]
        exact hlast
      · rw [List.take_append_of_le_length hge]
        exact hpend j hij hge
    · refine ⟨es.length, requested_concat_self hmem hok, fun j hij hj => ?_⟩
      rw [List.take_of_length_le (by simp; omega)]
      exact hlast

/-- The client that holds control was granted it by the calls so far. -/
theorem granted_of_canInput (hids : (connectIds es).Nodup)
    (h : (after token es).controller = some client) : Granted token es client := by
  induction es using List.reverseRecOn with
  | nil => simp [new] at h
  | append_singleton es e ih =>
    have hids' : (connectIds es).Nodup := by
      rw [connectIds_append, List.nodup_append] at hids
      exact hids.1
    rw [after_concat] at h
    -- control was held before this call, or this call approves the request
    rcases controller_apply h with ⟨hc, hkeep⟩ | ⟨r, rfl, hp, hmem⟩
    -- the grant of before, and nothing since then, this call included, took it away
    · obtain ⟨i, r, j, hij, hreq, hj, hpend, hok, hafter⟩ := ih hids' hc
      have hmem := (inv_after token es).controller_mem client hc
      have hjlt : j < es.length := (List.getElem?_eq_some_iff.mp hj).1
      refine ⟨i, r, j, hij, hreq.concat ?_ (not_connect_again hids hmem), ?_, ?_, ?_, ?_⟩
      · rintro rfl
        exact hkeep rfl
      · rwa [List.getElem?_append_left hjlt]
      · rwa [List.take_append_of_le_length hjlt.le]
      · rwa [List.take_append_of_le_length hjlt.le]
      · intro k e' hjk hk
        rcases Nat.lt_or_ge k es.length with hlt | hge
        · rw [List.getElem?_append_left hlt] at hk
          rw [List.take_append_of_le_length hlt.le]
          exact hafter k e' hjk hk
        · obtain rfl : k = es.length := by
            have := (List.getElem?_eq_some_iff.mp hk).1
            simp at this
            omega
          obtain rfl : e = e' := by simpa using hk
          simpa using hkeep
    · obtain ⟨i, hreq, -⟩ := requested_of_pending hids' hp
      refine ⟨i, r, es.length, hreq.issued.lt, hreq.concat (by simp) (by simp), by simp,
        by simpa using hp, ?_, ?_⟩
      · simp [approve, hp, hmem]
      · intro k e' hk he'
        have := (List.getElem?_eq_some_iff.mp he').1
        simp at this
        omega

/-- While the ids last, no id is issued twice. -/
theorem issued_unique (hreq : requestCount es < 2 ^ 64) {i' : ℕ} {client' : ClientId}
    (h : Issued token es i client r) (h' : Issued token es i' client' r) : i = i' := by
  wlog hlt : i < i' generalizing i i' client client'
  · rcases Nat.lt_or_ge i' i with hgt | hge
    · exact (this h' h hgt).symm
    · omega
  exfalso
  -- split the calls at both requests and compare the ids they took
  obtain ⟨fs, hfs⟩ : ∃ fs, es.take i' = es.take i ++ [.requestControl client] ++ fs := by
    refine ⟨(es.take i').drop (i + 1), ?_⟩
    have htake : es.take (i + 1) = es.take i ++ [.requestControl client] := by
      rw [List.take_add_one, h.1]; rfl
    rw [← htake, show es.take (i + 1) = (es.take i').take (i + 1) by
      rw [List.take_take, min_eq_left (by omega)], List.take_append_drop]
  have hcount : requestCount (es.take i') + 1 ≤ requestCount es := by
    have hsplit : es = es.take i' ++ [.requestControl client'] ++ es.drop (i' + 1) := by
      have htake : es.take (i' + 1) = es.take i' ++ [.requestControl client'] := by
        rw [List.take_add_one, h'.1]; rfl
      rw [← htake, List.take_append_drop]
    conv_rhs => rw [hsplit, requestCount_append, requestCount_append]
    have hone : requestCount [.requestControl client'] = 1 := rfl
    omega
  obtain ⟨hnext, hsucc⟩ := requestControl_ok h.2
  obtain ⟨hnext', -⟩ := requestControl_ok h'.2
  have hmono := nextRequestId_mono token (es.take i ++ [.requestControl client]) fs
    (by rw [← hfs]; omega)
  have hle := nextRequestId_le token (es.take i) (by
    rw [hfs, requestCount_append, requestCount_append] at hcount
    omega)
  have hbound : requestCount (es.take i) + 1 < 2 ^ 64 - 1 := by
    have hone : requestCount [.requestControl client] = 1 := rfl
    rw [hfs, requestCount_append, requestCount_append] at hcount
    omega
  rw [← hfs, hnext', after_concat, hsucc, toNat_succRequestId (by rw [← hnext]; omega)] at hmono
  omega

/-- Approving or denying an id that is not pending leaves the controller alone. -/
theorem controller_of_not_pending {s : ShareAccess} (h : s.pending[r]? = none) :
    (s.approve r).2.controller = s.controller ∧ (s.deny r).controller = s.controller := by
  simp [approve, h, deny]

/-- Neither a stale nor an unknown id is pending. -/
theorem not_pending_of_stale_or_unknown (hids : (connectIds es).Nodup)
    (hreq : requestCount es < 2 ^ 64) (h : Stale token es r ∨ Unknown token es r) :
    (after token es).pending[r]? = none := by
  rw [Option.eq_none_iff_forall_ne_some]
  intro client hp
  obtain ⟨i, hr, hpend⟩ := requested_of_pending hids hp
  rcases h with ⟨i', client', hiss, j, hij, hj, hnone⟩ | hunk
  · obtain rfl := issued_unique hreq hr.issued hiss
    simp [hpend j hij hj] at hnone
  · exact hunk i client hr.issued

end History

/-! ## Access control over every run -/

/-- Over every sequence of calls with fresh client ids and fewer than `2 ^ 64` requests: the
controller is connected; at most one request is pending, of a connected client; who may send input
was granted control by the calls so far; and deciding a stale or unknown request id never changes
the controller. -/
theorem access_control (token : String) (es : List AccessEvent)
    (hids : (connectIds es).Nodup) (hreq : requestCount es < 2 ^ 64) :
    (∀ c, (after token es).controller = some c → c ∈ (after token es).clients) ∧
    (∀ (r : ControlRequestId) c (r' : ControlRequestId) c',
      (after token es).pending[r]? = some c → (after token es).pending[r']? = some c' →
        r = r' ∧ c = c' ∧ c ∈ (after token es).clients) ∧
    (∀ c, (after token es).canInput c = true → Granted token es c) ∧
    (∀ r, Stale token es r ∨ Unknown token es r →
      ((after token es).approve r).2.controller = (after token es).controller ∧
        ((after token es).deny r).controller = (after token es).controller) := by
  have hinv := inv_after token es
  refine ⟨hinv.controller_mem, ?_, ?_, ?_⟩
  · intro r c r' c' hr hr'
    obtain rfl := hinv.pending_unique r c r' c' hr hr'
    exact ⟨rfl, by simpa [hr] using hr', hinv.pending_mem r c hr⟩
  · intro c hc
    exact granted_of_canInput hids (by simpa [canInput] using hc)
  · intro r hr
    exact controller_of_not_pending (not_pending_of_stale_or_unknown hids hreq hr)

/-- The calls of a client that connects, asks for control and is approved. -/
def grantedCalls : List AccessEvent :=
  [.connect "secret" 1, .requestControl 1, .approve 1]

/-- On `grantedCalls` the client may send input, and it was granted control. -/
theorem access_control_grantedCalls :
    (after "secret" grantedCalls).canInput 1 = true ∧ Granted "secret" grantedCalls 1 := by
  have hcan : (after "secret" grantedCalls).canInput 1 = true := by decide +kernel
  exact ⟨hcan, (access_control "secret" grantedCalls (by decide) (by decide)).2.2.1 1 hcan⟩

end ShareAccess

end Termua.Web
