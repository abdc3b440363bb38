import Mathlib
import Termua.Web.Step

/-!
# Who takes part in a share

`SharingInv` ties the three places that know of a client together: `access.clients`, `clients`, and
its connection. A client has access from its authentication until the code behind the loop of
`serve_websocket` ran or the broadcaster dropped it (`Connection.isMember`), and only clients with
access are sent broadcasts.
-/

namespace Termua.Web

open Termua.Cast (TerminalScreen)

namespace Connection

/-- Whether the code behind the loop of `serve_websocket` ran. -/
def isCleaned (conn : Connection) : Bool :=
  match conn.task with
  | .ended exit => exit.isBreak
  | _ => false

/-- Whether the client has access. -/
def isMember (conn : Connection) : Bool :=
  conn.authenticated && !conn.dropped && !conn.isCleaned

@[simp] theorem isMember_new (peer : String) : (new peer).isMember = false := rfl

@[simp] theorem isMember_post (conn : Connection) (message : Message) :
    (conn.post message).isMember = conn.isMember := by
  simp [isMember, isCleaned]

end Connection

namespace Server

/-- The connection of a client, after a connection was replaced, is a member. -/
theorem any_isMember_set (s : Server) (client c : ClientId) (conn : Connection) :
    ((s.set client conn).connections c).any Connection.isMember =
      if c = client then conn.isMember else (s.connections c).any Connection.isMember := by
  rw [connections_set, Function.update_apply]
  split <;> rfl

@[simp] theorem any_isMember_broadcastAccess (s : Server) (c : ClientId) :
    (s.broadcastAccess.connections c).any Connection.isMember =
      (s.connections c).any Connection.isMember := by
  rw [broadcastAccess]
  dsimp only
  split
  · cases s.connections c <;> simp
  · rfl

/-- What holds of the clients in every state reached. -/
structure SharingInv (s : Server) : Prop where
  access : s.access.Inv
  clients_subset : s.clients ⊆ s.access.clients
  mem_access : ∀ c, c ∈ s.access.clients ↔ (s.connections c).any Connection.isMember = true
  /-- Only clients are dropped. -/
  dropped : ∀ c conn, s.connections c = some conn → conn.dropped = true → conn.authenticated = true
  /-- Only a break leads behind the loop. -/
  leaving : ∀ c conn exit, s.connections c = some conn → conn.task = .leaving exit →
    exit.isBreak = true
  /-- Nothing is sent before the authentication. -/
  unsent : ∀ c conn, s.connections c = some conn → conn.authenticated = false → conn.sent = []

namespace SharingInv

variable {s : Server}

/-- A connection is a member exactly when its client has access. -/
theorem mem_access_iff (h : s.SharingInv) {c : ClientId} {conn : Connection}
    (hconn : s.connections c = some conn) : c ∈ s.access.clients ↔ conn.isMember = true := by
  rw [h.mem_access, hconn]
  rfl

/-- A client that broadcasts are sent to has a connection. -/
theorem exists_connection (h : s.SharingInv) {c : ClientId} (hc : c ∈ s.clients) :
    ∃ conn, s.connections c = some conn ∧ conn.isMember = true := by
  have := (h.mem_access c).mp (h.clients_subset hc)
  simpa [Option.any_eq_true] using this

/-- The invariant speaks of the access, the clients and the connections only. -/
theorem congr (h : s.SharingInv) {t : Server} (haccess : t.access = s.access)
    (hclients : t.clients = s.clients) (hconnections : t.connections = s.connections) :
    t.SharingInv := by
  constructor
  · rw [haccess]
    exact h.access
  · rw [haccess, hclients]
    exact h.clients_subset
  · rw [haccess, hconnections]
    exact h.mem_access
  · rw [hconnections]
    exact h.dropped
  · rw [hconnections]
    exact h.leaving
  · rw [hconnections]
    exact h.unsent

/-- Replacing a connection by one that is as much a member. -/
theorem set (h : s.SharingInv) {client : ClientId} {conn : Connection}
    (hmember : (s.connections client).any Connection.isMember = conn.isMember)
    (hdropped : conn.dropped = true → conn.authenticated = true)
    (hleaving : ∀ exit, conn.task = .leaving exit → exit.isBreak = true)
    (hunsent : conn.authenticated = false → conn.sent = []) :
    (s.set client conn).SharingInv where
  access := h.access
  clients_subset := h.clients_subset
  mem_access c := by
    rw [any_isMember_set, access_set, h.mem_access]
    split
    · next heq => rw [heq, hmember]
    · rfl
  dropped c conn' hconn' := by
    rw [connections_set, Function.update_apply] at hconn'
    split at hconn'
    · obtain rfl := Option.some.inj hconn'
      exact hdropped
    · exact h.dropped c conn' hconn'
  leaving c conn' exit hconn' := by
    rw [connections_set, Function.update_apply] at hconn'
    split at hconn'
    · obtain rfl := Option.some.inj hconn'
      exact hleaving exit
    · exact h.leaving c conn' exit hconn'
  unsent c conn' hconn' := by
    rw [connections_set, Function.update_apply] at hconn'
    split at hconn'
    · obtain rfl := Option.some.inj hconn'
      exact hunsent
    · exact h.unsent c conn' hconn'

/-- A task goes on. -/
theorem advance (h : s.SharingInv) {client : ClientId} {conn conn' : Connection}
    (hconn : s.connections client = some conn) (hauth : conn'.authenticated = conn.authenticated)
    (hdropped : conn'.dropped = conn.dropped) (hcleaned : conn'.isCleaned = conn.isCleaned)
    (hleaving : ∀ exit, conn'.task = .leaving exit → exit.isBreak = true)
    (hsent : conn.authenticated = false → conn'.sent = conn.sent) :
    (s.set client conn').SharingInv := by
  refine h.set ?_ ?_ hleaving ?_
  · simp [hconn, Connection.isMember, hauth, hdropped, hcleaned]
  · rw [hauth, hdropped]
    exact h.dropped client conn hconn
  · rw [hauth]
    exact fun hnot => (hsent hnot).trans (h.unsent client conn hconn hnot)

/-- Changing the access without adding or removing a client. -/
theorem setAccess (h : s.SharingInv) {access : ShareAccess} (haccess : access.Inv)
    (hclients : access.clients = s.access.clients) : { s with access := access }.SharingInv where
  access := haccess
  clients_subset := h.clients_subset.trans hclients.ge
  mem_access c := by rw [← h.mem_access, ← hclients]
  dropped := h.dropped
  leaving := h.leaving
  unsent := h.unsent

/-- The connections after `broadcastAccess`, of which only those of clients have changed. -/
theorem exists_connections_of_broadcastAccess (h : s.SharingInv) {c : ClientId} {conn : Connection}
    (hconn : s.broadcastAccess.connections c = some conn) :
    ∃ conn', s.connections c = some conn' ∧ conn.dropped = conn'.dropped ∧
      conn.authenticated = conn'.authenticated ∧ conn.task = conn'.task ∧
      (conn'.authenticated = false → conn = conn') := by
  simp only [Server.broadcastAccess] at hconn
  split at hconn
  · next hc =>
    obtain ⟨conn', hconn', rfl⟩ := Option.map_eq_some_iff.mp hconn
    have hmember := (h.mem_access_iff hconn').mp (h.clients_subset hc)
    refine ⟨conn', hconn', by simp, by simp, by simp, fun hauth => ?_⟩
    simp [Connection.isMember, hauth] at hmember
  · exact ⟨conn, hconn, rfl, rfl, rfl, fun _ => rfl⟩

/-- Announcing who holds control. -/
theorem broadcastAccess (h : s.SharingInv) : s.broadcastAccess.SharingInv where
  access := h.access
  clients_subset := h.clients_subset
  mem_access c := by
    rw [any_isMember_broadcastAccess]
    exact h.mem_access c
  dropped c conn hconn hdropped := by
    obtain ⟨conn', hconn', hd, ha, -, -⟩ := h.exists_connections_of_broadcastAccess hconn
    rw [ha]
    exact h.dropped c conn' hconn' (hd ▸ hdropped)
  leaving c conn exit hconn hleaving := by
    obtain ⟨conn', hconn', -, -, ht, -⟩ := h.exists_connections_of_broadcastAccess hconn
    exact h.leaving c conn' exit hconn' (ht ▸ hleaving)
  unsent c conn hconn hauth := by
    obtain ⟨conn', hconn', -, ha, -, heq⟩ := h.exists_connections_of_broadcastAccess hconn
    rw [heq (ha ▸ hauth)]
    exact h.unsent c conn' hconn' (ha ▸ hauth)

/-- A client authenticates. -/
theorem authenticate (h : s.SharingInv) {client : ClientId} {conn : Connection}
    (hconn : s.connections client = some conn) (htask : conn.task = .ready)
    (hauth : conn.authenticated = false) :
    (s.authenticate client conn s.access.token).SharingInv := by
  have hdropped : conn.dropped = false := by
    rw [Bool.eq_false_iff]
    intro hdropped
    simpa [hauth] using h.dropped client conn hconn hdropped
  rw [Server.authenticate]
  simp only [ShareAccess.connect, ne_eq, not_true_eq_false, if_false]
  constructor
  · have := h.access.apply (.connect s.access.token client)
    simpa [ShareAccess.apply, ShareAccess.connect] using this
  · exact Finset.insert_subset_insert _ h.clients_subset
  · intro c
    rw [any_isMember_set]
    split
    · next heq => simp [heq, Connection.isMember, Connection.isCleaned, hdropped, htask]
    · next hne => simp [hne, h.mem_access]
  · intro c conn' hconn'
    rw [connections_set, Function.update_apply] at hconn'
    split at hconn'
    · obtain rfl := Option.some.inj hconn'
      simp
    · exact h.dropped c conn' hconn'
  · intro c conn' exit hconn'
    rw [connections_set, Function.update_apply] at hconn'
    split at hconn'
    · obtain rfl := Option.some.inj hconn'
      simp [htask]
    · exact h.leaving c conn' exit hconn'
  · intro c conn' hconn' hauth'
    rw [connections_set, Function.update_apply] at hconn'
    split at hconn'
    · obtain rfl := Option.some.inj hconn'
      simp at hauth'
    · exact h.unsent c conn' hconn' hauth'

/-- The code behind the loop of `serve_websocket`. -/
theorem cleanUp (h : s.SharingInv) {client : ClientId} {conn : Connection} {exit : Exit}
    (hconn : s.connections client = some conn) (htask : conn.task = .leaving exit) :
    (s.cleanUp client conn exit).SharingInv := by
  have hbreak := h.leaving client conn exit hconn htask
  -- first the client leaves the three places, then the others are told
  have hgone : ({ s with
      clients := s.clients.erase client
      access := s.access.disconnect client }.set client { conn with task := .ended exit }).SharingInv :=
    { access := h.access.apply (.disconnect client)
      clients_subset := Finset.erase_subset_erase _ h.clients_subset
      mem_access := fun c => by
        rw [any_isMember_set]
        split
        · next heq => simp [heq, Connection.isMember, Connection.isCleaned, hbreak]
        · next hne => simp [hne, h.mem_access]
      dropped := fun c conn' hconn' => by
        rw [connections_set, Function.update_apply] at hconn'
        split at hconn'
        · obtain rfl := Option.some.inj hconn'
          exact h.dropped client conn hconn
        · exact h.dropped c conn' hconn'
      leaving := fun c conn' exit' hconn' => by
        rw [connections_set, Function.update_apply] at hconn'
        split at hconn'
        · obtain rfl := Option.some.inj hconn'
          simp
        · exact h.leaving c conn' exit' hconn'
      unsent := fun c conn' hconn' => by
        rw [connections_set, Function.update_apply] at hconn'
        split at hconn'
        · obtain rfl := Option.some.inj hconn'
          exact h.unsent client conn hconn
        · exact h.unsent c conn' hconn' }
  refine hgone.broadcastAccess.congr rfl rfl ?_
  funext c
  rcases eq_or_ne c client with rfl | hne
  · simp [Server.cleanUp, Server.broadcastAccess]
  · simp [Server.cleanUp, Server.broadcastAccess, hne]

/-- A broadcaster iteration. -/
theorem broadcast (h : s.SharingInv) : s.broadcast.SharingInv where
  access := h.access.disconnectAll _
  clients_subset := Finset.sdiff_subset_sdiff h.clients_subset le_rfl
  mem_access c := by
    rw [Server.access_broadcast, ShareAccess.clients_disconnectAll, Finset.mem_sdiff, h.mem_access]
    -- a client is left alone, is sent the update, or is disconnected as its queue is full
    cases hconn : s.connections c with
    | none => simp [connections_broadcast_of_none hconn]
    | some conn =>
      rcases connections_broadcast hconn with
        ⟨hmem, hconn'⟩ | ⟨hmem, hnot, sent, hsent, hconn'⟩ | ⟨hmem, hconn'⟩
      · have hnot : c ∉ s.failed := fun hfailed => hmem (Finset.mem_filter.mp hfailed).1
        simp [hconn', hnot]
      · obtain ⟨-, messages, -, rfl⟩ := Connection.trySend_eq_some hsent
        simp [hconn', hnot, Connection.isMember, Connection.isCleaned]
      · simp [hconn', hmem, Connection.isMember]
  dropped c conn' hconn' hdropped := by
    obtain ⟨conn, hconn⟩ := exists_connections_of_broadcast hconn'
    rcases connections_broadcast hconn with
      ⟨_, heq⟩ | ⟨_, _, sent, hsent, heq⟩ | ⟨hmem, heq⟩ <;>
      obtain rfl := Option.some.inj (hconn'.symm.trans heq)
    · exact h.dropped c _ hconn hdropped
    · obtain ⟨-, messages, -, rfl⟩ := Connection.trySend_eq_some hsent
      exact h.dropped c conn hconn hdropped
    · have hmember : conn.isMember = true :=
        (h.mem_access_iff hconn).mp (h.clients_subset (Finset.mem_filter.mp hmem).1)
      simp only [Connection.isMember, Bool.and_eq_true] at hmember
      exact hmember.1.1
  leaving c conn' exit hconn' htask := by
    obtain ⟨conn, hconn⟩ := exists_connections_of_broadcast hconn'
    rcases connections_broadcast hconn with
      ⟨_, heq⟩ | ⟨_, _, sent, hsent, heq⟩ | ⟨_, heq⟩ <;>
      obtain rfl := Option.some.inj (hconn'.symm.trans heq)
    · exact h.leaving c _ exit hconn htask
    · obtain ⟨-, messages, -, rfl⟩ := Connection.trySend_eq_some hsent
      exact h.leaving c conn exit hconn htask
    · exact h.leaving c conn exit hconn htask
  unsent c conn' hconn' hauth := by
    obtain ⟨conn, hconn⟩ := exists_connections_of_broadcast hconn'
    rcases connections_broadcast hconn with
      ⟨_, heq⟩ | ⟨hmem, _, sent, hsent, heq⟩ | ⟨_, heq⟩ <;>
      obtain rfl := Option.some.inj (hconn'.symm.trans heq)
    · exact h.unsent c _ hconn hauth
    · obtain ⟨-, messages, -, rfl⟩ := Connection.trySend_eq_some hsent
      have hmember := (h.mem_access_iff hconn).mp (h.clients_subset hmem)
      rw [Connection.isMember, show conn.authenticated = false from hauth] at hmember
      simp at hmember
    · exact h.unsent c conn hconn hauth

/-- One step keeps the invariant. -/
theorem step (h : s.SharingInv) {s' : Server} {e : Event} (hstep : s.step e = some s') :
    s'.SharingInv := by
  -- a step moves one client, calls the access, or does neither
  cases step_cases hstep with
  | accept hfresh =>
    exact h.set (by simp [hfresh]) (by simp [Connection.new]) (by simp [Connection.new])
      fun _ => rfl
  | ignored _ => exact h
  | authenticateFailed hconn htask _ _ =>
    refine h.advance hconn rfl rfl (by simp [Connection.isCleaned, htask]) ?_ fun _ => rfl
    rintro _ ⟨⟩
    rfl
  | authenticated hconn htask hauth htoken =>
    rw [htoken]
    exact h.authenticate hconn htask hauth
  -- the request is a call of the access and then a step of the client
  | requested hconn htask _ _ =>
    refine SharingInv.advance (h.setAccess (h.access.apply (.requestControl _)) ?_) hconn ?_ ?_ ?_ ?_
      fun _ => rfl
    all_goals simp [Connection.isCleaned, htask, ShareAccess.apply]
  | refused hconn htask hauth =>
    refine h.advance hconn ?_ ?_ ?_ ?_ ?_ <;> simp [Connection.isCleaned, htask, hauth]
  | released _ _ _ =>
    exact (h.setAccess (h.access.apply (.releaseControl _))
      (ShareAccess.clients_releaseControl _ _)).broadcastAccess
  | input hconn htask _ _ =>
    refine h.advance hconn ?_ ?_ ?_ ?_ fun _ => rfl
    all_goals simp [Connection.isCleaned, htask]
  | controlSent hconn htask _ =>
    refine SharingInv.advance ?_ hconn ?_ ?_ ?_ ?_ fun _ => rfl
    · exact h.congr rfl rfl rfl
    all_goals simp [Connection.isCleaned, htask]
  | inputSent hconn htask _ =>
    refine SharingInv.advance ?_ hconn ?_ ?_ ?_ ?_ fun _ => rfl
    · exact h.congr rfl rfl rfl
    all_goals simp [Connection.isCleaned, htask]
  | write hconn htask hrecv =>
    have hqueue := Channel.recv_eq_some.mp hrecv
    refine h.advance hconn ?_ ?_ ?_ ?_ ?_ <;>
      simp [Connection.isCleaned, htask, Connection.sent, hqueue]
  | @exit client conn exit hconn htask _ =>
    refine h.advance hconn rfl rfl ?_ ?_ fun _ => rfl
    all_goals
      cases hbreak : exit.isBreak <;> simp_all [Connection.isCleaned]
  | cleanUp hconn htask => exact h.cleanUp hconn htask
  -- the owner's calls keep who is connected, and are broadcast after that
  | approved _ _ =>
    exact (h.setAccess (h.access.apply (.approve _)) (ShareAccess.clients_approve _ _)).broadcastAccess
  | notApproved _ =>
    exact h.setAccess (h.access.apply (.approve _)) (ShareAccess.clients_approve _ _)
  | denied => exact h.setAccess (h.access.apply (.deny _)) rfl
  | revoked _ => exact (h.setAccess (h.access.apply .revokeControl) rfl).broadcastAccess
  | notRevoked _ => exact h
  | shutdown => exact { h with clients_subset := Finset.empty_subset _ }
  | shutdownAgain _ => exact h
  | broadcast _ => exact h.broadcast
  | sameSnapshot => exact h
  | _ => exact h.congr rfl rfl rfl

end SharingInv

/-- The invariant holds in every state reached. -/
theorem sharingInv_of_reaches {token : String} {snapshot : TerminalScreen} {es : List Event}
    {s : Server} (h : Reaches token snapshot es s) : s.SharingInv :=
  h.invariant
    { access := ShareAccess.inv_new token
      clients_subset := Finset.empty_subset _
      mem_access := fun c => by simp [bind, ShareAccess.new]
      dropped := fun c conn hconn => by simp [bind] at hconn
      leaving := fun c conn exit hconn => by simp [bind] at hconn
      unsent := fun c conn hconn => by simp [bind] at hconn }
    fun _ _ _ _ _ hinv hstep => hinv.step hstep

end Server

end Termua.Web
