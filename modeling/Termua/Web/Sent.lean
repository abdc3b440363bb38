import Mathlib
import Termua.Web.Sharing

/-!
# What a step sends to a client

A client is connected while it is in `clients` and its task has not ended. `ClientStep` says what a
step can do to a connected client: let it join, leave it alone, answer its control request, tell it
whether it holds control, or send it the update of the screen. `clientStep` is the inversion.
-/

namespace Termua.Web

open Termua.Cast (TerminalScreen serializeTerminalScreenAnsi)

namespace Server

/-- A client that is in `clients` and whose task has not ended, with its connection. -/
structure Connected (s : Server) (client : ClientId) (conn : Connection) : Prop where
  mem : client ∈ s.clients
  connection : s.connections client = some conn
  live : conn.isEnded = false

/-- The steps that change whether `client` may send input. -/
def ChangesControl (s : Server) (client : ClientId) : Event → Prop
  | .approveControl request =>
    ∃ c ∈ s.access.clients, s.access.pending[request]? = some c ∧
      (s.access.controller = some client ↔ c ≠ client)
  | .revokeControl => s.access.controller = some client
  | .receive c .releaseControl => c = client ∧ s.access.controller = some client
  | _ => False

/-- What a step does to a client that is connected after it. -/
inductive ClientStep (s : Server) (e : Event) (s' : Server) (c : ClientId) (conn' : Connection) :
    Prop
  | joined {token : String} (he : e = .receive c (.authenticate token))
      (hsent : conn'.sent =
        [.access false, screenMessage 0 s.snapshot (serializeTerminalScreenAnsi s.snapshot)])
      (hmirrored : conn'.mirrored = some s.snapshot)
      (hcontrol : s'.access.canInput c = false)
  | kept {conn : Connection} (hconn : s.Connected c conn) (hsent : conn'.sent = conn.sent)
      (hmirrored : conn'.mirrored = conn.mirrored)
      (hcontrol : s'.access.canInput c = s.access.canInput c)
  | answered {conn : Connection} {status : String} (hconn : s.Connected c conn)
      (hsent : conn'.sent = (conn.post (.controlRequest status)).sent)
      (hmirrored : conn'.mirrored = conn.mirrored)
      (hcontrol : s'.access.canInput c = s.access.canInput c)
  | told {conn : Connection} (hconn : s.Connected c conn)
      (hsent : conn'.sent = (conn.post (.access (s'.access.canInput c))).sent)
      (hmirrored : conn'.mirrored = conn.mirrored)
      (hcontrol : s'.access.canInput c = s.access.canInput c ∨ s.ChangesControl c e)
  | updated {conn : Connection} (he : e = .broadcast) (hconn : s.Connected c conn)
      (hsent : conn'.sent = conn.sent ++ [s.updateMessage])
      (hmirrored : conn'.mirrored = some s.snapshot)
      (hcontrol : s'.access.canInput c = s.access.canInput c)

section ClientStep

variable {s t : Server} {e : Event} {c client : ClientId} {conn conn' : Connection}

/-- A step that changes neither clients nor connections. -/
theorem ClientStep.quiet (h : t.Connected c conn') (hclients : t.clients = s.clients)
    (hconnections : t.connections = s.connections)
    (hcontrol : t.access.canInput c = s.access.canInput c) : ClientStep s e t c conn' :=
  .kept ⟨hclients ▸ h.mem, hconnections ▸ h.connection, h.live⟩ rfl rfl hcontrol

/-- A step of a task that sends nothing. -/
theorem ClientStep.set {new : Connection} (h : (t.set client new).Connected c conn')
    (hold : s.connections client = some conn) (hclients : t.clients = s.clients)
    (hconnections : t.connections = s.connections)
    (hcontrol : t.access.canInput c = s.access.canInput c) (hsent : new.sent = conn.sent)
    (hmirrored : new.mirrored = conn.mirrored) (hlive : conn.isEnded = false) :
    ClientStep s e (t.set client new) c conn' := by
  obtain ⟨hmem, hconn', hlive'⟩ := h
  rw [connections_set, Function.update_apply, hconnections] at hconn'
  rw [clients_set, hclients] at hmem
  split at hconn'
  · next heq =>
    subst heq
    obtain rfl := Option.some.inj hconn'
    exact .kept ⟨hmem, hold, hlive⟩ hsent hmirrored hcontrol
  · exact .kept ⟨hmem, hconn', hlive'⟩ rfl rfl hcontrol

/-- A step that tells every client whether it holds control. -/
theorem ClientStep.broadcastAccess (h : t.broadcastAccess.Connected c conn')
    (hclients : t.clients = s.clients) (hconnections : t.connections = s.connections)
    (hcontrol : t.access.canInput c = s.access.canInput c ∨ s.ChangesControl c e) :
    ClientStep s e t.broadcastAccess c conn' := by
  obtain ⟨hmem, hconn', hlive⟩ := h
  simp only [Server.broadcastAccess] at hconn'
  rw [clients_broadcastAccess] at hmem
  rw [if_pos hmem, hconnections] at hconn'
  obtain ⟨conn, hconn, rfl⟩ := Option.map_eq_some_iff.mp hconn'
  exact .told ⟨hclients ▸ hmem, hconn, by simpa using hlive⟩ rfl (by simp) hcontrol

theorem Connection.isEnded_eq_false {conn : Connection} (h : ∀ exit, conn.task ≠ .ended exit) :
    conn.isEnded = false := by
  rw [Connection.isEnded]
  split
  · next exit htask => exact absurd htask (h exit)
  · rfl

/-- A client joins: it is sent that it has no control, and the whole screen. -/
theorem ClientStep.authenticate (hinv : s.SharingInv) {token : String}
    (hold : s.connections client = some conn) (htask : conn.task = .ready)
    (hauth : conn.authenticated = false) (htoken : token = s.access.token)
    (h : (s.authenticate client conn token).Connected c conn') :
    ClientStep s (.receive client (.authenticate token)) (s.authenticate client conn token) c
      conn' := by
  have hlive : conn.isEnded = false := Connection.isEnded_eq_false (by simp [htask])
  obtain ⟨hmem, hconn', hlive'⟩ := h
  rw [Server.authenticate] at hmem hconn' ⊢
  simp only [ShareAccess.connect, ne_eq, htoken, not_true_eq_false, if_false] at hmem hconn' ⊢
  rw [connections_set, Function.update_apply] at hconn'
  rw [clients_set, Finset.mem_insert] at hmem
  split at hconn'
  · next heq =>
    subst heq
    obtain rfl := Option.some.inj hconn'
    have hunsent := hinv.unsent c conn hold hauth
    have hempty : conn.messages.queue = [] := (List.append_eq_nil_iff.mp hunsent).2
    have hnot : c ∉ s.access.clients := by
      rw [hinv.mem_access_iff hold, Connection.isMember, hauth]
      simp
    refine .joined rfl ?_ rfl ?_
    · have hfirst := Connection.queue_post_of_room hlive (by simp [hempty]) (.access false)
      rw [hempty, List.nil_append] at hfirst
      change ((conn.post _).post _).sent = _
      rw [Connection.sent_post, Connection.sent_post, Connection.isSome_trySend,
        Connection.isSome_trySend, hunsent, hempty, hfirst]
      simp [hlive]
    · have hne : s.access.controller ≠ some c := fun hc => hnot (hinv.access.controller_mem c hc)
      simpa [ShareAccess.canInput] using hne
  · next hne => exact .kept ⟨hmem.resolve_left hne, hconn', hlive'⟩ rfl rfl rfl

/-- The code behind the loop of `serve_websocket` tells the other clients who holds control. -/
theorem ClientStep.cleanUp {exit : Exit} (h : (s.cleanUp client conn exit).Connected c conn') :
    ClientStep s e (s.cleanUp client conn exit) c conn' := by
  obtain ⟨hmem, hconn', hlive⟩ := h
  obtain ⟨hne, hmem⟩ : c ≠ client ∧ c ∈ s.clients := Finset.mem_erase.mp hmem
  rw [Server.cleanUp, connections_set, Function.update_of_ne hne] at hconn'
  simp only [Server.broadcastAccess, Finset.mem_erase, hne, hmem, ne_eq, not_false_eq_true,
    and_self, if_true] at hconn'
  obtain ⟨conn₀, hconn₀, rfl⟩ := Option.map_eq_some_iff.mp hconn'
  refine .told ⟨hmem, hconn₀, by simpa using hlive⟩ rfl (by simp) (.inl ?_)
  simp only [Server.cleanUp, access_set, access_broadcastAccess, ShareAccess.canInput,
    ShareAccess.disconnect]
  split
  · next heq => simp [heq, hne.symm]
  · rfl

/-- A client that is connected after a broadcaster iteration was sent the update. -/
theorem exists_sent_of_broadcast (h : s.broadcast.Connected c conn') :
    c ∈ s.clients ∧ c ∉ s.failed ∧ ∃ conn sent, s.connections c = some conn ∧
      conn.trySend s.updateMessage = some sent ∧
        conn' = { sent with mirrored := some s.snapshot } := by
  obtain ⟨hmem, hconn', -⟩ := h
  obtain ⟨hmem, hnot⟩ : c ∈ s.clients ∧ c ∉ s.failed := Finset.mem_sdiff.mp hmem
  obtain ⟨conn, hconn⟩ := exists_connections_of_broadcast hconn'
  obtain ⟨hnotMem, -⟩ | ⟨-, -, sent, hsent, heq⟩ | ⟨hfailed, -⟩ := connections_broadcast hconn
  · exact absurd hmem hnotMem
  · exact ⟨hmem, hnot, conn, sent, hconn, hsent, Option.some.inj (hconn'.symm.trans heq)⟩
  · exact absurd hfailed hnot

/-- A broadcaster iteration sends the update to those who stay. -/
theorem ClientStep.broadcast (h : s.broadcast.Connected c conn') :
    ClientStep s .broadcast s.broadcast c conn' := by
  obtain ⟨hmem, hnot, conn, sent, hconn, hsent, rfl⟩ := exists_sent_of_broadcast h
  obtain ⟨hlive, messages, hqueue, rfl⟩ := Connection.trySend_eq_some hsent
  refine .updated rfl ⟨hmem, hconn, hlive⟩ (by simp [Connection.sent, hqueue]) rfl ?_
  rw [access_broadcast, ShareAccess.canInput, ShareAccess.canInput, ShareAccess.disconnectAll]
  cases s.access.controller with
  | none => rfl
  | some controller =>
    -- who holds control is taken out only with its client
    rcases eq_or_ne controller c with rfl | hne
    · simp [hnot]
    · simp [hne]

/-- A client that is connected after a broadcaster iteration was sent the snapshot. -/
theorem mirrored_broadcast (h : s.broadcast.Connected c conn') :
    conn'.mirrored = some s.snapshot := by
  obtain ⟨-, -, conn, sent, -, -, rfl⟩ := exists_sent_of_broadcast h
  rfl

/-- What a step does to a client that is connected after it. -/
theorem clientStep (hinv : s.SharingInv) (hstep : s.step e = some t) (h : t.Connected c conn') :
    ClientStep s e t c conn' := by
  have hcontroller : ∀ {access : ShareAccess}, access.controller = s.access.controller →
      access.canInput c = s.access.canInput c := by
    intro access heq
    rw [ShareAccess.canInput, ShareAccess.canInput, heq]
  -- a step is another client's, a message to this one, or leaves what it was sent
  cases step_cases hstep with
  | @accept client peer hfresh =>
    obtain ⟨hmem, hconn', hlive⟩ := h
    rw [connections_set, Function.update_apply] at hconn'
    split at hconn'
    · next heq =>
      obtain ⟨conn, hconn, -⟩ := hinv.exists_connection hmem
      rw [heq, hfresh] at hconn
      cases hconn
    · exact .kept ⟨hmem, hconn', hlive⟩ rfl rfl rfl
  | ignored _ => exact .quiet h rfl rfl rfl
  | authenticateFailed hconn htask _ _ =>
    exact .set h hconn rfl rfl rfl rfl rfl (Connection.isEnded_eq_false (by simp [htask]))
  | authenticated hconn htask hauth htoken =>
    exact .authenticate hinv hconn htask hauth htoken h
  | requested hconn htask _ _ =>
    exact .set h hconn rfl rfl (hcontroller (by simp)) rfl rfl
      (Connection.isEnded_eq_false (by simp [htask]))
  -- the answer goes to the one that asked
  | @refused client conn status hconn htask _ =>
    obtain ⟨hmem, hconn', hlive⟩ := h
    rw [connections_set, Function.update_apply] at hconn'
    split at hconn'
    · next heq =>
      subst heq
      obtain rfl := Option.some.inj hconn'
      exact .answered ⟨hmem, hconn, by simpa using hlive⟩ rfl (by simp) rfl
    · exact .kept ⟨hmem, hconn', hlive⟩ rfl rfl rfl
  -- the access is broadcast: what it says of this client changed if it is the one that let go
  | @released client _ _ _ hcontrol =>
    refine .broadcastAccess h rfl rfl ?_
    rcases eq_or_ne client c with rfl | hne
    · exact .inr ⟨rfl, hcontrol⟩
    · refine .inl ?_
      simp [ShareAccess.canInput, ShareAccess.releaseControl, hcontrol, hne]
  | input hconn htask _ _ =>
    exact .set h hconn rfl rfl rfl rfl rfl (Connection.isEnded_eq_false (by simp [htask]))
  | controlSent hconn htask _ =>
    exact .set h hconn rfl rfl rfl rfl rfl (Connection.isEnded_eq_false (by simp [htask]))
  | inputSent hconn htask _ =>
    exact .set h hconn rfl rfl rfl rfl rfl (Connection.isEnded_eq_false (by simp [htask]))
  | write hconn htask hrecv =>
    refine .set h hconn rfl rfl rfl ?_ rfl (Connection.isEnded_eq_false (by simp [htask]))
    simp [Connection.sent, Channel.recv_eq_some.mp hrecv]
  | exit hconn htask _ =>
    exact .set h hconn rfl rfl rfl rfl rfl (Connection.isEnded_eq_false (by simp [htask]))
  | cleanUp _ _ => exact .cleanUp h
  -- here it changed if this client is the one approved or the one that had control
  | @approved request client hpending hclient =>
    refine .broadcastAccess h rfl rfl ?_
    by_cases hchange : s.access.controller = some c ↔ client ≠ c
    · exact .inr ⟨client, hclient, hpending, hchange⟩
    · refine .inl ?_
      rw [ShareAccess.canInput, ShareAccess.canInput,
        ShareAccess.controller_approve _ hpending hclient]
      by_cases heq : client = c <;> simp_all
  | notApproved herror =>
    exact .quiet h rfl rfl (hcontroller (ShareAccess.controller_approve_of_error _ herror))
  | denied => exact .quiet h rfl rfl rfl
  | @revoked client hcontrol =>
    refine .broadcastAccess h rfl rfl ?_
    rcases eq_or_ne client c with rfl | hne
    · exact .inr hcontrol
    · refine .inl ?_
      simp [ShareAccess.canInput, ShareAccess.revokeControl, hcontrol, hne]
  | notRevoked _ => exact .quiet h rfl rfl rfl
  -- nobody is connected after a shutdown
  | shutdown => exact absurd h.mem (Finset.notMem_empty _)
  | shutdownAgain _ => exact .quiet h rfl rfl rfl
  | broadcast _ => exact .broadcast h
  | sameSnapshot => exact .quiet h rfl rfl rfl
  | _ => exact .quiet h rfl rfl rfl

end ClientStep

end Server

end Termua.Web
