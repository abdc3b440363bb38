import Mathlib
import Termua.Session.Open

/-!
# Updating and deleting a session

The functions of `termua/src/session/store.rs` that update or delete a stored session. All but the
one for a serial port delete the session's SSH password first and open the database afterwards, so a
call that fails on the way loses the password; the function for SSH sessions with a password writes
the row first.
-/

namespace Termua.Session

section Functions

variable (json : SessionJson) (f : Faults) (now : ℤ)

/-- `delete_ssh_password_if_present`. -/
def deleteSshPasswordIfPresent (id : ℤ) : StoreM Unit :=
  Effect.change fun s =>
    if f.keychain then s else { s with passwords := Function.update s.passwords id none }

/-- `store_ssh_password_if_present`. -/
def storeSshPasswordIfPresent (id : ℤ) : Option Text → StoreM Unit
  | none => pure ()
  | some password =>
    Effect.change fun s =>
      if f.keychain then s
      else { s with passwords := Function.update s.passwords id (some password) }

/-- The body that the updates to a session without a password share. -/
def updateWithoutPassword (id : ℤ) (session : SessionWrite) (text : String) : StoreM Unit := do
  deleteSshPasswordIfPresent f id
  openDb json f
  (updateSessionRow json f now id session).mapError (.context text)

/-- `update_local_session_with_env`. -/
def updateLocalSessionWithEnv (id : ℤ) (groupPath label : Text) (backend : TerminalBackend)
    (env : List SessionEnvVar) : StoreM Unit :=
  updateWithoutPassword json f now id { protocol := .local, groupPath, label, backend, env }
    "update local session"

/-- The proxy and socket options that the updates to SSH sessions take. -/
structure SshOptions where
  sshTcpNodelay : Bool
  sshTcpKeepalive : Bool
  proxyMode : SshProxyMode
  proxyCommand : Option Text
  proxyWorkdir : Option Text
  proxyEnv : List SessionEnvVar
  proxyJump : List SshJumpHop

/-- `SessionWrite::ssh_config`. -/
def SessionWrite.sshConfig (groupPath label : Text) (backend : TerminalBackend) (host : Text)
    (port : ℕ) (env : List SessionEnvVar) (options : SshOptions) : SessionWrite where
  protocol := .ssh
  groupPath := groupPath
  label := label
  backend := backend
  env := env
  sshHost := some host
  sshPort := some port
  sshAuthType := some .config
  sshTcpNodelay := options.sshTcpNodelay
  sshTcpKeepalive := options.sshTcpKeepalive
  sshProxyMode := some options.proxyMode
  sshProxyCommand := options.proxyCommand
  sshProxyWorkdir := options.proxyWorkdir
  sshProxyEnv := options.proxyEnv
  sshProxyJump := options.proxyJump

/-- `update_ssh_session_config_with_proxy_and_env`. -/
def updateSshSessionConfigWithProxyAndEnv (id : ℤ) (groupPath label : Text)
    (backend : TerminalBackend) (host : Text) (port : ℕ) (options : SshOptions)
    (env : List SessionEnvVar) : StoreM Unit :=
  updateWithoutPassword json f now id
    (SessionWrite.sshConfig groupPath label backend host port env options)
    "update ssh config session"

/-- `update_serial_session`. -/
def updateSerialSession (id : ℤ) (groupPath label : Text) (backend : TerminalBackend) (port : Text)
    (baud dataBits : ℕ) (parity : SerialParity) (stopBits : SerialStopBits)
    (flowControl : SerialFlowControl) (env : List SessionEnvVar) : StoreM Unit :=
  updateWithoutPassword json f now id
    { protocol := .serial
      groupPath := groupPath
      label := label
      backend := backend
      env := env
      serialPort := some port
      serialBaud := some baud
      serialDataBits := some dataBits
      serialParity := some parity
      serialStopBits := some stopBits
      serialFlowControl := some flowControl }
    "update serial session"

/-- `update_serial_session_port`. -/
def updateSerialSessionPort (id : ℤ) (port : Text) : StoreM Unit := do
  openDb json f
  (execute f.execute .sqlite (Table.modify id fun r =>
    { r with serialPort := some port, updatedAt := now })).mapError
      (.context "update serial session port")

/-- `delete_session`. -/
def deleteSession (id : ℤ) : StoreM Unit := do
  deleteSshPasswordIfPresent f id
  openDb json f
  (execute f.execute .sqlite (AList.erase id)).mapError (.context "delete session")

/-- `update_ssh_session_password_with_proxy_and_env`. -/
def updateSshSessionPasswordWithProxyAndEnv (id : ℤ) (groupPath label : Text)
    (backend : TerminalBackend) (host : Text) (port : ℕ) (user password : Text)
    (options : SshOptions) (env : List SessionEnvVar) : StoreM Unit := do
  openDb json f
  let session := { SessionWrite.sshConfig groupPath label backend host port env options with
    sshAuthType := some .password
    sshUser := some user
    sshPassword := some password }
  (updateSessionRow json f now id session).mapError (.context "update ssh password session")
  storeSshPasswordIfPresent f id session.sshPassword

/-- The updates of a session without a password, and the deletion of one. -/
inductive SessionOp
  | updateLocal (groupPath label : Text) (backend : TerminalBackend) (env : List SessionEnvVar)
  | updateSshConfig (groupPath label : Text) (backend : TerminalBackend) (host : Text) (port : ℕ)
      (options : SshOptions) (env : List SessionEnvVar)
  | updateSerial (groupPath label : Text) (backend : TerminalBackend) (port : Text)
      (baud dataBits : ℕ) (parity : SerialParity) (stopBits : SerialStopBits)
      (flowControl : SerialFlowControl) (env : List SessionEnvVar)
  | updateSerialPort (port : Text)
  | delete

/-- The function of the store for an operation on a session. -/
def SessionOp.run (id : ℤ) : SessionOp → StoreM Unit
  | .updateLocal groupPath label backend env =>
    updateLocalSessionWithEnv json f now id groupPath label backend env
  | .updateSshConfig groupPath label backend host port options env =>
    updateSshSessionConfigWithProxyAndEnv json f now id groupPath label backend host port options env
  | .updateSerial groupPath label backend port baud dataBits parity stopBits flowControl env =>
    updateSerialSession json f now id groupPath label backend port baud dataBits parity stopBits
      flowControl env
  | .updateSerialPort port => updateSerialSessionPort json f now id port
  | .delete => deleteSession json f id

end Functions

/-! ## A call that fails -/

section Failing

variable {json : SessionJson} {f : Faults} {s : Store} {id : ℤ} {now : ℤ}

theorem atomic_execute (fails : Bool) (e : StoreError) (write : Rows → Rows) :
    (execute fails e write).Atomic :=
  .bind (Effect.after_check fails e) fun _ => .change

/-- `update_session_row` writes the row whole or not at all. -/
theorem atomic_updateSessionRow (session : SessionWrite) :
    (updateSessionRow json f now id session).Atomic := by
  have hproxy : Effect.Moves (fun s s' => s' = s)
      (serializeSshProxyEnv json f session.sshProxyEnv) := by
    intro s
    unfold serializeSshProxyEnv
    rw [Effect.after_check_bind, Effect.after_pure, ite_self]
  have hjump : Effect.Moves (fun s s' => s' = s)
      (serializeSshProxyJump json f session.sshProxyMode session.sshProxyJump) := by
    intro s
    unfold serializeSshProxyJump
    split
    · rfl
    · rw [Effect.after_check_bind, Effect.after_pure, ite_self]
  exact .bind hproxy fun _ => .bind hjump fun _ =>
    .bind (fun _ => after_serializeSessionEnv _) fun _ => atomic_execute _ _ _

/-- The row of the session is as it was when the database is open. -/
def KeepsRow (json : SessionJson) (f : Faults) (s : Store) (id : ℤ) : Prop :=
  migrates json f s id = true →
    ∀ row, s.row id = some row → sessionEnvText json (migratedEnv json row) = row.sessionEnv

/-- The password of the session is as it was when the database is opened. -/
def KeepsPassword (f : Faults) (s : Store) (id : ℤ) : SessionOp → Prop
  | .updateSerialPort _ => True
  | .updateLocal .. | .updateSshConfig .. | .updateSerial .. | .delete =>
    f.keychain = true ∨ s.passwords id = none

theorem row_openDb_eq_iff :
    ((openDb json f).after s).row id = s.row id ↔ KeepsRow json f s id := by
  rw [row_openDb]
  unfold KeepsRow
  rcases migrates json f s id with _ | _
  · simp
  · rcases s.row id with _ | row
    · simp
    · have hset : ∀ text, setEnv text row = row ↔ text = row.sessionEnv := by
        intro text
        constructor
        · intro h
          exact congrArg Row.sessionEnv h
        · rintro rfl
          rfl
      simp [hset]

/-- Where a call fails that opens the database and then makes one statement, it leaves the row as the
opening left it, and the passwords. -/
theorem open_failed (id : ℤ) {k : StoreM Unit} (hk : k.Atomic) {e : StoreError}
    (herr : (openDb json f >>= fun _ => k).outcome s = .error e) :
    (((openDb json f >>= fun _ => k).after s).row id = s.row id ↔ KeepsRow json f s id) ∧
      ((openDb json f >>= fun _ => k).after s).passwords = s.passwords := by
  rw [Effect.after_bind_atomic (fun _ => hk) herr]
  exact ⟨row_openDb_eq_iff, samePasswords_openDb s⟩

/-- The same behind the deletion of the password. -/
theorem deleted_failed {k : StoreM Unit} (hk : k.Atomic) {e : StoreError}
    (herr : (do deleteSshPasswordIfPresent f id; openDb json f; k).outcome s = .error e) :
    (((do deleteSshPasswordIfPresent f id; openDb json f; k).after s).row id = s.row id ∧
      ((do deleteSshPasswordIfPresent f id; openDb json f; k).after s).passwords id =
        s.passwords id) ↔
      (f.keychain = true ∨ s.passwords id = none) ∧ KeepsRow json f s id := by
  unfold deleteSshPasswordIfPresent at herr ⊢
  rw [Effect.outcome_bind, Effect.outcome_change, Effect.after_change] at herr
  rw [Effect.after_bind, Effect.outcome_change, Effect.after_change]
  rcases hkeychain : f.keychain with _ | _
  · simp only [hkeychain, Bool.false_eq_true, if_false] at herr ⊢
    obtain ⟨hrow, hpasswords⟩ := open_failed id hk herr
    rw [hpasswords, false_or]
    show _ ∧ Function.update s.passwords id none id = s.passwords id ↔ _
    rw [Function.update_self, and_comm]
    exact and_congr eq_comm hrow
  · simp only [hkeychain, if_true] at herr ⊢
    obtain ⟨hrow, hpasswords⟩ := open_failed id hk herr
    rw [hpasswords]
    simpa using hrow

/-- A call that returns an error leaves the row and the password of the session as they were exactly
when there is no password to lose, or deleting it fails, and the opening of the database does not
rewrite the row. -/
theorem unchanged_iff (json : SessionJson) (f : Faults) (now : ℤ) (op : SessionOp) (id : ℤ)
    (s : Store) {e : StoreError} (herr : (op.run json f now id).outcome s = .error e) :
    (((op.run json f now id).after s).row id = s.row id ∧
      ((op.run json f now id).after s).passwords id = s.passwords id) ↔
      KeepsPassword f s id op ∧ KeepsRow json f s id := by
  rcases op with _ | _ | _ | port | _
  · exact deleted_failed ((atomic_updateSessionRow _).mapError _) herr
  · exact deleted_failed ((atomic_updateSessionRow _).mapError _) herr
  · exact deleted_failed ((atomic_updateSessionRow _).mapError _) herr
  · obtain ⟨hrow, hpasswords⟩ := open_failed id ((atomic_execute _ _ _).mapError _) herr
    exact ⟨fun h => ⟨trivial, hrow.mp h.1⟩, fun h => ⟨hrow.mpr h.2, congrFun hpasswords id⟩⟩
  · exact deleted_failed ((atomic_execute _ _ _).mapError _) herr

/-- The update that stores a password writes the row first: where it fails, the passwords are as they
were. -/
theorem updatePassword_failed {groupPath label : Text} {backend : TerminalBackend} {host : Text}
    {port : ℕ} {user password : Text} {options : SshOptions} {env : List SessionEnvVar}
    {e : StoreError} (herr : (updateSshSessionPasswordWithProxyAndEnv json f now id groupPath label
      backend host port user password options env).outcome s = .error e) :
    (((updateSshSessionPasswordWithProxyAndEnv json f now id groupPath label backend host port user
        password options env).after s).row id = s.row id ↔ KeepsRow json f s id) ∧
      ((updateSshSessionPasswordWithProxyAndEnv json f now id groupPath label backend host port user
        password options env).after s).passwords = s.passwords :=
  open_failed id (((atomic_updateSessionRow _).mapError _).bind_ok fun _ _ => ⟨(), rfl⟩) herr

end Failing

/-! ## Two calls on a locked database -/

/-- No step fails. -/
def noFaults : Faults where
  createDir := false
  openDb := false
  createSchema := false
  tableInfo := fun _ => false
  addColumn := fun _ => false
  selectLegacy := false
  readLegacy := fun _ => false
  migrate := fun _ => false
  chmod := false
  serialize := fun _ => false
  execute := false
  keychain := false

/-- A library for empty environments. -/
def emptyJson : SessionJson where
  envText := fun _ => "[]".toList
  jumpText := fun _ => "[]".toList
  readEnv := fun text => if text = "[]".toList then some [] else none

/-- An SSH session with a password. -/
def passwordRow : Row where
  protocol := protocolToStr .ssh
  groupPath := "servers".toList
  label := "prod".toList
  backend := backendToStr .alacritty
  sessionEnv := none
  sshHost := some "prod.example".toList
  sshPort := some 22
  sshAuthType := some (sshAuthToStr .password)
  sshUser := some "admin".toList
  sshCredentialUsername := none
  sshTcpNodelay := 1
  sshTcpKeepalive := 0
  sshProxyMode := some (sshProxyModeToStr .inherit)
  sshProxyCommand := none
  sshProxyWorkdir := none
  sshProxyEnv := none
  sshProxyJump := none
  serialPort := none
  serialBaud := none
  serialDataBits := none
  serialParity := none
  serialStopBits := none
  serialFlowControl := none
  createdAt := 0
  updatedAt := 0
  term := []
  charset := []
  colorterm := none

/-- The store with this session as number 7 and the given password. -/
def passwordStore (password : Option Text) : Store where
  schemaReady := true
  columns := schemaColumns
  rows := AList.singleton 7 passwordRow
  passwords := fun id => if id = 7 then password else none

/-- Deleting the session without a saved password fails, and nothing changed. -/
theorem unchanged_iff_noPassword :
    ((SessionOp.delete.run emptyJson { noFaults with execute := true } 0 7).after
        (passwordStore none)).row 7 = (passwordStore none).row 7 ∧
      ((SessionOp.delete.run emptyJson { noFaults with execute := true } 0 7).after
        (passwordStore none)).passwords 7 = (passwordStore none).passwords 7 :=
  (unchanged_iff emptyJson { noFaults with execute := true } 0 .delete 7 (passwordStore none)
    (e := .context "delete session" .sqlite) rfl).mpr ⟨.inr rfl, fun h => by cases h⟩

/-- Deleting the session fails, and its password is gone. -/
theorem not_unchanged_lockedDatabase :
    (SessionOp.delete.run emptyJson { noFaults with execute := true } 0 7).outcome
        (passwordStore (some "secret".toList)) = .error (.context "delete session" .sqlite) ∧
      ((SessionOp.delete.run emptyJson { noFaults with execute := true } 0 7).after
        (passwordStore (some "secret".toList))).row 7 = some passwordRow ∧
      ((SessionOp.delete.run emptyJson { noFaults with execute := true } 0 7).after
        (passwordStore (some "secret".toList))).passwords 7 = none ∧
      (passwordStore (some "secret".toList)).passwords 7 = some "secret".toList :=
  ⟨rfl, rfl, rfl, rfl⟩

end Termua.Session
