import Mathlib
import Termua.Session.Json
import Termua.Session.Update

/-!
# Saving and loading a session

The functions of `termua/src/session/store.rs` that insert a session, and `load_session`, which reads
one back. A row `Encodes` what was written when its columns hold the encoded values; both the insert
and the update leave such a row, whatever the row was before, and reading it gives the session.
-/

namespace Termua.Session

/-! ## Reading a row -/

/-- The value of a text that stands for one. -/
def fromStr {α : Type} (what : String) (values : List (Text × α)) (s : Text) : Except ParseError α :=
  match values.lookup s with
  | some value => .ok value
  | none => .error (.unknownText what s)

/-- `backend_from_str`. -/
def backendFromStr : Text → Except ParseError TerminalBackend :=
  fromStr "backend" [("alacritty".toList, .alacritty), ("wezterm".toList, .wezterm)]

/-- `protocol_from_str`. -/
def protocolFromStr : Text → Except ParseError SessionType :=
  fromStr "protocol" [("local".toList, .local), ("ssh".toList, .ssh), ("serial".toList, .serial)]

/-- `serial_parity_from_str`. -/
def serialParityFromStr : Text → Except ParseError SerialParity :=
  fromStr "serial_parity" [("none".toList, .none), ("even".toList, .even), ("odd".toList, .odd)]

/-- `serial_flow_control_from_str`. -/
def serialFlowControlFromStr : Text → Except ParseError SerialFlowControl :=
  fromStr "serial_flow_control"
    [("none".toList, .none), ("xonxoff".toList, .software), ("rtscts".toList, .hardware)]

/-- `serial_stop_bits_from_i64`. -/
def serialStopBitsFromI64 (bits : ℤ) : Except ParseError SerialStopBits :=
  if bits = 1 then .ok .one
  else if bits = 2 then .ok .two
  else .error (.unknownNumber "serial_stop_bits" bits)

/-- `ssh_auth_from_str`. -/
def sshAuthFromStr : Text → Except ParseError SshAuthType :=
  fromStr "ssh_auth_type" [("password".toList, .password), ("config".toList, .config)]

/-- `ssh_proxy_mode_from_str`. -/
def sshProxyModeFromStr : Text → Except ParseError SshProxyMode :=
  fromStr "ssh_proxy_mode" [("inherit".toList, .inherit), ("disabled".toList, .disabled),
    ("command".toList, .command), ("jumpserver".toList, .jumpServer)]

set_option linter.dupNamespace false in
/-- `Session`. -/
structure Session where
  id : ℤ
  protocol : SessionType
  groupPath : Text
  label : Text
  backend : TerminalBackend
  env : Option (List SessionEnvVar)
  sshHost : Option Text := none
  sshPort : Option ℕ := none
  sshAuthType : Option SshAuthType := none
  sshUser : Option Text := none
  sshCredentialUsername : Option Text := none
  sshPassword : Option Text := none
  sshTcpNodelay : Bool := false
  sshTcpKeepalive : Bool := false
  sshProxyMode : Option SshProxyMode := none
  sshProxyCommand : Option Text := none
  sshProxyWorkdir : Option Text := none
  sshProxyEnv : Option (List SessionEnvVar) := none
  sshProxyJump : Option (List SshJumpHop) := none
  serialPort : Option Text := none
  serialBaud : Option ℕ := none
  serialDataBits : Option ℕ := none
  serialParity : Option SerialParity := none
  serialStopBits : Option SerialStopBits := none
  serialFlowControl : Option SerialFlowControl := none
  deriving DecidableEq

/-- A cast of an `i64` to an unsigned integer of the width. -/
def toUnsigned (width : ℕ) (value : ℤ) : ℕ := (value % 2 ^ width).toNat

/-- A column that stands for a value. -/
def parseColumn {α β : Type} (column : ℕ) (parse : α → Except ParseError β) (value : α) :
    Except StoreError β := (parse value).mapError (.fromSql column)

/-- A column that stands for a value or is empty. -/
def parseOptional {α β : Type} (column : ℕ) (parse : α → Except ParseError β) :
    Option α → Except StoreError (Option β)
  | none => .ok none
  | some value => (parseColumn column parse value).map some

section Functions

variable (json : StoreJson) (f : Faults) (now : ℤ)

/-- `load_ssh_password_if_needed`. -/
def loadSshPasswordIfNeeded (passwords : ℤ → Option Text) (id : ℤ)
    (sshAuthType : Option SshAuthType) : Option Text :=
  if sshAuthType ≠ some .password then none
  else if f.keychain then none
  else passwords id

/-- `parse_session_row`. -/
def parseSessionRow (passwords : ℤ → Option Text) (id : ℤ) (row : Row) (includePassword : Bool) :
    Except StoreError Session := do
  let protocol ← parseColumn 1 protocolFromStr row.protocol
  let backend ← parseColumn 4 backendFromStr row.backend
  let sshAuthType ← parseOptional 8 sshAuthFromStr row.sshAuthType
  let sshPassword :=
    if includePassword then loadSshPasswordIfNeeded f passwords id sshAuthType else none
  let sshProxyMode ← parseOptional 13 sshProxyModeFromStr row.sshProxyMode
  let serialParity ← parseOptional 21 serialParityFromStr row.serialParity
  let serialStopBits ← parseOptional 22 serialStopBitsFromI64 row.serialStopBits
  let serialFlowControl ← parseOptional 23 serialFlowControlFromStr row.serialFlowControl
  pure
    { id
      protocol
      groupPath := row.groupPath
      label := row.label
      backend
      env := row.sessionEnv.bind json.readEnv
      sshHost := row.sshHost
      sshPort := row.sshPort.map (toUnsigned 16)
      sshAuthType
      sshUser := row.sshUser
      sshCredentialUsername := row.sshCredentialUsername
      sshPassword
      sshTcpNodelay := row.sshTcpNodelay ≠ 0
      sshTcpKeepalive := row.sshTcpKeepalive ≠ 0
      sshProxyMode
      sshProxyCommand := row.sshProxyCommand
      sshProxyWorkdir := row.sshProxyWorkdir
      sshProxyEnv := row.sshProxyEnv.bind json.readEnv
      sshProxyJump := row.sshProxyJump.bind json.readJump
      serialPort := row.serialPort
      serialBaud := row.serialBaud.map (toUnsigned 32)
      serialDataBits := row.serialDataBits.map (toUnsigned 8)
      serialParity
      serialStopBits
      serialFlowControl }

/-- `load_session`. -/
def loadSession (id : ℤ) : StoreM (Option Session) := do
  openDb json.toSessionJson f
  Effect.check f.execute (.context "load session" .sqlite)
  let s ← get
  match s.row id with
  | none => pure none
  | some row =>
    match parseSessionRow json f s.passwords id row true with
    | .ok session => pure (some session)
    | .error e => throw (.context "load session" e)

/-! ## Inserting a row -/

/-- The columns of older tables that want a value and have no default. -/
def requiredColumns : List Text := ["term".toList, "charset".toList]

/-- `insert_session_row`, at the time `now`; SQLite gives the row the id `newId`. An `INSERT` that
gives no value to a column that wants one fails. -/
def insertSessionRow (newId : ℤ) (session : SessionWrite) : StoreM ℤ := do
  let proxyEnvJson ← serializeSshProxyEnv json.toSessionJson f session.sshProxyEnv
  let proxyJumpJson ←
    serializeSshProxyJump json.toSessionJson f session.sshProxyMode session.sshProxyJump
  let sessionEnvJson ← serializeSessionEnv json.toSessionJson f session.env
  let s ← get
  execute (f.execute || requiredColumns.any s.columns.contains) .sqlite (Table.push newId
    { protocol := protocolToStr session.protocol
      groupPath := session.groupPath
      label := session.label
      backend := backendToStr session.backend
      sessionEnv := sessionEnvJson
      sshHost := session.sshHost
      sshPort := session.sshPort.map fun value => (value : ℤ)
      sshAuthType := session.sshAuthType.map sshAuthToStr
      sshUser := session.sshUser
      sshCredentialUsername := none
      sshTcpNodelay := if session.sshTcpNodelay then 1 else 0
      sshTcpKeepalive := if session.sshTcpKeepalive then 1 else 0
      sshProxyMode := session.sshProxyMode.map sshProxyModeToStr
      sshProxyCommand := session.sshProxyCommand
      sshProxyWorkdir := session.sshProxyWorkdir
      sshProxyEnv := proxyEnvJson
      sshProxyJump := proxyJumpJson
      serialPort := session.serialPort
      serialBaud := session.serialBaud.map fun value => (value : ℤ)
      serialDataBits := session.serialDataBits.map fun value => (value : ℤ)
      serialParity := session.serialParity.map serialParityToStr
      serialStopBits := session.serialStopBits.map serialStopBitsToI64
      serialFlowControl := session.serialFlowControl.map serialFlowControlToStr
      createdAt := now
      updatedAt := now
      term := []
      charset := []
      colorterm := none })
  pure newId

/-- `SessionWrite::ssh_password`. -/
def SessionWrite.withPassword (groupPath label : Text) (backend : TerminalBackend) (host : Text)
    (port : ℕ) (user password : Text) (env : List SessionEnvVar) (options : SshOptions) :
    SessionWrite :=
  { SessionWrite.sshConfig groupPath label backend host port env options with
    sshAuthType := some .password
    sshUser := some user
    sshPassword := some password }

/-- The body that the saving functions share. -/
def saveSession (newId : ℤ) (session : SessionWrite) (text : String) : StoreM ℤ := do
  openDb json.toSessionJson f
  (insertSessionRow json f now newId session).mapError (.context text)

/-- `save_local_session_with_env`. -/
def saveLocalSessionWithEnv (newId : ℤ) (groupPath label : Text) (backend : TerminalBackend)
    (env : List SessionEnvVar) : StoreM ℤ :=
  saveSession json f now newId { protocol := .local, groupPath, label, backend, env }
    "insert local session"

/-- `save_ssh_session_password_with_proxy_and_env`. -/
def saveSshSessionPasswordWithProxyAndEnv (newId : ℤ) (groupPath label : Text)
    (backend : TerminalBackend) (host : Text) (port : ℕ) (user password : Text)
    (options : SshOptions) (env : List SessionEnvVar) : StoreM ℤ := do
  let session :=
    SessionWrite.withPassword groupPath label backend host port user password env options
  let id ← saveSession json f now newId session "insert ssh password session"
  storeSshPasswordIfPresent f id session.sshPassword
  pure id

/-- `save_ssh_session_config_with_proxy_and_env`. -/
def saveSshSessionConfigWithProxyAndEnv (newId : ℤ) (groupPath label : Text)
    (backend : TerminalBackend) (host : Text) (port : ℕ) (options : SshOptions)
    (env : List SessionEnvVar) : StoreM ℤ :=
  saveSession json f now newId
    (SessionWrite.sshConfig groupPath label backend host port env options)
    "insert ssh config session"

/-- `save_serial_session`. -/
def saveSerialSession (newId : ℤ) (groupPath label : Text) (backend : TerminalBackend) (port : Text)
    (baud dataBits : ℕ) (parity : SerialParity) (stopBits : SerialStopBits)
    (flowControl : SerialFlowControl) (env : List SessionEnvVar) : StoreM ℤ :=
  saveSession json f now newId
    { protocol := .serial
      groupPath := groupPath
      label := label
      backend := backend
      env := env
      serialPort := some port
      serialBaud := some baud
      serialDataBits := some dataBits
      serialParity := some parity
      serialStopBits := some stopBits
      serialFlowControl := some flowControl }
    "insert serial session"

/-- What the functions that save and update a whole session take. -/
inductive SessionSpec
  | local (groupPath label : Text) (backend : TerminalBackend) (env : List SessionEnvVar)
  | sshPassword (groupPath label : Text) (backend : TerminalBackend) (host : Text) (port : ℕ)
      (user password : Text) (options : SshOptions) (env : List SessionEnvVar)
  | sshConfig (groupPath label : Text) (backend : TerminalBackend) (host : Text) (port : ℕ)
      (options : SshOptions) (env : List SessionEnvVar)
  | serial (groupPath label : Text) (backend : TerminalBackend) (port : Text) (baud dataBits : ℕ)
      (parity : SerialParity) (stopBits : SerialStopBits) (flowControl : SerialFlowControl)
      (env : List SessionEnvVar)

/-- The function that saves a session. -/
def SessionSpec.save (newId : ℤ) : SessionSpec → StoreM ℤ
  | .local groupPath label backend env =>
    saveLocalSessionWithEnv json f now newId groupPath label backend env
  | .sshPassword groupPath label backend host port user password options env =>
    saveSshSessionPasswordWithProxyAndEnv json f now newId groupPath label backend host port user
      password options env
  | .sshConfig groupPath label backend host port options env =>
    saveSshSessionConfigWithProxyAndEnv json f now newId groupPath label backend host port options
      env
  | .serial groupPath label backend port baud dataBits parity stopBits flowControl env =>
    saveSerialSession json f now newId groupPath label backend port baud dataBits parity stopBits
      flowControl env

/-- The function that updates a stored session. -/
def SessionSpec.update (id : ℤ) : SessionSpec → StoreM Unit
  | .local groupPath label backend env =>
    updateLocalSessionWithEnv json.toSessionJson f now id groupPath label backend env
  | .sshPassword groupPath label backend host port user password options env =>
    updateSshSessionPasswordWithProxyAndEnv json.toSessionJson f now id groupPath label backend host
      port user password options env
  | .sshConfig groupPath label backend host port options env =>
    updateSshSessionConfigWithProxyAndEnv json.toSessionJson f now id groupPath label backend host
      port options env
  | .serial groupPath label backend port baud dataBits parity stopBits flowControl env =>
    updateSerialSession json.toSessionJson f now id groupPath label backend port baud dataBits parity
      stopBits flowControl env

end Functions

/-! ## What is written is read back -/

theorem backendFromStr_backendToStr (backend : TerminalBackend) :
    backendFromStr (backendToStr backend) = .ok backend := by
  cases backend <;> rfl

theorem protocolFromStr_protocolToStr (protocol : SessionType) :
    protocolFromStr (protocolToStr protocol) = .ok protocol := by
  cases protocol <;> rfl

theorem serialParityFromStr_serialParityToStr (parity : SerialParity) :
    serialParityFromStr (serialParityToStr parity) = .ok parity := by
  cases parity <;> rfl

theorem serialFlowControlFromStr_serialFlowControlToStr (flow : SerialFlowControl) :
    serialFlowControlFromStr (serialFlowControlToStr flow) = .ok flow := by
  cases flow <;> rfl

theorem serialStopBitsFromI64_serialStopBitsToI64 (bits : SerialStopBits) :
    serialStopBitsFromI64 (serialStopBitsToI64 bits) = .ok bits := by
  cases bits <;> rfl

theorem sshAuthFromStr_sshAuthToStr (auth : SshAuthType) :
    sshAuthFromStr (sshAuthToStr auth) = .ok auth := by
  cases auth <;> rfl

theorem sshProxyModeFromStr_sshProxyModeToStr (mode : SshProxyMode) :
    sshProxyModeFromStr (sshProxyModeToStr mode) = .ok mode := by
  cases mode <;> rfl

theorem parseColumn_of_eq {α β : Type} {column : ℕ} {parse : α → Except ParseError β} {value : α}
    {x : β} (h : parse value = .ok x) : parseColumn column parse value = .ok x := by
  unfold parseColumn
  rw [h]
  rfl

/-- A column of encoded values is read back. -/
theorem parseOptional_map {α β : Type} {column : ℕ} {parse : α → Except ParseError β}
    {encode : β → α} (h : ∀ x, parse (encode x) = .ok x) (x : Option β) :
    parseOptional column parse (x.map encode) = .ok x := by
  rcases x with _ | x
  · rfl
  · show (parseColumn column parse (encode x)).map some = .ok (some x)
    rw [parseColumn_of_eq (h x)]
    rfl

theorem map_toUnsigned {width : ℕ} {x : Option ℕ} (h : ∀ n ∈ x, n < 2 ^ width) :
    (x.map fun value => (value : ℤ)).map (toUnsigned width) = x := by
  rcases x with _ | n
  · rfl
  · have hn : n < 2 ^ width := h n rfl
    have hmod : (n : ℤ) % 2 ^ width = n := Int.emod_eq_of_lt (by positivity) (by exact_mod_cast hn)
    show some (toUnsigned width n) = some n
    unfold toUnsigned
    rw [hmod, Int.toNat_natCast]

theorem flag_ne_zero (flag : Bool) : decide ((if flag then (1 : ℤ) else 0) ≠ 0) = flag := by
  cases flag <;> rfl

section RoundTrip

variable {json : StoreJson} {f : Faults} {now : ℤ} {s : Store} {id : ℤ} {session : SessionWrite}

/-- A list, or nothing for an empty one. -/
def absentIfEmpty {α : Type} (l : List α) : Option (List α) := if l.isEmpty then none else some l

/-- The text of `ssh_proxy_jump`. -/
def jumpText (json : SessionJson) (session : SessionWrite) : Option Text :=
  if session.sshProxyMode = some .jumpServer then
    (absentIfEmpty session.sshProxyJump).map json.jumpText
  else none

/-- The row with the encoded values in its columns. -/
def encode (json : SessionJson) (now : ℤ) (session : SessionWrite) (row : Row) : Row :=
  { row with
    protocol := protocolToStr session.protocol
    groupPath := session.groupPath
    label := session.label
    backend := backendToStr session.backend
    sessionEnv := (absentIfEmpty session.env).map json.envText
    sshHost := session.sshHost
    sshPort := session.sshPort.map fun value => (value : ℤ)
    sshAuthType := session.sshAuthType.map sshAuthToStr
    sshUser := session.sshUser
    sshCredentialUsername := none
    sshTcpNodelay := if session.sshTcpNodelay then 1 else 0
    sshTcpKeepalive := if session.sshTcpKeepalive then 1 else 0
    sshProxyMode := session.sshProxyMode.map sshProxyModeToStr
    sshProxyCommand := session.sshProxyCommand
    sshProxyWorkdir := session.sshProxyWorkdir
    sshProxyEnv := (absentIfEmpty session.sshProxyEnv).map json.envText
    sshProxyJump := jumpText json session
    serialPort := session.serialPort
    serialBaud := session.serialBaud.map fun value => (value : ℤ)
    serialDataBits := session.serialDataBits.map fun value => (value : ℤ)
    serialParity := session.serialParity.map serialParityToStr
    serialStopBits := session.serialStopBits.map serialStopBitsToI64
    serialFlowControl := session.serialFlowControl.map serialFlowControlToStr
    updatedAt := now }

/-- The integers of what is written have the widths of their types. -/
structure SessionWrite.Typed (session : SessionWrite) : Prop where
  port : ∀ port ∈ session.sshPort, port < 2 ^ 16
  jump : ∀ hop ∈ session.sshProxyJump, hop.Typed
  baud : ∀ baud ∈ session.serialBaud, baud < 2 ^ 32
  dataBits : ∀ dataBits ∈ session.serialDataBits, dataBits < 2 ^ 8

/-- The session that was written. -/
def SessionWrite.loaded (session : SessionWrite) (id : ℤ) (sshPassword : Option Text) : Session where
  id := id
  protocol := session.protocol
  groupPath := session.groupPath
  label := session.label
  backend := session.backend
  env := absentIfEmpty session.env
  sshHost := session.sshHost
  sshPort := session.sshPort
  sshAuthType := session.sshAuthType
  sshUser := session.sshUser
  sshPassword := sshPassword
  sshTcpNodelay := session.sshTcpNodelay
  sshTcpKeepalive := session.sshTcpKeepalive
  sshProxyMode := session.sshProxyMode
  sshProxyCommand := session.sshProxyCommand
  sshProxyWorkdir := session.sshProxyWorkdir
  sshProxyEnv := absentIfEmpty session.sshProxyEnv
  sshProxyJump :=
    if session.sshProxyMode = some .jumpServer then absentIfEmpty session.sshProxyJump else none
  serialPort := session.serialPort
  serialBaud := session.serialBaud
  serialDataBits := session.serialDataBits
  serialParity := session.serialParity
  serialStopBits := session.serialStopBits
  serialFlowControl := session.serialFlowControl

theorem bind_absentIfEmpty {α : Type} {text : List α → Text} {read : Text → Option (List α)}
    {l : List α} (h : read (text l) = some l) :
    ((absentIfEmpty l).map text).bind read = absentIfEmpty l := by
  unfold absentIfEmpty
  split
  · rfl
  · exact h

/-- An encoded row is read as the session that was written. -/
theorem parseSessionRow_encode (hjson : json.RoundTrips) (htyped : session.Typed)
    (passwords : ℤ → Option Text) (row : Row) :
    parseSessionRow json f passwords id (encode json.toSessionJson now session row) true =
      .ok (session.loaded id (loadSshPasswordIfNeeded f passwords id session.sshAuthType)) := by
  have hjump : (jumpText json.toSessionJson session).bind json.readJump =
      if session.sshProxyMode = some .jumpServer then absentIfEmpty session.sshProxyJump
      else none := by
    unfold jumpText
    split
    · exact bind_absentIfEmpty (hjson.jump _ htyped.jump)
    · rfl
  unfold parseSessionRow encode SessionWrite.loaded
  simp only [parseColumn_of_eq (protocolFromStr_protocolToStr _),
    parseColumn_of_eq (backendFromStr_backendToStr _), parseOptional_map sshAuthFromStr_sshAuthToStr,
    parseOptional_map sshProxyModeFromStr_sshProxyModeToStr,
    parseOptional_map serialParityFromStr_serialParityToStr,
    parseOptional_map serialStopBitsFromI64_serialStopBitsToI64,
    parseOptional_map serialFlowControlFromStr_serialFlowControlToStr,
    bind_absentIfEmpty (hjson.env _), hjump, map_toUnsigned htyped.port, map_toUnsigned htyped.baud,
    map_toUnsigned htyped.dataBits, flag_ne_zero]
  rfl

/-! ## The statements -/

theorem sessionEnvText_eq (json : SessionJson) (env : List SessionEnvVar) :
    sessionEnvText json env = (absentIfEmpty env).map json.envText := by
  unfold sessionEnvText absentIfEmpty
  rcases env with _ | ⟨var, env⟩ <;> rfl

/-- A column is checked and encoded, or the store is left alone. -/
theorem outcome_check_pure {α : Type} {fails : Bool} {e : StoreError} {x y : α}
    (h : Effect.outcome (do Effect.check fails e; pure x : StoreM α) s = .ok y) :
    y = x ∧ Effect.after (do Effect.check fails e; pure x : StoreM α) s = s := by
  obtain ⟨_, -, hx, hafter⟩ := Effect.outcome_bind_eq_ok h
  rw [Effect.after_check] at hx hafter
  exact ⟨(Except.ok.inj hx).symm, hafter⟩

theorem serializeSessionEnv_ok {json : SessionJson} {env : List SessionEnvVar} {text : Option Text}
    (h : (serializeSessionEnv json f env).outcome s = .ok text) :
    text = (absentIfEmpty env).map json.envText ∧ (serializeSessionEnv json f env).after s = s := by
  rw [← sessionEnvText_eq]
  exact outcome_check_pure h

theorem serializeSshProxyEnv_ok {json : SessionJson} {env : List SessionEnvVar}
    {text : Option Text} (h : (serializeSshProxyEnv json f env).outcome s = .ok text) :
    text = (absentIfEmpty env).map json.envText ∧ (serializeSshProxyEnv json f env).after s = s := by
  rw [← sessionEnvText_eq]
  exact outcome_check_pure h

theorem serializeSshProxyJump_ok {json : SessionJson} {text : Option Text}
    (h : (serializeSshProxyJump json f session.sshProxyMode session.sshProxyJump).outcome s =
      .ok text) :
    text = jumpText json session ∧
      (serializeSshProxyJump json f session.sshProxyMode session.sshProxyJump).after s = s := by
  unfold serializeSshProxyJump at h ⊢
  unfold jumpText absentIfEmpty
  split at h
  · next hnone =>
    rw [if_pos hnone]
    refine ⟨(Except.ok.inj h).symm.trans ?_, rfl⟩
    rcases hnone with hmode | hjump
    · rw [if_neg hmode]
    · rw [hjump]
      exact (ite_self none).symm
  · next hsome =>
    rw [not_or] at hsome
    rw [if_neg (not_or.mpr hsome), if_pos (not_not.mp hsome.1), if_neg (by simp [hsome.2])]
    exact outcome_check_pure h

theorem execute_ok {fails : Bool} {e : StoreError} {write : Rows → Rows}
    (h : (execute fails e write).outcome s = .ok ()) :
    (execute fails e write).after s = { s with rows := write s.rows } := by
  rw [outcome_execute] at h
  rw [after_execute]
  rcases fails with _ | _
  · rfl
  · cases h

/-- A call that encodes the three columns first and returns goes on with their texts. -/
theorem encoded_ok {α : Type} {json : SessionJson} {a : α}
    {k : Option Text → Option Text → Option Text → StoreM α}
    (h : (do
      let proxyEnvJson ← serializeSshProxyEnv json f session.sshProxyEnv
      let proxyJumpJson ← serializeSshProxyJump json f session.sshProxyMode session.sshProxyJump
      let sessionEnvJson ← serializeSessionEnv json f session.env
      k proxyEnvJson proxyJumpJson sessionEnvJson : StoreM α).outcome s = .ok a) :
    (k ((absentIfEmpty session.sshProxyEnv).map json.envText) (jumpText json session)
        ((absentIfEmpty session.env).map json.envText)).outcome s = .ok a ∧
      (do
        let proxyEnvJson ← serializeSshProxyEnv json f session.sshProxyEnv
        let proxyJumpJson ← serializeSshProxyJump json f session.sshProxyMode session.sshProxyJump
        let sessionEnvJson ← serializeSessionEnv json f session.env
        k proxyEnvJson proxyJumpJson sessionEnvJson : StoreM α).after s =
          (k ((absentIfEmpty session.sshProxyEnv).map json.envText) (jumpText json session)
            ((absentIfEmpty session.env).map json.envText)).after s := by
  obtain ⟨proxyEnv, hproxyEnv, h, hafter⟩ := Effect.outcome_bind_eq_ok h
  obtain ⟨rfl, hs⟩ := serializeSshProxyEnv_ok hproxyEnv
  rw [hafter, hs]
  rw [hs] at h
  obtain ⟨proxyJump, hproxyJump, h, hafter⟩ := Effect.outcome_bind_eq_ok h
  obtain ⟨rfl, hs⟩ := serializeSshProxyJump_ok hproxyJump
  rw [hafter, hs]
  rw [hs] at h
  obtain ⟨env, henv, h, hafter⟩ := Effect.outcome_bind_eq_ok h
  obtain ⟨rfl, hs⟩ := serializeSessionEnv_ok henv
  rw [hafter, hs]
  rw [hs] at h
  exact ⟨h, rfl⟩

/-- An update that returns has encoded the session into its row. -/
theorem updateSessionRow_ok {json : SessionJson}
    (h : (updateSessionRow json f now id session).outcome s = .ok ()) :
    (updateSessionRow json f now id session).after s =
      { s with rows := Table.modify id (encode json now session) s.rows } := by
  obtain ⟨h, hafter⟩ := encoded_ok h
  exact hafter.trans (execute_ok h)

/-- The row of a new session before its columns are encoded. -/
def newRow (now : ℤ) : Row where
  protocol := []
  groupPath := []
  label := []
  backend := []
  sessionEnv := none
  sshHost := none
  sshPort := none
  sshAuthType := none
  sshUser := none
  sshCredentialUsername := none
  sshTcpNodelay := 0
  sshTcpKeepalive := 0
  sshProxyMode := none
  sshProxyCommand := none
  sshProxyWorkdir := none
  sshProxyEnv := none
  sshProxyJump := none
  serialPort := none
  serialBaud := none
  serialDataBits := none
  serialParity := none
  serialStopBits := none
  serialFlowControl := none
  createdAt := now
  updatedAt := now
  term := []
  charset := []
  colorterm := none

/-- An insert that returns has encoded the session into a new row. -/
theorem insertSessionRow_ok {newId : ℤ}
    (h : (insertSessionRow json f now newId session).outcome s = .ok id) :
    id = newId ∧ (insertSessionRow json f now newId session).after s =
      { s with rows :=
          Table.push newId (encode json.toSessionJson now session (newRow now)) s.rows } := by
  obtain ⟨h, hafter⟩ := encoded_ok h
  unfold insertSessionRow
  rw [hafter]
  obtain ⟨s', hget, h, hafter⟩ := Effect.outcome_bind_eq_ok h
  obtain rfl := Except.ok.inj hget
  rw [hafter]
  obtain ⟨_, hexecute, hid, hafter⟩ := Effect.outcome_bind_eq_ok h
  exact ⟨(Except.ok.inj hid).symm, hafter.trans (execute_ok hexecute)⟩

/-! ## The calls -/

/-- A call that opened the database has set up its schema. -/
theorem schemaReady_openDb {json : SessionJson} (h : (openDb json f).outcome s = .ok ()) :
    ((openDb json f).after s).schemaReady = true := by
  unfold openDb at h ⊢
  obtain ⟨_, -, h, hafter⟩ := Effect.outcome_bind_eq_ok h
  rw [Effect.after_check] at h hafter
  rw [hafter]
  obtain ⟨_, -, h, hafter⟩ := Effect.outcome_bind_eq_ok h
  rw [Effect.after_check] at h hafter
  rw [hafter]
  obtain ⟨s', hget, h, hafter⟩ := Effect.outcome_bind_eq_ok h
  obtain rfl := Except.ok.inj hget
  rw [hafter]
  split at h
  · next hready =>
    rw [if_pos hready]
    exact (congrArg Store.schemaReady (Effect.after_check _ _ _)).trans hready
  · next hready =>
    rw [if_neg hready]
    obtain ⟨_, -, h, hafter⟩ := Effect.outcome_bind_eq_ok h
    rw [hafter]
    obtain ⟨_, -, h, hafter⟩ := Effect.outcome_bind_eq_ok h
    rw [hafter]
    exact congrArg Store.schemaReady (Effect.after_check _ _ _)

/-- Opening a database that is set up does nothing. -/
theorem openDb_ready {json : SessionJson} (h : s.schemaReady = true) :
    (openDb json noFaults).outcome s = .ok () ∧ (openDb json noFaults).after s = s := by
  unfold openDb
  rw [Effect.outcome_bind, Effect.after_bind]
  simp [noFaults, Effect.outcome_bind, Effect.after_bind, h]

/-- The session is stored under the id, in a database that is set up. -/
structure Stored (json : SessionJson) (session : SessionWrite) (id : ℤ) (s : Store) : Prop where
  ready : s.schemaReady = true
  row : ∃ now row, s.row id = some (encode json now session row)

/-- A row of a database that is set up is loaded. -/
theorem load_row {loaded : Session} {row : Row} (hready : s.schemaReady = true)
    (hrow : s.row id = some row)
    (hparse : parseSessionRow json noFaults s.passwords id row true = .ok loaded) :
    (loadSession json noFaults id).outcome s = .ok (some loaded) := by
  unfold loadSession
  rw [Effect.outcome_bind, (openDb_ready hready).1, (openDb_ready hready).2]
  show (Effect.check noFaults.execute _ >>= _).outcome s = _
  rw [Effect.outcome_check_bind, if_neg (by decide), Effect.outcome_bind]
  show Effect.outcome (match s.row id with | none => _ | some row => _) s = _
  rw [hrow]
  simp only [hparse]
  rfl

/-- A stored session is loaded. -/
theorem Stored.load (h : Stored json.toSessionJson session id s) (hjson : json.RoundTrips)
    (htyped : session.Typed) : (loadSession json noFaults id).outcome s =
      .ok (some (session.loaded id
        (loadSshPasswordIfNeeded noFaults s.passwords id session.sshAuthType))) := by
  obtain ⟨now, row, hrow⟩ := h.row
  exact load_row h.ready hrow (parseSessionRow_encode hjson htyped s.passwords row)

/-- The statement of an update, behind the opening of the database, has stored the session. -/
theorem stored_update {json : SessionJson} (hopen : (openDb json f).outcome s = .ok ())
    (h : (updateSessionRow json f now id session).outcome ((openDb json f).after s) = .ok ())
    (hrow : (s.row id).isSome) :
    Stored json session id
        ((updateSessionRow json f now id session).after ((openDb json f).after s)) ∧
      ((updateSessionRow json f now id session).after ((openDb json f).after s)).passwords =
        s.passwords := by
  have hsome : (((openDb json f).after s).row id).isSome := by
    rw [row_openDb]
    split
    · rw [Option.isSome_map]
      exact hrow
    · exact hrow
  obtain ⟨row, hrow⟩ := Option.isSome_iff_exists.mp hsome
  rw [updateSessionRow_ok h]
  refine ⟨⟨schemaReady_openDb hopen, now, row, ?_⟩, samePasswords_openDb s⟩
  rw [row_modify, if_pos rfl, hrow]
  rfl

/-- A save that returns has stored the session under the new id. -/
theorem stored_save {newId : ℤ} {text : String}
    (h : (saveSession json f now newId session text).outcome s = .ok id)
    (hfresh : s.row newId = none) :
    id = newId ∧
      Stored json.toSessionJson session newId ((saveSession json f now newId session text).after s) ∧
      ((saveSession json f now newId session text).after s).passwords = s.passwords := by
  unfold saveSession at h ⊢
  obtain ⟨_, hopen, h, hafter⟩ := Effect.outcome_bind_eq_ok h
  obtain ⟨hid, hinsert⟩ := insertSessionRow_ok (Effect.outcome_mapError_eq_ok h)
  have hnone : ((openDb json.toSessionJson f).after s).row newId = none := by
    rw [row_openDb, hfresh]
    exact ite_self none
  rw [hafter, Effect.after_mapError, hinsert]
  refine ⟨hid, ⟨schemaReady_openDb hopen, now, newRow now, ?_⟩, samePasswords_openDb s⟩
  show (Table.push newId _ _).lookup newId = _
  rw [Table.lookup_push (AList.lookup_eq_none.mp hnone), if_pos rfl]

/-- An update of a session without a password. -/
theorem stored_updateWithoutPassword {json : SessionJson} {text : String}
    (h : (updateWithoutPassword json f now id session text).outcome s = .ok ())
    (hrow : (s.row id).isSome) :
    Stored json session id ((updateWithoutPassword json f now id session text).after s) := by
  unfold updateWithoutPassword at h ⊢
  obtain ⟨_, -, h, hafter⟩ := Effect.outcome_bind_eq_ok h
  rw [hafter]
  obtain ⟨_, hopen, h, hafter⟩ := Effect.outcome_bind_eq_ok h
  rw [hafter, Effect.after_mapError]
  refine (stored_update hopen (Effect.outcome_mapError_eq_ok h) ?_).1
  unfold deleteSshPasswordIfPresent
  rw [Effect.after_change]
  split
  · exact hrow
  · exact hrow

/-- The password of a session is stored unless the credential manager fails. -/
theorem after_storeSshPasswordIfPresent (password : Text) :
    (storeSshPasswordIfPresent f id (some password)).after s =
      { s with passwords :=
          if f.keychain then s.passwords else Function.update s.passwords id (some password) } := by
  unfold storeSshPasswordIfPresent
  rw [Effect.after_change]
  rcases f.keychain with _ | _ <;> rfl

theorem Stored.setPasswords {json : SessionJson} (h : Stored json session id s)
    (passwords : ℤ → Option Text) : Stored json session id { s with passwords } := ⟨h.ready, h.row⟩

end RoundTrip

namespace SessionSpec

/-- What a function of the store writes to the row. -/
def write : SessionSpec → SessionWrite
  | .local groupPath label backend env => { protocol := .local, groupPath, label, backend, env }
  | .sshPassword groupPath label backend host port user password options env =>
    .withPassword groupPath label backend host port user password env options
  | .sshConfig groupPath label backend host port options env =>
    .sshConfig groupPath label backend host port env options
  | .serial groupPath label backend port baud dataBits parity stopBits flowControl env =>
    { protocol := .serial
      groupPath := groupPath
      label := label
      backend := backend
      env := env
      serialPort := some port
      serialBaud := some baud
      serialDataBits := some dataBits
      serialParity := some parity
      serialStopBits := some stopBits
      serialFlowControl := some flowControl }

/-- The integers of a session have the widths of their types. -/
def Typed : SessionSpec → Prop
  | .local .. => True
  | .sshPassword _ _ _ _ port _ _ options _ | .sshConfig _ _ _ _ port options _ =>
    port < 2 ^ 16 ∧ ∀ hop ∈ options.proxyJump, hop.Typed
  | .serial _ _ _ _ baud dataBits _ _ _ _ => baud < 2 ^ 32 ∧ dataBits < 2 ^ 8

/-- The hops of a proxy, which count for a jump server only. -/
def jumpOf (options : SshOptions) : Option (List SshJumpHop) :=
  if options.proxyMode = .jumpServer then absentIfEmpty options.proxyJump else none

/-- The session that is stored: the fields that were given, empty lists as absent ones, and nothing
in the fields of other kinds. -/
def session (id : ℤ) : SessionSpec → Session
  | .local groupPath label backend env =>
    { id, protocol := .local, groupPath, label, backend, env := absentIfEmpty env }
  | .sshPassword groupPath label backend host port user password options env =>
    { id, protocol := .ssh, groupPath, label, backend, env := absentIfEmpty env
      sshHost := some host
      sshPort := some port
      sshAuthType := some .password
      sshUser := some user
      sshPassword := some password
      sshTcpNodelay := options.sshTcpNodelay
      sshTcpKeepalive := options.sshTcpKeepalive
      sshProxyMode := some options.proxyMode
      sshProxyCommand := options.proxyCommand
      sshProxyWorkdir := options.proxyWorkdir
      sshProxyEnv := absentIfEmpty options.proxyEnv
      sshProxyJump := jumpOf options }
  | .sshConfig groupPath label backend host port options env =>
    { id, protocol := .ssh, groupPath, label, backend, env := absentIfEmpty env
      sshHost := some host
      sshPort := some port
      sshAuthType := some .config
      sshTcpNodelay := options.sshTcpNodelay
      sshTcpKeepalive := options.sshTcpKeepalive
      sshProxyMode := some options.proxyMode
      sshProxyCommand := options.proxyCommand
      sshProxyWorkdir := options.proxyWorkdir
      sshProxyEnv := absentIfEmpty options.proxyEnv
      sshProxyJump := jumpOf options }
  | .serial groupPath label backend port baud dataBits parity stopBits flowControl env =>
    { id, protocol := .serial, groupPath, label, backend, env := absentIfEmpty env
      serialPort := some port
      serialBaud := some baud
      serialDataBits := some dataBits
      serialParity := some parity
      serialStopBits := some stopBits
      serialFlowControl := some flowControl }

variable {spec : SessionSpec} {json : StoreJson} {f : Faults} {now : ℤ} {s : Store} {id : ℤ}

theorem typed_write (h : spec.Typed) : spec.write.Typed := by
  cases spec with
  | «local» => exact ⟨nofun, nofun, nofun, nofun⟩
  | sshPassword => exact ⟨fun _ hp => Option.some.inj hp ▸ h.1, h.2, nofun, nofun⟩
  | sshConfig => exact ⟨fun _ hp => Option.some.inj hp ▸ h.1, h.2, nofun, nofun⟩
  | serial =>
    exact ⟨nofun, nofun, fun _ hp => Option.some.inj hp ▸ h.1, fun _ hp => Option.some.inj hp ▸ h.2⟩

/-- What is loaded is the session, once its password is in the credential manager. -/
theorem loaded_write {passwords : ℤ → Option Text}
    (h : ∀ password ∈ spec.write.sshPassword, passwords id = some password) :
    spec.write.loaded id (loadSshPasswordIfNeeded noFaults passwords id spec.write.sshAuthType) =
      spec.session id := by
  cases spec with
  | «local» => rfl
  | sshPassword _ _ _ _ _ _ password options =>
    have hpassword : passwords id = some password := h password rfl
    simp [write, SessionWrite.withPassword, SessionWrite.sshConfig, SessionWrite.loaded, session,
      loadSshPasswordIfNeeded, noFaults, jumpOf, hpassword]
  | sshConfig _ _ _ _ _ options =>
    simp [write, SessionWrite.sshConfig, SessionWrite.loaded, session, loadSshPasswordIfNeeded,
      jumpOf]
  | serial => rfl

/-- Saving a session stores it, and its password. -/
theorem stored_save {newId : ℤ} (hkeychain : f.keychain = false) (hfresh : s.row newId = none)
    (h : (spec.save json f now newId).outcome s = .ok id) :
    id = newId ∧ Stored json.toSessionJson spec.write newId ((spec.save json f now newId).after s) ∧
      ∀ password ∈ spec.write.sshPassword,
        ((spec.save json f now newId).after s).passwords newId = some password := by
  cases spec with
  | «local» =>
    obtain ⟨hid, hstored, -⟩ := Session.stored_save h hfresh
    exact ⟨hid, hstored, nofun⟩
  | sshConfig =>
    obtain ⟨hid, hstored, -⟩ := Session.stored_save h hfresh
    exact ⟨hid, hstored, nofun⟩
  | serial =>
    obtain ⟨hid, hstored, -⟩ := Session.stored_save h hfresh
    exact ⟨hid, hstored, nofun⟩
  | sshPassword groupPath label backend host port user password options env =>
    obtain ⟨id', hsave, h, hafter⟩ := Effect.outcome_bind_eq_ok h
    obtain ⟨rfl, hstored, -⟩ := Session.stored_save hsave hfresh
    obtain ⟨_, -, hid, hreturn⟩ := Effect.outcome_bind_eq_ok h
    have hstate := hafter.trans (hreturn.trans (after_storeSshPasswordIfPresent password))
    rw [hkeychain] at hstate
    refine ⟨(Except.ok.inj hid).symm, ?_, ?_⟩
    · exact hstate ▸ hstored.setPasswords _
    · rintro _ ⟨⟩
      exact (congrFun (congrArg Store.passwords hstate) id').trans (Function.update_self ..)

/-- Updating a stored session stores it, and its password unless the credential manager fails. -/
theorem stored_update (hrow : (s.row id).isSome)
    (h : (spec.update json f now id).outcome s = .ok ()) :
    Stored json.toSessionJson spec.write id ((spec.update json f now id).after s) ∧
      ∀ password ∈ spec.write.sshPassword, ((spec.update json f now id).after s).passwords id =
        if f.keychain then s.passwords id else some password := by
  cases spec with
  | «local» => exact ⟨stored_updateWithoutPassword h hrow, nofun⟩
  | sshConfig => exact ⟨stored_updateWithoutPassword h hrow, nofun⟩
  | serial => exact ⟨stored_updateWithoutPassword h hrow, nofun⟩
  | sshPassword groupPath label backend host port user password options env =>
    obtain ⟨_, hopen, h, hafter⟩ := Effect.outcome_bind_eq_ok h
    obtain ⟨_, hupdate, h, hreturn⟩ := Effect.outcome_bind_eq_ok h
    obtain ⟨hstored, hpasswords⟩ :=
      Session.stored_update hopen (Effect.outcome_mapError_eq_ok hupdate) hrow
    rw [Effect.after_mapError] at hreturn
    have hstate := hafter.trans (hreturn.trans (after_storeSshPasswordIfPresent password))
    refine ⟨?_, ?_⟩
    · exact hstate ▸ hstored.setPasswords _
    · rintro _ ⟨⟩
      refine (congrFun (congrArg Store.passwords hstate) id).trans ?_
      simp only
      split
      · exact congrFun hpasswords id
      · exact Function.update_self ..

/-- What an update has stored is loaded by its id, its password too if the credential manager takes
it or has it already. -/
theorem load_update (hjson : json.RoundTrips) (htyped : spec.Typed)
    (hpassword : ∀ password ∈ spec.write.sshPassword,
      f.keychain = false ∨ s.passwords id = some password)
    (hrow : (s.row id).isSome) (hupdate : (spec.update json f now id).outcome s = .ok ()) :
    (loadSession json noFaults id).outcome ((spec.update json f now id).after s) =
      .ok (some (spec.session id)) := by
  obtain ⟨hstored, hafter⟩ := stored_update hrow hupdate
  rw [hstored.load hjson (typed_write htyped), loaded_write]
  intro password hmem
  rw [hafter password hmem]
  rcases hpassword password hmem with hkeychain | hsame
  · rw [hkeychain]
    rfl
  · rw [hsame]
    exact ite_self _

/-- What a save or an update has stored is loaded by its id with the fields that were given. -/
theorem load_written (hjson : json.RoundTrips) (htyped : spec.Typed)
    (hkeychain : f.keychain = false) :
    (∀ newId, s.row newId = none → (spec.save json f now newId).outcome s = .ok id →
      (loadSession json noFaults id).outcome ((spec.save json f now newId).after s) =
        .ok (some (spec.session id))) ∧
    ((s.row id).isSome → (spec.update json f now id).outcome s = .ok () →
      (loadSession json noFaults id).outcome ((spec.update json f now id).after s) =
        .ok (some (spec.session id))) := by
  constructor
  · intro newId hfresh hsave
    obtain ⟨rfl, hstored, hpassword⟩ := stored_save hkeychain hfresh hsave
    rw [hstored.load hjson (typed_write htyped), loaded_write hpassword]
  · intro hrow hupdate
    exact load_update hjson htyped (fun _ _ => .inl hkeychain) hrow hupdate

/-- An SSH session behind a jump server. -/
def behindJump : SessionSpec :=
  .sshPassword "servers".toList "db".toList .alacritty "db.example".toList 22 "admin".toList
    "secret".toList
    { sshTcpNodelay := true
      sshTcpKeepalive := false
      proxyMode := .jumpServer
      proxyCommand := none
      proxyWorkdir := none
      proxyEnv := []
      proxyJump := [⟨"jump.example".toList, none, some 2222⟩] }
    [⟨"LANG".toList, "C.UTF-8".toList⟩]

/-- It is saved as number 8, and it takes the place of number 7. -/
theorem load_written_behindJump :
    (loadSession compactJson noFaults 8).outcome
        ((behindJump.save compactJson noFaults 0 8).after (passwordStore none)) =
      .ok (some (behindJump.session 8)) ∧
    (loadSession compactJson noFaults 7).outcome
        ((behindJump.update compactJson noFaults 0 7).after (passwordStore none)) =
      .ok (some (behindJump.session 7)) := by
  have htyped : behindJump.Typed := by
    refine ⟨by decide, fun hop hhop port hport => ?_⟩
    obtain rfl := List.mem_singleton.mp hhop
    obtain rfl := Option.some.inj hport
    decide
  exact ⟨(load_written compactJson_roundTrips htyped rfl).1 8 rfl rfl,
    (load_written compactJson_roundTrips htyped rfl).2 rfl rfl⟩

end SessionSpec

end Termua.Session
