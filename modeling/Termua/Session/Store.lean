import Mathlib
import Termua.Lib.Effect
import Termua.Lib.Text
import Termua.Lib.Table

/-!
# The session store

The `sessions` table of `termua/src/session/store.rs` and the SSH passwords in the credential
manager. A function of the store runs as an `Effect` on both; which of its steps fail is given by
`Faults`. SQLite carries out a statement whole or not at all; the statements of a function are not
put into one transaction. The schema is set up once in a process and path: `schemaReady` says that
this was done.
-/

namespace Termua.Session

/-- A text. -/
abbrev Text := List Char

/-- `SessionEnvVar`, and `SshProxyEnvVar`, which has the same fields. -/
structure SessionEnvVar where
  name : Text
  value : Text
  deriving DecidableEq

/-- `SshJumpHop`. -/
structure SshJumpHop where
  host : Text
  user : Option Text
  port : Option ℕ
  deriving DecidableEq

/-- `SessionType`. -/
inductive SessionType
  | local | ssh | serial
  deriving DecidableEq

/-- `TerminalBackend`. -/
inductive TerminalBackend
  | alacritty | wezterm
  deriving DecidableEq

/-- `SshAuthType`. -/
inductive SshAuthType
  | password | config
  deriving DecidableEq

/-- `SshProxyMode`. -/
inductive SshProxyMode
  | inherit | disabled | command | jumpServer
  deriving DecidableEq

/-- `SerialParity`. -/
inductive SerialParity
  | none | even | odd
  deriving DecidableEq

/-- `SerialStopBits`. -/
inductive SerialStopBits
  | one | two
  deriving DecidableEq

/-- `SerialFlowControl`. -/
inductive SerialFlowControl
  | none | software | hardware
  deriving DecidableEq

/-- `protocol_to_str`. -/
def protocolToStr : SessionType → Text
  | .local => "local".toList
  | .ssh => "ssh".toList
  | .serial => "serial".toList

/-- `backend_to_str`. -/
def backendToStr : TerminalBackend → Text
  | .alacritty => "alacritty".toList
  | .wezterm => "wezterm".toList

/-- `ssh_auth_to_str`. -/
def sshAuthToStr : SshAuthType → Text
  | .password => "password".toList
  | .config => "config".toList

/-- `ssh_proxy_mode_to_str`. -/
def sshProxyModeToStr : SshProxyMode → Text
  | .inherit => "inherit".toList
  | .disabled => "disabled".toList
  | .command => "command".toList
  | .jumpServer => "jumpserver".toList

/-- `serial_parity_to_str`. -/
def serialParityToStr : SerialParity → Text
  | .none => "none".toList
  | .even => "even".toList
  | .odd => "odd".toList

/-- `serial_stop_bits_to_i64`. -/
def serialStopBitsToI64 : SerialStopBits → ℤ
  | .one => 1
  | .two => 2

/-- `serial_flow_control_to_str`. -/
def serialFlowControlToStr : SerialFlowControl → Text
  | .none => "none".toList
  | .software => "xonxoff".toList
  | .hardware => "rtscts".toList

/-! ## The two stores -/

/-- A row of `sessions` under its `id`, with the columns that only older schemas have. -/
structure Row where
  protocol : Text
  groupPath : Text
  label : Text
  backend : Text
  sessionEnv : Option Text
  sshHost : Option Text
  sshPort : Option ℤ
  sshAuthType : Option Text
  sshUser : Option Text
  sshCredentialUsername : Option Text
  sshTcpNodelay : ℤ
  sshTcpKeepalive : ℤ
  sshProxyMode : Option Text
  sshProxyCommand : Option Text
  sshProxyWorkdir : Option Text
  sshProxyEnv : Option Text
  sshProxyJump : Option Text
  serialPort : Option Text
  serialBaud : Option ℤ
  serialDataBits : Option ℤ
  serialParity : Option Text
  serialStopBits : Option ℤ
  serialFlowControl : Option Text
  createdAt : ℤ
  updatedAt : ℤ
  term : Text
  charset : Text
  colorterm : Option Text
  deriving DecidableEq

/-- The rows of `sessions` by their primary key, in the order of a scan. -/
abbrev Rows := AList fun _ : ℤ => Row

/-- The database file, whether its schema was set up in this process, and the credential manager. -/
structure Store where
  schemaReady : Bool
  columns : List Text
  rows : Rows
  passwords : ℤ → Option Text

/-- The row of a session. -/
def Store.row (s : Store) (id : ℤ) : Option Row := s.rows.lookup id

/-- `ParseError`: the kind of value that was read, and the unknown text or number. -/
inductive ParseError
  | unknownText (what : String) (other : Text)
  | unknownNumber (what : String) (other : ℤ)

/-- What an `anyhow` error says: the step that failed, and the context that the caller added. -/
inductive StoreError
  | createDir | openDb | createSchema | tableInfo (column : Text) | addColumn (column : Text)
  | selectLegacy | readLegacy | migrate (id : ℤ) | chmod | serialize (what : String) | sqlite
  | fromSql (column : ℕ) (source : ParseError)
  | context (text : String) (source : StoreError)

/-- The steps that fail in a call. -/
structure Faults where
  createDir : Bool
  openDb : Bool
  createSchema : Bool
  tableInfo : Text → Bool
  addColumn : Text → Bool
  selectLegacy : Bool
  readLegacy : ℤ → Bool
  migrate : ℤ → Bool
  chmod : Bool
  serialize : String → Bool
  execute : Bool
  keychain : Bool

/-- What the store uses of `serde_json` and `serde_json_lenient`. -/
structure SessionJson where
  envText : List SessionEnvVar → Text
  jumpText : List SshJumpHop → Text
  readEnv : Text → Option (List SessionEnvVar)

/-- A function of the store. -/
abbrev StoreM (α : Type) := Effect Store StoreError α

/-- `Connection::execute` of a statement that writes to the rows. -/
def execute (fails : Bool) (e : StoreError) (write : Rows → Rows) : StoreM Unit := do
  Effect.check fails e
  Effect.change fun s => { s with rows := write s.rows }

/-! ## Opening the database -/

section Open

variable (json : SessionJson) (f : Faults)

/-- `upsert_session_env_var`. -/
def upsertSessionEnvVar (env : List SessionEnvVar) (name value : Text) : List SessionEnvVar :=
  match env.findIdx? (·.name = name) with
  | some i => env.modify i fun var => { var with value }
  | none => env ++ [⟨name, value⟩]

/-- `merge_terminal_fields_into_env`. -/
def mergeTerminalFieldsIntoEnv (term : Text) (colorterm : Option Text) (charset : Text)
    (env : List SessionEnvVar) : List SessionEnvVar :=
  let hasName (name : Text) := env.any fun var => Text.eqIgnoreAsciiCase var.name name
  let merged := if Text.trim term ≠ [] ∧ !hasName "TERM".toList then
    upsertSessionEnvVar [] "TERM".toList term else []
  let merged := match colorterm with
    | some value =>
      if Text.trim value ≠ [] ∧ !hasName "COLORTERM".toList then
        upsertSessionEnvVar merged "COLORTERM".toList value
      else merged
    | none => merged
  let merged := if Text.trim charset ≠ [] ∧ !hasName "CHARSET".toList then
    upsertSessionEnvVar merged "CHARSET".toList charset else merged
  env.foldl (fun merged var =>
    let name := Text.trim var.name
    if name = [] then merged else upsertSessionEnvVar merged name var.value) merged

/-- The text of `session_env` for an environment. -/
def sessionEnvText (env : List SessionEnvVar) : Option Text :=
  if env = [] then none else some (json.envText env)

/-- `serialize_session_env`. -/
def serializeSessionEnv (env : List SessionEnvVar) : StoreM (Option Text) := do
  Effect.check (env ≠ [] ∧ f.serialize "serialize session_env")
    (.context "serialize session_env" (.serialize "session_env"))
  pure (sessionEnvText json env)

/-- `sessions_has_column`. -/
def sessionsHasColumn (name : Text) : StoreM Bool := do
  Effect.check (f.tableInfo name) (.tableInfo name)
  let s ← get
  pure (s.columns.contains name)

/-- `ensure_sessions_column`. -/
def ensureSessionsColumn (name : Text) : StoreM Unit := do
  if ← sessionsHasColumn f name then pure ()
  else
    Effect.check (f.addColumn name) (.addColumn name)
    Effect.change fun s => { s with columns := s.columns ++ [name] }

/-- The columns that `init_schema` adds to an older schema. -/
def addedColumns : List Text :=
  ["ssh_proxy_mode".toList, "ssh_proxy_command".toList, "ssh_proxy_workdir".toList,
    "ssh_proxy_env".toList, "ssh_proxy_jump".toList, "ssh_tcp_nodelay".toList,
    "ssh_tcp_keepalive".toList, "session_env".toList, "serial_port".toList, "serial_baud".toList,
    "serial_data_bits".toList, "serial_parity".toList, "serial_stop_bits".toList,
    "serial_flow_control".toList]

/-- The environment that the migration makes of a row. -/
def migratedEnv (row : Row) : List SessionEnvVar :=
  mergeTerminalFieldsIntoEnv row.term row.colorterm row.charset
    ((row.sessionEnv.bind json.readEnv).getD [])

/-- `SET session_env = ?2`. -/
def setEnv (mergedJson : Option Text) (row : Row) : Row := { row with sessionEnv := mergedJson }

/-- The loop of `migrate_legacy_session_terminal_fields` over the selected rows. -/
def migrateRows : List (Sigma fun _ : ℤ => Row) → StoreM Unit
  | [] => pure ()
  | ⟨id, row⟩ :: rows => do
    Effect.check (f.readLegacy id) .readLegacy
    let mergedJson ← serializeSessionEnv json f (migratedEnv json row)
    execute (f.migrate id) (.migrate id)
      (Table.modify id (setEnv mergedJson))
    migrateRows rows

/-- `migrate_legacy_session_terminal_fields`. -/
def migrateLegacySessionTerminalFields : StoreM Unit := do
  let hasTerm ← sessionsHasColumn f "term".toList
  let hasCharset ← sessionsHasColumn f "charset".toList
  let hasColorterm ← sessionsHasColumn f "colorterm".toList
  if !hasTerm || !hasCharset || !hasColorterm then pure ()
  else
    Effect.check f.selectLegacy .selectLegacy
    let s ← get
    migrateRows json f s.rows.entries

/-- The columns of `CREATE TABLE IF NOT EXISTS sessions`. -/
def schemaColumns : List Text :=
  ["id".toList, "protocol".toList, "group_path".toList, "label".toList, "backend".toList,
    "session_env".toList, "ssh_host".toList, "ssh_port".toList, "ssh_auth_type".toList,
    "ssh_user".toList, "ssh_credential_username".toList, "ssh_tcp_nodelay".toList,
    "ssh_tcp_keepalive".toList, "ssh_proxy_mode".toList, "ssh_proxy_command".toList,
    "ssh_proxy_workdir".toList, "ssh_proxy_env".toList, "ssh_proxy_jump".toList,
    "serial_port".toList, "serial_baud".toList, "serial_data_bits".toList, "serial_parity".toList,
    "serial_stop_bits".toList, "serial_flow_control".toList, "created_at".toList,
    "updated_at".toList]

/-- `init_schema`. A table that is not there has no columns. -/
def initSchema : StoreM Unit := do
  Effect.check f.createSchema .createSchema
  Effect.change fun s => if s.columns = [] then { s with columns := schemaColumns } else s
  forM addedColumns (ensureSessionsColumn f)
  migrateLegacySessionTerminalFields json f

/-- `open`; the connection is the store itself. -/
def openDb : StoreM Unit := do
  Effect.check f.createDir .createDir
  Effect.check f.openDb .openDb
  let s ← get
  if s.schemaReady then pure ()
  else
    initSchema json f
    Effect.change fun s => { s with schemaReady := true }
  Effect.check f.chmod .chmod

end Open

/-! ## Writing a row -/

/-- `SessionWrite`, as far as it is written to the row, and its password. -/
structure SessionWrite where
  protocol : SessionType
  groupPath : Text
  label : Text
  backend : TerminalBackend
  env : List SessionEnvVar
  sshHost : Option Text := none
  sshPort : Option ℕ := none
  sshAuthType : Option SshAuthType := none
  sshUser : Option Text := none
  sshTcpNodelay : Bool := false
  sshTcpKeepalive : Bool := false
  sshProxyMode : Option SshProxyMode := none
  sshProxyCommand : Option Text := none
  sshProxyWorkdir : Option Text := none
  sshProxyEnv : List SessionEnvVar := []
  sshProxyJump : List SshJumpHop := []
  serialPort : Option Text := none
  serialBaud : Option ℕ := none
  serialDataBits : Option ℕ := none
  serialParity : Option SerialParity := none
  serialStopBits : Option SerialStopBits := none
  serialFlowControl : Option SerialFlowControl := none
  sshPassword : Option Text := none

section Write

variable (json : SessionJson) (f : Faults)

/-- `serialize_ssh_proxy_env`. -/
def serializeSshProxyEnv (proxyEnv : List SessionEnvVar) : StoreM (Option Text) := do
  Effect.check (proxyEnv ≠ [] ∧ f.serialize "serialize ssh_proxy_env")
    (.context "serialize ssh_proxy_env" (.serialize "ssh_proxy_env"))
  pure (if proxyEnv = [] then none else some (json.envText proxyEnv))

/-- `serialize_ssh_proxy_jump`. -/
def serializeSshProxyJump (proxyMode : Option SshProxyMode) (proxyJump : List SshJumpHop) :
    StoreM (Option Text) := do
  if proxyMode ≠ some .jumpServer ∨ proxyJump = [] then pure none
  else
    Effect.check (f.serialize "serialize ssh_proxy_jump")
      (.context "serialize ssh_proxy_jump" (.serialize "ssh_proxy_jump"))
    pure (some (json.jumpText proxyJump))

/-- `update_session_row`, at the time `now`. -/
def updateSessionRow (now : ℤ) (id : ℤ) (session : SessionWrite) : StoreM Unit := do
  let proxyEnvJson ← serializeSshProxyEnv json f session.sshProxyEnv
  let proxyJumpJson ← serializeSshProxyJump json f session.sshProxyMode session.sshProxyJump
  let sessionEnvJson ← serializeSessionEnv json f session.env
  execute f.execute .sqlite (Table.modify id fun r => { r with
    protocol := protocolToStr session.protocol
    groupPath := session.groupPath
    label := session.label
    backend := backendToStr session.backend
    sessionEnv := sessionEnvJson
    sshHost := session.sshHost
    sshPort := session.sshPort.map fun value => (value : ℤ)
    sshAuthType := session.sshAuthType.map sshAuthToStr
    sshUser := session.sshUser
    sshCredentialUsername := none
    sshTcpNodelay := if session.sshTcpNodelay then 1 else 0
    sshTcpKeepalive := if session.sshTcpKeepalive then 1 else 0
    sshProxyMode := session.sshProxyMode.map sshProxyModeToStr
    sshProxyCommand := session.sshProxyCommand
    sshProxyWorkdir := session.sshProxyWorkdir
    sshProxyEnv := proxyEnvJson
    sshProxyJump := proxyJumpJson
    serialPort := session.serialPort
    serialBaud := session.serialBaud.map fun value => (value : ℤ)
    serialDataBits := session.serialDataBits.map fun value => (value : ℤ)
    serialParity := session.serialParity.map serialParityToStr
    serialStopBits := session.serialStopBits.map serialStopBitsToI64
    serialFlowControl := session.serialFlowControl.map serialFlowControlToStr
    updatedAt := now })

end Write

end Termua.Session
