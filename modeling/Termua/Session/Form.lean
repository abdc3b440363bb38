import Mathlib
import Termua.Session.Load

/-!
# The window of a session

The form of `termua/src/window/new_session/`: what its inputs and selectors hold, how a stored
session fills them, and how a confirmed edit reads them back. An input holds the text that it was set
to; a selector that is set to a value it does not offer has none.
-/

namespace Termua.Session

/-! ## The shell programs -/

/-- `ShellKind`. -/
inductive ShellKind
  | bash | zsh | fish | nu | pwsh | powerShell | cmd | other
  deriving DecidableEq

/-- `normalized_shell_program_name`. -/
def normalizedShellProgramName (program : Text) : Text :=
  let name := (((Text.trim program).splitOnP fun c => c = '/' ∨ c = '\\').getLast?).getD []
  let name := name.map Char.toLower
  if ".exe".toList <:+ name then name.rdrop 4 else name

/-- `shell_kind`. -/
def shellKind (program : Text) : ShellKind :=
  (([("bash".toList, .bash), ("zsh".toList, .zsh), ("fish".toList, .fish), ("nu".toList, .nu),
    ("pwsh".toList, .pwsh), ("powershell".toList, .powerShell), ("cmd".toList, .cmd)] :
      List (Text × ShellKind)).lookup (normalizedShellProgramName program)).getD .other

/-- `shell_display_name`, with `Path::file_name` as a parameter. -/
def shellDisplayName (fileName : Text → Option Text) (program : Text) : Text :=
  match shellKind program with
  | .bash => "bash".toList
  | .zsh => "zsh".toList
  | .fish => "fish".toList
  | .nu => "nushell".toList
  | .pwsh | .powerShell => "powershell".toList
  | .cmd => "cmd".toList
  | .other => (fileName (Text.trim program)).getD (Text.trim program)

/-- `TERMUA_SHELL_ENV_KEY`. -/
def termuaShell : Text := "TERMUA_SHELL".toList

/-! ## What the window holds -/

/-- `Protocol`. -/
inductive Protocol
  | shell | ssh | serial
  deriving DecidableEq

/-- `EnvRowState`, and `ProxyEnvRowState`, which has the same inputs. -/
structure EnvRowState where
  name : Text
  value : Text

/-- `ProxyJumpRowState`. -/
structure ProxyJumpRowState where
  host : Text
  user : Text
  port : Text

/-- `SessionCommonState`. -/
structure SessionCommonState where
  backend : TerminalBackend
  label : Text
  group : Text

/-- `ShellSessionState`. -/
structure ShellSessionState where
  program : Text
  programOptions : List Text
  envRows : List EnvRowState
  common : SessionCommonState

/-- `SshSessionState`. -/
structure SshSessionState where
  common : SessionCommonState
  envRows : List EnvRowState
  authType : SshAuthType
  user : Text
  host : Text
  port : Text
  password : Text
  tcpNodelay : Bool
  tcpKeepalive : Bool
  proxyMode : SshProxyMode
  proxyCommand : Text
  proxyWorkdir : Text
  proxyEnvRows : List EnvRowState
  proxyJumpRows : List ProxyJumpRowState

/-- `SerialSessionState`, with the values of its selectors. -/
structure SerialSessionState where
  common : SessionCommonState
  envRows : List EnvRowState
  ports : List Text
  port : Option Text
  baud : Text
  dataBits : Option ℕ
  parity : Option SerialParity
  stopBits : Option SerialStopBits
  flowControl : Option SerialFlowControl

/-- `NewSessionWindow`; the id is that of the session that is edited. -/
structure NewSessionWindow where
  sessionId : Option ℤ
  protocol : Protocol
  submitInFlight : Bool := false
  shell : ShellSessionState
  ssh : SshSessionState
  serial : SerialSessionState

/-- What the window finds outside: the default backend of the settings, and the shell programs, of
which there is always one, and the first one is not blank. -/
structure Surroundings where
  defaultBackend : TerminalBackend
  shell : Text
  otherShells : List Text
  fileName : Text → Option Text
  shell_nonblank : Text.trim shell ≠ []

/-! ## A new window -/

/-- `default_terminal_env_rows`. -/
def defaultTerminalEnvRows : List EnvRowState :=
  [⟨"TERM".toList, "xterm-256color".toList⟩, ⟨"CHARSET".toList, "UTF-8".toList⟩,
    ⟨"COLORTERM".toList, "truecolor".toList⟩]

/-- `ShellSessionState::new`. -/
def ShellSessionState.new (around : Surroundings) : ShellSessionState where
  program := around.shell
  programOptions := around.shell :: around.otherShells
  envRows := defaultTerminalEnvRows
  common := ⟨around.defaultBackend, shellDisplayName around.fileName around.shell, []⟩

/-- `SshSessionState::new`. -/
def SshSessionState.new (around : Surroundings) : SshSessionState where
  common := ⟨around.defaultBackend, [], []⟩
  envRows := defaultTerminalEnvRows
  authType := .password
  user := []
  host := []
  port := "22".toList
  password := []
  tcpNodelay := true
  tcpKeepalive := false
  proxyMode := .disabled
  proxyCommand := []
  proxyWorkdir := []
  proxyEnvRows := []
  proxyJumpRows := []

/-- `SerialSessionState::new`. -/
def SerialSessionState.new (around : Surroundings) : SerialSessionState where
  common := ⟨around.defaultBackend, [], []⟩
  envRows := defaultTerminalEnvRows
  ports := []
  port := none
  baud := "9600".toList
  dataBits := some 8
  parity := some .none
  stopBits := some .one
  flowControl := some .none

/-- `new_with_mode`. -/
def NewSessionWindow.newWithMode (around : Surroundings) (sessionId : Option ℤ)
    (protocol : Protocol) : NewSessionWindow where
  sessionId := sessionId
  protocol := protocol
  shell := .new around
  ssh := .new around
  serial := .new around

/-! ## Filling the window from a session -/

/-- The rows of an environment. -/
def envRowsOf (env : Option (List SessionEnvVar)) : List EnvRowState :=
  (env.getD []).map fun var => ⟨var.name, var.value⟩

/-- `ShellSessionState::set_program`. A label that names the old program follows the new one. -/
def ShellSessionState.setProgram (s : ShellSessionState) (fileName : Text → Option Text)
    (program : Text) : ShellSessionState :=
  let label := Text.trim s.common.label
  let programOptions :=
    if s.programOptions.contains program then s.programOptions else s.programOptions ++ [program]
  let updates : Bool :=
    label = [] ∨ label = shellDisplayName fileName s.program ∨ label = s.program
  { s with
    program
    programOptions
    common := if updates then { s.common with label := shellDisplayName fileName program }
      else s.common }

/-- `session_store_env_value`. -/
def sessionStoreEnvValue (env : List SessionEnvVar) (name : Text) : Option Text :=
  (env.find? (·.name = name)).map SessionEnvVar.value

/-- `set_proxy_mode`. -/
def SshSessionState.setProxyMode (s : SshSessionState) (mode : SshProxyMode) : SshSessionState :=
  { s with
    proxyMode := mode
    proxyJumpRows :=
      if mode = .jumpServer ∧ s.proxyJumpRows.isEmpty then [⟨[], [], []⟩] else s.proxyJumpRows }

/-- `SerialSessionState::set_port`. -/
def SerialSessionState.setPort (s : SerialSessionState) (port : Text) : SerialSessionState :=
  let port := Text.trim port
  if port = [] then s
  else
    { s with
      ports := if s.ports.contains port then s.ports else s.ports ++ [port]
      port := some port }

/-- `SerialSessionState::selected_port`. -/
def SerialSessionState.selectedPort (s : SerialSessionState) : Option Text :=
  s.port.filter (Text.trim · ≠ [])

/-- `SerialSessionState::apply_ports`: the ports that a scan found. The selected port stays, also when
it was not found; without one, the first port that was found is selected. -/
def SerialSessionState.applyPorts (s : SerialSessionState) (ports : List Text) : SerialSessionState :=
  let current := s.selectedPort
  let ports :=
    match current with
    | some current => if ports.contains current then ports else ports ++ [current]
    | none => ports
  { s with
    ports
    port := (current.bind fun current => ports.find? (· = current)).or ports.head? }

/-- The values that the selector of the data bits offers. -/
def dataBitsItems : List ℕ := [5, 6, 7, 8]

/-- `SerialSessionState::set_data_bits`. -/
def SerialSessionState.setDataBits (s : SerialSessionState) (bits : ℕ) : SerialSessionState :=
  { s with dataBits := if bits ∈ dataBitsItems then some bits else none }

namespace NewSessionWindow

variable (w : NewSessionWindow) (session : Session)

/-- `apply_common_fields_for_edit`. -/
def applyCommonFieldsForEdit : NewSessionWindow :=
  let common : SessionCommonState := ⟨session.backend, session.label, session.groupPath⟩
  { w with
    shell := { w.shell with common }
    ssh := { w.ssh with common }
    serial := { w.serial with common } }

/-- The shell program of a session, or the one of the window. -/
def shellProgramOf (env : Option (List SessionEnvVar)) (program : Text) : Text :=
  (((env.bind fun env =>
    (sessionStoreEnvValue env termuaShell).orElse fun _ =>
      sessionStoreEnvValue env "SHELL".toList).map Text.trim).filter (· ≠ [])).getD program

/-- `apply_local_session_for_edit`. The label that may follow the program is set again. -/
def applyLocalSessionForEdit (fileName : Text → Option Text) : NewSessionWindow :=
  let shell := w.shell.setProgram fileName (shellProgramOf session.env w.shell.program)
  { w with
    shell :=
      { shell with
        common := { shell.common with label := session.label, group := session.groupPath }
        envRows := (envRowsOf session.env).filter fun row =>
          !Text.eqIgnoreAsciiCase row.name termuaShell } }

/-- `apply_ssh_proxy_jump_rows_for_edit`. -/
def proxyJumpRowsOf (hops : Option (List SshJumpHop)) (proxyMode : SshProxyMode) :
    List ProxyJumpRowState :=
  let rows := (hops.getD []).map fun hop =>
    ⟨hop.host, hop.user.getD [], (hop.port.map (Nat.toDigits 10)).getD []⟩
  if proxyMode = .jumpServer ∧ rows.isEmpty then [⟨[], [], []⟩] else rows

/-- `apply_ssh_session_for_edit`. -/
def applySshSessionForEdit : NewSessionWindow :=
  let proxyMode := session.sshProxyMode.getD .disabled
  let authType : SshAuthType := match session.sshAuthType with
    | some .password => .password
    | some .config | none => .config
  let ssh :=
    { w.ssh with
      authType
      host := session.sshHost.getD w.ssh.host
      port := (session.sshPort.map (Nat.toDigits 10)).getD w.ssh.port
      user := session.sshUser.getD w.ssh.user
      password := session.sshPassword.getD w.ssh.password
      envRows := envRowsOf session.env
      tcpNodelay := session.sshTcpNodelay
      tcpKeepalive := session.sshTcpKeepalive }
  let ssh := ssh.setProxyMode proxyMode
  { w with
    ssh :=
      { ssh with
        proxyCommand := session.sshProxyCommand.getD ssh.proxyCommand
        proxyWorkdir := session.sshProxyWorkdir.getD ssh.proxyWorkdir
        proxyEnvRows := envRowsOf session.sshProxyEnv
        proxyJumpRows := proxyJumpRowsOf session.sshProxyJump proxyMode } }

/-- `apply_serial_session_for_edit`. -/
def applySerialSessionForEdit : NewSessionWindow :=
  let serial := { w.serial with envRows := envRowsOf session.env }
  let serial := (session.serialPort.map serial.setPort).getD serial
  let serial :=
    { serial with baud := (session.serialBaud.map (Nat.toDigits 10)).getD serial.baud }
  let serial := (session.serialDataBits.map serial.setDataBits).getD serial
  { w with
    serial :=
      { serial with
        parity := session.serialParity.or serial.parity
        stopBits := session.serialStopBits.or serial.stopBits
        flowControl := session.serialFlowControl.or serial.flowControl } }

/-- `apply_session_for_edit`. -/
def applySessionForEdit (fileName : Text → Option Text) : NewSessionWindow :=
  let w := w.applyCommonFieldsForEdit session
  match session.protocol with
  | .local => w.applyLocalSessionForEdit session fileName
  | .ssh => w.applySshSessionForEdit session
  | .serial => w.applySerialSessionForEdit session

/-- `new_for_edit`. -/
def newForEdit (around : Surroundings) (session : Session) : NewSessionWindow :=
  let protocol := match session.protocol with
    | .local => .shell
    | .ssh => .ssh
    | .serial => .serial
  (newWithMode around (some session.id) protocol).applySessionForEdit session around.fileName

/-- `render` takes over the ports of the scans that ended since, in their order: the one that starts
when the window of a serial session is first rendered, and those of the refresh button. -/
def scanned (scans : List (List Text)) : NewSessionWindow :=
  { w with serial := scans.foldl SerialSessionState.applyPorts w.serial }

end NewSessionWindow

/-! ## Reading the window -/

/-- `trimmed_or_value`, and the same steps where the source writes them out. -/
def trimmedOrValue (raw default : Text) : Text :=
  if Text.trim raw = [] then default else Text.trim raw

/-- `session_env_rows_for_store`, and the same loop over the rows of a proxy. -/
def sessionEnvRowsForStore (rows : List EnvRowState) : List SessionEnvVar :=
  rows.filterMap fun row =>
    let name := Text.trim row.name
    if name = [] then none else some ⟨name, row.value⟩

/-- A trimmed text, or nothing for a blank one. -/
def trimmedOrNone (raw : Text) : Option Text :=
  let text := Text.trim raw
  if text = [] then none else some text

/-- The loop over the rows of a jump server. -/
def jumpHopsForStore (rows : List ProxyJumpRowState) : List SshJumpHop :=
  rows.filterMap fun row =>
    let host := Text.trim row.host
    if host = [] then none
    else
      let port := Text.trim row.port
      some ⟨host, trimmedOrNone row.user,
        if port = [] then none else Text.parseUnsigned 16 port⟩

/-- `proxy_settings_for_store`. -/
def SshSessionState.proxySettingsForStore (s : SshSessionState) :
    SshProxyMode × Option Text × Option Text × List SessionEnvVar × List SshJumpHop :=
  let mode := s.proxyMode
  if mode ≠ .command ∧ mode ≠ .jumpServer then (mode, none, none, [], [])
  else
    let cmd := if mode = .command then trimmedOrNone s.proxyCommand else none
    let dir := trimmedOrNone s.proxyWorkdir
    let env := sessionEnvRowsForStore s.proxyEnvRows
    let hops := if mode = .jumpServer then jumpHopsForStore s.proxyJumpRows else []
    (mode, cmd, dir, env, hops)

/-- `ssh_user_and_host_from_password_inputs`. -/
def sshUserAndHostFromPasswordInputs (user host : Text) : Except String (Text × Text) :=
  if Text.trim host = [] then .error "host is required"
  else .ok (trimmedOrValue user "root".toList, Text.trim host)

/-- `ssh_password_auth_from_inputs`: the host, the user and the password. -/
def sshPasswordAuthFromInputs (user host password : Text) : Except String (Text × Text × Text) :=
  if password = [] then .error "password is required"
  else (sshUserAndHostFromPasswordInputs user host).map fun (user, host) => (host, user, password)

/-- `ssh_host_is_valid_for_config_auth`. -/
def sshHostIsValidForConfigAuth (input : Text) : Except String Unit :=
  let trimmed := Text.trim input
  if trimmed = [] then .error "host is required"
  else if '@' ∈ trimmed then .error "host must not include user@"
  else .ok ()

/-- `ssh_port_is_valid`. -/
def sshPortIsValid (port : Text) : Bool :=
  let trimmed := Text.trim port
  if trimmed = [] then false
  else
    match Text.parseUnsigned 16 trimmed with
    | none => false
    | some n => 1 ≤ n

/-- `connect_enabled`. -/
def connectEnabled (protocol : Protocol) (sshHost sshPort : Text) : Bool :=
  match protocol with
  | .ssh => Text.trim sshHost ≠ [] && sshPortIsValid sshPort
  | .shell => true
  | .serial => true

/-- `ssh_connect_enabled_for_values`. -/
def sshConnectEnabledForValues (authType : SshAuthType) (sshHost sshPort sshPassword : Text) : Bool :=
  if !connectEnabled .ssh sshHost sshPort then false
  else
    match authType with
    | .password => sshPassword ≠ []
    | .config => (sshHostIsValidForConfigAuth sshHost).isOk

namespace NewSessionWindow

variable (w : NewSessionWindow)

/-- `connect_enabled` in `render`: the button that confirms can be pressed. -/
def confirmEnabled : Bool :=
  match w.protocol with
  | .ssh => sshConnectEnabledForValues w.ssh.authType w.ssh.host w.ssh.port w.ssh.password
  | .shell => true
  | .serial =>
    w.serial.port.any (Text.trim · ≠ []) &&
      (Text.parseUnsigned 32 (Text.trim w.serial.baud)).isSome

/-- `shell_session_env_for_store`. -/
def shellSessionEnvForStore : List SessionEnvVar :=
  let env := (sessionEnvRowsForStore w.shell.envRows).filter fun var =>
    !Text.eqIgnoreAsciiCase var.name termuaShell
  env ++ [⟨termuaShell, w.shell.program⟩]

/-- `save_shell_edit_session`. -/
def saveShellEditSession : Except String SessionSpec :=
  let group := trimmedOrValue w.shell.common.group "local".toList
  let label := trimmedOrValue w.shell.common.label w.shell.program
  .ok (.local group label w.shell.common.backend w.shellSessionEnvForStore)

/-- `save_ssh_edit_session`. -/
def saveSshEditSession : Except String SessionSpec :=
  let group := trimmedOrValue w.ssh.common.group "ssh".toList
  let host := Text.trim w.ssh.host
  if host = [] then .error "Host is required."
  else
    match Text.parseUnsigned 16 (Text.trim w.ssh.port) with
    | none => .error "Invalid port."
    | some port =>
      let name := trimmedOrValue w.ssh.common.label host
      let (proxyMode, proxyCommand, proxyWorkdir, proxyEnv, proxyJump) :=
        w.ssh.proxySettingsForStore
      let options : SshOptions :=
        { sshTcpNodelay := w.ssh.tcpNodelay, sshTcpKeepalive := w.ssh.tcpKeepalive
          proxyMode, proxyCommand, proxyWorkdir, proxyEnv, proxyJump }
      let env := sessionEnvRowsForStore w.ssh.envRows
      match w.ssh.authType with
      | .password =>
        match sshPasswordAuthFromInputs w.ssh.user host w.ssh.password with
        | .error _ => .error "Invalid SSH password credentials."
        | .ok _ =>
          if w.ssh.password = [] then .error "Password is required."
          else
            .ok (.sshPassword group name w.ssh.common.backend host port
              (trimmedOrValue w.ssh.user "root".toList) w.ssh.password options env)
      | .config =>
        match sshHostIsValidForConfigAuth host with
        | .error _ => .error "Host must not include user@ in SSH Config mode."
        | .ok _ => .ok (.sshConfig group name w.ssh.common.backend host port options env)

/-- `save_serial_edit_session`. -/
def saveSerialEditSession : Except String SessionSpec :=
  let port := w.serial.selectedPort.getD []
  if Text.trim port = [] then .error "Port is required."
  else
    match Text.parseUnsigned 32 (Text.trim w.serial.baud) with
    | none => .error "Invalid baud rate."
    | some baud =>
      let group := trimmedOrValue w.serial.common.group "serial".toList
      let label := trimmedOrValue w.serial.common.label port
      .ok (.serial group label w.serial.common.backend (Text.trim port) baud
        (w.serial.dataBits.getD 8) (w.serial.parity.getD .none) (w.serial.stopBits.getD .one)
        (w.serial.flowControl.getD .none) (sessionEnvRowsForStore w.serial.envRows))

/-- `save_edit_session` up to the store: the session to update and what with, or nothing where no
session is edited or the last save is on its way. -/
def saveEditSession : Except String (Option (ℤ × SessionSpec)) :=
  match w.sessionId with
  | none => .ok none
  | some sessionId =>
    if w.submitInFlight then .ok none
    else
      let op := match w.protocol with
        | .shell => w.saveShellEditSession
        | .ssh => w.saveSshEditSession
        | .serial => w.saveSerialEditSession
      op.map fun spec => some (sessionId, spec)

/-- The button that saves an edited session, which calls `save_edit_session` when it can be pressed,
with the store. What cannot be saved leaves the store alone. -/
def confirm (json : StoreJson) (f : Faults) (now : ℤ) : StoreM Unit :=
  if !w.confirmEnabled || w.submitInFlight then pure ()
  else
    match w.saveEditSession with
    | .ok (some (sessionId, spec)) => spec.update json f now sessionId
    | .ok none | .error _ => pure ()

end NewSessionWindow

end Termua.Session
