import Mathlib
import Termua.Session.Form

/-!
# Editing a session without a change

A stored session fills the window, and a confirmation writes what the window then holds. The texts
are trimmed on the way, what is blank is left out or replaced by a default, the shell program becomes
the last variable of the environment, and a serial session without a port gets the first one that a
scan finds. So the session stays as it is exactly when the window does not let it be saved
(`Refused`) or it is `Normal`, that is as the window writes sessions (`edit_unchanged_iff`).
-/

namespace Termua.Session

/-! ## Texts and lists that are read back unchanged -/

section Reading

variable {α : Type} {raw default : Text} {env : Option (List SessionEnvVar)}

theorem trim_trimmedOrValue (h : Text.trim default ≠ []) :
    Text.trim (trimmedOrValue raw default) ≠ [] := by
  unfold trimmedOrValue
  split
  · exact h
  · next hraw =>
    rw [Text.trim_trim]
    exact hraw

theorem trimmedOrValue_eq_iff (h : Text.trim default ≠ []) :
    trimmedOrValue raw default = raw ↔ Text.Trimmed raw := by
  have hnonblank : Text.trim (trimmedOrValue raw default) ≠ [] := trim_trimmedOrValue h
  constructor
  · intro heq
    rw [heq] at hnonblank
    unfold trimmedOrValue at heq
    rw [if_neg hnonblank] at heq
    refine ⟨heq, ?_⟩
    rintro rfl
    exact hnonblank heq
  · rintro ⟨htrim, hne⟩
    unfold trimmedOrValue
    rw [htrim, if_neg hne]

theorem trimmedOrNone_getD_iff {text : Option Text} :
    trimmedOrNone (text.getD []) = text ↔ ∀ t ∈ text, Text.Trimmed t := by
  rcases text with _ | t
  · exact ⟨fun _ => nofun, fun _ => rfl⟩
  · unfold trimmedOrNone
    simp only [Option.getD_some, Option.mem_some_iff, forall_eq']
    split
    · next hblank => exact ⟨nofun, fun h => absurd (h.1.symm.trans hblank) h.2⟩
    · next hne =>
      rw [Option.some.injEq]
      exact ⟨fun h => ⟨h, h ▸ hne⟩, fun h => h.1⟩

theorem filterMap_eq_self_iff {l : List α} {f : α → Option α} :
    l.filterMap f = l ↔ ∀ x ∈ l, f x = some x := by
  constructor
  · intro h
    induction l with
    | nil => exact nofun
    | cons x l ih =>
      rcases hx : f x with _ | y
      · -- an item that is dropped leaves too few
        rw [List.filterMap_cons_none hx] at h
        have hlength := List.length_filterMap_le f l
        rw [h, List.length_cons] at hlength
        omega
      · rw [List.filterMap_cons_some hx] at h
        obtain ⟨rfl, hl⟩ := List.cons.inj h
        exact List.forall_mem_cons.mpr ⟨hx, ih hl⟩
  · intro h
    rw [List.filterMap_congr h, List.filterMap_some]

theorem absentIfEmpty_eq_some_iff {l l' : List α} :
    absentIfEmpty l = some l' ↔ l = l' ∧ l' ≠ [] := by
  unfold absentIfEmpty
  rcases l with _ | ⟨x, l⟩
  · exact ⟨nofun, fun h => absurd h.1.symm h.2⟩
  · rw [if_neg (by simp), Option.some.injEq]
    exact ⟨fun h => ⟨h, h ▸ List.cons_ne_nil _ _⟩, fun h => h.1⟩

/-- A list is stored as it was when every item is read back as it was, and an empty list is not
stored. -/
theorem absentIfEmpty_filterMap_iff {l : Option (List α)} {f : α → Option α} :
    absentIfEmpty ((l.getD []).filterMap f) = l ↔
      l ≠ some [] ∧ ∀ items ∈ l, ∀ x ∈ items, f x = some x := by
  rcases l with _ | items
  · exact ⟨fun _ => ⟨nofun, nofun⟩, fun _ => rfl⟩
  · simp only [Option.getD_some, Option.mem_some_iff, forall_eq', ne_eq, Option.some.injEq]
    rw [absentIfEmpty_eq_some_iff, filterMap_eq_self_iff, and_comm]

/-! ## Environments -/

/-- A variable as it is stored, or nothing for one without a name. -/
def storedVar (var : SessionEnvVar) : Option SessionEnvVar :=
  if Text.trim var.name = [] then none else some ⟨Text.trim var.name, var.value⟩

theorem storedVar_eq_some_iff {var : SessionEnvVar} :
    storedVar var = some var ↔ Text.Trimmed var.name := by
  unfold storedVar
  split
  · next hblank => exact ⟨nofun, fun h => absurd (h.1.symm.trans hblank) h.2⟩
  · next hne =>
    rw [Option.some.injEq]
    constructor
    · intro h
      have hname := congrArg SessionEnvVar.name h
      exact ⟨hname, hname ▸ hne⟩
    · rintro ⟨htrim, -⟩
      rw [htrim]

theorem trimmed_of_storedVar {var var' : SessionEnvVar} (h : storedVar var = some var') :
    Text.Trimmed var'.name := by
  unfold storedVar at h
  split at h
  · cases h
  · next hne =>
    rw [← Option.some.inj h]
    exact Text.trimmed_trim hne

theorem sessionEnvRowsForStore_map (vars : List SessionEnvVar) :
    sessionEnvRowsForStore (vars.map fun var => ⟨var.name, var.value⟩) = vars.filterMap storedVar := by
  unfold sessionEnvRowsForStore
  rw [List.filterMap_map]
  rfl

/-- An environment as the window writes it. -/
def NormalEnv (env : Option (List SessionEnvVar)) : Prop :=
  env ≠ some [] ∧ ∀ vars ∈ env, ∀ var ∈ vars, Text.Trimmed var.name

theorem env_eq_iff :
    absentIfEmpty (sessionEnvRowsForStore (envRowsOf env)) = env ↔ NormalEnv env := by
  unfold envRowsOf NormalEnv
  rw [sessionEnvRowsForStore_map, absentIfEmpty_filterMap_iff]
  simp only [storedVar_eq_some_iff]

/-- The environment of a local session as the window writes it: the shell program comes last. -/
def NormalShellEnv (env : Option (List SessionEnvVar)) : Prop :=
  ∃ vars value, env = some (vars ++ [⟨termuaShell, value⟩]) ∧
    (∀ var ∈ vars, Text.Trimmed var.name ∧ Text.eqIgnoreAsciiCase var.name termuaShell = false) ∧
    Text.Trimmed value

/-- The variables of a local session but the shell program, after a confirmation. -/
def confirmedVars (env : Option (List SessionEnvVar)) : List SessionEnvVar :=
  (((env.getD []).filter fun var => !Text.eqIgnoreAsciiCase var.name termuaShell).filterMap
    storedVar).filter fun var => !Text.eqIgnoreAsciiCase var.name termuaShell

/-- The environment of a local session after a confirmation. -/
def confirmedShellEnv (shell : Text) (env : Option (List SessionEnvVar)) : List SessionEnvVar :=
  confirmedVars env ++ [⟨termuaShell, NewSessionWindow.shellProgramOf env shell⟩]

theorem mem_confirmedVars {var : SessionEnvVar} (h : var ∈ confirmedVars env) :
    Text.Trimmed var.name ∧ Text.eqIgnoreAsciiCase var.name termuaShell = false := by
  obtain ⟨hmem, hcase⟩ := List.mem_filter.mp h
  obtain ⟨var', -, hstored⟩ := List.mem_filterMap.mp hmem
  exact ⟨trimmed_of_storedVar hstored, by simpa using hcase⟩

/-- The shell program of an environment that names it last. -/
theorem shellProgramOf_concat {vars : List SessionEnvVar} (value shell : Text)
    (h : ∀ var ∈ vars, Text.eqIgnoreAsciiCase var.name termuaShell = false) :
    NewSessionWindow.shellProgramOf (some (vars ++ [⟨termuaShell, value⟩])) shell =
      if Text.trim value = [] then shell else Text.trim value := by
  have hfind : sessionStoreEnvValue (vars ++ [⟨termuaShell, value⟩]) termuaShell = some value := by
    unfold sessionStoreEnvValue
    rw [List.find?_append, List.find?_eq_none.mpr]
    · simp
    · intro var hvar
      have hne : var.name ≠ termuaShell := by
        rintro hname
        have hfalse := h var hvar
        rw [hname] at hfalse
        exact absurd hfalse (by decide)
      simpa using hne
  unfold NewSessionWindow.shellProgramOf
  rw [Option.bind_some, hfind]
  show ((some (Text.trim value)).filter _).getD shell = _
  rw [Option.filter_some]
  by_cases hvalue : Text.trim value = []
  · rw [if_pos hvalue, if_neg (by simpa using hvalue)]
    rfl
  · rw [if_neg hvalue, if_pos (by simpa using hvalue)]
    rfl

theorem shellProgramOf_nonblank (env : Option (List SessionEnvVar)) {shell : Text}
    (h : Text.trim shell ≠ []) :
    Text.trim (NewSessionWindow.shellProgramOf env shell) ≠ [] := by
  unfold NewSessionWindow.shellProgramOf
  rcases hprogram : ((env.bind _).map Text.trim).filter _ with _ | program
  · exact h
  · obtain ⟨hsome, hne⟩ := Option.filter_eq_some_iff.mp hprogram
    obtain ⟨value, -, rfl⟩ := Option.map_eq_some_iff.mp hsome
    show Text.trim (Text.trim value) ≠ []
    rw [Text.trim_trim]
    simpa using hne

theorem shellEnv_eq_iff {shell : Text} (hshell : Text.trim shell ≠ []) :
    absentIfEmpty (confirmedShellEnv shell env) = env ↔ NormalShellEnv env := by
  constructor
  · intro h
    rcases env with _ | vars
    · unfold confirmedShellEnv absentIfEmpty at h
      rw [if_neg (by simp)] at h
      cases h
    · have hvars : confirmedVars (some vars) ++ [⟨termuaShell, _⟩] = vars :=
        (absentIfEmpty_eq_some_iff.mp h).1
      refine ⟨_, _, congrArg some hvars.symm, fun var hvar => mem_confirmedVars hvar, ?_⟩
      -- the shell program is read from the variable that is stored last
      have hcase : ∀ var ∈ confirmedVars (some vars),
          Text.eqIgnoreAsciiCase var.name termuaShell = false := fun _ hvar =>
        (mem_confirmedVars hvar).2
      have hprogram :=
        shellProgramOf_concat (NewSessionWindow.shellProgramOf (some vars) shell) shell hcase
      have hnonblank := shellProgramOf_nonblank (some vars) hshell
      rw [hvars, if_neg hnonblank] at hprogram
      refine ⟨hprogram.symm, ?_⟩
      intro hnil
      rw [hnil] at hnonblank
      exact hnonblank rfl
  · rintro ⟨vars, value, rfl, hvars, hvalue⟩
    have hfilter : (vars.filter fun var => !Text.eqIgnoreAsciiCase var.name termuaShell) = vars :=
      List.filter_eq_self.mpr fun var hvar => by simp [(hvars var hvar).2]
    have hstored : vars.filterMap storedVar = vars :=
      filterMap_eq_self_iff.mpr fun var hvar => storedVar_eq_some_iff.mpr (hvars var hvar).1
    have hlast : (([⟨termuaShell, value⟩] : List SessionEnvVar).filter fun var =>
        !Text.eqIgnoreAsciiCase var.name termuaShell) = [] := by
      simp [Text.eqIgnoreAsciiCase]
    unfold confirmedShellEnv confirmedVars
    rw [shellProgramOf_concat _ _ fun var hvar => (hvars var hvar).2, hvalue.1, if_neg hvalue.2,
      Option.getD_some, List.filter_append, hfilter, hlast, List.append_nil, hstored, hfilter]
    exact absentIfEmpty_eq_some_iff.mpr ⟨rfl, by simp⟩

theorem sessionEnvRowsForStore_filter (env : Option (List SessionEnvVar)) :
    ((sessionEnvRowsForStore ((envRowsOf env).filter fun row =>
      !Text.eqIgnoreAsciiCase row.name termuaShell)).filter fun var =>
        !Text.eqIgnoreAsciiCase var.name termuaShell) = confirmedVars env := by
  unfold envRowsOf confirmedVars
  rw [List.filter_map, sessionEnvRowsForStore_map]
  rfl

/-! ## Hops -/

/-- A hop as it is stored, or nothing for one without a host. -/
def storedHop (hop : SshJumpHop) : Option SshJumpHop :=
  if Text.trim hop.host = [] then none
  else some ⟨Text.trim hop.host, trimmedOrNone (hop.user.getD []), hop.port⟩

theorem storedHop_eq_some_iff {hop : SshJumpHop} :
    storedHop hop = some hop ↔ Text.Trimmed hop.host ∧ ∀ user ∈ hop.user, Text.Trimmed user := by
  unfold storedHop
  split
  · next hblank => exact ⟨nofun, fun h => absurd (h.1.1.symm.trans hblank) h.1.2⟩
  · next hne =>
    rw [Option.some.injEq, ← trimmedOrNone_getD_iff]
    constructor
    · intro h
      have hhost := congrArg SshJumpHop.host h
      exact ⟨⟨hhost, hhost ▸ hne⟩, congrArg SshJumpHop.user h⟩
    · rintro ⟨⟨htrim, -⟩, huser⟩
      rw [htrim, huser]

/-- The port of a hop is read back. -/
theorem parse_port {port : Option ℕ} (h : ∀ p ∈ port, p < 2 ^ 16) :
    (if Text.trim ((port.map (Nat.toDigits 10)).getD []) = [] then none
      else Text.parseUnsigned 16 (Text.trim ((port.map (Nat.toDigits 10)).getD []))) = port := by
  rcases port with _ | p
  · rfl
  · have hparse := Text.parseUnsigned_toDigits (h p rfl)
    show (if Text.trim (Nat.toDigits 10 p) = [] then none else _) = some p
    rw [if_neg]
    · exact hparse
    · intro hnil
      rw [hnil] at hparse
      cases hparse

theorem jumpHopsForStore_rows {hops : Option (List SshJumpHop)} {mode : SshProxyMode}
    (h : ∀ l ∈ hops, ∀ hop ∈ l, hop.Typed) :
    jumpHopsForStore (NewSessionWindow.proxyJumpRowsOf hops mode) =
      (hops.getD []).filterMap storedHop := by
  have hrows : jumpHopsForStore ((hops.getD []).map fun hop =>
      ⟨hop.host, hop.user.getD [], (hop.port.map (Nat.toDigits 10)).getD []⟩) =
        (hops.getD []).filterMap storedHop := by
    unfold jumpHopsForStore
    rw [List.filterMap_map]
    refine List.filterMap_congr fun hop hhop => ?_
    have htyped : hop.Typed := by
      rcases hops with _ | l
      · cases hhop
      · exact h l rfl hop hhop
    simp only [Function.comp_apply, parse_port htyped]
    rfl
  unfold NewSessionWindow.proxyJumpRowsOf
  simp only
  split
  · next hempty =>
    -- the row that is added for an empty list has no host
    have hnil : hops.getD [] = [] := by simpa using hempty.2
    rw [hnil]
    rfl
  · exact hrows

/-! ## Proxies -/

/-- A text that may be absent as the window writes it. -/
def NormalText (text : Option Text) : Prop := ∀ t ∈ text, Text.Trimmed t

/-- The hops of a proxy as the window writes them. -/
def NormalJump (hops : Option (List SshJumpHop)) : Prop :=
  hops ≠ some [] ∧ ∀ l ∈ hops, ∀ hop ∈ l, Text.Trimmed hop.host ∧ NormalText hop.user

/-- The proxy of a session as the window writes it. -/
def NormalProxy (session : Session) : Prop :=
  match session.sshProxyMode with
  | none => False
  | some .inherit | some .disabled =>
    session.sshProxyCommand = none ∧ session.sshProxyWorkdir = none ∧ session.sshProxyEnv = none ∧
      session.sshProxyJump = none
  | some .command =>
    NormalText session.sshProxyCommand ∧ NormalText session.sshProxyWorkdir ∧
      NormalEnv session.sshProxyEnv ∧ session.sshProxyJump = none
  | some .jumpServer =>
    session.sshProxyCommand = none ∧ NormalText session.sshProxyWorkdir ∧
      NormalEnv session.sshProxyEnv ∧ NormalJump session.sshProxyJump

end Reading

/-! ## The window that was filled -/

section Window

variable {around : Surroundings} {session : Session} {scans : List (List Text)}

set_option linter.dupNamespace false in
/-- The integers of a session have the widths of their types. -/
structure Session.Typed (session : Session) : Prop where
  port : ∀ port ∈ session.sshPort, port < 2 ^ 16
  jump : ∀ hops ∈ session.sshProxyJump, ∀ hop ∈ hops, hop.Typed
  baud : ∀ baud ∈ session.serialBaud, baud < 2 ^ 32
  dataBits : ∀ dataBits ∈ session.serialDataBits, dataBits < 2 ^ 8

/-- What the window holds of an SSH session. -/
def SshSessionState.ofSession (session : Session) : SshSessionState where
  common := ⟨session.backend, session.label, session.groupPath⟩
  envRows := envRowsOf session.env
  authType := match session.sshAuthType with
    | some .password => .password
    | some .config | none => .config
  user := session.sshUser.getD []
  host := session.sshHost.getD []
  port := (session.sshPort.map (Nat.toDigits 10)).getD "22".toList
  password := session.sshPassword.getD []
  tcpNodelay := session.sshTcpNodelay
  tcpKeepalive := session.sshTcpKeepalive
  proxyMode := session.sshProxyMode.getD .disabled
  proxyCommand := session.sshProxyCommand.getD []
  proxyWorkdir := session.sshProxyWorkdir.getD []
  proxyEnvRows := envRowsOf session.sshProxyEnv
  proxyJumpRows :=
    NewSessionWindow.proxyJumpRowsOf session.sshProxyJump (session.sshProxyMode.getD .disabled)

theorem newForEdit_ssh (around : Surroundings) (h : session.protocol = .ssh) :
    (NewSessionWindow.newForEdit around session).ssh = .ofSession session := by
  unfold NewSessionWindow.newForEdit NewSessionWindow.applySessionForEdit
  rw [h]
  rfl

theorem authType_ofSession (session : Session) :
    (SshSessionState.ofSession session).authType =
      if session.sshAuthType = some .password then .password else .config := by
  unfold SshSessionState.ofSession
  rcases session.sshAuthType with _ | _ | _ <;> rfl

/-- The options that are stored for an SSH session. -/
def SshSessionState.options (s : SshSessionState) : SshOptions where
  sshTcpNodelay := s.tcpNodelay
  sshTcpKeepalive := s.tcpKeepalive
  proxyMode := s.proxySettingsForStore.1
  proxyCommand := s.proxySettingsForStore.2.1
  proxyWorkdir := s.proxySettingsForStore.2.2.1
  proxyEnv := s.proxySettingsForStore.2.2.2.1
  proxyJump := s.proxySettingsForStore.2.2.2.2

/-- The stored proxy is the one of the session. -/
def SameProxy (session : Session) (options : SshOptions) : Prop :=
  some options.proxyMode = session.sshProxyMode ∧
    options.proxyCommand = session.sshProxyCommand ∧
    options.proxyWorkdir = session.sshProxyWorkdir ∧
    absentIfEmpty options.proxyEnv = session.sshProxyEnv ∧
    SessionSpec.jumpOf options = session.sshProxyJump

theorem proxySettings_off {mode : SshProxyMode} (hmode : session.sshProxyMode = some mode)
    (hcommand : mode ≠ .command) (hjump : mode ≠ .jumpServer) :
    (SshSessionState.ofSession session).proxySettingsForStore = (mode, none, none, [], []) := by
  unfold SshSessionState.proxySettingsForStore SshSessionState.ofSession
  simp only [hmode, Option.getD_some]
  rw [if_pos ⟨hcommand, hjump⟩]

theorem sameProxy_off_iff {mode : SshProxyMode} (hmode : session.sshProxyMode = some mode)
    (hcommand : mode ≠ .command) (hjump : mode ≠ .jumpServer) :
    SameProxy session (SshSessionState.ofSession session).options ↔
      session.sshProxyCommand = none ∧ session.sshProxyWorkdir = none ∧
        session.sshProxyEnv = none ∧ session.sshProxyJump = none := by
  unfold SameProxy SessionSpec.jumpOf SshSessionState.options
  rw [proxySettings_off hmode hcommand hjump, hmode]
  simp only [if_neg hjump, true_and]
  constructor
  · rintro ⟨h₁, h₂, h₃, h₄⟩
    exact ⟨h₁.symm, h₂.symm, h₃.symm, h₄.symm⟩
  · rintro ⟨h₁, h₂, h₃, h₄⟩
    exact ⟨h₁.symm, h₂.symm, h₃.symm, h₄.symm⟩

theorem sameProxy_command_iff (hmode : session.sshProxyMode = some .command) :
    SameProxy session (SshSessionState.ofSession session).options ↔
      NormalText session.sshProxyCommand ∧ NormalText session.sshProxyWorkdir ∧
        NormalEnv session.sshProxyEnv ∧ session.sshProxyJump = none := by
  have hproxy : (SshSessionState.ofSession session).proxySettingsForStore =
      (.command, trimmedOrNone (session.sshProxyCommand.getD []),
        trimmedOrNone (session.sshProxyWorkdir.getD []),
        sessionEnvRowsForStore (envRowsOf session.sshProxyEnv), []) := by
    unfold SshSessionState.proxySettingsForStore SshSessionState.ofSession
    simp only [hmode, Option.getD_some]
    rfl
  unfold SameProxy SessionSpec.jumpOf SshSessionState.options NormalText
  rw [hproxy, hmode, ← env_eq_iff, ← trimmedOrNone_getD_iff, ← trimmedOrNone_getD_iff]
  have hnone : none = session.sshProxyJump ↔ session.sshProxyJump = none := eq_comm
  rw [if_neg SshProxyMode.noConfusion, hnone]
  exact and_iff_right rfl

theorem sameProxy_jumpServer_iff (h : session.Typed)
    (hmode : session.sshProxyMode = some .jumpServer) :
    SameProxy session (SshSessionState.ofSession session).options ↔
      session.sshProxyCommand = none ∧ NormalText session.sshProxyWorkdir ∧
        NormalEnv session.sshProxyEnv ∧ NormalJump session.sshProxyJump := by
  have hproxy : (SshSessionState.ofSession session).proxySettingsForStore =
      (.jumpServer, none, trimmedOrNone (session.sshProxyWorkdir.getD []),
        sessionEnvRowsForStore (envRowsOf session.sshProxyEnv),
        jumpHopsForStore (NewSessionWindow.proxyJumpRowsOf session.sshProxyJump .jumpServer)) := by
    unfold SshSessionState.proxySettingsForStore SshSessionState.ofSession
    simp only [hmode, Option.getD_some]
    rfl
  have hjump : absentIfEmpty (jumpHopsForStore (NewSessionWindow.proxyJumpRowsOf
      session.sshProxyJump .jumpServer)) = session.sshProxyJump ↔ NormalJump session.sshProxyJump := by
    unfold NormalJump
    rw [jumpHopsForStore_rows h.jump, absentIfEmpty_filterMap_iff]
    simp only [storedHop_eq_some_iff]
    rfl
  unfold SameProxy SessionSpec.jumpOf SshSessionState.options NormalText
  rw [hproxy, hmode, ← env_eq_iff, ← trimmedOrNone_getD_iff]
  have hnone : none = session.sshProxyCommand ↔ session.sshProxyCommand = none := eq_comm
  rw [if_pos rfl, hnone, hjump]
  exact and_iff_right rfl

/-- The stored proxy is the one of the session exactly when it is as the window writes it. -/
theorem sameProxy_iff (h : session.Typed) :
    SameProxy session (SshSessionState.ofSession session).options ↔ NormalProxy session := by
  unfold NormalProxy
  split
  · next hmode =>
    refine ⟨fun heq => ?_, False.elim⟩
    have hsome := heq.1
    rw [hmode] at hsome
    cases hsome
  · next hmode => exact sameProxy_off_iff hmode (by decide) (by decide)
  · next hmode => exact sameProxy_off_iff hmode (by decide) (by decide)
  · next hmode => exact sameProxy_command_iff hmode
  · next hmode => exact sameProxy_jumpServer_iff h hmode

/-! ## The session that is stored -/

/-- The sessions agree in everything but the user name of a credential, which only older versions
stored. -/
def Same (session session' : Session) : Prop :=
  session' = { session with sshCredentialUsername := session'.sshCredentialUsername }

/-- The fields of SSH sessions are empty. -/
structure NoSsh (session : Session) : Prop where
  host : session.sshHost = none
  port : session.sshPort = none
  authType : session.sshAuthType = none
  user : session.sshUser = none
  password : session.sshPassword = none
  tcpNodelay : session.sshTcpNodelay = false
  tcpKeepalive : session.sshTcpKeepalive = false
  proxyMode : session.sshProxyMode = none
  proxyCommand : session.sshProxyCommand = none
  proxyWorkdir : session.sshProxyWorkdir = none
  proxyEnv : session.sshProxyEnv = none
  proxyJump : session.sshProxyJump = none

/-- The fields of serial sessions are empty. -/
structure NoSerial (session : Session) : Prop where
  port : session.serialPort = none
  baud : session.serialBaud = none
  dataBits : session.serialDataBits = none
  parity : session.serialParity = none
  stopBits : session.serialStopBits = none
  flowControl : session.serialFlowControl = none

/-- The fields as the equality of two sessions lists them. -/
theorem noSsh_iff : NoSsh session ↔
    none = session.sshHost ∧ none = session.sshPort ∧ none = session.sshAuthType ∧
      none = session.sshUser ∧ none = session.sshPassword ∧ false = session.sshTcpNodelay ∧
      false = session.sshTcpKeepalive ∧ none = session.sshProxyMode ∧
      none = session.sshProxyCommand ∧ none = session.sshProxyWorkdir ∧
      none = session.sshProxyEnv ∧ none = session.sshProxyJump := by
  constructor
  · rintro ⟨h₁, h₂, h₃, h₄, h₅, h₆, h₇, h₈, h₉, h₁₀, h₁₁, h₁₂⟩
    exact ⟨h₁.symm, h₂.symm, h₃.symm, h₄.symm, h₅.symm, h₆.symm, h₇.symm, h₈.symm, h₉.symm,
      h₁₀.symm, h₁₁.symm, h₁₂.symm⟩
  · rintro ⟨h₁, h₂, h₃, h₄, h₅, h₆, h₇, h₈, h₉, h₁₀, h₁₁, h₁₂⟩
    exact ⟨h₁.symm, h₂.symm, h₃.symm, h₄.symm, h₅.symm, h₆.symm, h₇.symm, h₈.symm, h₉.symm,
      h₁₀.symm, h₁₁.symm, h₁₂.symm⟩

theorem noSerial_iff : NoSerial session ↔
    none = session.serialPort ∧ none = session.serialBaud ∧ none = session.serialDataBits ∧
      none = session.serialParity ∧ none = session.serialStopBits ∧
      none = session.serialFlowControl := by
  constructor
  · rintro ⟨h₁, h₂, h₃, h₄, h₅, h₆⟩
    exact ⟨h₁.symm, h₂.symm, h₃.symm, h₄.symm, h₅.symm, h₆.symm⟩
  · rintro ⟨h₁, h₂, h₃, h₄, h₅, h₆⟩
    exact ⟨h₁.symm, h₂.symm, h₃.symm, h₄.symm, h₅.symm, h₆.symm⟩

theorem same_local_iff (h : session.protocol = .local) {group label : Text}
    {env : List SessionEnvVar} :
    Same session ((SessionSpec.local group label session.backend env).session session.id) ↔
      group = session.groupPath ∧ label = session.label ∧ absentIfEmpty env = session.env ∧
        NoSsh session ∧ NoSerial session := by
  unfold Same SessionSpec.session
  rw [noSsh_iff, noSerial_iff]
  simp only [Session.mk.injEq, h, true_and, and_assoc]


theorem same_sshPassword_iff (h : session.protocol = .ssh) {group label host user password : Text}
    {port : ℕ} {options : SshOptions} {env : List SessionEnvVar}
    (hnodelay : options.sshTcpNodelay = session.sshTcpNodelay)
    (hkeepalive : options.sshTcpKeepalive = session.sshTcpKeepalive) :
    Same session ((SessionSpec.sshPassword group label session.backend host port user password
        options env).session session.id) ↔
      group = session.groupPath ∧ label = session.label ∧ absentIfEmpty env = session.env ∧
        session.sshHost = some host ∧ session.sshPort = some port ∧
        session.sshAuthType = some .password ∧ session.sshUser = some user ∧
        session.sshPassword = some password ∧ SameProxy session options ∧ NoSerial session := by
  unfold Same SessionSpec.session SameProxy
  rw [noSerial_iff]
  simp only [Session.mk.injEq, h, hnodelay, hkeepalive, true_and, and_assoc,
    @eq_comm _ session.sshHost, @eq_comm _ session.sshPort, @eq_comm _ session.sshAuthType,
    @eq_comm _ session.sshUser, @eq_comm _ session.sshPassword]


theorem same_sshConfig_iff (h : session.protocol = .ssh) {group label host : Text} {port : ℕ}
    {options : SshOptions} {env : List SessionEnvVar}
    (hnodelay : options.sshTcpNodelay = session.sshTcpNodelay)
    (hkeepalive : options.sshTcpKeepalive = session.sshTcpKeepalive) :
    Same session ((SessionSpec.sshConfig group label session.backend host port options env).session
        session.id) ↔
      group = session.groupPath ∧ label = session.label ∧ absentIfEmpty env = session.env ∧
        session.sshHost = some host ∧ session.sshPort = some port ∧
        session.sshAuthType = some .config ∧ session.sshUser = none ∧ session.sshPassword = none ∧
        SameProxy session options ∧ NoSerial session := by
  unfold Same SessionSpec.session SameProxy
  rw [noSerial_iff]
  simp only [Session.mk.injEq, h, hnodelay, hkeepalive, true_and, and_assoc,
    @eq_comm _ session.sshHost, @eq_comm _ session.sshPort, @eq_comm _ session.sshAuthType,
    @eq_comm _ session.sshUser, @eq_comm _ session.sshPassword]


theorem same_serial_iff (h : session.protocol = .serial) {group label port : Text}
    {baud dataBits : ℕ} {parity : SerialParity} {stopBits : SerialStopBits}
    {flowControl : SerialFlowControl} {env : List SessionEnvVar} :
    Same session ((SessionSpec.serial group label session.backend port baud dataBits parity stopBits
        flowControl env).session session.id) ↔
      group = session.groupPath ∧ label = session.label ∧ absentIfEmpty env = session.env ∧
        session.serialPort = some port ∧ session.serialBaud = some baud ∧
        session.serialDataBits = some dataBits ∧ session.serialParity = some parity ∧
        session.serialStopBits = some stopBits ∧ session.serialFlowControl = some flowControl ∧
        NoSsh session := by
  unfold Same SessionSpec.session
  rw [noSsh_iff]
  simp only [Session.mk.injEq, h, true_and]
  constructor
  · rintro ⟨hgroup, hlabel, henv, h₁, h₂, h₃, h₄, h₅, h₆, h₇, h₈, h₉, h₁₀, h₁₁, h₁₂, hserial⟩
    obtain ⟨s₁, s₂, s₃, s₄, s₅, s₆⟩ := hserial
    exact ⟨hgroup, hlabel, henv, s₁.symm, s₂.symm, s₃.symm, s₄.symm, s₅.symm, s₆.symm,
      h₁, h₂, h₃, h₄, h₅, h₆, h₇, h₈, h₉, h₁₀, h₁₁, h₁₂⟩
  · rintro ⟨hgroup, hlabel, henv, s₁, s₂, s₃, s₄, s₅, s₆, h₁, h₂, h₃, h₄, h₅, h₆, h₇, h₈, h₉, h₁₀,
      h₁₁, h₁₂⟩
    exact ⟨hgroup, hlabel, henv, h₁, h₂, h₃, h₄, h₅, h₆, h₇, h₈, h₉, h₁₀, h₁₁, h₁₂,
      s₁.symm, s₂.symm, s₃.symm, s₄.symm, s₅.symm, s₆.symm⟩

/-! ## The window after the scans -/

/-- The port that the scans select in a window without one: the first of the first scan whose first
port is not blank. -/
def foundPort (scans : List (List Text)) : Option Text :=
  scans.findSome? fun ports => ports.head?.filter (Text.trim · ≠ [])

theorem find?_self {l : List Text} {x : Text} (h : x ∈ l) : l.find? (· = x) = some x := by
  rcases hfound : l.find? (· = x) with _ | found
  · exact absurd (decide_eq_true rfl) (List.find?_eq_none.mp hfound x h)
  · have heq : found = x := by simpa using List.find?_some hfound
    rw [heq]

/-- A scan keeps the port that is selected, and selects its first one when none is. -/
theorem selectedPort_applyPorts (s : SerialSessionState) (ports : List Text) :
    (s.applyPorts ports).selectedPort =
      s.selectedPort.or (ports.head?.filter (Text.trim · ≠ [])) := by
  unfold SerialSessionState.applyPorts
  rcases hcurrent : s.selectedPort with _ | current
  · rfl
  · have hne : Text.trim current ≠ [] := by
      unfold SerialSessionState.selectedPort at hcurrent
      simpa using (Option.filter_eq_some_iff.mp hcurrent).2
    -- the selected port is among the ports: it was found, or it is added
    have hmem : current ∈ (if ports.contains current then ports else ports ++ [current]) := by
      split
      · next hcontains => exact List.contains_iff_mem.mp hcontains
      · exact List.mem_append_right _ (List.mem_singleton.mpr rfl)
    have hfind : (if ports.contains current then ports else ports ++ [current]).find?
        (· = current) = some current := by
      exact find?_self hmem
    show (((some current).bind _).or _).filter _ = some current
    rw [Option.bind_some, hfind]
    show (some current).filter _ = some current
    rw [Option.filter_some, if_pos (decide_eq_true hne)]

theorem foldl_applyPorts (scans : List (List Text)) (s : SerialSessionState) :
    ∃ ports port, scans.foldl SerialSessionState.applyPorts s = { s with ports, port } ∧
      (scans.foldl SerialSessionState.applyPorts s).selectedPort =
        s.selectedPort.or (foundPort scans) := by
  induction scans generalizing s with
  | nil => exact ⟨s.ports, s.port, rfl, (Option.or_none).symm⟩
  | cons ports scans ih =>
    obtain ⟨ports', port', heq, hselected⟩ := ih (s.applyPorts ports)
    refine ⟨ports', port', heq, ?_⟩
    rw [List.foldl_cons, hselected, selectedPort_applyPorts, Option.or_assoc]
    unfold foundPort
    rw [List.findSome?_cons]
    rcases ports.head?.filter (Text.trim · ≠ []) with _ | found <;> rfl

/-- Scans do not matter to the windows of other sessions. -/
theorem saveEditSession_scanned {w : NewSessionWindow} (h : w.protocol ≠ .serial) :
    (w.scanned scans).saveEditSession = w.saveEditSession := by
  unfold NewSessionWindow.saveEditSession NewSessionWindow.scanned
  rcases hprotocol : w.protocol with _ | _ | _
  · rfl
  · rfl
  · exact absurd hprotocol h

theorem protocol_newForEdit (around : Surroundings) (session : Session) :
    (NewSessionWindow.newForEdit around session).protocol =
      match session.protocol with
      | .local => .shell
      | .ssh => .ssh
      | .serial => .serial := by
  unfold NewSessionWindow.newForEdit NewSessionWindow.applySessionForEdit
  rcases session.protocol with _ | _ | _ <;> rfl

/-! ## The confirmation of each kind -/

theorem setProgram_backend (s : ShellSessionState) (fileName : Text → Option Text)
    (program : Text) : (s.setProgram fileName program).common.backend = s.common.backend := by
  unfold ShellSessionState.setProgram
  simp only
  split <;> rfl

theorem saveEditSession_local (h : session.protocol = .local) :
    (NewSessionWindow.newForEdit around session).saveEditSession =
      .ok (some (session.id, .local (trimmedOrValue session.groupPath "local".toList)
        (trimmedOrValue session.label
          (NewSessionWindow.shellProgramOf session.env around.shell))
        session.backend (confirmedShellEnv around.shell session.env))) := by
  -- the three fields that are read: the common ones, the environment and the program
  have hshell : (NewSessionWindow.newForEdit around session).shell.common =
      ⟨session.backend, session.label, session.groupPath⟩ := by
    unfold NewSessionWindow.newForEdit NewSessionWindow.applySessionForEdit
    rw [h]
    show (⟨(ShellSessionState.setProgram _ _ _).common.backend, _, _⟩ : SessionCommonState) = _
    rw [setProgram_backend]
    rfl
  have hsave : (NewSessionWindow.newForEdit around session).saveEditSession =
      ((NewSessionWindow.newForEdit around session).saveShellEditSession).map fun spec =>
        some (session.id, spec) := by
    unfold NewSessionWindow.newForEdit NewSessionWindow.applySessionForEdit
    rw [h]
    rfl
  have henv : (NewSessionWindow.newForEdit around session).shellSessionEnvForStore =
      confirmedShellEnv around.shell session.env := by
    unfold NewSessionWindow.newForEdit NewSessionWindow.applySessionForEdit confirmedShellEnv
    rw [h, ← sessionEnvRowsForStore_filter]
    rfl
  have hprogram : (NewSessionWindow.newForEdit around session).shell.program =
      NewSessionWindow.shellProgramOf session.env around.shell := by
    unfold NewSessionWindow.newForEdit NewSessionWindow.applySessionForEdit
    rw [h]
    rfl
  rw [hsave]
  unfold NewSessionWindow.saveShellEditSession
  rw [hshell, henv, hprogram]
  rfl

/-- A confirmed SSH session whose port can be read. -/
theorem saveSshEditSession_eq {w : NewSessionWindow} {port : ℕ}
    (h : Text.parseUnsigned 16 (Text.trim w.ssh.port) = some port) :
    w.saveSshEditSession =
      if Text.trim w.ssh.host = [] then .error "Host is required."
      else
        match w.ssh.authType with
        | .password =>
          if w.ssh.password = [] then .error "Invalid SSH password credentials."
          else
            .ok (.sshPassword (trimmedOrValue w.ssh.common.group "ssh".toList)
              (trimmedOrValue w.ssh.common.label (Text.trim w.ssh.host)) w.ssh.common.backend
              (Text.trim w.ssh.host) port (trimmedOrValue w.ssh.user "root".toList) w.ssh.password
              w.ssh.options (sessionEnvRowsForStore w.ssh.envRows))
        | .config =>
          if '@' ∈ Text.trim w.ssh.host then
            .error "Host must not include user@ in SSH Config mode."
          else
            .ok (.sshConfig (trimmedOrValue w.ssh.common.group "ssh".toList)
              (trimmedOrValue w.ssh.common.label (Text.trim w.ssh.host)) w.ssh.common.backend
              (Text.trim w.ssh.host) port w.ssh.options
              (sessionEnvRowsForStore w.ssh.envRows)) := by
  unfold NewSessionWindow.saveSshEditSession
  simp only
  split
  · rfl
  -- the checks are made twice; with a host the second ones pass
  · next hhost =>
    rw [h]
    rcases hauth : w.ssh.authType with _ | _
    · simp only
      unfold sshPasswordAuthFromInputs sshUserAndHostFromPasswordInputs
      rw [Text.trim_trim, if_neg hhost]
      by_cases hpassword : w.ssh.password = []
      · simp only [if_pos hpassword]
      · simp only [if_neg hpassword]
        rfl
    · simp only
      unfold sshHostIsValidForConfigAuth
      simp only
      rw [Text.trim_trim, if_neg hhost]
      by_cases hat : '@' ∈ Text.trim w.ssh.host
      · simp only [if_pos hat]
      · simp only [if_neg hat]
        rfl

/-- The port that the window holds is read. -/
theorem parse_sshPort (h : session.Typed) :
    Text.parseUnsigned 16 (Text.trim (SshSessionState.ofSession session).port) =
      some (session.sshPort.getD 22) := by
  unfold SshSessionState.ofSession
  rcases hport : session.sshPort with _ | port
  · show Text.parseUnsigned 16 (Text.trim "22".toList) = some 22
    decide
  · exact Text.parseUnsigned_toDigits (h.port port hport)

/-- The button that saves cannot be pressed, and nothing is written. -/
def Refused (scans : List (List Text)) (session : Session) : Prop :=
  match session.protocol with
  | .local => False
  | .ssh =>
    Text.trim (session.sshHost.getD []) = [] ∨ session.sshPort = some 0 ∨
      if session.sshAuthType = some .password then session.sshPassword.getD [] = []
      else '@' ∈ Text.trim (session.sshHost.getD [])
  | .serial => Text.trim (session.serialPort.getD []) = [] ∧ foundPort scans = none

/-- A text that is there and trimmed. -/
def NormalSome (text : Option Text) : Prop := ∃ t, text = some t ∧ Text.Trimmed t

/-- The credentials of an SSH session as the window writes them. -/
def NormalAuth (session : Session) : Prop :=
  match session.sshAuthType with
  | none => False
  | some .password => NormalSome session.sshUser ∧ session.sshPassword.isSome
  | some .config => session.sshUser = none ∧ session.sshPassword = none

/-- The session is as the window writes sessions. -/
def Normal (session : Session) : Prop :=
  Text.Trimmed session.groupPath ∧ Text.Trimmed session.label ∧
    match session.protocol with
    | .local => NormalShellEnv session.env ∧ NoSsh session ∧ NoSerial session
    | .ssh =>
      NormalEnv session.env ∧ NormalSome session.sshHost ∧ session.sshPort.isSome ∧
        NormalAuth session ∧ NormalProxy session ∧ NoSerial session
    | .serial =>
      NormalEnv session.env ∧ NormalSome session.serialPort ∧ session.serialBaud.isSome ∧
        (∃ bits ∈ dataBitsItems, session.serialDataBits = some bits) ∧
        session.serialParity.isSome ∧ session.serialStopBits.isSome ∧
        session.serialFlowControl.isSome ∧ NoSsh session

theorem eq_some_trim_iff {text : Option Text} (h : Text.trim (text.getD []) ≠ []) :
    text = some (Text.trim (text.getD [])) ↔ NormalSome text := by
  rcases text with _ | t
  · exact absurd rfl h
  · constructor
    · intro heq
      have htrim : t = Text.trim t := Option.some.inj heq
      refine ⟨t, rfl, htrim.symm, ?_⟩
      rintro rfl
      exact h rfl
    · rintro ⟨t', heq, htrim, -⟩
      obtain rfl := Option.some.inj heq
      exact congrArg some htrim.symm

theorem eq_some_getD_iff {α : Type} {x : Option α} {default : α} :
    x = some (x.getD default) ↔ x.isSome := by
  cases x <;> simp

theorem eq_some_getD_nil {text : Option Text} (h : text.getD [] ≠ []) :
    text = some (text.getD []) := by
  rcases text with _ | t
  · exact absurd rfl h
  · rfl

/-- The user of an SSH session is kept when it is there and trimmed. -/
theorem eq_some_user_iff {user : Option Text} :
    user = some (trimmedOrValue (user.getD []) "root".toList) ↔ NormalSome user := by
  rcases user with _ | u
  · exact ⟨nofun, fun ⟨_, h, _⟩ => nomatch h⟩
  · have hroot : Text.trim "root".toList ≠ [] := by decide
    have hiff : trimmedOrValue u "root".toList = u ↔ Text.Trimmed u := trimmedOrValue_eq_iff hroot
    constructor
    · intro heq
      exact ⟨u, rfl, hiff.mp (Option.some.inj heq).symm⟩
    · rintro ⟨u', heq, htrim⟩
      obtain rfl := Option.some.inj heq
      exact congrArg some (hiff.mpr htrim).symm

/-- What a confirmation writes: a session that is the one that was opened exactly when that one is
normal. -/
def Confirms (around : Surroundings) (scans : List (List Text)) (session : Session)
    (spec : SessionSpec) : Prop :=
  ((NewSessionWindow.newForEdit around session).scanned scans).saveEditSession =
      .ok (some (session.id, spec)) ∧
    spec.Typed ∧ (∀ password ∈ spec.write.sshPassword, session.sshPassword = some password) ∧
    (Same session (spec.session session.id) ↔ Normal session)

theorem confirms_local (h : session.protocol = .local) :
    ∃ spec, Confirms around scans session spec := by
  have hprotocol : (NewSessionWindow.newForEdit around session).protocol ≠ .serial := by
    rw [protocol_newForEdit, h]
    decide
  refine ⟨_, (saveEditSession_scanned hprotocol).trans (saveEditSession_local h), trivial, nofun, ?_⟩
  have hprogram := shellProgramOf_nonblank session.env around.shell_nonblank
  unfold Normal
  rw [same_local_iff h, trimmedOrValue_eq_iff (by decide), trimmedOrValue_eq_iff hprogram,
    shellEnv_eq_iff around.shell_nonblank, h]

theorem saveEditSession_ssh (around : Surroundings) (scans : List (List Text))
    (h : session.protocol = .ssh) :
    ((NewSessionWindow.newForEdit around session).scanned scans).saveEditSession =
      ((NewSessionWindow.newForEdit around session).saveSshEditSession).map fun spec =>
        some (session.id, spec) := by
  have hprotocol : (NewSessionWindow.newForEdit around session).protocol ≠ .serial := by
    rw [protocol_newForEdit, h]
    decide
  rw [saveEditSession_scanned hprotocol]
  unfold NewSessionWindow.newForEdit NewSessionWindow.applySessionForEdit
  rw [h]
  rfl

theorem typed_jumpHopsForStore {rows : List ProxyJumpRowState} {hop : SshJumpHop}
    (h : hop ∈ jumpHopsForStore rows) : hop.Typed := by
  obtain ⟨row, -, hrow⟩ := List.mem_filterMap.mp h
  simp only at hrow
  split at hrow
  · cases hrow
  · obtain rfl := Option.some.inj hrow
    intro port hport
    simp only [Option.mem_def] at hport
    split at hport
    · cases hport
    · exact Text.lt_of_parseUnsigned hport

/-- The ports of the hops that are stored have the width of their type. -/
theorem typed_proxyJump (s : SshSessionState) : ∀ hop ∈ s.options.proxyJump, hop.Typed := by
  have hhops : ∀ hop ∈ (if s.proxyMode = .jumpServer then jumpHopsForStore s.proxyJumpRows else []),
      hop.Typed := by
    intro hop hhop
    split at hhop
    · exact typed_jumpHopsForStore hhop
    · cases hhop
  unfold SshSessionState.options SshSessionState.proxySettingsForStore
  simp only
  split
  · exact nofun
  · exact hhops

theorem typed_sshPort (htyped : session.Typed) : session.sshPort.getD 22 < 2 ^ 16 := by
  rcases hport : session.sshPort with _ | port
  · decide
  · exact htyped.port port hport

/-- The parts of an SSH session that do not depend on its credentials are kept. -/
def KeepsSsh (session : Session) : Prop :=
  trimmedOrValue session.groupPath "ssh".toList = session.groupPath ∧
    trimmedOrValue session.label (Text.trim (session.sshHost.getD [])) = session.label ∧
    absentIfEmpty (sessionEnvRowsForStore (envRowsOf session.env)) = session.env ∧
    session.sshHost = some (Text.trim (session.sshHost.getD [])) ∧
    session.sshPort = some (session.sshPort.getD 22) ∧
    SameProxy session (SshSessionState.ofSession session).options ∧ NoSerial session

theorem keepsSsh_iff (htyped : session.Typed) (hhost : Text.trim (session.sshHost.getD []) ≠ []) :
    KeepsSsh session ↔ Text.Trimmed session.groupPath ∧ Text.Trimmed session.label ∧
      NormalEnv session.env ∧ NormalSome session.sshHost ∧ session.sshPort.isSome ∧
      NormalProxy session ∧ NoSerial session := by
  unfold KeepsSsh
  rw [trimmedOrValue_eq_iff (by decide), trimmedOrValue_eq_iff (by rwa [Text.trim_trim]),
    env_eq_iff, eq_some_trim_iff hhost, eq_some_getD_iff, sameProxy_iff htyped]

/-- A normal SSH session keeps the parts above, and has its credentials. -/
theorem normal_ssh_iff (htyped : session.Typed) (h : session.protocol = .ssh)
    (hhost : Text.trim (session.sshHost.getD []) ≠ []) :
    Normal session ↔ KeepsSsh session ∧ NormalAuth session := by
  rw [keepsSsh_iff htyped hhost]
  unfold Normal
  rw [h]
  tauto

/-- An SSH session that opens with its password. -/
theorem confirms_sshPassword (htyped : session.Typed) (h : session.protocol = .ssh)
    (hauth : session.sshAuthType = some .password)
    (hhost : Text.trim (session.sshHost.getD []) ≠ []) (hpassword : session.sshPassword.getD [] ≠ []) :
    ∃ spec, Confirms around scans session spec := by
  have hport := parse_sshPort htyped
  rw [← newForEdit_ssh around h] at hport
  have hsave := saveEditSession_ssh around scans h
  rw [saveSshEditSession_eq hport, newForEdit_ssh around h,
    if_neg (show ¬ Text.trim (SshSessionState.ofSession session).host = [] from hhost)] at hsave
  simp only [authType_ofSession, if_pos hauth] at hsave
  rw [if_neg (show ¬ (SshSessionState.ofSession session).password = [] from hpassword)] at hsave
  refine ⟨_, hsave, ⟨typed_sshPort htyped, typed_proxyJump _⟩, ?_, ?_⟩
  · rintro _ ⟨⟩
    exact eq_some_getD_nil hpassword
  refine (same_sshPassword_iff h rfl rfl).trans ?_
  have hnormal : NormalAuth session ↔ NormalSome session.sshUser ∧ session.sshPassword.isSome := by
    unfold NormalAuth
    rw [hauth]
  rw [normal_ssh_iff htyped h hhost, hnormal, ← eq_some_user_iff, ← eq_some_getD_iff, hauth]
  unfold KeepsSsh
  constructor
  · rintro ⟨hgroup, hlabel, henv, hhost, hport, -, huser, hpassword, hproxy, hserial⟩
    exact ⟨⟨hgroup, hlabel, henv, hhost, hport, hproxy, hserial⟩, huser, hpassword⟩
  · rintro ⟨⟨hgroup, hlabel, henv, hhost, hport, hproxy, hserial⟩, huser, hpassword⟩
    exact ⟨hgroup, hlabel, henv, hhost, hport, rfl, huser, hpassword, hproxy, hserial⟩

/-- An SSH session that opens without a password. -/
theorem confirms_sshConfig (htyped : session.Typed) (h : session.protocol = .ssh)
    (hauth : session.sshAuthType ≠ some .password)
    (hhost : Text.trim (session.sshHost.getD []) ≠ [])
    (hat : '@' ∉ Text.trim (session.sshHost.getD [])) :
    ∃ spec, Confirms around scans session spec := by
  have hport := parse_sshPort htyped
  rw [← newForEdit_ssh around h] at hport
  have hsave := saveEditSession_ssh around scans h
  rw [saveSshEditSession_eq hport, newForEdit_ssh around h,
    if_neg (show ¬ Text.trim (SshSessionState.ofSession session).host = [] from hhost)] at hsave
  simp only [authType_ofSession, if_neg hauth] at hsave
  rw [if_neg (show ¬ '@' ∈ Text.trim (SshSessionState.ofSession session).host from hat)] at hsave
  refine ⟨_, hsave, ⟨typed_sshPort htyped, typed_proxyJump _⟩, nofun, ?_⟩
  refine (same_sshConfig_iff h rfl rfl).trans ?_
  have hnormal : NormalAuth session ↔ session.sshAuthType = some .config ∧
      session.sshUser = none ∧ session.sshPassword = none := by
    unfold NormalAuth
    rcases hauth' : session.sshAuthType with _ | _ | _
    · simp
    · exact absurd hauth' hauth
    · simp
  rw [normal_ssh_iff htyped h hhost, hnormal]
  unfold KeepsSsh
  constructor
  · rintro ⟨hgroup, hlabel, henv, hhost, hport, htype, huser, hpassword, hproxy, hserial⟩
    exact ⟨⟨hgroup, hlabel, henv, hhost, hport, hproxy, hserial⟩, htype, huser, hpassword⟩
  · rintro ⟨⟨hgroup, hlabel, henv, hhost, hport, hproxy, hserial⟩, htype, huser, hpassword⟩
    exact ⟨hgroup, hlabel, henv, hhost, hport, htype, huser, hpassword, hproxy, hserial⟩

/-- What the window holds of a serial session, but for the list of its ports. -/
def SerialSessionState.ofSession (session : Session) (ports : List Text) : SerialSessionState where
  common := ⟨session.backend, session.label, session.groupPath⟩
  envRows := envRowsOf session.env
  ports := ports
  port := trimmedOrNone (session.serialPort.getD [])
  baud := (session.serialBaud.map (Nat.toDigits 10)).getD "9600".toList
  dataBits :=
    match session.serialDataBits with
    | none => some 8
    | some bits => if bits ∈ dataBitsItems then some bits else none
  parity := some (session.serialParity.getD .none)
  stopBits := some (session.serialStopBits.getD .one)
  flowControl := some (session.serialFlowControl.getD .none)

theorem setPort_getD {s : SerialSessionState} (h : s.port = none) (port : Option Text) :
    ∃ ports, (port.map s.setPort).getD s =
      { s with ports, port := trimmedOrNone (port.getD []) } := by
  rcases port with _ | port
  · refine ⟨s.ports, ?_⟩
    show s = { s with port := none }
    rw [← h]
  · unfold SerialSessionState.setPort trimmedOrNone
    by_cases hport : Text.trim port = []
    · refine ⟨s.ports, ?_⟩
      simp only [Option.map_some, Option.getD_some, hport, if_true]
      rw [← h]
    · simp only [Option.map_some, Option.getD_some, hport, if_false]
      exact ⟨_, rfl⟩

theorem setDataBits_getD {s : SerialSessionState} (h : s.dataBits = some 8) (bits : Option ℕ) :
    (bits.map s.setDataBits).getD s =
      { s with
        dataBits := match bits with
          | none => some 8
          | some bits => if bits ∈ dataBitsItems then some bits else none } := by
  rcases bits with _ | bits
  · show s = { s with dataBits := some 8 }
    rw [← h]
  · rfl

theorem or_some_getD {α : Type} (x : Option α) (default : α) :
    x.or (some default) = some (x.getD default) := by
  cases x <;> rfl

theorem applySerialSessionForEdit_serial {w : NewSessionWindow} (session : Session)
    (hport : w.serial.port = none) (hbits : w.serial.dataBits = some 8) :
    ∃ ports, (w.applySerialSessionForEdit session).serial =
      { w.serial with
        envRows := envRowsOf session.env
        ports
        port := trimmedOrNone (session.serialPort.getD [])
        baud := (session.serialBaud.map (Nat.toDigits 10)).getD w.serial.baud
        dataBits := (SerialSessionState.ofSession session ports).dataBits
        parity := session.serialParity.or w.serial.parity
        stopBits := session.serialStopBits.or w.serial.stopBits
        flowControl := session.serialFlowControl.or w.serial.flowControl } := by
  obtain ⟨ports, hfilled⟩ := setPort_getD
    (s := { w.serial with envRows := envRowsOf session.env }) hport session.serialPort
  have hdataBits := setDataBits_getD
    (s := { w.serial with
      envRows := envRowsOf session.env
      ports
      port := trimmedOrNone (session.serialPort.getD [])
      baud := (session.serialBaud.map (Nat.toDigits 10)).getD w.serial.baud })
    hbits session.serialDataBits
  refine ⟨ports, ?_⟩
  unfold NewSessionWindow.applySerialSessionForEdit
  simp only [hfilled, hdataBits]
  rfl

theorem newForEdit_serial (around : Surroundings) (h : session.protocol = .serial) :
    ∃ ports, (NewSessionWindow.newForEdit around session).serial = .ofSession session ports := by
  unfold NewSessionWindow.newForEdit NewSessionWindow.applySessionForEdit
  rw [h]
  obtain ⟨ports, hserial⟩ := applySerialSessionForEdit_serial
    (w := (NewSessionWindow.newWithMode around (some session.id) .serial).applyCommonFieldsForEdit
      session) session rfl rfl
  refine ⟨ports, ?_⟩
  simp only
  rw [hserial]
  show SerialSessionState.mk _ _ _ _ _ _ (session.serialParity.or (some .none))
    (session.serialStopBits.or (some .one)) (session.serialFlowControl.or (some .none)) = _
  rw [or_some_getD, or_some_getD, or_some_getD]
  rfl

theorem saveEditSession_serial (around : Surroundings) (scans : List (List Text))
    (h : session.protocol = .serial) :
    ((NewSessionWindow.newForEdit around session).scanned scans).saveEditSession =
      (((NewSessionWindow.newForEdit around session).scanned scans).saveSerialEditSession).map
        fun spec => some (session.id, spec) := by
  unfold NewSessionWindow.newForEdit NewSessionWindow.applySessionForEdit
  rw [h]
  rfl

theorem selectedPort_ofSession (ports : List Text) :
    (SerialSessionState.ofSession session ports).selectedPort =
      trimmedOrNone (session.serialPort.getD []) := by
  show (trimmedOrNone _).filter _ = _
  unfold trimmedOrNone
  simp only
  split
  · rfl
  · next hne =>
    rw [Option.filter_some, if_pos]
    rw [Text.trim_trim]
    exact decide_eq_true hne

/-- What the window holds of a serial session after the scans: the port of the session, or the one
that was found. -/
theorem scanned_serial (around : Surroundings) (scans : List (List Text))
    (h : session.protocol = .serial) :
    ∃ ports port, ((NewSessionWindow.newForEdit around session).scanned scans).serial =
        { SerialSessionState.ofSession session ports with port } ∧
      ((NewSessionWindow.newForEdit around session).scanned scans).serial.selectedPort =
        (trimmedOrNone (session.serialPort.getD [])).or (foundPort scans) := by
  obtain ⟨ports, hserial⟩ := newForEdit_serial around h
  obtain ⟨ports', port', heq, hselected⟩ :=
    foldl_applyPorts scans (NewSessionWindow.newForEdit around session).serial
  refine ⟨ports', port', ?_, ?_⟩
  · show scans.foldl SerialSessionState.applyPorts _ = _
    rw [heq, hserial]
    rfl
  · show (scans.foldl SerialSessionState.applyPorts _).selectedPort = _
    rw [hselected, hserial, selectedPort_ofSession]

/-- The port that is stored is the one of the session when that one is there and trimmed; a port that
a scan found is another one. -/
theorem serialPort_eq_iff {port : Text}
    (hport : (trimmedOrNone (session.serialPort.getD [])).or (foundPort scans) = some port)
    (hne : Text.trim port ≠ []) :
    session.serialPort = some (Text.trim port) ↔ NormalSome session.serialPort := by
  by_cases hblank : Text.trim (session.serialPort.getD []) = []
  · constructor
    · intro heq
      rw [heq, Option.getD_some, Text.trim_trim] at hblank
      exact absurd hblank hne
    · rintro ⟨t, heq, htrim, ht⟩
      rw [heq, Option.getD_some, htrim] at hblank
      exact absurd hblank ht
  · have hsome : trimmedOrNone (session.serialPort.getD []) =
        some (Text.trim (session.serialPort.getD [])) := if_neg hblank
    rw [hsome, Option.some_or] at hport
    obtain rfl := Option.some.inj hport
    rw [Text.trim_trim]
    exact eq_some_trim_iff hblank

/-- The baud rate that the window holds is read. -/
theorem parse_serialBaud (ports : List Text) (h : session.Typed) :
    Text.parseUnsigned 32 (Text.trim (SerialSessionState.ofSession session ports).baud) =
      some (session.serialBaud.getD 9600) := by
  unfold SerialSessionState.ofSession
  rcases hbaud : session.serialBaud with _ | baud
  · show Text.parseUnsigned 32 (Text.trim "9600".toList) = some 9600
    decide
  · exact Text.parseUnsigned_toDigits (h.baud baud hbaud)

theorem typed_serialBaud (h : session.Typed) : session.serialBaud.getD 9600 < 2 ^ 32 := by
  rcases hbaud : session.serialBaud with _ | baud
  · decide
  · exact h.baud baud hbaud

theorem mem_dataBits_ofSession (ports : List Text) :
    ((SerialSessionState.ofSession session ports).dataBits.getD 8) ∈ dataBitsItems := by
  unfold SerialSessionState.ofSession
  rcases session.serialDataBits with _ | bits
  · show 8 ∈ dataBitsItems
    decide
  · simp only
    split
    · assumption
    · show 8 ∈ dataBitsItems
      decide

/-- The data bits are kept when the selector offers them. -/
theorem dataBits_eq_iff (ports : List Text) :
    session.serialDataBits = some ((SerialSessionState.ofSession session ports).dataBits.getD 8) ↔
      ∃ bits ∈ dataBitsItems, session.serialDataBits = some bits := by
  constructor
  · intro heq
    exact ⟨_, mem_dataBits_ofSession ports, heq⟩
  · rintro ⟨bits, hbits, heq⟩
    unfold SerialSessionState.ofSession
    rw [heq]
    simp only [if_pos hbits, Option.getD_some]

theorem dataBitsItems_lt {bits : ℕ} (h : bits ∈ dataBitsItems) : bits < 2 ^ 8 := by
  revert bits
  decide

/-- A serial session with a port, or for which one was found. -/
theorem confirms_serial (htyped : session.Typed) (h : session.protocol = .serial)
    (hrefused : ¬ (Text.trim (session.serialPort.getD []) = [] ∧ foundPort scans = none)) :
    ∃ spec, Confirms around scans session spec := by
  obtain ⟨ports, port', hserial, hselected⟩ := scanned_serial around scans h
  -- the port is the one of the session, or the first that the scan found
  obtain ⟨port, hport⟩ : ∃ port,
      (trimmedOrNone (session.serialPort.getD [])).or (foundPort scans) = some port := by
    refine Option.isSome_iff_exists.mp (Option.isSome_iff_ne_none.mpr fun hnone => hrefused ?_)
    obtain ⟨hnone, hfound⟩ := Option.or_eq_none_iff.mp hnone
    refine ⟨?_, hfound⟩
    by_contra hne
    rw [trimmedOrNone, if_neg hne] at hnone
    cases hnone
  rw [hport] at hselected
  have hne : Text.trim port ≠ [] := by
    unfold SerialSessionState.selectedPort at hselected
    simpa using (Option.filter_eq_some_iff.mp hselected).2
  have hsave := saveEditSession_serial around scans h
  unfold NewSessionWindow.saveSerialEditSession at hsave
  rw [hselected, hserial] at hsave
  simp only [parse_serialBaud ports htyped, Option.getD_some, if_neg hne] at hsave
  refine ⟨_, hsave, ⟨typed_serialBaud htyped, dataBitsItems_lt (mem_dataBits_ofSession ports)⟩, nofun,
    ?_⟩
  refine (same_serial_iff h).trans ?_
  unfold Normal
  rw [h]
  show trimmedOrValue session.groupPath _ = _ ∧ trimmedOrValue session.label _ = _ ∧
    absentIfEmpty (sessionEnvRowsForStore (envRowsOf session.env)) = _ ∧ _ ∧ _ ∧ _ ∧
    session.serialParity = some (session.serialParity.getD _) ∧
    session.serialStopBits = some (session.serialStopBits.getD _) ∧
    session.serialFlowControl = some (session.serialFlowControl.getD _) ∧ _ ↔ _
  rw [trimmedOrValue_eq_iff (by decide), trimmedOrValue_eq_iff hne, env_eq_iff,
    serialPort_eq_iff hport hne, eq_some_getD_iff, dataBits_eq_iff, eq_some_getD_iff,
    eq_some_getD_iff, eq_some_getD_iff]

/-! ## The confirmation of a stored session -/

/-- The window lets the session be saved after the scans. -/
def Enabled (around : Surroundings) (scans : List (List Text)) (session : Session) : Prop :=
  ((NewSessionWindow.newForEdit around session).scanned scans).confirmEnabled = true

/-- A port that can be read is valid when it is not zero. -/
theorem sshPortIsValid_iff {port : Text} {n : ℕ}
    (h : Text.parseUnsigned 16 (Text.trim port) = some n) : sshPortIsValid port = true ↔ n ≠ 0 := by
  have hne : Text.trim port ≠ [] := by
    intro hnil
    rw [hnil] at h
    cases h
  unfold sshPortIsValid
  simp only [if_neg hne, h, decide_eq_true_eq]
  exact Nat.one_le_iff_ne_zero

theorem sshHostIsValid_iff {host : Text} (h : Text.trim host ≠ []) :
    (sshHostIsValidForConfigAuth host).isOk = true ↔ '@' ∉ Text.trim host := by
  unfold sshHostIsValidForConfigAuth
  simp only [if_neg h]
  split
  · next hat => exact ⟨nofun, fun hnot => absurd hat hnot⟩
  · next hat => exact ⟨fun _ => hat, fun _ => rfl⟩

theorem sshPort_eq_zero_iff : session.sshPort.getD 22 = 0 ↔ session.sshPort = some 0 := by
  rcases session.sshPort with _ | port
  · exact ⟨nofun, nofun⟩
  · exact (Option.some.injEq _ _).symm.to_iff

theorem enabled_ssh_iff (htyped : session.Typed) (h : session.protocol = .ssh) :
    Enabled around scans session ↔ ¬ Refused scans session := by
  have henabled : Enabled around scans session ↔
      sshConnectEnabledForValues (SshSessionState.ofSession session).authType
        (session.sshHost.getD []) (SshSessionState.ofSession session).port
        (session.sshPassword.getD []) = true := by
    have hprotocol : ((NewSessionWindow.newForEdit around session).scanned scans).protocol = .ssh := by
      show (NewSessionWindow.newForEdit around session).protocol = _
      rw [protocol_newForEdit, h]
    have hssh : ((NewSessionWindow.newForEdit around session).scanned scans).ssh =
        SshSessionState.ofSession session := newForEdit_ssh around h
    unfold Enabled NewSessionWindow.confirmEnabled
    rw [hprotocol, hssh]
    rfl
  rw [henabled]
  unfold Refused sshConnectEnabledForValues connectEnabled
  rw [h]
  by_cases hhost : Text.trim (session.sshHost.getD []) = []
  · simp [hhost]
  · by_cases hport : session.sshPort = some 0
    · have hinvalid : sshPortIsValid (SshSessionState.ofSession session).port ≠ true := fun hvalid =>
        (sshPortIsValid_iff (parse_sshPort htyped)).mp hvalid (sshPort_eq_zero_iff.mpr hport)
      simp [hinvalid, hport]
    · have hvalid : sshPortIsValid (SshSessionState.ofSession session).port = true :=
        (sshPortIsValid_iff (parse_sshPort htyped)).mpr fun hzero =>
          hport (sshPort_eq_zero_iff.mp hzero)
      rw [authType_ofSession]
      by_cases hauth : session.sshAuthType = some .password
      · simp [hhost, hvalid, hport, hauth]
      · simp [hhost, hvalid, hport, hauth, sshHostIsValid_iff hhost]

/-- A nonblank port is selected exactly when there is a selected port. -/
theorem any_port_iff (s : SerialSessionState) :
    s.port.any (Text.trim · ≠ []) = true ↔ s.selectedPort ≠ none := by
  unfold SerialSessionState.selectedPort
  rcases s.port with _ | port
  · exact ⟨nofun, fun h => absurd rfl h⟩
  · by_cases hport : Text.trim port = [] <;> simp [hport, Option.filter_some]

theorem trimmedOrNone_eq_none_iff {raw : Text} : trimmedOrNone raw = none ↔ Text.trim raw = [] := by
  unfold trimmedOrNone
  simp only
  split
  · next hblank => exact ⟨fun _ => hblank, fun _ => rfl⟩
  · next hne => exact ⟨nofun, fun hblank => absurd hblank hne⟩

theorem enabled_serial_iff (htyped : session.Typed) (h : session.protocol = .serial) :
    Enabled around scans session ↔ ¬ Refused scans session := by
  obtain ⟨ports, port, hserial, hselected⟩ := scanned_serial around scans h
  have hprotocol :
      ((NewSessionWindow.newForEdit around session).scanned scans).protocol = .serial := by
    show (NewSessionWindow.newForEdit around session).protocol = _
    rw [protocol_newForEdit, h]
  have hbaud : (Text.parseUnsigned 32 (Text.trim
      ((NewSessionWindow.newForEdit around session).scanned scans).serial.baud)).isSome = true := by
    rw [hserial, show ({ SerialSessionState.ofSession session ports with port } :
      SerialSessionState).baud = (SerialSessionState.ofSession session ports).baud from rfl,
      parse_serialBaud ports htyped]
    rfl
  unfold Enabled NewSessionWindow.confirmEnabled Refused
  rw [hprotocol, h]
  simp only [hbaud, Bool.and_true]
  rw [any_port_iff, hselected, ne_eq, Option.or_eq_none_iff, trimmedOrNone_eq_none_iff]

/-- The window lets a session be saved exactly when it is not refused. -/
theorem enabled_iff (htyped : session.Typed) :
    Enabled around scans session ↔ ¬ Refused scans session := by
  rcases hprotocol : session.protocol with _ | _ | _
  · have henabled : Enabled around scans session := by
      unfold Enabled NewSessionWindow.confirmEnabled
      rw [show ((NewSessionWindow.newForEdit around session).scanned scans).protocol = .shell from
        (protocol_newForEdit around session).trans (by rw [hprotocol])]
    unfold Refused
    rw [hprotocol]
    exact iff_of_true henabled id
  · exact enabled_ssh_iff htyped hprotocol
  · exact enabled_serial_iff htyped hprotocol

theorem confirms_ssh (htyped : session.Typed) (h : session.protocol = .ssh)
    (hrefused : ¬ Refused scans session) : ∃ spec, Confirms around scans session spec := by
  unfold Refused at hrefused
  rw [h] at hrefused
  obtain ⟨hhost, hrefused⟩ := not_or.mp hrefused
  obtain ⟨-, hrefused⟩ := not_or.mp hrefused
  by_cases hauth : session.sshAuthType = some .password
  · rw [if_pos hauth] at hrefused
    exact confirms_sshPassword htyped h hauth hhost hrefused
  · rw [if_neg hauth] at hrefused
    exact confirms_sshConfig htyped h hauth hhost hrefused

/-- What is not refused writes a session. -/
theorem confirms_of_not_refused (htyped : session.Typed) (hrefused : ¬ Refused scans session) :
    ∃ spec, Confirms around scans session spec := by
  rcases hprotocol : session.protocol with _ | _ | _
  · exact confirms_local hprotocol
  · exact confirms_ssh htyped hprotocol hrefused
  · unfold Refused at hrefused
    rw [hprotocol] at hrefused
    exact confirms_serial htyped hprotocol hrefused

theorem submitInFlight_newForEdit (around : Surroundings) (session : Session) :
    (NewSessionWindow.newForEdit around session).submitInFlight = false := by
  unfold NewSessionWindow.newForEdit NewSessionWindow.applySessionForEdit
  rcases session.protocol with _ | _ | _ <;> rfl

/-- A confirmation writes nothing when the window does not let the session be saved. -/
theorem confirm_refused (htyped : session.Typed) (hrefused : Refused scans session)
    (json : StoreJson) (f : Faults) (now : ℤ) :
    ((NewSessionWindow.newForEdit around session).scanned scans).confirm json f now = pure () := by
  have hdisabled : ((NewSessionWindow.newForEdit around session).scanned scans).confirmEnabled =
      false := Bool.eq_false_of_not_eq_true fun henabled =>
        (enabled_iff htyped).mp henabled hrefused
  unfold NewSessionWindow.confirm
  rw [hdisabled]
  rfl

/-- A confirmation updates the session with what it reads in the window. -/
theorem confirm_saved (htyped : session.Typed) (hrefused : ¬ Refused scans session)
    {spec : SessionSpec}
    (hsave : ((NewSessionWindow.newForEdit around session).scanned scans).saveEditSession =
      .ok (some (session.id, spec))) (json : StoreJson) (f : Faults) (now : ℤ) :
    ((NewSessionWindow.newForEdit around session).scanned scans).confirm json f now =
      spec.update json f now session.id := by
  have henabled : ((NewSessionWindow.newForEdit around session).scanned scans).confirmEnabled =
      true := (enabled_iff htyped).mpr hrefused
  have hidle : ((NewSessionWindow.newForEdit around session).scanned scans).submitInFlight =
      false := submitInFlight_newForEdit around session
  unfold NewSessionWindow.confirm
  rw [henabled, hidle, hsave]
  rfl

/-! ## The edit -/

variable {json : StoreJson} {f : Faults} {now : ℤ} {s : Store} {id : ℤ}

theorem bind_eq_ok {ε α β : Type} {x : Except ε α} {k : α → Except ε β} {b : β}
    (h : (x >>= k) = .ok b) : ∃ a, x = .ok a ∧ k a = .ok b := by
  rcases x with _ | a
  · cases h
  · exact ⟨a, rfl, h⟩

/-- A session that is read has the id of its row, and its password is the saved one. -/
theorem parseSessionRow_ok {passwords : ℤ → Option Text} {row : Row}
    (h : parseSessionRow json f passwords id row true = .ok session) :
    session.id = id ∧ ∀ password ∈ session.sshPassword, passwords id = some password := by
  unfold parseSessionRow at h
  obtain ⟨_, -, h⟩ := bind_eq_ok h
  obtain ⟨_, -, h⟩ := bind_eq_ok h
  obtain ⟨_, -, h⟩ := bind_eq_ok h
  obtain ⟨_, -, h⟩ := bind_eq_ok h
  obtain ⟨_, -, h⟩ := bind_eq_ok h
  obtain ⟨_, -, h⟩ := bind_eq_ok h
  obtain ⟨_, -, h⟩ := bind_eq_ok h
  obtain rfl := Except.ok.inj h
  refine ⟨rfl, fun password hpassword => ?_⟩
  simp only [if_true] at hpassword
  unfold loadSshPasswordIfNeeded at hpassword
  split at hpassword
  · cases hpassword
  · split at hpassword
    · cases hpassword
    · exact hpassword

/-- A load that finds a session leaves its row in a database that is set up, and finds it again. -/
theorem loadSession_ok (h : (loadSession json noFaults id).outcome s = .ok (some session)) :
    (((loadSession json noFaults id).after s).row id).isSome ∧ session.id = id ∧
      (∀ password ∈ session.sshPassword,
        ((loadSession json noFaults id).after s).passwords id = some password) ∧
      (loadSession json noFaults id).outcome ((loadSession json noFaults id).after s) =
        .ok (some session) := by
  unfold loadSession at h
  obtain ⟨_, hopen, h, hafter⟩ := Effect.outcome_bind_eq_ok h
  obtain ⟨_, -, h, hcheck⟩ := Effect.outcome_bind_eq_ok h
  rw [Effect.after_check] at h hcheck
  obtain ⟨s', hget, h, hmatch⟩ := Effect.outcome_bind_eq_ok h
  obtain rfl := Except.ok.inj hget
  rcases hrow : ((openDb json.toSessionJson noFaults).after s).row id with _ | row
  · simp only [Effect.after_get, hrow] at h
    cases h
  · simp only [Effect.after_get, hrow] at h hmatch
    rcases hparse : parseSessionRow json noFaults
        ((openDb json.toSessionJson noFaults).after s).passwords id row true with e | session'
    · simp only [hparse] at h
      cases h
    · simp only [hparse] at h hmatch
      obtain rfl := Option.some.inj (Except.ok.inj h)
      obtain ⟨hid, hpassword⟩ := parseSessionRow_ok hparse
      have hstate : (loadSession json noFaults id).after s =
          (openDb json.toSessionJson noFaults).after s := hafter.trans (hcheck.trans hmatch)
      rw [hstate]
      refine ⟨?_, hid, hpassword, load_row (schemaReady_openDb hopen) hrow hparse⟩
      rw [hrow]
      rfl

/-- A session that is opened in the window and confirmed there stays as it is in the store exactly
when the window does not let it be saved or it is normal. -/
theorem edit_unchanged_iff (hjson : json.RoundTrips) (htyped : session.Typed)
    (hload : (loadSession json noFaults id).outcome s = .ok (some session))
    (hconfirm : (((NewSessionWindow.newForEdit around session).scanned scans).confirm json f
      now).outcome ((loadSession json noFaults id).after s) = .ok ()) :
    ∃ session', (loadSession json noFaults id).outcome
        ((((NewSessionWindow.newForEdit around session).scanned scans).confirm json f now).after
          ((loadSession json noFaults id).after s)) = .ok (some session') ∧
      (Same session session' ↔ Refused scans session ∨ Normal session) := by
  obtain ⟨hrow, rfl, hpassword, hagain⟩ := loadSession_ok hload
  by_cases hrefused : Refused scans session
  · rw [confirm_refused htyped hrefused, Effect.after_pure]
    exact ⟨session, hagain, fun _ => .inl hrefused, fun _ => rfl⟩
  · obtain ⟨spec, hsave, hspec, hkeeps, hsame⟩ :=
      @confirms_of_not_refused around _ _ htyped hrefused
    rw [confirm_saved htyped hrefused hsave] at hconfirm ⊢
    refine ⟨spec.session session.id, ?_, ?_⟩
    · exact SessionSpec.load_update hjson hspec
        (fun password hmem => .inr (hpassword password (hkeeps password hmem))) hrow hconfirm
    · rw [hsame, or_iff_right hrefused]

end Window

/-- A window over Bash. -/
def bashWindow : Surroundings where
  defaultBackend := .alacritty
  shell := "/bin/bash".toList
  otherShells := []
  fileName := fun _ => none
  shell_nonblank := by decide

/-- The store with the session as number 7. -/
def storeWith (spec : SessionSpec) : Store :=
  (spec.update compactJson noFaults 0 7).after (passwordStore none)

theorem load_storeWith (spec : SessionSpec) (h : spec.Typed)
    (hupdate : (spec.update compactJson noFaults 0 7).outcome (passwordStore none) = .ok ()) :
    (loadSession compactJson noFaults 7).outcome (storeWith spec) = .ok (some (spec.session 7)) :=
  SessionSpec.load_update compactJson_roundTrips h (fun _ _ => .inl rfl) rfl hupdate

theorem typed_hop : ∀ hop ∈ [⟨"jump.example".toList, none, some 2222⟩], SshJumpHop.Typed hop := by
  intro hop hhop port hport
  obtain rfl := List.mem_singleton.mp hhop
  obtain rfl := Option.some.inj hport
  decide

/-- The session behind a jump server is as the window writes it. -/
theorem normal_behindJump : Normal (SessionSpec.behindJump.session 7) := by
  refine ⟨⟨by decide, by decide⟩, ⟨by decide, by decide⟩, ?_, ?_, rfl, ?_, ?_, ?_⟩
  · refine ⟨by decide, ?_⟩
    rintro _ ⟨⟩ var hvar
    obtain rfl := List.mem_singleton.mp hvar
    exact ⟨by decide, by decide⟩
  · exact ⟨_, rfl, by decide, by decide⟩
  · exact ⟨⟨_, rfl, by decide, by decide⟩, rfl⟩
  · refine ⟨rfl, nofun, ⟨by decide, nofun⟩, by decide, ?_⟩
    rintro _ ⟨⟩ hop hhop
    obtain rfl := List.mem_singleton.mp hhop
    exact ⟨⟨by decide, by decide⟩, nofun⟩
  · exact ⟨rfl, rfl, rfl, rfl, rfl, rfl⟩

/-- The session behind a jump server survives an edit without a change. -/
theorem edit_unchanged_behindJump :
    ∃ session', (loadSession compactJson noFaults 7).outcome
        ((((NewSessionWindow.newForEdit bashWindow (SessionSpec.behindJump.session 7)).scanned
          []).confirm compactJson noFaults 1).after
          ((loadSession compactJson noFaults 7).after (storeWith .behindJump))) =
        .ok (some session') ∧
      Same (SessionSpec.behindJump.session 7) session' := by
  have htyped : (SessionSpec.behindJump.session 7).Typed :=
    { port := by
        rintro _ ⟨⟩
        decide
      jump := by
        rintro _ ⟨⟩
        exact typed_hop
      baud := nofun
      dataBits := nofun }
  have hload := load_storeWith .behindJump ⟨by decide, typed_hop⟩ rfl
  have hconfirm : (((NewSessionWindow.newForEdit bashWindow
      (SessionSpec.behindJump.session 7)).scanned []).confirm compactJson noFaults 1).outcome
        ((loadSession compactJson noFaults 7).after (storeWith .behindJump)) = .ok () := rfl
  obtain ⟨session', hagain, hsame⟩ :=
    edit_unchanged_iff compactJson_roundTrips htyped hload hconfirm
  exact ⟨session', hagain, hsame.mpr (.inr normal_behindJump)⟩

/-- A local session of an older version, which names no shell program. -/
def withoutShell : SessionSpec :=
  .local "local".toList "box".toList .alacritty [⟨"TERM".toList, "xterm-256color".toList⟩]

/-- The session with the shell program that the window adds. -/
def withShell : SessionSpec :=
  .local "local".toList "box".toList .alacritty
    [⟨"TERM".toList, "xterm-256color".toList⟩, ⟨termuaShell, "/bin/bash".toList⟩]

/-- An edit without a change adds the shell program to the environment of a session without one. -/
theorem not_unchanged_withoutShell :
    (loadSession compactJson noFaults 7).outcome (storeWith withoutShell) =
        .ok (some (withoutShell.session 7)) ∧
      (loadSession compactJson noFaults 7).outcome
        ((((NewSessionWindow.newForEdit bashWindow (withoutShell.session 7)).scanned []).confirm
          compactJson noFaults 1).after
          ((loadSession compactJson noFaults 7).after (storeWith withoutShell))) =
        .ok (some (withShell.session 7)) ∧
      (withShell.session 7).env ≠ (withoutShell.session 7).env := by
  have htyped : withShell.Typed := trivial
  have hsession : (withoutShell.session 7).Typed := ⟨nofun, nofun, nofun, nofun⟩
  have hsave : ((NewSessionWindow.newForEdit bashWindow (withoutShell.session 7)).scanned
      []).saveEditSession = .ok (some (7, withShell)) := rfl
  refine ⟨load_storeWith withoutShell trivial rfl, ?_, by decide⟩
  rw [confirm_saved hsession id hsave]
  exact SessionSpec.load_update compactJson_roundTrips htyped (fun _ _ => .inl rfl) rfl rfl

end Termua.Session
