import Mathlib
import Termua.Lib.Replace
import Termua.Ssh.ConfigFile

/-!
# The options of a host

`Config` of `wezterm-ssh/src/config.rs`: what is set and which files are read, one call after the other, and
the options that `for_host` resolves for a host, with their tokens and variables expanded and with the
defaults of what no file sets.
-/

namespace Termua.Ssh.ConfigFile

open Replace (replace)
open ParsedConfigFile (orInsert)

/-- `Config`. -/
structure Config where
  configFiles : List ParsedConfigFile := []
  options : ConfigMap := fun _ => none
  tokens : ConfigMap := fun _ => none
  environment : Option ConfigMap := none

namespace Config

variable (p : Platform) (c : Config)

/-- `assign_environment`. -/
def assignEnvironment (env : ConfigMap) : Config := { c with environment := some env }

/-- `assign_tokens`. -/
def assignTokens (tokens : ConfigMap) : Config := { c with tokens }

/-- `set_option`. -/
def setOption (key value : Text) : Config :=
  { c with options := Function.update c.options (p.toLowercase key) (some value) }

/-- A file is parsed and added, `none` where parsing panics. -/
def addParsed (fuel : ℕ) (data : Text) (cwd sourceFile : Option Text) : Option Config :=
  (ParsedConfigFile.parse p fuel data cwd sourceFile).map fun f =>
    { c with configFiles := c.configFiles ++ [f] }

/-- `add_config_string`. -/
def addConfigString (fuel : ℕ) (configString : Text) : Option Config :=
  c.addParsed p fuel configString none none

/-- `add_config_file`. -/
def addConfigFile (fuel : ℕ) (path : Text) : Option Config :=
  match p.readToString path with
  | some data => c.addParsed p fuel data (p.parent path) (some path)
  | none => some c

/-- The files of `add_default_config_files`. -/
def defaultConfigFiles : List Text :=
  (p.homeDir.map fun home => p.join (p.join home ".ssh".toList) "config".toList).toList ++
    ["/etc/ssh/ssh_config".toList] ++
    ((p.env "SystemDrive".toList).map (· ++ "/ProgramData/ssh/ssh_config".toList)).toList

/-- `add_default_config_files`. -/
def addDefaultConfigFiles (fuel : ℕ) : Option Config :=
  (defaultConfigFiles p).foldlM (fun c path => c.addConfigFile p fuel path) c

/-- A call that changes a `Config`. -/
inductive Call where
  | assignEnvironment (env : ConfigMap)
  | assignTokens (tokens : ConfigMap)
  | setOption (key value : Text)
  | addConfigString (configString : Text)
  | addConfigFile (path : Text)
  | addDefaultConfigFiles

/-- What a call does, `none` where parsing panics. -/
def call (fuel : ℕ) : Call → Option Config
  | .assignEnvironment env => some (c.assignEnvironment env)
  | .assignTokens tokens => some (c.assignTokens tokens)
  | .setOption key value => some (c.setOption p key value)
  | .addConfigString configString => c.addConfigString p fuel configString
  | .addConfigFile path => c.addConfigFile p fuel path
  | .addDefaultConfigFiles => c.addDefaultConfigFiles p fuel

/-! ## The platform -/

/-- `resolve_env`. -/
def resolveEnv (name : Text) : Option Text :=
  match c.environment with
  | some env => env name
  | none => p.env name

/-- `resolve_home`. -/
def resolveHome : Option Text := (c.environment.bind fun env => env "HOME".toList).or p.homeDir

/-- `resolve_local_user`. -/
def resolveLocalUser : Text :=
  ((c.resolveEnv p "USER".toList).or (c.resolveEnv p "USERNAME".toList)).getD "unknown-user".toList

/-- `resolve_local_host`. -/
def resolveLocalHost (includeDomainName : Bool) : Text :=
  if includeDomainName then p.gethostname else p.gethostname.takeWhile (· ≠ '.')

/-! ## Expansion -/

/-- `should_expand_environment`. -/
def shouldExpandEnvironment (key : Text) : Bool :=
  ["certificatefile", "controlpath", "identityagent", "identityfile", "userknownhostsfile",
    "localforward", "remoteforward"].any (·.toList = key)

/-- `should_expand_tokens`. The known hosts are not among the options: their key is misspelt. -/
def shouldExpandTokens (key : Text) : Option (List Text) :=
  if ["certificatefile", "controlpath", "identityagent", "identityfile", "localforward",
      "remotecommand", "remoteforward", "userknownkostsfile"].any (·.toList = key) then
    some (["%C", "%d", "%h", "%i", "%L", "%l", "%n", "%p", "%r", "%u"].map String.toList)
  else if key = "hostname".toList then some ["%h".toList]
  else if key = "localcommand".toList then
    some (["%C", "%d", "%h", "%i", "%k", "%L", "%l", "%n", "%p", "%r", "%T", "%u"].map String.toList)
  else if key = "proxycommand".toList then some (["%h", "%n", "%p", "%r"].map String.toList)
  else none

/-- The token `%d`, word by word; a tilde stands for it as well. -/
def expandHome (home value : Text) : Text :=
  let items := (value.splitOnP Text.isWhitespace).filter fun item => !item.isEmpty
  [' '].intercalate (items.map fun item =>
    if item.take 2 = "~/".toList then home ++ item.tail else replace id "%d".toList home item)

/-- What `expand_tokens` does with a token; `hashed` stands for `%C`. -/
def expandToken (tokenMap : ConfigMap) (hashed value t : Text) : Text :=
  match tokenMap t with
  | some v => replace id t v value
  | none =>
    if t = "%i".toList then replace id t p.uid value
    else if t = "%u".toList then replace id t (c.resolveLocalUser p) value
    else if t = "%l".toList then replace id t (resolveLocalHost p false) value
    else if t = "%L".toList then replace id t (resolveLocalHost p true) value
    else if t = "%d".toList then
      match c.resolveHome p with
      | some home => expandHome home value
      | none => value
    else if t = "%j".toList then replace id t [] value
    else if t = "%T".toList then replace id t "NONE".toList value
    else if t = "%C".toList then replace id t hashed value
    else value

/-- `expand_tokens`, where `hashed` stands for `%C`. -/
def expandTokensWith (tokens : List Text) (tokenMap : ConfigMap) (hashed value : Text) : Text :=
  replace id "%%".toList "%".toList (tokens.foldl (c.expandToken p tokenMap hashed) value)

/-- `expand_tokens`. The text that is hashed is expanded with the same tokens; what stands for `%C` in it makes
no difference (`expandTokensWith_hashed`). -/
def expandTokens (value : Text) (tokens : List Text) (tokenMap : ConfigMap) : Text :=
  c.expandTokensWith p tokens tokenMap
    (p.sha256 (c.expandTokensWith p tokens tokenMap [] "%l%h%p%r%j".toList)) value

/-- `expand_environment`. -/
def expandEnvironment (value : Text) : Text :=
  p.regex.replaceAll "\\$\\\x7b([a-zA-Z_][a-zA-Z_0-9]+)\\\x7d".toList value fun reference name =>
    match c.resolveEnv p name with
    | some rep => rep
    | none => reference

/-! ## Resolution -/

/-- The options that are set and those of the files, before any expansion. -/
def resolve (host : Text) : ConfigMap :=
  -- the user that is asked for is the local one
  let localUser := c.resolveLocalUser p
  c.configFiles.foldl (fun result f => (f.applyMatches p host localUser localUser .firstPass result).2)
    c.options

/-- What a value of a key is expanded to. -/
def expand (tokenMap : ConfigMap) (k v : Text) : Text :=
  let v := match shouldExpandTokens k with
    | some tokens => c.expandTokens p v tokens tokenMap
    | none => v
  if shouldExpandEnvironment k then c.expandEnvironment p v else v

/-- The host name: its token is the name that was asked for. -/
def hostname (host : Text) : Text :=
  let tokenMap := Function.update c.tokens "%h".toList (some host)
  match c.resolve p host "hostname".toList with
  | some curr =>
    match shouldExpandTokens "hostname".toList with
    | some tokens => c.expandTokens p curr tokens tokenMap
    | none => curr
  | none => host

/-- What the tokens stand for once the host name is known. -/
def tokenMap (host : Text) : ConfigMap :=
  let port := (c.resolve p host "port".toList).getD "22".toList
  let map := Function.update c.tokens "%h".toList (some (c.hostname p host))
  let map := Function.update map "%n".toList (some host)
  let map := Function.update map "%r".toList (some (c.resolveLocalUser p))
  Function.update map "%p".toList (some port)

/-- What stands for an option that is not set. -/
def default (k : Text) : Option Text :=
  if k = "port".toList then some "22".toList
  else if k = "user".toList then some (c.resolveLocalUser p)
  else if k = "userknownhostsfile".toList then
    (c.resolveHome p).map fun home =>
      home ++ "/.ssh/known_hosts ".toList ++ home ++ "/.ssh/known_hosts2".toList
  else if k = "identityfile".toList then
    (c.resolveHome p).map fun home =>
      home ++ "/.ssh/id_dsa ".toList ++ home ++ "/.ssh/id_ecdsa ".toList ++
        home ++ "/.ssh/id_ed25519 ".toList ++ home ++ "/.ssh/id_rsa".toList
  else if k = "identityagent".toList then c.resolveEnv p "SSH_AUTH_SOCK".toList
  else none

/-- `for_host`. The host name is expanded once more with the other options. -/
def forHost (host : Text) : ConfigMap :=
  let result := Function.update (c.resolve p host) "hostname".toList (some (c.hostname p host))
  let result : ConfigMap := fun k => (result k).map (c.expand p (c.tokenMap p host) k)
  orInsert result (c.default p)

variable {p c} {tokenMap : ConfigMap} {hashed hashed' t key : Text} {tokens : List Text}

theorem expandToken_of_ne (ht : t ≠ "%C".toList) (value : Text) :
    c.expandToken p tokenMap hashed value t = c.expandToken p tokenMap hashed' value t := by
  unfold expandToken
  simp only [if_neg ht]

theorem foldl_expandToken_of_notMem (htokens : "%C".toList ∉ tokens) (value : Text) :
    tokens.foldl (c.expandToken p tokenMap hashed) value =
      tokens.foldl (c.expandToken p tokenMap hashed') value := by
  induction tokens generalizing value with
  | nil => rfl
  | cons t tokens ih =>
    have ht : t ≠ "%C".toList := fun heq => htokens (heq ▸ List.mem_cons_self)
    rw [List.foldl_cons, List.foldl_cons, expandToken_of_ne ht]
    exact ih (fun hmem => htokens (List.mem_cons_of_mem _ hmem)) _

/-- Where `%C` is looked for in the text that is hashed, it is the first token, and the text has none. -/
theorem expandTokensWith_hashed (h : shouldExpandTokens key = some tokens) :
    c.expandTokensWith p tokens tokenMap hashed "%l%h%p%r%j".toList =
      c.expandTokensWith p tokens tokenMap hashed' "%l%h%p%r%j".toList := by
  -- the four lists of tokens of the source
  have hfirst : "%C".toList ∉ tokens ∨ ∃ rest, tokens = "%C".toList :: rest ∧ "%C".toList ∉ rest := by
    unfold shouldExpandTokens at h
    split at h
    · obtain rfl := Option.some.inj h
      exact .inr ⟨_, rfl, by decide⟩
    · split at h
      · obtain rfl := Option.some.inj h
        exact .inl (by decide)
      · split at h
        · obtain rfl := Option.some.inj h
          exact .inr ⟨_, rfl, by decide⟩
        · split at h
          · obtain rfl := Option.some.inj h
            exact .inl (by decide)
          · cases h
  unfold expandTokensWith
  obtain hnone | ⟨rest, rfl, hrest⟩ := hfirst
  · rw [foldl_expandToken_of_notMem hnone]
  · have hclear (hashed : Text) :
        replace id "%C".toList hashed "%l%h%p%r%j".toList = "%l%h%p%r%j".toList := by
      apply Replace.replace_eq_self
      decide
    have hstart : c.expandToken p tokenMap hashed "%l%h%p%r%j".toList "%C".toList =
        c.expandToken p tokenMap hashed' "%l%h%p%r%j".toList "%C".toList := by
      unfold expandToken
      rcases tokenMap "%C".toList with _ | v
      · simp only [hclear]
      · rfl
    rw [List.foldl_cons, List.foldl_cons, hstart, foldl_expandToken_of_notMem hrest]

end Config

end Termua.Ssh.ConfigFile
