import Mathlib
import Termua.Lib.Serde
import Termua.Session.Store

/-!
# The sections of the settings file

The enumerations and the sections of the settings but that of the terminal, with their defaults, their
readers and their writers, from termua/src/settings.rs. serde_json, serde_json_lenient and gpui are
parameters with the behaviour that the code relies on.
-/

namespace Termua.Settings

open Json (Value Numeral)
open Serde (Text TextMap Reads Variants Fields structFields field readBool readText readOption
  readUnsigned readFloat readTextMap writeTextMap writeUnsigned writeOption writeStruct put putAll
  pairs)
open Session (TerminalBackend)

/-! ## Libraries -/

/-- The floating-point numbers of a width, as serde_json reads and writes them. -/
structure Floats (α : Type) where
  ofNat : ℕ → α
  read : Numeral → Option α
  write : α → Numeral
  read_write : ∀ x, read (write x) = some x

namespace Floats

variable {α : Type} (floats : Floats α)

/-- The number as a value. -/
def value (x : α) : Value := .number (floats.write x)

theorem reads_value (x : α) : Reads (readFloat floats.read) (floats.value x) x :=
  Serde.reads_float (floats.read_write x)

@[simp]
theorem readFloat_value (x : α) : readFloat floats.read (floats.value x) = some x :=
  (floats.reads_value x).read

@[simp]
theorem readOption_value (x : Option α) :
    readOption (readFloat floats.read) (writeOption floats.value x) = some x :=
  Serde.readOption_writeOption fun y _ => floats.reads_value y

end Floats

/-- `FontFeatures` of gpui: tags with their values. -/
abbrev FontFeatures := List (Text × BitVec 32)

/-- The tag of the contextual alternates. -/
def calt : Text := "calt".toList

/-- What the settings use of serde_json, serde_json_lenient and gpui. -/
structure Libraries where
  F32 : Type
  F64 : Type
  f32 : Floats F32
  f64 : Floats F64
  toStringPretty : Value → Text
  fromStrLenient : Text → Option Value
  fromStrLenient_toStringPretty : ∀ v, fromStrLenient (toStringPretty v) = some v
  FontFallbacks : Type
  readFontFallbacks : Value → Option FontFallbacks
  writeFontFallbacks : FontFallbacks → Value
  reads_fontFallbacks : ∀ x, Reads readFontFallbacks (writeFontFallbacks x) x
  disableLigatures : FontFeatures
  disableLigatures_eq : disableLigatures = [(calt, 0)]
  isCaltEnabled : FontFeatures → Option Bool
  isCaltEnabled_eq : ∀ features, isCaltEnabled features = (features.lookup calt).map (· == 1)
  readFontFeatures : Value → Option FontFeatures
  writeFontFeatures : FontFeatures → Value
  writeFontFeatures_eq : ∀ features, writeFontFeatures features
    = .object ((pairs (putAll features)).map fun e => (e.1, writeUnsigned e.2))
  isFeatureTag : Text → Prop
  isFeatureTag_of_read : ∀ {v features}, readFontFeatures v = some features →
    ∀ e ∈ features, isFeatureTag e.1
  readFontFeatures_object : ∀ {features : FontFeatures}, (∀ e ∈ features, isFeatureTag e.1) →
    readFontFeatures (.object (features.map fun e => (e.1, writeUnsigned e.2))) = some features

variable (libs : Libraries)

/-! ## Enumerations -/

/-- `ThemeMode`. -/
inductive ThemeMode
  | system | light | dark
  deriving DecidableEq

/-- `Language`. -/
inductive Language
  | english | zhCn
  deriving DecidableEq

/-- `LogLevel`. -/
inductive LogLevel
  | default | error | warn | info | debug | trace | off
  deriving DecidableEq

/-- `SshBackend`. -/
inductive SshBackend
  | ssh2 | libssh
  deriving DecidableEq

/-- `TerminalBlink`. -/
inductive TerminalBlink
  | off | terminalControlled | on
  deriving DecidableEq

/-- `CursorShape`. -/
inductive CursorShape
  | block | underline | bar | hollow
  deriving DecidableEq

/-- `TerminalLineHeight`. -/
inductive TerminalLineHeight
  | comfortable
  | standard
  | custom (lineHeight : libs.F32)

/-- The names of `ThemeMode`. -/
def themeMode : Variants ThemeMode where
  all := [.system, .light, .dark]
  name
    | .system => "system"
    | .light => "light"
    | .dark => "dark"
  mem_all x := by cases x <;> simp
  name_injective x y := by cases x <;> cases y <;> simp

/-- The names of `Language`. -/
def language : Variants Language where
  all := [.english, .zhCn]
  name
    | .english => "en"
    | .zhCn => "zh-CN"
  mem_all x := by cases x <;> simp
  name_injective x y := by cases x <;> cases y <;> simp

/-- The names of `LogLevel`. -/
def logLevel : Variants LogLevel where
  all := [.default, .error, .warn, .info, .debug, .trace, .off]
  name
    | .default => "default"
    | .error => "error"
    | .warn => "warn"
    | .info => "info"
    | .debug => "debug"
    | .trace => "trace"
    | .off => "off"
  mem_all x := by cases x <;> simp
  name_injective x y := by cases x <;> cases y <;> simp

/-- The names of `TerminalBackend`. -/
def terminalBackend : Variants TerminalBackend where
  all := [.alacritty, .wezterm]
  name
    | .alacritty => "alacritty"
    | .wezterm => "wezterm"
  mem_all x := by cases x <;> simp
  name_injective x y := by cases x <;> cases y <;> simp

/-- The names of `SshBackend`. -/
def sshBackend : Variants SshBackend where
  all := [.ssh2, .libssh]
  name
    | .ssh2 => "ssh2"
    | .libssh => "libssh"
  mem_all x := by cases x <;> simp
  name_injective x y := by cases x <;> cases y <;> simp

/-- The names of `TerminalBlink`. -/
def terminalBlink : Variants TerminalBlink where
  all := [.off, .terminalControlled, .on]
  name
    | .off => "off"
    | .terminalControlled => "terminal_controlled"
    | .on => "on"
  mem_all x := by cases x <;> simp
  name_injective x y := by cases x <;> cases y <;> simp

/-- The names of `CursorShape`. -/
def cursorShape : Variants CursorShape where
  all := [.block, .underline, .bar, .hollow]
  name
    | .block => "block"
    | .underline => "underline"
    | .bar => "bar"
    | .hollow => "hollow"
  mem_all x := by cases x <;> simp
  name_injective x y := by cases x <;> cases y <;> simp

variable {libs}

/-- The variants of `TerminalLineHeight` without data. -/
def TerminalLineHeight.ofName (name : Text) : Option (TerminalLineHeight libs) :=
  if name = "comfortable".toList then some .comfortable
  else if name = "standard".toList then some .standard
  else none

/-- `TerminalLineHeight::deserialize`. -/
def TerminalLineHeight.read : Value → Option (TerminalLineHeight libs)
  | .string name => ofName name
  | .object [(name, v)] =>
    if name = "custom".toList then (readFloat libs.f32.read v).map .custom
    else if v matches .null then ofName name
    else none
  | _ => none

/-- `TerminalLineHeight::serialize`. -/
def TerminalLineHeight.write : TerminalLineHeight libs → Value
  | .comfortable => .string "comfortable".toList
  | .standard => .string "standard".toList
  | .custom lineHeight => .object [("custom".toList, libs.f32.value lineHeight)]

theorem reads_lineHeight (x : TerminalLineHeight libs) :
    Reads TerminalLineHeight.read x.write x := by
  cases x with
  | comfortable => exact ⟨by simp [TerminalLineHeight.write, TerminalLineHeight.read,
      TerminalLineHeight.ofName], nofun⟩
  | standard => exact ⟨by simp [TerminalLineHeight.write, TerminalLineHeight.read,
      TerminalLineHeight.ofName], nofun⟩
  | custom lineHeight =>
    refine ⟨?_, nofun⟩
    simp [TerminalLineHeight.write, TerminalLineHeight.read]

/-! ## Sections without the terminal -/

/-- `AppearanceSettings`. -/
structure AppearanceSettings where
  theme : ThemeMode
  language : Language
  lightTheme : Option Text
  darkTheme : Option Text
  menuAutoCollapse : Bool

namespace AppearanceSettings

/-- `AppearanceSettings::default`. -/
def default : AppearanceSettings where
  theme := .system
  language := .english
  lightTheme := none
  darkTheme := none
  menuAutoCollapse := true

/-- `AppearanceSettings::deserialize`. -/
def read (v : Value) : Option AppearanceSettings := do
  let fields ← structFields
    ["theme", "language", "light_theme", "dark_theme", "menu_auto_collapse"] v
  let theme ← field themeMode.read default.theme (fields "theme")
  let language ← field Settings.language.read default.language (fields "language")
  let lightTheme ← field (readOption readText) default.lightTheme (fields "light_theme")
  let darkTheme ← field (readOption readText) default.darkTheme (fields "dark_theme")
  let menuAutoCollapse ← field readBool default.menuAutoCollapse (fields "menu_auto_collapse")
  return ⟨theme, language, lightTheme, darkTheme, menuAutoCollapse⟩

/-- `AppearanceSettings::serialize`. -/
def write (s : AppearanceSettings) : Value :=
  writeStruct [("theme", themeMode.write s.theme), ("language", Settings.language.write s.language),
    ("light_theme", writeOption .string s.lightTheme),
    ("dark_theme", writeOption .string s.darkTheme),
    ("menu_auto_collapse", .bool s.menuAutoCollapse)]

theorem read_write (s : AppearanceSettings) : read s.write = some s := by
  unfold read write
  rw [Serde.structFields_writeStruct (by simp)]
  simp [Serde.lookup_cons]

end AppearanceSettings

/-- `RecordingSettings`. -/
structure RecordingSettings (libs : Libraries) where
  includeInputByDefault : Bool
  playbackSpeed : libs.F64

namespace RecordingSettings

/-- `RecordingSettings::default`. -/
def default : RecordingSettings libs where
  includeInputByDefault := false
  playbackSpeed := libs.f64.ofNat 1

/-- `RecordingSettings::deserialize`. -/
def read (v : Value) : Option (RecordingSettings libs) := do
  let defaults : RecordingSettings libs := default
  let fields ← structFields ["include_input_by_default", "playback_speed"] v
  let includeInputByDefault ← field readBool defaults.includeInputByDefault
    (fields "include_input_by_default")
  let playbackSpeed ← field (readFloat libs.f64.read) defaults.playbackSpeed
    (fields "playback_speed")
  return ⟨includeInputByDefault, playbackSpeed⟩

/-- `RecordingSettings::serialize`. -/
def write (s : RecordingSettings libs) : Value :=
  writeStruct [("include_input_by_default", .bool s.includeInputByDefault),
    ("playback_speed", libs.f64.value s.playbackSpeed)]

theorem read_write (s : RecordingSettings libs) : read s.write = some s := by
  unfold read write
  rw [Serde.structFields_writeStruct (by simp)]
  simp [Serde.lookup_cons]

end RecordingSettings

/-- `LoggingSettings`. -/
structure LoggingSettings where
  level : LogLevel
  path : Option Text

namespace LoggingSettings

/-- `LoggingSettings::default`. -/
def default : LoggingSettings where
  level := .default
  path := none

/-- `LoggingSettings::deserialize`. -/
def read (v : Value) : Option LoggingSettings := do
  let fields ← structFields ["level", "path"] v
  let level ← field logLevel.read default.level (fields "level")
  let path ← field (readOption readText) default.path (fields "path")
  return ⟨level, path⟩

/-- `LoggingSettings::serialize`. -/
def write (s : LoggingSettings) : Value :=
  writeStruct [("level", logLevel.write s.level), ("path", writeOption .string s.path)]

theorem read_write (s : LoggingSettings) : read s.write = some s := by
  unfold read write
  rw [Serde.structFields_writeStruct (by simp)]
  simp [Serde.lookup_cons]

end LoggingSettings

/-- `UiSettings`. -/
structure UiSettings where
  lastSettingsPage : Option Text

namespace UiSettings

/-- `UiSettings::default`. -/
def default : UiSettings where
  lastSettingsPage := none

/-- `UiSettings::deserialize`. -/
def read (v : Value) : Option UiSettings := do
  let fields ← structFields ["last_settings_page"] v
  let lastSettingsPage ← field (readOption readText) default.lastSettingsPage
    (fields "last_settings_page")
  return ⟨lastSettingsPage⟩

/-- `UiSettings::serialize`. -/
def write (s : UiSettings) : Value :=
  writeStruct [("last_settings_page", writeOption .string s.lastSettingsPage)]

theorem read_write (s : UiSettings) : read s.write = some s := by
  unfold read write
  rw [Serde.structFields_writeStruct (by simp)]
  simp [Serde.lookup_cons]

end UiSettings

/-- `AssistantSettings`. -/
structure AssistantSettings (libs : Libraries) where
  enabled : Bool
  provider : Option Text
  model : Option Text
  temperature : Option libs.F64
  apiUrl : Option Text
  apiPath : Option Text
  providerTimeoutSecs : Option (BitVec 64)
  extraHeaders : TextMap

namespace AssistantSettings

/-- `AssistantSettings::default`. -/
def default : AssistantSettings libs where
  enabled := true
  provider := none
  model := none
  temperature := none
  apiUrl := none
  apiPath := none
  providerTimeoutSecs := none
  extraHeaders := ∅

/-- `AssistantSettings::deserialize`. -/
def read (v : Value) : Option (AssistantSettings libs) := do
  let defaults : AssistantSettings libs := default
  let fields ← structFields
    ["enabled", "provider", "model", "temperature", "api_url", "api_path",
      "provider_timeout_secs", "extra_headers"] v
  let enabled ← field readBool defaults.enabled (fields "enabled")
  let provider ← field (readOption readText) defaults.provider (fields "provider")
  let model ← field (readOption readText) defaults.model (fields "model")
  let temperature ← field (readOption (readFloat libs.f64.read)) defaults.temperature
    (fields "temperature")
  let apiUrl ← field (readOption readText) defaults.apiUrl (fields "api_url")
  let apiPath ← field (readOption readText) defaults.apiPath (fields "api_path")
  let providerTimeoutSecs ← field (readOption (readUnsigned 64)) defaults.providerTimeoutSecs
    (fields "provider_timeout_secs")
  let extraHeaders ← field readTextMap defaults.extraHeaders (fields "extra_headers")
  return ⟨enabled, provider, model, temperature, apiUrl, apiPath, providerTimeoutSecs,
    extraHeaders⟩

/-- `AssistantSettings::serialize`. -/
def write (s : AssistantSettings libs) : Value :=
  writeStruct [("enabled", .bool s.enabled), ("provider", writeOption .string s.provider),
    ("model", writeOption .string s.model),
    ("temperature", writeOption libs.f64.value s.temperature),
    ("api_url", writeOption .string s.apiUrl), ("api_path", writeOption .string s.apiPath),
    ("provider_timeout_secs", writeOption writeUnsigned s.providerTimeoutSecs),
    ("extra_headers", writeTextMap s.extraHeaders)]

theorem read_write (s : AssistantSettings libs) : read s.write = some s := by
  unfold read write
  rw [Serde.structFields_writeStruct (by simp)]
  simp [Serde.lookup_cons]

end AssistantSettings

/-- `LockScreenSettings`. -/
structure LockScreenSettings where
  enabled : Bool
  timeoutSecs : BitVec 64

namespace LockScreenSettings

/-- `LockScreenSettings::default`. -/
def default : LockScreenSettings where
  enabled := true
  timeoutSecs := 5 * 60

/-- `LockScreenSettings::deserialize`. -/
def read (v : Value) : Option LockScreenSettings := do
  let fields ← structFields ["enabled", "timeout_secs"] v
  let enabled ← field readBool default.enabled (fields "enabled")
  let timeoutSecs ← field (readUnsigned 64) default.timeoutSecs (fields "timeout_secs")
  return ⟨enabled, timeoutSecs⟩

/-- `LockScreenSettings::serialize`. -/
def write (s : LockScreenSettings) : Value :=
  writeStruct [("enabled", .bool s.enabled), ("timeout_secs", writeUnsigned s.timeoutSecs)]

theorem read_write (s : LockScreenSettings) : read s.write = some s := by
  unfold read write
  rw [Serde.structFields_writeStruct (by simp)]
  simp [Serde.lookup_cons]

end LockScreenSettings

/-- `TerminalKeyBindings`. -/
structure TerminalKeyBindings where
  copy : Option Text
  paste : Option Text
  selectAll : Option Text
  clear : Option Text
  search : Option Text
  searchNext : Option Text
  searchPrevious : Option Text
  increaseFontSize : Option Text
  decreaseFontSize : Option Text
  resetFontSize : Option Text

namespace TerminalKeyBindings

/-- `TerminalKeyBindings::default`. -/
def default : TerminalKeyBindings where
  copy := none
  paste := none
  selectAll := none
  clear := none
  search := none
  searchNext := none
  searchPrevious := none
  increaseFontSize := none
  decreaseFontSize := none
  resetFontSize := none

/-- `TerminalKeyBindings::deserialize`. -/
def read (v : Value) : Option TerminalKeyBindings := do
  let fields ← structFields
    ["copy", "paste", "select_all", "clear", "search", "search_next", "search_previous",
      "increase_font_size", "decrease_font_size", "reset_font_size"] v
  let copy ← field (readOption readText) default.copy (fields "copy")
  let paste ← field (readOption readText) default.paste (fields "paste")
  let selectAll ← field (readOption readText) default.selectAll (fields "select_all")
  let clear ← field (readOption readText) default.clear (fields "clear")
  let search ← field (readOption readText) default.search (fields "search")
  let searchNext ← field (readOption readText) default.searchNext (fields "search_next")
  let searchPrevious ← field (readOption readText) default.searchPrevious (fields "search_previous")
  let increaseFontSize ← field (readOption readText) default.increaseFontSize
    (fields "increase_font_size")
  let decreaseFontSize ← field (readOption readText) default.decreaseFontSize
    (fields "decrease_font_size")
  let resetFontSize ← field (readOption readText) default.resetFontSize (fields "reset_font_size")
  return ⟨copy, paste, selectAll, clear, search, searchNext, searchPrevious, increaseFontSize,
    decreaseFontSize, resetFontSize⟩

/-- `TerminalKeyBindings::serialize`. -/
def write (s : TerminalKeyBindings) : Value :=
  writeStruct [("copy", writeOption .string s.copy), ("paste", writeOption .string s.paste),
    ("select_all", writeOption .string s.selectAll), ("clear", writeOption .string s.clear),
    ("search", writeOption .string s.search), ("search_next", writeOption .string s.searchNext),
    ("search_previous", writeOption .string s.searchPrevious),
    ("increase_font_size", writeOption .string s.increaseFontSize),
    ("decrease_font_size", writeOption .string s.decreaseFontSize),
    ("reset_font_size", writeOption .string s.resetFontSize)]

theorem read_write (s : TerminalKeyBindings) : read s.write = some s := by
  unfold read write
  rw [Serde.structFields_writeStruct (by simp)]
  simp [Serde.lookup_cons]

end TerminalKeyBindings

end Termua.Settings
