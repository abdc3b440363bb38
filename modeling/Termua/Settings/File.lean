import Mathlib
import Termua.Settings.Sections

/-!
# The settings of the terminal and the file

The section of the terminal is read as a patch of its defaults and written from the map of its fields;
the file is read and written section by section (termua/src/settings.rs, and
crates/gpui_term/src/settings.rs for the terminal's own fields).
-/

namespace Termua.Settings

open Json (Value Numeral)
open Serde (Text TextMap Reads Variants Fields structFields field readBool readText readOption
  readUnsigned readFloat readTextMap writeTextMap writeUnsigned writeOption writeStruct put putAll
  pairs)
open Session (TerminalBackend)

variable {libs : Libraries}

/-! ## Font features -/

/-- `u32::from` of a flag. -/
def flag (enabled : Bool) : BitVec 32 := if enabled then 1 else 0

/-- `set_calt_font_feature`. -/
def setCaltFontFeature (enabled : Bool) : FontFeatures → FontFeatures
  | [] => [(calt, flag enabled)]
  | (tag, value) :: features =>
    if tag = calt then (tag, flag enabled) :: features
    else (tag, value) :: setCaltFontFeature enabled features

/-- `font_features_without_calt`. -/
def fontFeaturesWithoutCalt (features : FontFeatures) : FontFeatures :=
  features.filter fun e => e.1 ≠ calt

/-! ## Settings of the terminal -/

/-- `TerminalSettings` of gpui_term. -/
structure TermSettings (libs : Libraries) where
  fontSize : libs.F32
  fontFamily : Text
  fontFallbacks : Option libs.FontFallbacks
  fontFeatures : FontFeatures
  fontWeight : libs.F32
  lineHeight : TerminalLineHeight libs
  env : TextMap
  cursorShape : Option CursorShape
  blinking : TerminalBlink
  optionAsMeta : Bool
  copyOnSelect : Bool
  sftpUploadMaxConcurrency : BitVec 64
  minimumContrast : libs.F32
  showScrollbar : Bool
  showLineNumbers : Bool
  suggestionsEnabled : Bool
  suggestionsMaxItems : BitVec 64

/-- `TerminalSettings::new` of gpui_term. -/
def TermSettings.new : TermSettings libs where
  fontSize := libs.f32.ofNat 15
  fontFamily := ".ZedMono".toList
  fontFallbacks := none
  fontFeatures := libs.disableLigatures
  fontWeight := libs.f32.ofNat 400
  lineHeight := .comfortable
  env := ∅
  cursorShape := none
  blinking := .on
  optionAsMeta := false
  copyOnSelect := true
  sftpUploadMaxConcurrency := 5
  minimumContrast := libs.f32.ofNat 45
  showScrollbar := true
  showLineNumbers := true
  suggestionsEnabled := false
  suggestionsMaxItems := 8

/-- `TerminalSettings::serialize` of gpui_term: the fields in order. -/
def TermSettings.entries (s : TermSettings libs) : List (String × Value) :=
  [("font_size", libs.f32.value s.fontSize), ("font_family", .string s.fontFamily),
    ("font_fallbacks", writeOption libs.writeFontFallbacks s.fontFallbacks),
    ("font_features", libs.writeFontFeatures s.fontFeatures),
    ("font_weight", libs.f32.value s.fontWeight),
    ("line_height", TerminalLineHeight.write s.lineHeight), ("env", writeTextMap s.env),
    ("cursor_shape", writeOption Settings.cursorShape.write s.cursorShape),
    ("blinking", terminalBlink.write s.blinking), ("option_as_meta", .bool s.optionAsMeta),
    ("copy_on_select", .bool s.copyOnSelect),
    ("sftp_upload_max_concurrency", writeUnsigned s.sftpUploadMaxConcurrency),
    ("minimum_contrast", libs.f32.value s.minimumContrast),
    ("show_scrollbar", .bool s.showScrollbar), ("show_line_numbers", .bool s.showLineNumbers),
    ("suggestions_enabled", .bool s.suggestionsEnabled),
    ("suggestions_max_items", writeUnsigned s.suggestionsMaxItems)]

/-- `TerminalSettings`. -/
structure TerminalSettings (libs : Libraries) where
  settings : TermSettings libs
  defaultBackend : TerminalBackend
  sshBackend : SshBackend
  webSharingPort : BitVec 16
  webSharingTimeoutMinutes : BitVec 16

/-- `DEFAULT_WEB_SHARING_PORT`. -/
def defaultWebSharingPort : BitVec 16 := 7681

/-- `DEFAULT_WEB_SHARING_TIMEOUT_MINUTES`. -/
def defaultWebSharingTimeoutMinutes : BitVec 16 := 30

/-- `is_valid_web_sharing_port`. -/
def IsValidWebSharingPort (port : BitVec 16) : Prop := 1024 ≤ port
  deriving Decidable

/-- `configured_web_sharing_port`. -/
def configuredWebSharingPort (port : Option (BitVec 16)) : BitVec 16 :=
  (port.filter fun port => IsValidWebSharingPort port).getD defaultWebSharingPort

/-- `is_valid_web_sharing_timeout_minutes`. -/
def IsValidWebSharingTimeoutMinutes (minutes : BitVec 16) : Prop :=
  minutes = 30 ∨ minutes = 60 ∨ minutes = 120
  deriving Decidable

/-- `configured_web_sharing_timeout_minutes`. -/
def configuredWebSharingTimeoutMinutes (minutes : Option (BitVec 16)) : BitVec 16 :=
  (minutes.filter fun minutes => IsValidWebSharingTimeoutMinutes minutes).getD
    defaultWebSharingTimeoutMinutes

namespace TerminalSettings

/-- `TerminalSettings::default`. -/
def default : TerminalSettings libs where
  settings :=
    { TermSettings.new with fontFeatures := setCaltFontFeature true libs.disableLigatures }
  defaultBackend := .alacritty
  sshBackend := .ssh2
  webSharingPort := defaultWebSharingPort
  webSharingTimeoutMinutes := defaultWebSharingTimeoutMinutes

/-- `ligatures_enabled`. -/
def ligaturesEnabled (s : TerminalSettings libs) : Bool :=
  libs.isCaltEnabled s.settings.fontFeatures = some true

/-- The fields beside the font features, which `TerminalSettings::serialize` puts in. -/
def mapWithoutFeatures (s : TerminalSettings libs) : AList fun _ : String => Value :=
  putAll s.settings.entries
    |> put "default_backend" (terminalBackend.write s.defaultBackend)
    |> put "ssh_backend" (Settings.sshBackend.write s.sshBackend)
    |> put "web_sharing_port" (writeUnsigned s.webSharingPort)
    |> put "web_sharing_timeout_minutes" (writeUnsigned s.webSharingTimeoutMinutes)
    |> put "ligatures" (.bool s.ligaturesEnabled)

/-- `TerminalSettings::serialize`. -/
def write (s : TerminalSettings libs) : Value :=
  let extraFontFeatures := fontFeaturesWithoutCalt s.settings.fontFeatures
  let map :=
    if extraFontFeatures = [] then s.mapWithoutFeatures.erase "font_features"
    else put "font_features" (libs.writeFontFeatures extraFontFeatures) s.mapWithoutFeatures
  writeStruct (pairs map)

end TerminalSettings

/-! ## Patch of the terminal -/

/-- `TerminalSettingsPatch`. -/
structure TerminalSettingsPatch (libs : Libraries) where
  defaultBackend : Option TerminalBackend
  sshBackend : Option SshBackend
  webSharingPort : Option (BitVec 16)
  webSharingTimeoutMinutes : Option (BitVec 16)
  ligatures : Option Bool
  fontSize : Option libs.F32
  fontFamily : Option Text
  fontFallbacks : Option (Option libs.FontFallbacks)
  fontFeatures : Option FontFeatures
  fontWeight : Option libs.F32
  lineHeight : Option (TerminalLineHeight libs)
  env : Option TextMap
  cursorShape : Option (Option CursorShape)
  blinking : Option TerminalBlink
  optionAsMeta : Option Bool
  copyOnSelect : Option Bool
  sftpUploadMaxConcurrency : Option (BitVec 64)
  minimumContrast : Option libs.F32
  showScrollbar : Option Bool
  showLineNumbers : Option Bool
  suggestionsEnabled : Option Bool
  suggestionsMaxItems : Option (BitVec 64)

namespace TerminalSettingsPatch

/-- The names of the fields. -/
def names : List String :=
  ["default_backend", "ssh_backend", "web_sharing_port", "web_sharing_timeout_minutes",
    "ligatures", "font_size", "font_family", "font_fallbacks", "font_features", "font_weight",
    "line_height", "env", "cursor_shape", "blinking", "option_as_meta", "copy_on_select",
    "sftp_upload_max_concurrency", "minimum_contrast", "show_scrollbar", "show_line_numbers",
    "suggestions_enabled", "suggestions_max_items"]

/-- A field of the patch. -/
def optional {α : Type} (read : Value → Option α) : Option Value → Option (Option α) :=
  field (readOption read) none

/-- `TerminalSettingsPatch::deserialize`, from the fields. -/
def ofFields (fields : Fields) : Option (TerminalSettingsPatch libs) := do
  let defaultBackend ← optional terminalBackend.read (fields "default_backend")
  let sshBackend ← optional Settings.sshBackend.read (fields "ssh_backend")
  let webSharingPort ← optional (readUnsigned 16) (fields "web_sharing_port")
  let webSharingTimeoutMinutes ← optional (readUnsigned 16) (fields "web_sharing_timeout_minutes")
  let ligatures ← optional readBool (fields "ligatures")
  let fontSize ← optional (readFloat libs.f32.read) (fields "font_size")
  let fontFamily ← optional readText (fields "font_family")
  let fontFallbacks ← optional (readOption libs.readFontFallbacks) (fields "font_fallbacks")
  let fontFeatures ← optional libs.readFontFeatures (fields "font_features")
  let fontWeight ← optional (readFloat libs.f32.read) (fields "font_weight")
  let lineHeight ← optional TerminalLineHeight.read (fields "line_height")
  let env ← optional readTextMap (fields "env")
  let cursorShape ← optional (readOption Settings.cursorShape.read) (fields "cursor_shape")
  let blinking ← optional terminalBlink.read (fields "blinking")
  let optionAsMeta ← optional readBool (fields "option_as_meta")
  let copyOnSelect ← optional readBool (fields "copy_on_select")
  let sftpUploadMaxConcurrency ← optional (readUnsigned 64) (fields "sftp_upload_max_concurrency")
  let minimumContrast ← optional (readFloat libs.f32.read) (fields "minimum_contrast")
  let showScrollbar ← optional readBool (fields "show_scrollbar")
  let showLineNumbers ← optional readBool (fields "show_line_numbers")
  let suggestionsEnabled ← optional readBool (fields "suggestions_enabled")
  let suggestionsMaxItems ← optional (readUnsigned 64) (fields "suggestions_max_items")
  return ⟨defaultBackend, sshBackend, webSharingPort, webSharingTimeoutMinutes, ligatures,
    fontSize, fontFamily, fontFallbacks, fontFeatures, fontWeight, lineHeight, env, cursorShape,
    blinking, optionAsMeta, copyOnSelect, sftpUploadMaxConcurrency, minimumContrast,
    showScrollbar, showLineNumbers, suggestionsEnabled, suggestionsMaxItems⟩

/-- `TerminalSettingsPatch::deserialize`. -/
def read (v : Value) : Option (TerminalSettingsPatch libs) := (structFields names v).bind ofFields

/-- `TerminalSettingsPatch::default`. -/
def default : TerminalSettingsPatch libs where
  defaultBackend := none
  sshBackend := none
  webSharingPort := none
  webSharingTimeoutMinutes := none
  ligatures := none
  fontSize := none
  fontFamily := none
  fontFallbacks := none
  fontFeatures := none
  fontWeight := none
  lineHeight := none
  env := none
  cursorShape := none
  blinking := none
  optionAsMeta := none
  copyOnSelect := none
  sftpUploadMaxConcurrency := none
  minimumContrast := none
  showScrollbar := none
  showLineNumbers := none
  suggestionsEnabled := none
  suggestionsMaxItems := none

/-- `usize::clamp`. -/
def clamp (lower upper n : BitVec 64) : BitVec 64 :=
  if n < lower then lower else if upper < n then upper else n

/-- The font features of `apply_to`. -/
def features (patch : TerminalSettingsPatch libs) (old : FontFeatures) : FontFeatures :=
  match patch.ligatures with
  | some enabled => setCaltFontFeature enabled (patch.fontFeatures.getD old)
  | none => patch.fontFeatures.getD old

/-- `apply_to`. -/
def applyTo (patch : TerminalSettingsPatch libs) (s : TermSettings libs) : TermSettings libs where
  fontSize := patch.fontSize.getD s.fontSize
  fontFamily := patch.fontFamily.getD s.fontFamily
  fontFallbacks := patch.fontFallbacks.getD s.fontFallbacks
  fontFeatures := patch.features s.fontFeatures
  fontWeight := patch.fontWeight.getD s.fontWeight
  lineHeight := patch.lineHeight.getD s.lineHeight
  env := patch.env.getD s.env
  cursorShape := patch.cursorShape.getD s.cursorShape
  blinking := patch.blinking.getD s.blinking
  optionAsMeta := patch.optionAsMeta.getD s.optionAsMeta
  copyOnSelect := patch.copyOnSelect.getD s.copyOnSelect
  sftpUploadMaxConcurrency :=
    (patch.sftpUploadMaxConcurrency.map (clamp 2 15)).getD s.sftpUploadMaxConcurrency
  minimumContrast := patch.minimumContrast.getD s.minimumContrast
  showScrollbar := patch.showScrollbar.getD s.showScrollbar
  showLineNumbers := patch.showLineNumbers.getD s.showLineNumbers
  suggestionsEnabled := patch.suggestionsEnabled.getD s.suggestionsEnabled
  suggestionsMaxItems := patch.suggestionsMaxItems.getD s.suggestionsMaxItems

/-- The settings of the terminal that `load_from_str_lenient` makes of the patch. -/
def settings (patch : TerminalSettingsPatch libs) : TerminalSettings libs where
  settings := patch.applyTo TerminalSettings.default.settings
  defaultBackend := patch.defaultBackend.getD .alacritty
  sshBackend := patch.sshBackend.getD .ssh2
  webSharingPort := configuredWebSharingPort patch.webSharingPort
  webSharingTimeoutMinutes := configuredWebSharingTimeoutMinutes patch.webSharingTimeoutMinutes

end TerminalSettingsPatch

/-! ## File -/

/-- `SettingsFile`. -/
structure SettingsFile (libs : Libraries) where
  appearance : AppearanceSettings
  terminal : TerminalSettings libs
  terminalKeybindings : TerminalKeyBindings
  recording : RecordingSettings libs
  logging : LoggingSettings
  ui : UiSettings
  assistant : AssistantSettings libs
  lockScreen : LockScreenSettings

/-- `SettingsFilePatch`. -/
structure SettingsFilePatch (libs : Libraries) where
  appearance : AppearanceSettings
  recording : RecordingSettings libs
  logging : LoggingSettings
  ui : UiSettings
  assistant : AssistantSettings libs
  lockScreen : LockScreenSettings
  terminal : TerminalSettingsPatch libs
  terminalKeybindings : TerminalKeyBindings

/-- `SettingsFilePatch::deserialize`. -/
def SettingsFilePatch.read (v : Value) : Option (SettingsFilePatch libs) := do
  let fields ← structFields
    ["appearance", "recording", "logging", "ui", "assistant", "lock_screen", "terminal",
      "terminal_keybindings"] v
  let appearance ← field AppearanceSettings.read .default (fields "appearance")
  let recording ← field RecordingSettings.read .default (fields "recording")
  let logging ← field LoggingSettings.read .default (fields "logging")
  let ui ← field UiSettings.read .default (fields "ui")
  let assistant ← field AssistantSettings.read .default (fields "assistant")
  let lockScreen ← field LockScreenSettings.read .default (fields "lock_screen")
  let terminal ← field TerminalSettingsPatch.read .default (fields "terminal")
  let terminalKeybindings ← field TerminalKeyBindings.read .default
    (fields "terminal_keybindings")
  return ⟨appearance, recording, logging, ui, assistant, lockScreen, terminal,
    terminalKeybindings⟩

/-- `from_str_lenient` of serde_json_lenient, for the patch. -/
def SettingsFilePatch.fromStrLenient (json : Text) : Option (SettingsFilePatch libs) :=
  (libs.fromStrLenient json).bind read

namespace SettingsFile

/-- The settings that `load_from_str_lenient` makes of the patch. -/
def ofPatch (patch : SettingsFilePatch libs) : SettingsFile libs where
  appearance := patch.appearance
  terminal := patch.terminal.settings
  terminalKeybindings := patch.terminalKeybindings
  recording := patch.recording
  logging := patch.logging
  ui := patch.ui
  assistant := patch.assistant
  lockScreen := patch.lockScreen

/-- `load_from_str_lenient`. -/
def loadFromStrLenient (json : Text) : Option (SettingsFile libs) :=
  (SettingsFilePatch.fromStrLenient json).map ofPatch

/-- `SettingsFile::serialize`. -/
def write (s : SettingsFile libs) : Value :=
  writeStruct [("appearance", s.appearance.write), ("terminal", s.terminal.write),
    ("terminal_keybindings", s.terminalKeybindings.write), ("recording", s.recording.write),
    ("logging", s.logging.write), ("ui", s.ui.write), ("assistant", s.assistant.write),
    ("lock_screen", s.lockScreen.write)]

/-- `to_json_pretty`. -/
def toJsonPretty (s : SettingsFile libs) : Text := libs.toStringPretty s.write

end SettingsFile

end Termua.Settings
