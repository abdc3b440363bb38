import Mathlib
import Termua.Settings.File

/-!
# Saving and loading the settings

Every field of settings that were loaded is read back from the text that is saved, but the font
features: without the contextual alternates, each tag once, and the state of the ligatures behind them
(`load_toJsonPretty`). So the settings are the same after a reload exactly when the document has its
font features in that form (`reload_iff`).
-/

namespace Termua.Settings

open Json (Value Numeral)
open Serde (Text TextMap Reads Variants Fields structFields field readBool readText readOption
  readUnsigned readFloat readTextMap writeTextMap writeUnsigned writeOption writeStruct put putAll
  pairs)
open Session (TerminalBackend)

variable {libs : Libraries}

/-! ## Font features -/

section FontFeatures

variable {features extra post : FontFeatures} {enabled : Bool} {value : BitVec 32}

/-- The contextual alternates are not among the features. -/
def NoCalt (features : FontFeatures) : Prop := ∀ e ∈ features, e.1 ≠ calt

theorem noCalt_without (features : FontFeatures) : NoCalt (fontFeaturesWithoutCalt features) :=
  fun _ he => of_decide_eq_true (List.mem_filter.mp he).2

theorem without_of_noCalt (h : NoCalt features) : fontFeaturesWithoutCalt features = features :=
  List.filter_eq_self.mpr fun e he => decide_eq_true (h e he)

theorem without_append (h : NoCalt extra) :
    fontFeaturesWithoutCalt (extra ++ [(calt, value)]) = extra := by
  unfold fontFeaturesWithoutCalt at *
  rw [List.filter_append, List.filter_cons_of_neg (by simp), List.filter_nil, List.append_nil]
  exact without_of_noCalt h

theorem set_of_noCalt (h : NoCalt features) :
    setCaltFontFeature enabled features = features ++ [(calt, flag enabled)] := by
  induction features with
  | nil => rfl
  | cons e features ih =>
    unfold setCaltFontFeature
    rw [if_neg (h e List.mem_cons_self), ih fun f hf => h f (List.mem_cons_of_mem _ hf)]
    rfl

theorem set_append (h : NoCalt extra) :
    setCaltFontFeature enabled (extra ++ (calt, value) :: post)
      = extra ++ (calt, flag enabled) :: post := by
  induction extra with
  | nil => exact if_pos rfl
  | cons e extra ih =>
    show setCaltFontFeature enabled (e :: (extra ++ (calt, value) :: post)) = _
    unfold setCaltFontFeature
    rw [if_neg (h e List.mem_cons_self), ih fun f hf => h f (List.mem_cons_of_mem _ hf)]
    rfl

/-- A list of features has no contextual alternates or a first place of them. -/
theorem noCalt_or_split (features : FontFeatures) :
    NoCalt features ∨ ∃ extra value post, NoCalt extra ∧ features = extra ++ (calt, value) :: post := by
  induction features with
  | nil => exact .inl nofun
  | cons e features ih =>
    by_cases he : e.1 = calt
    · exact .inr ⟨[], e.2, features, nofun, by rw [← he]; rfl⟩
    · rcases ih with hno | ⟨extra, value, post, hno, rfl⟩
      · exact .inl (List.forall_mem_cons.mpr ⟨he, hno⟩)
      · exact .inr ⟨e :: extra, value, post, List.forall_mem_cons.mpr ⟨he, hno⟩, rfl⟩

theorem without_set :
    fontFeaturesWithoutCalt (setCaltFontFeature enabled features)
      = fontFeaturesWithoutCalt features := by
  rcases noCalt_or_split features with hno | ⟨extra, value, post, hno, rfl⟩
  · rw [set_of_noCalt hno, without_append hno, without_of_noCalt hno]
  · rw [set_append hno]
    unfold fontFeaturesWithoutCalt
    rw [List.filter_append, List.filter_append, List.filter_cons_of_neg (by simp),
      List.filter_cons_of_neg (by simp)]

theorem lookup_append (h : NoCalt extra) :
    (extra ++ (calt, value) :: post).lookup calt = some value := by
  induction extra with
  | nil => exact List.lookup_cons_self
  | cons e extra ih =>
    obtain ⟨tag, v⟩ := e
    have htag : tag ≠ calt := h _ List.mem_cons_self
    rw [List.cons_append, Serde.lookup_cons, if_neg htag.symm,
      ih fun f hf => h f (List.mem_cons_of_mem _ hf)]

/-- Features as they are saved beside the flag of the ligatures: each tag once. -/
structure Plain (features : FontFeatures) : Prop where
  nodup : (features.map (·.1)).Nodup
  noCalt : NoCalt features

/-- The features of a saved document: plain ones with the ligatures behind them. -/
def Settled (features : FontFeatures) : Prop :=
  ∃ extra enabled, Plain extra ∧ features = extra ++ [(calt, flag enabled)]

theorem plain_putAll (features : FontFeatures) :
    Plain (pairs (putAll (fontFeaturesWithoutCalt features))) where
  nodup := Serde.nodup_pairs _
  noCalt e he := by
    obtain ⟨f, hf, htag⟩ := List.mem_map.mp (Serde.mem_of_mem_pairs_putAll he)
    exact htag ▸ noCalt_without features f hf

/-- Setting the ligatures settles plain features, whether or not they were there before. -/
theorem settled_set :
    Settled (setCaltFontFeature enabled features) ↔
      Plain features ∨ ∃ extra value, Plain extra ∧ features = extra ++ [(calt, value)] := by
  constructor
  · rintro ⟨plain, on, hplain, heq⟩
    rcases noCalt_or_split features with hno | ⟨extra, value, post, hno, rfl⟩
    · rw [set_of_noCalt hno] at heq
      exact .inl ((List.append_inj' heq rfl).1 ▸ hplain)
    · rw [set_append hno] at heq
      have hwhile := congrArg (List.takeWhile fun e => decide (e.1 ≠ calt)) heq
      have hfirst {pre post : FontFeatures} {v : BitVec 32} (h : NoCalt pre) :
          (pre ++ (calt, v) :: post).takeWhile (fun e => decide (e.1 ≠ calt)) = pre := by
        rw [List.takeWhile_append_of_pos fun e he => decide_eq_true (h e he),
          List.takeWhile_cons_of_neg (by simp), List.append_nil]
      rw [hfirst hno, hfirst hplain.noCalt] at hwhile
      subst hwhile
      have hpost : post = [] := (List.cons.inj (List.append_cancel_left heq)).2
      exact .inr ⟨extra, value, hplain, by rw [hpost]⟩
  · rintro (hplain | ⟨extra, value, hplain, rfl⟩)
    · exact ⟨features, enabled, hplain, set_of_noCalt hplain.noCalt⟩
    · exact ⟨extra, enabled, hplain, set_append hplain.noCalt⟩

end FontFeatures

/-! ## Settings of the terminal -/

section Terminal

/-- A field that was written is there. -/
theorem optional_of_reads {α : Type} {read : Value → Option α} {v : Value} {x : α}
    (h : Reads read v x) : TerminalSettingsPatch.optional read (some v) = some (some x) :=
  h.readOption

/-- A field with an option that was written is there unless it is nothing. -/
theorem optional_option {α : Type} {read : Value → Option α} {write : α → Value}
    (h : ∀ x, Reads read (write x) x) (x : Option α) :
    TerminalSettingsPatch.optional (readOption read) (some (writeOption write x))
      = some (x.map some) := by
  rcases x with _ | x
  · rfl
  · exact optional_of_reads ⟨(h x).readOption, (h x).ne_null⟩

namespace TerminalSettings

variable (s : TerminalSettings libs)

/-- The font features that are read from what was saved, if they are there. -/
def savedFeatures : Option FontFeatures :=
  let extra := fontFeaturesWithoutCalt s.settings.fontFeatures
  if extra = [] then none else some (pairs (putAll extra))

/-- The patch that is read from what was saved. -/
def patch : TerminalSettingsPatch libs where
  defaultBackend := some s.defaultBackend
  sshBackend := some s.sshBackend
  webSharingPort := some s.webSharingPort
  webSharingTimeoutMinutes := some s.webSharingTimeoutMinutes
  ligatures := some s.ligaturesEnabled
  fontSize := some s.settings.fontSize
  fontFamily := some s.settings.fontFamily
  fontFallbacks := s.settings.fontFallbacks.map some
  fontFeatures := s.savedFeatures
  fontWeight := some s.settings.fontWeight
  lineHeight := some s.settings.lineHeight
  env := some s.settings.env
  cursorShape := s.settings.cursorShape.map some
  blinking := some s.settings.blinking
  optionAsMeta := some s.settings.optionAsMeta
  copyOnSelect := some s.settings.copyOnSelect
  sftpUploadMaxConcurrency := some s.settings.sftpUploadMaxConcurrency
  minimumContrast := some s.settings.minimumContrast
  showScrollbar := some s.settings.showScrollbar
  showLineNumbers := some s.settings.showLineNumbers
  suggestionsEnabled := some s.settings.suggestionsEnabled
  suggestionsMaxItems := some s.settings.suggestionsMaxItems

/-- The map of the fields that is saved. -/
def map : AList fun _ : String => Value :=
  let extra := fontFeaturesWithoutCalt s.settings.fontFeatures
  if extra = [] then s.mapWithoutFeatures.erase "font_features"
  else put "font_features" (libs.writeFontFeatures extra) s.mapWithoutFeatures

theorem lookup_mapWithoutFeatures (name : String) : s.mapWithoutFeatures.lookup name
    = if name = "ligatures" then some (.bool s.ligaturesEnabled)
      else if name = "web_sharing_timeout_minutes" then
        some (writeUnsigned s.webSharingTimeoutMinutes)
      else if name = "web_sharing_port" then some (writeUnsigned s.webSharingPort)
      else if name = "ssh_backend" then some (Settings.sshBackend.write s.sshBackend)
      else if name = "default_backend" then some (terminalBackend.write s.defaultBackend)
      else s.settings.entries.lookup name := by
  have hnodup : (s.settings.entries.map (·.1)).Nodup := by simp [TermSettings.entries]
  unfold mapWithoutFeatures
  simp only [Serde.lookup_put, Serde.lookup_putAll hnodup]

theorem lookup_map_of_ne {name : String} (h : name ≠ "font_features") :
    s.map.lookup name = s.mapWithoutFeatures.lookup name := by
  unfold map
  simp only
  split
  · exact AList.lookup_erase_ne h
  · rw [Serde.lookup_put, if_neg h]

/-- The features that are saved are read, if there are any. -/
theorem optional_fontFeatures
    (h : ∀ e ∈ fontFeaturesWithoutCalt s.settings.fontFeatures, libs.isFeatureTag e.1) :
    TerminalSettingsPatch.optional libs.readFontFeatures (s.map.lookup "font_features")
      = some s.savedFeatures := by
  unfold map savedFeatures
  simp only
  split
  · rw [AList.lookup_erase]
    rfl
  · rw [Serde.lookup_put, if_pos rfl]
    refine optional_of_reads ⟨?_, by rw [libs.writeFontFeatures_eq]; nofun⟩
    rw [libs.writeFontFeatures_eq]
    refine libs.readFontFeatures_object fun e he => ?_
    obtain ⟨f, hf, htag⟩ := List.mem_map.mp (Serde.mem_of_mem_pairs_putAll he)
    exact htag ▸ h f hf

theorem read_write
    (h : ∀ e ∈ fontFeaturesWithoutCalt s.settings.fontFeatures, libs.isFeatureTag e.1) :
    TerminalSettingsPatch.read s.write = some s.patch := by
  have hfields : structFields TerminalSettingsPatch.names s.write
      = some fun name => s.map.lookup name := by
    refine (Serde.structFields_writeStruct (Serde.nodup_pairs s.map)).trans ?_
    exact congrArg some (funext fun name => Serde.lookup_pairs)
  unfold TerminalSettingsPatch.read
  rw [hfields]
  unfold TerminalSettingsPatch.ofFields
  simp only [Option.bind_some, s.optional_fontFeatures h]
  have hlookup := s.lookup_mapWithoutFeatures
  unfold TermSettings.entries at hlookup
  simp only [Serde.lookup_cons] at hlookup
  simp only [lookup_map_of_ne, ne_eq, String.reduceEq, not_false_eq_true, hlookup, if_true,
    if_false]
  simp only [optional_of_reads (Serde.reads_variant _ _), optional_of_reads (Serde.reads_bool _),
    optional_of_reads (Serde.reads_unsigned _), optional_of_reads (Serde.reads_text _),
    optional_of_reads (Serde.reads_textMap _), optional_of_reads (libs.f32.reads_value _),
    optional_of_reads (reads_lineHeight _), optional_option libs.reads_fontFallbacks,
    optional_option (Serde.reads_variant cursorShape)]
  rfl

/-- The numbers of the settings are in their ranges. -/
structure InRange (s : TerminalSettings libs) : Prop where
  concurrency : TerminalSettingsPatch.clamp 2 15 s.settings.sftpUploadMaxConcurrency
    = s.settings.sftpUploadMaxConcurrency
  port : IsValidWebSharingPort s.webSharingPort
  timeout : IsValidWebSharingTimeoutMinutes s.webSharingTimeoutMinutes
  tags : ∀ e ∈ fontFeaturesWithoutCalt s.settings.fontFeatures, libs.isFeatureTag e.1

/-- The font features after saving and loading. -/
def reloadedFeatures (s : TerminalSettings libs) : FontFeatures :=
  pairs (putAll (fontFeaturesWithoutCalt s.settings.fontFeatures))
    ++ [(calt, flag s.ligaturesEnabled)]

theorem features_patch (s : TerminalSettings libs) :
    s.patch.features (default : TerminalSettings libs).settings.fontFeatures = s.reloadedFeatures := by
  have hdefault : (default : TerminalSettings libs).settings.fontFeatures = [(calt, flag true)] := by
    unfold default
    rw [libs.disableLigatures_eq]
    rfl
  unfold TerminalSettingsPatch.features patch savedFeatures reloadedFeatures
  rw [hdefault]
  simp only
  split
  · next hnone =>
    rw [hnone]
    rfl
  · exact set_of_noCalt (plain_putAll _).noCalt

/-- Every field of the terminal is read back, but the font features. -/
theorem settings_patch {s : TerminalSettings libs} (h : s.InRange) :
    s.patch.settings = { s with
      settings := { s.settings with fontFeatures := s.reloadedFeatures } } := by
  have hport : configuredWebSharingPort (some s.webSharingPort) = s.webSharingPort := by
    simp [configuredWebSharingPort, Option.filter, h.port]
  have htimeout : configuredWebSharingTimeoutMinutes (some s.webSharingTimeoutMinutes)
      = s.webSharingTimeoutMinutes := by
    simp [configuredWebSharingTimeoutMinutes, Option.filter, h.timeout]
  have hfallbacks {α : Type} (x : Option α) : (x.map some).getD none = x := by cases x <;> rfl
  unfold TerminalSettingsPatch.settings TerminalSettingsPatch.applyTo
  rw [features_patch]
  unfold patch
  simp only [hport, htimeout, Option.getD_some, Option.map_some, h.concurrency]
  rw [show (default : TerminalSettings libs).settings.fontFallbacks = none from rfl,
    show (default : TerminalSettings libs).settings.cursorShape = none from rfl,
    hfallbacks, hfallbacks]

end TerminalSettings

/-! ## What was loaded -/

theorem optional_of_ofFields {fields : Fields} {patch : TerminalSettingsPatch libs}
    (h : TerminalSettingsPatch.ofFields fields = some patch) :
    TerminalSettingsPatch.optional libs.readFontFeatures (fields "font_features")
      = some patch.fontFeatures := by
  unfold TerminalSettingsPatch.ofFields at h
  -- the eight fields before the features, and the thirteen behind them
  iterate 8 obtain ⟨_, -, h⟩ := Option.bind_eq_some_iff.mp h
  obtain ⟨features, hfeatures, h⟩ := Option.bind_eq_some_iff.mp h
  iterate 13 obtain ⟨_, -, h⟩ := Option.bind_eq_some_iff.mp h
  cases h
  exact hfeatures

/-- The tags of features that were read are tags. -/
theorem isFeatureTag_of_read {v : Value} {patch : TerminalSettingsPatch libs}
    (h : TerminalSettingsPatch.read v = some patch) :
    ∀ features ∈ patch.fontFeatures, ∀ e ∈ features, libs.isFeatureTag e.1 := by
  obtain ⟨fields, -, hfields⟩ := Option.bind_eq_some_iff.mp h
  have hread := optional_of_ofFields hfields
  intro features hmem
  rw [hmem] at hread
  rcases hfield : fields "font_features" with _ | v
  · rw [hfield] at hread
    exact absurd hread nofun
  · rw [hfield] at hread
    change readOption libs.readFontFeatures v = some (some features) at hread
    unfold readOption at hread
    split at hread
    · exact absurd hread nofun
    · obtain ⟨_, hv, heq⟩ := Option.map_eq_some_iff.mp hread
      cases heq
      exact libs.isFeatureTag_of_read hv

namespace TerminalSettingsPatch

variable {patch : TerminalSettingsPatch libs}

/-- The features that were loaded are those of the document, or the ligatures alone. -/
theorem without_features :
    fontFeaturesWithoutCalt patch.settings.settings.fontFeatures
      = fontFeaturesWithoutCalt (patch.fontFeatures.getD []) := by
  have hdefault : fontFeaturesWithoutCalt
      (TerminalSettings.default : TerminalSettings libs).settings.fontFeatures = [] := by
    unfold TerminalSettings.default
    rw [libs.disableLigatures_eq, without_set]
    rfl
  have hgetD : fontFeaturesWithoutCalt (patch.fontFeatures.getD
      (TerminalSettings.default : TerminalSettings libs).settings.fontFeatures)
        = fontFeaturesWithoutCalt (patch.fontFeatures.getD []) := by
    rcases patch.fontFeatures with _ | features
    · exact hdefault
    · rfl
  show fontFeaturesWithoutCalt (patch.features _) = _
  unfold features
  split
  · rw [without_set, hgetD]
  · exact hgetD

theorem clamp_clamp (n : BitVec 64) : clamp 2 15 (clamp 2 15 n) = clamp 2 15 n := by
  unfold clamp
  split_ifs <;> first | rfl | simp_all

theorem inRange (h : ∀ features ∈ patch.fontFeatures, ∀ e ∈ features, libs.isFeatureTag e.1) :
    patch.settings.InRange where
  concurrency := by
    show clamp 2 15 ((patch.sftpUploadMaxConcurrency.map (clamp 2 15)).getD 5)
      = (patch.sftpUploadMaxConcurrency.map (clamp 2 15)).getD 5
    rcases patch.sftpUploadMaxConcurrency with _ | n
    · decide
    · exact clamp_clamp n
  port := by
    show IsValidWebSharingPort (configuredWebSharingPort patch.webSharingPort)
    unfold configuredWebSharingPort
    rcases hport : patch.webSharingPort.filter fun port => IsValidWebSharingPort port with _ | port
    · decide
    · simpa using (Option.filter_eq_some_iff.mp hport).2
  timeout := by
    show IsValidWebSharingTimeoutMinutes
      (configuredWebSharingTimeoutMinutes patch.webSharingTimeoutMinutes)
    unfold configuredWebSharingTimeoutMinutes
    rcases htimeout : patch.webSharingTimeoutMinutes.filter fun minutes =>
      IsValidWebSharingTimeoutMinutes minutes with _ | minutes
    · decide
    · simpa using (Option.filter_eq_some_iff.mp htimeout).2
  tags := by
    rw [without_features]
    rcases hfeatures : patch.fontFeatures with _ | features
    · exact nofun
    · exact fun e he => h features hfeatures e (List.mem_of_mem_filter he)

end TerminalSettingsPatch

end Terminal

/-! ## The file -/

namespace SettingsFile

/-- The patch that is read from what was saved. -/
def patch (s : SettingsFile libs) : SettingsFilePatch libs where
  appearance := s.appearance
  recording := s.recording
  logging := s.logging
  ui := s.ui
  assistant := s.assistant
  lockScreen := s.lockScreen
  terminal := s.terminal.patch
  terminalKeybindings := s.terminalKeybindings

theorem read_write {s : SettingsFile libs} (h : s.terminal.InRange) :
    SettingsFilePatch.read s.write = some s.patch := by
  unfold SettingsFilePatch.read write
  rw [Serde.structFields_writeStruct (by simp)]
  simp [Serde.lookup_cons, AppearanceSettings.read_write, RecordingSettings.read_write,
    LoggingSettings.read_write, UiSettings.read_write, AssistantSettings.read_write,
    LockScreenSettings.read_write, TerminalKeyBindings.read_write,
    s.terminal.read_write h.tags, patch]

/-- Settings that were saved are loaded with every field but the font features. -/
theorem load_toJsonPretty {s : SettingsFile libs} (h : s.terminal.InRange) :
    loadFromStrLenient s.toJsonPretty = some
      { s with terminal := { s.terminal with
        settings := { s.terminal.settings with fontFeatures := s.terminal.reloadedFeatures } } } := by
  unfold loadFromStrLenient SettingsFilePatch.fromStrLenient toJsonPretty
  rw [libs.fromStrLenient_toStringPretty, Option.bind_some, read_write h, Option.map_some]
  exact congrArg (fun terminal => some { s with terminal }) (TerminalSettings.settings_patch h)

theorem terminal_of_read {v : Value} {patch : SettingsFilePatch libs}
    (h : SettingsFilePatch.read v = some patch) :
    patch.terminal = .default ∨ ∃ v, TerminalSettingsPatch.read v = some patch.terminal := by
  obtain ⟨fields, -, h⟩ := Option.bind_eq_some_iff.mp h
  iterate 6 obtain ⟨_, -, h⟩ := Option.bind_eq_some_iff.mp h
  obtain ⟨terminal, hterminal, h⟩ := Option.bind_eq_some_iff.mp h
  obtain ⟨_, -, h⟩ := Option.bind_eq_some_iff.mp h
  cases h
  rcases hfield : fields "terminal" with _ | w
  · rw [hfield] at hterminal
    exact .inl (Option.some.inj hterminal).symm
  · rw [hfield] at hterminal
    exact .inr ⟨w, hterminal⟩

/-- The numbers and the feature tags of settings that were loaded are in their ranges. -/
theorem inRange_ofPatch {json : Text} {patch : SettingsFilePatch libs}
    (h : SettingsFilePatch.fromStrLenient json = some patch) : (ofPatch patch).terminal.InRange := by
  obtain ⟨v, -, hread⟩ := Option.bind_eq_some_iff.mp h
  refine TerminalSettingsPatch.inRange ?_
  rcases terminal_of_read hread with hdefault | ⟨w, hw⟩
  · rw [hdefault]
    exact nofun
  · exact isFeatureTag_of_read hw

end SettingsFile

/-- The font features of the document are in the form in which they are saved. Where the document also
sets the ligatures, the value of `calt` does not matter. -/
def TerminalSettingsPatch.KeepsFeatures (patch : TerminalSettingsPatch libs) : Prop :=
  ∀ features ∈ patch.fontFeatures,
    match patch.ligatures with
    | none => ∃ extra enabled, Plain extra ∧ features = extra ++ [(calt, flag enabled)]
    | some _ => Plain features ∨ ∃ extra value, Plain extra ∧ features = extra ++ [(calt, value)]

theorem settled_features (patch : TerminalSettingsPatch libs) :
    Settled patch.settings.settings.fontFeatures ↔ patch.KeepsFeatures := by
  have hdefault : (TerminalSettings.default : TerminalSettings libs).settings.fontFeatures
      = [(calt, flag true)] := by
    unfold TerminalSettings.default
    rw [libs.disableLigatures_eq]
    rfl
  have hplain : Plain [] := ⟨List.nodup_nil, nofun⟩
  show Settled (patch.features _) ↔ _
  unfold TerminalSettingsPatch.features TerminalSettingsPatch.KeepsFeatures
  rw [hdefault]
  rcases patch.fontFeatures with _ | features <;> rcases patch.ligatures with _ | enabled
  · exact iff_of_true ⟨[], true, hplain, rfl⟩ nofun
  · exact iff_of_true ⟨[], enabled, hplain, rfl⟩ nofun
  · simp [Settled]
  · simpa using settled_set

theorem reloadedFeatures_eq_iff (s : TerminalSettings libs) :
    s.reloadedFeatures = s.settings.fontFeatures ↔ Settled s.settings.fontFeatures := by
  unfold TerminalSettings.reloadedFeatures
  constructor
  · intro h
    exact ⟨_, s.ligaturesEnabled, plain_putAll _, h.symm⟩
  · rintro ⟨extra, enabled, hplain, heq⟩
    have henabled : s.ligaturesEnabled = enabled := by
      unfold TerminalSettings.ligaturesEnabled
      rw [libs.isCaltEnabled_eq, heq, lookup_append hplain.noCalt]
      cases enabled <;> decide
    rw [henabled, heq, without_append hplain.noCalt, Serde.pairs_putAll hplain.nodup]

/-- Settings that were loaded are the same after saving and loading exactly when the document has its
font features in the form in which they are saved. -/
theorem reload_iff {json : Text} {patch : SettingsFilePatch libs}
    (h : SettingsFilePatch.fromStrLenient json = some patch) :
    SettingsFile.loadFromStrLenient json = some (.ofPatch patch) ∧
      (SettingsFile.loadFromStrLenient (SettingsFile.ofPatch patch).toJsonPretty
          = some (.ofPatch patch) ↔ patch.terminal.KeepsFeatures) := by
  refine ⟨congrArg (Option.map _) h, ?_⟩
  rw [SettingsFile.load_toJsonPretty (SettingsFile.inRange_ofPatch h), ← settled_features, ← reloadedFeatures_eq_iff]
  constructor
  · intro heq
    exact congrArg (fun s : SettingsFile libs => s.terminal.settings.fontFeatures)
      (Option.some.inj heq)
  · intro heq
    rw [show (SettingsFile.ofPatch patch).terminal = patch.terminal.settings from rfl, heq]
    rfl

/-! ## Documents -/

/-- A feature tag: four letters or digits. -/
def isFeatureTag (tag : Text) : Bool := tag.length = 4 && tag.all Char.isAlphanum

/-- The reading of one font feature; what is no feature is passed over. -/
def readFontFeature : Text × Value → Option (Option (Text × BitVec 32))
  | (_, .null) => some none
  | (tag, .bool enabled) => some (if isFeatureTag tag then some (tag, flag enabled) else none)
  | (tag, .number n) => some <| if isFeatureTag tag then
      (readUnsigned 64 (.number n)).map fun value => (tag, value.setWidth 32) else none
  | _ => none

/-- The reading of font features. -/
def readFontFeatures : Value → Option FontFeatures
  | .object members => (members.mapM readFontFeature).map (·.filterMap id)
  | _ => none

/-- Numbers that are kept as they are written. -/
def literals : Floats Numeral where
  ofNat n :=
    { literal := Nat.toDigits 10 n ++ ['.', '0']
      ne_nil := by simp
      numeral := by
        intro c hc
        rcases List.mem_append.mp hc with hc | hc
        · exact Serde.isNumeral_of_mem_toDigits hc
        · rcases List.mem_pair.mp hc with rfl | rfl <;> decide }
  read := some
  write x := x
  read_write _ := rfl

theorem isFeatureTag_of_readFontFeature {m : Text × Value} {e : Text × BitVec 32}
    (h : readFontFeature m = some (some e)) : isFeatureTag e.1 = true := by
  unfold readFontFeature at h
  split at h
  · exact absurd (Option.some.inj h) nofun
  · have h := Option.some.inj h
    split at h
    · next htag =>
      cases h
      exact htag
    · exact absurd h nofun
  · have h := Option.some.inj h
    split at h
    · next htag =>
      obtain ⟨_, -, rfl⟩ := Option.map_eq_some_iff.mp h
      exact htag
    · exact absurd h nofun
  · exact absurd h nofun

theorem isFeatureTag_of_readFontFeatures {v : Value} {features : FontFeatures}
    (h : readFontFeatures v = some features) : ∀ e ∈ features, isFeatureTag e.1 = true := by
  unfold readFontFeatures at h
  split at h
  · next members =>
    obtain ⟨read, hread, rfl⟩ := Option.map_eq_some_iff.mp h
    intro e he
    have hmem : some e ∈ read := by simpa using he
    obtain ⟨m, -, hm⟩ := Serde.mem_of_mapM hread hmem
    exact isFeatureTag_of_readFontFeature hm
  · exact absurd h nofun

theorem readFontFeature_number {e : Text × BitVec 32} (h : isFeatureTag e.1 = true) :
    readFontFeature (e.1, writeUnsigned e.2) = some (some e) := by
  have hlt : e.2.toNat < 2 ^ 64 := lt_of_lt_of_le e.2.isLt (by norm_num)
  have hread : readUnsigned 64 (writeUnsigned e.2) = some (e.2.setWidth 64) := by
    have hwide : writeUnsigned e.2 = writeUnsigned (e.2.setWidth 64) := by
      unfold writeUnsigned
      rw [BitVec.toNat_setWidth, Nat.mod_eq_of_lt hlt]
    rw [hwide, Serde.readUnsigned_writeUnsigned]
  show some (if isFeatureTag e.1 then _ else none) = _
  rw [if_pos h]
  show some ((readUnsigned 64 (writeUnsigned e.2)).map _) = _
  rw [hread]
  simp

theorem readFontFeatures_object {features : FontFeatures}
    (h : ∀ e ∈ features, isFeatureTag e.1 = true) :
    readFontFeatures (.object (features.map fun e => (e.1, writeUnsigned e.2))) = some features := by
  unfold readFontFeatures
  simp only
  rw [Serde.mapM_map_of_read fun e he => readFontFeature_number (h e he), Option.map_some,
    List.filterMap_map]
  exact congrArg some List.filterMap_some

/-- The reading of font fallbacks. -/
def readFontFallbacks : Value → Option (List Text)
  | .array items => items.mapM readText
  | _ => none

theorem reads_fontFallbacks (names : List Text) :
    Reads readFontFallbacks (.array (names.map .string)) names := by
  refine ⟨?_, nofun⟩
  unfold readFontFallbacks
  simp only
  rw [Serde.mapM_map_of_read (g := id) fun _ _ => by rfl, List.map_id]

/-- The libraries on documents without comments. -/
def plainLibraries : Libraries where
  F32 := Numeral
  F64 := Numeral
  f32 := literals
  f64 := literals
  toStringPretty := Json.pretty
  fromStrLenient := Json.parse
  fromStrLenient_toStringPretty := Json.parse_pretty
  FontFallbacks := List Text
  readFontFallbacks := readFontFallbacks
  writeFontFallbacks names := .array (names.map .string)
  reads_fontFallbacks := reads_fontFallbacks
  disableLigatures := [(calt, 0)]
  disableLigatures_eq := rfl
  isCaltEnabled features := (features.lookup calt).map (· == 1)
  isCaltEnabled_eq _ := rfl
  readFontFeatures := readFontFeatures
  writeFontFeatures features :=
    .object ((pairs (putAll features)).map fun e => (e.1, writeUnsigned e.2))
  writeFontFeatures_eq _ := rfl
  isFeatureTag tag := isFeatureTag tag = true
  isFeatureTag_of_read := isFeatureTag_of_readFontFeatures
  readFontFeatures_object := readFontFeatures_object

/-- The document with the members of the terminal. -/
def document (members : List (String × Value)) : Value :=
  writeStruct [("terminal", writeStruct members)]

/-- The features of `ss01` alone. -/
def styleSet : FontFeatures := [("ss01".toList, 1)]

/-- What is read from a document with these features, and with the ligatures if they are there. -/
def styleSetPatch (ligatures : Option Bool) : SettingsFilePatch plainLibraries where
  appearance := .default
  recording := .default
  logging := .default
  ui := .default
  assistant := .default
  lockScreen := .default
  terminal := { TerminalSettingsPatch.default with fontFeatures := some styleSet, ligatures }
  terminalKeybindings := .default

/-- The member of these features. -/
def styleSetMember : String × Value :=
  ("font_features", .object [("ss01".toList, writeUnsigned (1 : BitVec 32))])

/-- The document with the features, and with the ligatures if they are there. -/
def styleSetJson (ligatures : Option Bool) : Text :=
  Json.pretty (document (styleSetMember :: (ligatures.map fun on => ("ligatures", .bool on)).toList))

theorem fromStrLenient_styleSet (ligatures : Option Bool) :
    SettingsFilePatch.fromStrLenient (styleSetJson ligatures) = some (styleSetPatch ligatures) := by
  unfold SettingsFilePatch.fromStrLenient
  rw [show plainLibraries.fromStrLenient (styleSetJson ligatures) = some _ from Json.parse_pretty _]
  rcases ligatures with _ | on
  · rfl
  · rfl

/-- Without a word on the ligatures the document has them as the font has them; saving turns them
off. -/
theorem not_reloaded_styleSet : ¬ ∀ (libs : Libraries) (json : Text) (s : SettingsFile libs),
    SettingsFile.loadFromStrLenient json = some s →
      SettingsFile.loadFromStrLenient s.toJsonPretty = some s := by
  intro h
  have hpatch := fromStrLenient_styleSet none
  have hload := h plainLibraries _ _ (congrArg (Option.map SettingsFile.ofPatch) hpatch)
  rw [SettingsFile.load_toJsonPretty (SettingsFile.inRange_ofPatch hpatch)] at hload
  have hfeatures := congrArg (fun s : SettingsFile plainLibraries =>
    s.terminal.settings.fontFeatures.length) (Option.some.inj hload)
  exact absurd hfeatures (by decide)

theorem reload_iff_styleSet :
    (SettingsFile.loadFromStrLenient (styleSetJson (some true)) : Option (SettingsFile plainLibraries))
        = some (.ofPatch (styleSetPatch (some true))) ∧
      (SettingsFile.loadFromStrLenient (SettingsFile.ofPatch (styleSetPatch (some true))).toJsonPretty
          = some (.ofPatch (styleSetPatch (some true))) ↔
        (styleSetPatch (some true)).terminal.KeepsFeatures) :=
  reload_iff (fromStrLenient_styleSet (some true))

end Termua.Settings
