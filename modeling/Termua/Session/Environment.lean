import Mathlib
import Termua.Session.Load

/-!
# Environments and the terminal fields

`merge_terminal_fields_into_env` of `termua/src/session/store.rs`. An environment that it makes is
`Clean`: its names are trimmed, and no two are the same. It has the last value of every variable, and
the terminal fields whose names the environment did not have up to case; merging it again changes
nothing.
-/

namespace Termua.Session

/-! ## Environments -/

section Env

variable {env : List SessionEnvVar} {var : SessionEnvVar} {name value : Text}

/-- The last value of a variable, whose name is read without the blanks around it. -/
def lastValue (name : Text) : List SessionEnvVar → Option Text
  | [] => none
  | var :: env =>
    (lastValue name env).or (if Text.trim var.name = name ∧ name ≠ [] then some var.value else none)

theorem lastValue_cons : lastValue name (var :: env) =
    (lastValue name env).or
      (if Text.trim var.name = name ∧ name ≠ [] then some var.value else none) := rfl

/-- The names are trimmed, and no two are the same. -/
structure Clean (env : List SessionEnvVar) : Prop where
  trimmed : ∀ var ∈ env, Text.Trimmed var.name
  nodup : (env.map SessionEnvVar.name).Nodup

theorem clean_nil : Clean [] := ⟨nofun, List.nodup_nil⟩

theorem clean_cons_iff :
    Clean (var :: env) ↔
      Text.Trimmed var.name ∧ var.name ∉ env.map SessionEnvVar.name ∧ Clean env := by
  constructor
  · rintro ⟨htrimmed, hnodup⟩
    obtain ⟨hvar, htrimmed⟩ := List.forall_mem_cons.mp htrimmed
    obtain ⟨hnot, hnodup⟩ := List.nodup_cons.mp hnodup
    exact ⟨hvar, hnot, htrimmed, hnodup⟩
  · rintro ⟨hvar, hnot, htrimmed, hnodup⟩
    exact ⟨List.forall_mem_cons.mpr ⟨hvar, htrimmed⟩, List.nodup_cons.mpr ⟨hnot, hnodup⟩⟩

theorem upsertSessionEnvVar_cons :
    upsertSessionEnvVar (var :: env) name value =
      if var.name = name then { var with value } :: env
      else var :: upsertSessionEnvVar env name value := by
  unfold upsertSessionEnvVar
  rw [List.findIdx?_cons]
  by_cases hname : var.name = name
  · simp [hname]
  · simp only [hname, decide_false, Bool.false_eq_true, if_false]
    generalize env.findIdx? (fun var => decide (var.name = name)) = found
    rcases found with _ | i <;> rfl

theorem mem_names_upsertSessionEnvVar {other : Text}
    (h : other ∈ (upsertSessionEnvVar env name value).map SessionEnvVar.name) :
    other = name ∨ other ∈ env.map SessionEnvVar.name := by
  induction env with
  | nil => exact .inl (List.mem_singleton.mp h)
  | cons var env ih =>
    rw [upsertSessionEnvVar_cons] at h
    split at h
    · exact .inr h
    · rw [List.map_cons, List.mem_cons] at h ⊢
      rcases h with hvar | hrest
      · exact .inr (.inl hvar)
      · exact (ih hrest).imp_right .inr

/-- Setting a variable keeps an environment clean. -/
theorem Clean.upsertSessionEnvVar (h : Clean env) (hname : Text.Trimmed name) :
    Clean (upsertSessionEnvVar env name value) := by
  induction env with
  | nil => exact clean_cons_iff.mpr ⟨hname, List.not_mem_nil, clean_nil⟩
  | cons var env ih =>
    obtain ⟨hvar, hnot, henv⟩ := clean_cons_iff.mp h
    rw [upsertSessionEnvVar_cons]
    split
    · exact clean_cons_iff.mpr ⟨hvar, hnot, henv⟩
    · next hne =>
      refine clean_cons_iff.mpr ⟨hvar, fun hmem => ?_, ih henv⟩
      rcases mem_names_upsertSessionEnvVar hmem with heq | hmem
      · exact hne heq
      · exact hnot hmem

/-- A name that a clean environment does not have is set behind the others. -/
theorem upsertSessionEnvVar_of_notMem (h : name ∉ env.map SessionEnvVar.name) :
    upsertSessionEnvVar env name value = env ++ [⟨name, value⟩] := by
  induction env with
  | nil => rfl
  | cons var env ih =>
    rw [List.map_cons, List.mem_cons, not_or] at h
    rw [upsertSessionEnvVar_cons, if_neg (Ne.symm h.1), ih h.2, List.cons_append]

theorem lastValue_eq_none_of_notMem (h : Clean env) (hname : name ∉ env.map SessionEnvVar.name) :
    lastValue name env = none := by
  induction env with
  | nil => rfl
  | cons var env ih =>
    obtain ⟨hvar, -, henv⟩ := clean_cons_iff.mp h
    rw [List.map_cons, List.mem_cons, not_or] at hname
    unfold lastValue
    rw [ih henv hname.2, if_neg, Option.or_none]
    rintro ⟨htrim, -⟩
    exact hname.1 (htrim.symm.trans hvar.1)

theorem lastValue_upsertSessionEnvVar (h : Clean env) (hname : Text.Trimmed name) (other : Text) :
    lastValue other (upsertSessionEnvVar env name value) =
      if other = name then some value else lastValue other env := by
  induction env with
  | nil =>
    show (none : Option Text).or (if Text.trim name = other ∧ other ≠ [] then _ else _) = _
    rw [hname.1, Option.none_or]
    by_cases hother : other = name
    · subst hother
      rw [if_pos ⟨rfl, hname.2⟩, if_pos rfl]
    · rw [if_neg fun h => hother h.1.symm, if_neg hother]
      rfl
  | cons var env ih =>
    obtain ⟨hvar, hnot, henv⟩ := clean_cons_iff.mp h
    rw [upsertSessionEnvVar_cons]
    -- the variable is changed where it stands, and no later one has its name
    by_cases hsame : var.name = name
    · subst hsame
      rw [if_pos rfl]
      unfold lastValue
      by_cases hother : other = var.name
      · subst hother
        rw [lastValue_eq_none_of_notMem henv hnot, if_pos rfl, if_pos ⟨hvar.1, hvar.2⟩]
        rfl
      · have hne : ¬ (Text.trim var.name = other ∧ other ≠ []) := fun h =>
          hother (h.1.symm.trans hvar.1)
        rw [if_neg hother, if_neg hne, if_neg hne]
    · rw [if_neg hsame]
      unfold lastValue
      rw [ih henv]
      by_cases hother : other = name
      · subst hother
        rw [if_pos rfl, if_pos rfl, Option.some_or]
      · rw [if_neg hother, if_neg hother]

/-! ## Merging -/

/-- One variable of an environment is set behind the others. -/
def mergeVar (merged : List SessionEnvVar) (var : SessionEnvVar) : List SessionEnvVar :=
  let name := Text.trim var.name
  if name = [] then merged else upsertSessionEnvVar merged name var.value

theorem Clean.mergeVar {merged : List SessionEnvVar} (h : Clean merged) (var : SessionEnvVar) :
    Clean (mergeVar merged var) := by
  unfold Session.mergeVar
  simp only
  split
  · exact h
  · next hne => exact h.upsertSessionEnvVar (Text.trimmed_trim hne)

theorem lastValue_mergeVar {merged : List SessionEnvVar} (h : Clean merged) (var : SessionEnvVar)
    (name : Text) : lastValue name (mergeVar merged var) =
      (if Text.trim var.name = name ∧ name ≠ [] then some var.value else none).or
        (lastValue name merged) := by
  unfold mergeVar
  simp only
  split
  · next hblank =>
    rw [if_neg, Option.none_or]
    rintro ⟨heq, hne⟩
    exact hne (heq.symm.trans hblank)
  · next hne =>
    rw [lastValue_upsertSessionEnvVar h (Text.trimmed_trim hne)]
    by_cases hname : name = Text.trim var.name
    · subst hname
      rw [if_pos rfl, if_pos ⟨rfl, hne⟩, Option.some_or]
    · rw [if_neg hname, if_neg fun h => hname h.1.symm, Option.none_or]

/-- Merging an environment into a clean one: its last values count, then those that were there. -/
theorem merge_spec {merged : List SessionEnvVar} (h : Clean merged) (env : List SessionEnvVar) :
    Clean (env.foldl mergeVar merged) ∧
      ∀ name, lastValue name (env.foldl mergeVar merged) =
        (lastValue name env).or (lastValue name merged) := by
  induction env generalizing merged with
  | nil => exact ⟨h, fun name => (Option.none_or).symm⟩
  | cons var env ih =>
    obtain ⟨hclean, hvalue⟩ := ih (h.mergeVar var)
    refine ⟨hclean, fun name => ?_⟩
    rw [List.foldl_cons, hvalue, lastValue_mergeVar h, lastValue_cons, Option.or_assoc]

/-- A clean environment is merged as it is. -/
theorem merge_clean {merged : List SessionEnvVar} (h : Clean (merged ++ env)) :
    env.foldl mergeVar merged = merged ++ env := by
  induction env generalizing merged with
  | nil => exact (List.append_nil merged).symm
  | cons var env ih =>
    have htrimmed := h.trimmed var (by simp)
    have hnot : var.name ∉ merged.map SessionEnvVar.name := by
      have hnodup := h.nodup
      rw [List.map_append, List.map_cons] at hnodup
      intro hmem
      exact (List.disjoint_of_nodup_append hnodup) hmem List.mem_cons_self
    have hvar : mergeVar merged var = merged ++ [var] := by
      unfold mergeVar
      simp only
      rw [htrimmed.1, if_neg htrimmed.2, upsertSessionEnvVar_of_notMem hnot]
    rw [List.foldl_cons, hvar, ih (by simpa using h)]
    simp

/-! ## The terminal fields -/

/-- `has_name` of `merge_terminal_fields_into_env`. -/
def hasName (env : List SessionEnvVar) (name : Text) : Bool :=
  env.any fun var => Text.eqIgnoreAsciiCase var.name name

/-- A terminal field is set unless it is blank or the environment has a variable of its name. -/
def offer (env : List SessionEnvVar) (name value : Text) (merged : List SessionEnvVar) :
    List SessionEnvVar :=
  if Text.trim value ≠ [] ∧ !hasName env name then upsertSessionEnvVar merged name value else merged

/-- The terminal fields that are set before the environment is merged. -/
def offered (term : Text) (colorterm : Option Text) (charset : Text) (env : List SessionEnvVar) :
    List SessionEnvVar :=
  let merged := offer env "TERM".toList term []
  let merged := match colorterm with
    | some value => offer env "COLORTERM".toList value merged
    | none => merged
  offer env "CHARSET".toList charset merged

theorem mergeTerminalFieldsIntoEnv_eq (term : Text) (colorterm : Option Text) (charset : Text)
    (env : List SessionEnvVar) : mergeTerminalFieldsIntoEnv term colorterm charset env =
      env.foldl mergeVar (offered term colorterm charset env) := rfl

/-- The nonblank terminal field of the name. -/
def terminalField (term : Text) (colorterm : Option Text) (charset : Text) (name : Text) :
    Option Text :=
  let field :=
    if name = "TERM".toList then some term
    else if name = "COLORTERM".toList then colorterm
    else if name = "CHARSET".toList then some charset
    else none
  field.filter (Text.trim · ≠ [])

/-- What a terminal field gives to the variable of its name. -/
def offeredValue (env : List SessionEnvVar) (name : Text) (field : Option Text) (other : Text) :
    Option Text :=
  if other = name then if hasName env name then none else field.filter (Text.trim · ≠ []) else none

theorem offer_spec {merged : List SessionEnvVar} (h : Clean merged) (hname : Text.Trimmed name)
    (env : List SessionEnvVar) (value : Text) :
    Clean (offer env name value merged) ∧
      ∀ other, lastValue other (offer env name value merged) =
        (offeredValue env name (some value) other).or (lastValue other merged) := by
  unfold offer offeredValue
  rw [Option.filter_some]
  split
  · next hoffer =>
    obtain ⟨hvalue, hnot⟩ := hoffer
    refine ⟨h.upsertSessionEnvVar hname, fun other => ?_⟩
    rw [lastValue_upsertSessionEnvVar h hname]
    rw [Bool.not_eq_true'] at hnot
    by_cases hother : other = name
    · simp [hother, hvalue, hnot]
    · simp [hother]
  · next hoffer =>
    refine ⟨h, fun other => ?_⟩
    have hnone : (if hasName env name then none
        else if decide (Text.trim value ≠ []) then some value else none) = none := by
      by_cases hvalue : Text.trim value = []
      · simp [hvalue]
      · have hhas : hasName env name = true := by simpa [hvalue] using hoffer
        rw [if_pos hhas]
    rw [hnone, ite_self, Option.none_or]

/-- Fields of different names do not get in each other's way. -/
theorem offeredValue_or {term color charset : Text} (hcolor : term ≠ color)
    (hcharset : term ≠ charset) (hdiff : color ≠ charset) (env : List SessionEnvVar)
    (field field' field'' : Option Text) (name : Text) :
    (offeredValue env charset field'' name).or
        ((offeredValue env color field' name).or (offeredValue env term field name)) =
      if hasName env name then none
      else
        (if name = term then field
          else if name = color then field'
          else if name = charset then field''
          else none).filter (Text.trim · ≠ []) := by
  unfold offeredValue
  by_cases hname : name = term
  · subst hname
    rw [if_neg hcharset, if_neg hcolor, if_pos rfl, if_pos rfl, Option.none_or, Option.none_or]
  · rw [if_neg hname, if_neg hname, Option.or_none]
    by_cases hname' : name = color
    · subst hname'
      rw [if_neg hdiff, if_pos rfl, if_pos rfl, Option.none_or]
    · rw [if_neg hname', if_neg hname', Option.or_none]
      by_cases hname'' : name = charset
      · subst hname''
        rw [if_pos rfl, if_pos rfl]
      · rw [if_neg hname'', if_neg hname'', Option.filter_none, ite_self]

theorem trimmed_term : Text.Trimmed "TERM".toList := ⟨by decide, by decide⟩

theorem trimmed_colorterm : Text.Trimmed "COLORTERM".toList := ⟨by decide, by decide⟩

theorem trimmed_charset : Text.Trimmed "CHARSET".toList := ⟨by decide, by decide⟩

theorem offered_spec (term : Text) (colorterm : Option Text) (charset : Text)
    (env : List SessionEnvVar) :
    Clean (offered term colorterm charset env) ∧
      ∀ name, lastValue name (offered term colorterm charset env) =
        if hasName env name then none else terminalField term colorterm charset name := by
  obtain ⟨hterm, htermValue⟩ := offer_spec clean_nil trimmed_term env term
  have hcolor : Clean (match colorterm with
      | some value => offer env "COLORTERM".toList value (offer env "TERM".toList term [])
      | none => offer env "TERM".toList term []) ∧
      ∀ name, lastValue name (match colorterm with
        | some value => offer env "COLORTERM".toList value (offer env "TERM".toList term [])
        | none => offer env "TERM".toList term []) =
          (offeredValue env "COLORTERM".toList colorterm name).or
            (lastValue name (offer env "TERM".toList term [])) := by
    rcases colorterm with _ | value
    · refine ⟨hterm, fun name => ?_⟩
      have hnone : offeredValue env "COLORTERM".toList none name = none := by
        unfold offeredValue
        rw [Option.filter_none, ite_self, ite_self]
      rw [hnone, Option.none_or]
    · exact offer_spec hterm trimmed_colorterm env value
  obtain ⟨hclean, hcharset⟩ := offer_spec hcolor.1 trimmed_charset env charset
  refine ⟨hclean, fun name => (hcharset name).trans ?_⟩
  rw [hcolor.2, htermValue, lastValue, Option.or_none]
  exact offeredValue_or (by decide) (by decide) (by decide) env _ _ _ name

/-! ## The migration of a row -/

theorem toLower_of_isWhitespace {c : Char} (h : Text.isWhitespace c = true) : c.toLower = c := by
  unfold Text.isWhitespace at h
  unfold Char.toLower
  rw [dif_neg]
  rintro ⟨hlow, hhigh⟩
  have hlow : 65 ≤ c.toNat := UInt32.le_iff_toNat_le.mp hlow
  have hhigh : c.toNat ≤ 90 := UInt32.le_iff_toNat_le.mp hhigh
  simp only [decide_eq_true_eq] at h
  omega

/-- A variable whose name is that of a terminal field up to case has no blanks in its name. -/
theorem trim_of_eqIgnoreAsciiCase {other : Text}
    (hname : (name.map Char.toLower).all fun c => !Text.isWhitespace c)
    (h : Text.eqIgnoreAsciiCase other name = true) : Text.trim other = other := by
  refine Text.trim_of_forall fun c hc => ?_
  rcases hblank : Text.isWhitespace c with _ | _
  · rfl
  · have heq : other.map Char.toLower = name.map Char.toLower := of_decide_eq_true h
    have hmem : c ∈ name.map Char.toLower := by
      rw [← heq, ← toLower_of_isWhitespace hblank]
      exact List.mem_map_of_mem hc
    have hnot := List.all_eq_true.mp hname c hmem
    rw [hblank] at hnot
    cases hnot

theorem exists_of_lastValue {v : Text} (h : lastValue name env = some v) :
    ∃ var ∈ env, Text.trim var.name = name := by
  induction env with
  | nil => cases h
  | cons var env ih =>
    rw [lastValue_cons] at h
    rcases Option.or_eq_some_iff.mp h with hrest | ⟨-, hvar⟩
    · obtain ⟨var', hmem, hname⟩ := ih hrest
      exact ⟨var', List.mem_cons_of_mem _ hmem, hname⟩
    · split at hvar
      · next hname => exact ⟨var, List.mem_cons_self, hname.1⟩
      · cases hvar

theorem lastValue_isSome (h : var ∈ env) (hname : Text.trim var.name ≠ []) :
    (lastValue (Text.trim var.name) env).isSome := by
  induction env with
  | nil => cases h
  | cons var' env ih =>
    rw [lastValue_cons, Option.isSome_or]
    rcases List.mem_cons.mp h with rfl | hmem
    · rw [if_pos ⟨rfl, hname⟩]
      exact Bool.or_true _
    · rw [ih hmem]
      rfl

end Env

/-- The terminal field of a row. -/
def Row.terminalField (row : Row) : Text → Option Text :=
  Session.terminalField row.term row.colorterm row.charset

/-- The environment of a row, as the migration reads it. -/
def Row.env (json : SessionJson) (row : Row) : List SessionEnvVar :=
  (row.sessionEnv.bind json.readEnv).getD []

/-- The row behind the migration. -/
def migrateRow (json : SessionJson) (row : Row) : Row :=
  setEnv (sessionEnvText json (migratedEnv json row)) row

section Row

variable {json : SessionJson} {row : Row} {name : Text}

/-- The migrated environment: the last value of each variable, or the terminal field where no
variable has its name up to case. -/
theorem migratedEnv_spec (json : SessionJson) (row : Row) :
    Clean (migratedEnv json row) ∧
      ∀ name, lastValue name (migratedEnv json row) = (lastValue name (row.env json)).or
        (if hasName (row.env json) name then none else row.terminalField name) := by
  obtain ⟨hclean, hoffered⟩ :=
    offered_spec row.term row.colorterm row.charset (row.env json)
  obtain ⟨hmerged, hvalue⟩ := merge_spec hclean (row.env json)
  refine ⟨hmerged, fun name => (hvalue name).trans ?_⟩
  rw [hoffered]
  rfl

/-- An environment names all the terminal fields of a row. -/
def Row.Covered (row : Row) (env : List SessionEnvVar) : Prop :=
  ∀ name, row.terminalField name ≠ none → hasName env name = true

theorem terminalField_name (h : row.terminalField name ≠ none) :
    ((name.map Char.toLower).all fun c => !Text.isWhitespace c) = true ∧ Text.Trimmed name := by
  unfold Row.terminalField terminalField at h
  simp only at h
  split at h
  · next heq => exact heq ▸ ⟨by decide, trimmed_term⟩
  · split at h
    · next heq => exact heq ▸ ⟨by decide, trimmed_colorterm⟩
    · split at h
      · next heq => exact heq ▸ ⟨by decide, trimmed_charset⟩
      · exact absurd (Option.filter_none _) h

theorem hasName_of_lastValue {env : List SessionEnvVar} (h : Clean env)
    (hvalue : (lastValue name env).isSome) : ∃ var ∈ env, var.name = name := by
  obtain ⟨v, hv⟩ := Option.isSome_iff_exists.mp hvalue
  obtain ⟨var, hmem, htrim⟩ := exists_of_lastValue hv
  exact ⟨var, hmem, (h.trimmed var hmem).1.symm.trans htrim⟩

/-- The migrated environment names all the terminal fields. -/
theorem covered_migratedEnv (json : SessionJson) (row : Row) :
    row.Covered (migratedEnv json row) := by
  intro name hname
  obtain ⟨hclean, hvalue⟩ := migratedEnv_spec json row
  rcases hhas : hasName (row.env json) name with _ | _
  · -- the field itself was set
    have hsome : (lastValue name (migratedEnv json row)).isSome := by
      rw [hvalue, hhas, if_neg Bool.false_ne_true, Option.isSome_or,
        Option.isSome_iff_ne_none.mpr hname, Bool.or_true]
    obtain ⟨var, hmem, heq⟩ := hasName_of_lastValue hclean hsome
    exact List.any_eq_true.mpr ⟨var, hmem, heq ▸ decide_eq_true rfl⟩
  · -- a variable had the name up to case, and is kept
    obtain ⟨var, hmem, hcase⟩ := List.any_eq_true.mp hhas
    obtain ⟨hletters, hne⟩ := terminalField_name hname
    have htrim := trim_of_eqIgnoreAsciiCase hletters hcase
    have hnonblank : Text.trim var.name ≠ [] := by
      rw [htrim]
      intro hnil
      have hlower : var.name.map Char.toLower = name.map Char.toLower := of_decide_eq_true hcase
      rw [hnil, List.map_nil, eq_comm, List.map_eq_nil_iff] at hlower
      exact hne.2 hlower
    have hsome : (lastValue var.name (migratedEnv json row)).isSome := by
      have hlast := lastValue_isSome hmem hnonblank
      rw [htrim] at hlast
      rw [hvalue, Option.isSome_or, hlast, Bool.true_or]
    obtain ⟨var', hmem', heq⟩ := hasName_of_lastValue hclean hsome
    exact List.any_eq_true.mpr ⟨var', hmem', heq ▸ hcase⟩

/-- A field that is covered is not set. -/
theorem offer_of_covered {env merged : List SessionEnvVar} {value : Text}
    (h : Text.trim value ≠ [] → hasName env name = true) : offer env name value merged = merged := by
  unfold offer
  rw [if_neg]
  rintro ⟨hvalue, hnot⟩
  rw [h hvalue] at hnot
  cases hnot

theorem offered_of_covered {env : List SessionEnvVar} (h : row.Covered env) :
    offered row.term row.colorterm row.charset env = [] := by
  have hfield : ∀ {value : Text}, Text.trim value ≠ [] →
      (some value).filter (Text.trim · ≠ []) ≠ none := by
    intro value hvalue
    rw [Option.filter_some, if_pos (decide_eq_true hvalue)]
    exact Option.some_ne_none _
  have hcolor : ∀ merged, (match row.colorterm with
      | some value => offer env "COLORTERM".toList value merged
      | none => merged) = merged := by
    intro merged
    rcases hvalue : row.colorterm with _ | value
    · rfl
    · refine offer_of_covered fun hnonblank => h "COLORTERM".toList ?_
      show row.colorterm.filter (Text.trim · ≠ []) ≠ none
      rw [hvalue]
      exact hfield hnonblank
  unfold offered
  simp only
  rw [offer_of_covered fun hvalue => h "CHARSET".toList (hfield hvalue), hcolor,
    offer_of_covered fun hvalue => h "TERM".toList (hfield hvalue)]

/-- A clean environment that names all the terminal fields is migrated as it is. -/
theorem merge_of_covered {env : List SessionEnvVar} (hclean : Clean env) (h : row.Covered env) :
    mergeTerminalFieldsIntoEnv row.term row.colorterm row.charset env = env := by
  rw [mergeTerminalFieldsIntoEnv_eq, offered_of_covered h]
  exact merge_clean hclean

end Row

section Json

variable {json : StoreJson} {row : Row} {name : Text}

/-- What is stored for an environment is read back. -/
theorem env_setEnv (hjson : json.RoundTrips) (row : Row) (env : List SessionEnvVar) :
    (setEnv (sessionEnvText json.toSessionJson env) row).env json.toSessionJson = env := by
  unfold Row.env setEnv sessionEnvText
  rcases env with _ | ⟨var, env⟩
  · rfl
  · simp only [reduceCtorEq, if_false, Option.bind_some, hjson.env, Option.getD_some]

theorem env_migrateRow (hjson : json.RoundTrips) (row : Row) :
    (migrateRow json.toSessionJson row).env json.toSessionJson = migratedEnv json.toSessionJson row :=
  env_setEnv hjson row _

/-- Migrating a row again changes nothing. -/
theorem migrateRow_migrateRow (hjson : json.RoundTrips) (row : Row) :
    migrateRow json.toSessionJson (migrateRow json.toSessionJson row) =
      migrateRow json.toSessionJson row := by
  have henv : migratedEnv json.toSessionJson (migrateRow json.toSessionJson row) =
      migratedEnv json.toSessionJson row := by
    show mergeTerminalFieldsIntoEnv row.term row.colorterm row.charset
      ((migrateRow json.toSessionJson row).env json.toSessionJson) = _
    rw [env_migrateRow hjson]
    exact merge_of_covered (migratedEnv_spec _ row).1 (covered_migratedEnv _ row)
  unfold migrateRow at henv ⊢
  rw [henv]
  rfl

/-- The last value of a variable behind the migration. -/
theorem lastValue_migrateRow (hjson : json.RoundTrips) (row : Row) (name : Text) :
    lastValue name ((migrateRow json.toSessionJson row).env json.toSessionJson) =
      (lastValue name (row.env json.toSessionJson)).or
        (if hasName (row.env json.toSessionJson) name then none else row.terminalField name) := by
  rw [env_migrateRow hjson]
  exact (migratedEnv_spec _ row).2 name

end Json

end Termua.Session
