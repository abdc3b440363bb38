import Mathlib
import Termua.Session.Store

/-!
# Opening the session database

What `open` does to the rows and to the passwords. It leaves the passwords, and all of the rows but
in an older table whose terminal fields it moves into `session_env`, one row and statement at a
time: `migrates` says that it comes to the row of a session, whether it goes on from there or not.
-/

namespace Termua.Session

/-! ## What the opening of the database does to a row -/

section Migration

variable (json : SessionJson) (f : Faults)

/-- The columns after `ensure_sessions_column` for each name; `none` where a step fails. -/
def addColumns : List Text → List Text → Option (List Text)
  | [], columns => some columns
  | name :: names, columns =>
    if f.tableInfo name then none
    else if columns.contains name then addColumns names columns
    else if f.addColumn name then none
    else addColumns names (columns ++ [name])

/-- The columns after `CREATE TABLE IF NOT EXISTS`. -/
def createdColumns (columns : List Text) : List Text :=
  if columns = [] then schemaColumns else columns

/-- The migration comes to the row of the session without a failing step. -/
def reaches (id : ℤ) : List (Sigma fun _ : ℤ => Row) → Bool
  | [] => false
  | ⟨id', row⟩ :: rows =>
    !f.readLegacy id' &&
      !decide (migratedEnv json row ≠ [] ∧ f.serialize "serialize session_env") &&
      !f.migrate id' && (id' = id || reaches id rows)

/-- The migration of an older table comes to the row of the session. -/
def migratesLegacy (columns : List Text) (rows : Rows) (id : ℤ) : Bool :=
  !f.tableInfo "term".toList && !f.tableInfo "charset".toList && !f.tableInfo "colorterm".toList &&
    (columns.contains "term".toList && columns.contains "charset".toList &&
      columns.contains "colorterm".toList) && !f.selectLegacy && reaches json f id rows.entries

/-- The opening of the database migrates the row of the session. -/
def migrates (s : Store) (id : ℤ) : Bool :=
  !f.createDir && !f.openDb && !s.schemaReady && !f.createSchema &&
    (addColumns f addedColumns (createdColumns s.columns)).any fun columns =>
      migratesLegacy json f columns s.rows id

end Migration

/-! ## The steps of opening -/

section Opening

variable {json : SessionJson} {f : Faults} {s : Store} {id : ℤ}

theorem after_execute (fails : Bool) (e : StoreError) (write : Rows → Rows) :
    (execute fails e write).after s = if fails then s else { s with rows := write s.rows } := by
  unfold execute
  rw [Effect.after_check_bind, Effect.after_change]

theorem outcome_execute (fails : Bool) (e : StoreError) (write : Rows → Rows) :
    (execute fails e write).outcome s = if fails then .error e else .ok () := by
  unfold execute
  rw [Effect.outcome_check_bind, Effect.outcome_change]

theorem after_serializeSessionEnv (env : List SessionEnvVar) :
    (serializeSessionEnv json f env).after s = s := by
  unfold serializeSessionEnv
  rw [Effect.after_check_bind, Effect.after_pure, ite_self]

theorem outcome_serializeSessionEnv (env : List SessionEnvVar) :
    (serializeSessionEnv json f env).outcome s =
      if decide (env ≠ [] ∧ f.serialize "serialize session_env") then
        .error (.context "serialize session_env" (.serialize "session_env"))
      else .ok (sessionEnvText json env) := by
  unfold serializeSessionEnv
  rw [Effect.outcome_check_bind, Effect.outcome_pure]

/-- One row of the migration. -/
theorem after_migrateRows_cons (row : Row) (rows : List (Sigma fun _ : ℤ => Row)) :
    (migrateRows json f (⟨id, row⟩ :: rows)).after s =
      if f.readLegacy id then s
      else if decide (migratedEnv json row ≠ [] ∧ f.serialize "serialize session_env") then s
      else if f.migrate id then s
      else (migrateRows json f rows).after { s with
        rows := Table.modify id (setEnv (sessionEnvText json (migratedEnv json row))) s.rows } := by
  rw [migrateRows, Effect.after_check_bind, Effect.after_bind, outcome_serializeSessionEnv,
    after_serializeSessionEnv]
  refine ite_congr rfl (fun _ => rfl) fun _ => ?_
  split
  · next h =>
    split at h
    · cases h
    · next hserialize =>
      obtain rfl := Except.ok.inj h
      rw [if_neg hserialize, Effect.after_bind, outcome_execute, after_execute]
      rcases f.migrate id <;> rfl
  · next h =>
    split at h
    · next hserialize => rw [if_pos hserialize]
    · cases h

theorem row_modify (id' : ℤ) (set : Row → Row) :
    Store.row { s with rows := Table.modify id' set s.rows } id =
      if id = id' then (s.row id').map set else s.row id :=
  Table.lookup_modify set

/-- A row that the migration does not come to stays. -/
theorem row_migrateRows_of_not_reaches {rows : List (Sigma fun _ : ℤ => Row)}
    (h : reaches json f id rows = false) : ((migrateRows json f rows).after s).row id = s.row id := by
  induction rows generalizing s with
  | nil => rfl
  | cons entry rows ih =>
    obtain ⟨id', row⟩ := entry
    rw [after_migrateRows_cons]
    split_ifs with hread hserialize hmigrate
    · rfl
    · rfl
    · rfl
    · unfold reaches at h
      simp only [hread, hserialize, hmigrate, Bool.not_false, Bool.true_and, Bool.or_eq_false_iff,
        decide_eq_false_iff_not] at h
      rw [ih h.2, row_modify, if_neg (Ne.symm h.1)]

/-- The migration does not come to a row that is not among the selected ones. -/
theorem reaches_eq_false {rows : List (Sigma fun _ : ℤ => Row)} (h : id ∉ rows.keys) :
    reaches json f id rows = false := by
  induction rows with
  | nil => rfl
  | cons entry rows ih =>
    obtain ⟨id', row⟩ := entry
    rw [List.keys_cons, List.mem_cons, not_or] at h
    unfold reaches
    simp [Ne.symm h.1, ih h.2]

/-- A row that the migration comes to is migrated. -/
theorem row_migrateRows_of_reaches {rows : List (Sigma fun _ : ℤ => Row)} (hnodup : rows.NodupKeys)
    {row : Row} (hrow : rows.dlookup id = some row) (h : reaches json f id rows = true) :
    ((migrateRows json f rows).after s).row id =
      (s.row id).map (setEnv (sessionEnvText json (migratedEnv json row))) := by
  induction rows generalizing s with
  | nil => cases hrow
  | cons entry rows ih =>
    obtain ⟨id', row'⟩ := entry
    obtain ⟨hfresh, hnodup⟩ := List.nodupKeys_cons.mp hnodup
    unfold reaches at h
    simp only [Bool.and_eq_true, Bool.not_eq_true', Bool.or_eq_true, decide_eq_true_eq] at h
    obtain ⟨⟨⟨hread, hserialize⟩, hmigrate⟩, hrest⟩ := h
    rw [after_migrateRows_cons, hread, hserialize, hmigrate]
    simp only [Bool.false_eq_true, if_false]
    by_cases hid : id = id'
    · subst hid
      rw [List.dlookup_cons_eq] at hrow
      obtain rfl := Option.some.inj hrow
      rw [row_migrateRows_of_not_reaches (reaches_eq_false hfresh), row_modify, if_pos rfl]
    · rw [List.dlookup_cons_ne _ _ hid] at hrow
      rw [ih hnodup hrow (hrest.resolve_left (Ne.symm hid)), row_modify, if_neg hid]

theorem sessionsHasColumn_after (name : Text) : (sessionsHasColumn f name).after s = s := by
  unfold sessionsHasColumn
  rw [Effect.after_check_bind]
  exact ite_self s

theorem sessionsHasColumn_outcome (name : Text) :
    (sessionsHasColumn f name).outcome s =
      if f.tableInfo name then .error (.tableInfo name) else .ok (s.columns.contains name) := by
  unfold sessionsHasColumn
  rw [Effect.outcome_check_bind]
  rfl

theorem after_sessionsHasColumn_bind {β : Type} (name : Text) (k : Bool → StoreM β) :
    (sessionsHasColumn f name >>= k).after s =
      if f.tableInfo name then s else (k (s.columns.contains name)).after s := by
  rw [Effect.after_bind, sessionsHasColumn_outcome, sessionsHasColumn_after]
  rcases f.tableInfo name <;> rfl

/-- One column of the older schema. -/
theorem after_ensureSessionsColumn (name : Text) :
    (ensureSessionsColumn f name).after s =
      if f.tableInfo name then s
      else if s.columns.contains name then s
      else if f.addColumn name then s
      else { s with columns := s.columns ++ [name] } := by
  unfold ensureSessionsColumn
  rw [after_sessionsHasColumn_bind]
  rcases s.columns.contains name with _ | _
  · show (if f.tableInfo name then s else Effect.after (Effect.check _ _ >>= _) s) = _
    rw [Effect.after_check_bind]
    rfl
  · rfl

theorem outcome_ensureSessionsColumn (name : Text) :
    (ensureSessionsColumn f name).outcome s =
      if f.tableInfo name then .error (.tableInfo name)
      else if s.columns.contains name then .ok ()
      else if f.addColumn name then .error (.addColumn name)
      else .ok () := by
  unfold ensureSessionsColumn
  rw [Effect.outcome_bind, sessionsHasColumn_outcome, sessionsHasColumn_after]
  rcases f.tableInfo name with _ | _
  · rcases hcolumn : s.columns.contains name with _ | _
    · show Effect.outcome (Effect.check _ _ >>= _) s = _
      rw [Effect.outcome_check_bind]
      rfl
    · rfl
  · rfl

/-- The columns of the older schema, one after the other. -/
theorem ensureSessionsColumns_spec (names : List Text) :
    match addColumns f names s.columns with
    | some columns =>
      (forM names (ensureSessionsColumn f)).outcome s = .ok () ∧
        (forM names (ensureSessionsColumn f)).after s = { s with columns }
    | none =>
      ∃ e columns, (forM names (ensureSessionsColumn f)).outcome s = .error e ∧
        (forM names (ensureSessionsColumn f)).after s = { s with columns } := by
  induction names generalizing s with
  | nil => exact ⟨rfl, rfl⟩
  | cons name names ih =>
    unfold addColumns
    simp only [List.forM_cons, Effect.after_bind, Effect.outcome_bind, after_ensureSessionsColumn,
      outcome_ensureSessionsColumn]
    rcases f.tableInfo name with _ | _
    · rcases s.columns.contains name with _ | _
      · rcases f.addColumn name with _ | _
        · exact ih (s := { s with columns := s.columns ++ [name] })
        · exact ⟨_, _, rfl, rfl⟩
      · exact ih
    · exact ⟨_, _, rfl, rfl⟩

theorem row_migrateLegacy (id : ℤ) :
    ((migrateLegacySessionTerminalFields json f).after s).row id =
      if migratesLegacy json f s.columns s.rows id then
        (s.row id).map fun row => setEnv (sessionEnvText json (migratedEnv json row)) row
      else s.row id := by
  have hrows : ((migrateRows json f s.rows.entries).after s).row id =
      if reaches json f id s.rows.entries then
        (s.row id).map fun row => setEnv (sessionEnvText json (migratedEnv json row)) row
      else s.row id := by
    rcases hreaches : reaches json f id s.rows.entries with _ | _
    · exact row_migrateRows_of_not_reaches hreaches
    · rcases hrow : s.row id with _ | row
      · have hkey : id ∉ s.rows.entries.keys := AList.lookup_eq_none.mp hrow
        rw [reaches_eq_false hkey] at hreaches
        cases hreaches
      · rw [row_migrateRows_of_reaches s.rows.nodupKeys hrow hreaches, hrow]
        rfl
  unfold migrateLegacySessionTerminalFields migratesLegacy
  simp only [after_sessionsHasColumn_bind]
  rcases f.tableInfo "term".toList <;> rcases f.tableInfo "charset".toList <;>
    rcases f.tableInfo "colorterm".toList <;> try rfl
  simp only [Bool.false_eq_true, if_false]
  rcases s.columns.contains "term".toList <;> rcases s.columns.contains "charset".toList <;>
    rcases s.columns.contains "colorterm".toList <;> try rfl
  show ((Effect.check f.selectLegacy .selectLegacy >>= fun _ =>
    get >>= fun s : Store => migrateRows json f s.rows.entries).after s).row id = _
  rw [Effect.after_check_bind]
  rcases f.selectLegacy with _ | _
  · exact hrows
  · rfl

/-- What `init_schema` does to a row. -/
theorem row_initSchema (id : ℤ) :
    ((initSchema json f).after s).row id =
      if !f.createSchema && (addColumns f addedColumns (createdColumns s.columns)).any
          fun columns => migratesLegacy json f columns s.rows id then
        (s.row id).map fun row => setEnv (sessionEnvText json (migratedEnv json row)) row
      else s.row id := by
  unfold initSchema
  rw [Effect.after_check_bind]
  rcases f.createSchema with _ | _
  swap
  · rfl
  -- the table that is created has no rows, so the rows are those of before
  have hcreated : (if s.columns = [] then { s with columns := schemaColumns } else s) =
      { s with columns := createdColumns s.columns } := by
    unfold createdColumns
    split
    · rfl
    · rfl
  have hspec := ensureSessionsColumns_spec (f := f)
    (s := { s with columns := createdColumns s.columns }) addedColumns
  rw [Effect.after_bind, Effect.outcome_change, Effect.after_change, hcreated, Effect.after_bind]
  rcases hcolumns : addColumns f addedColumns (createdColumns s.columns) with _ | columns
  · simp only [hcolumns] at hspec
    obtain ⟨e, columns, houtcome, hafter⟩ := hspec
    rw [houtcome, hafter]
    rfl
  · simp only [hcolumns] at hspec
    rw [hspec.1, hspec.2]
    exact row_migrateLegacy id

/-- What `open` does to a row. -/
theorem row_openDb (id : ℤ) :
    ((openDb json f).after s).row id =
      if migrates json f s id then
        (s.row id).map fun row => setEnv (sessionEnvText json (migratedEnv json row)) row
      else s.row id := by
  unfold openDb migrates
  rw [Effect.after_check_bind, Effect.after_check_bind]
  rcases f.createDir with _ | _
  swap
  · rfl
  rcases f.openDb with _ | _
  swap
  · rfl
  rw [Effect.after_bind, Effect.outcome_get, Effect.after_get]
  rcases hready : s.schemaReady with _ | _
  · have hinit : ((initSchema json f).after s).row id = _ := row_initSchema id
    simp only [hready, Bool.false_eq_true, if_false, Bool.not_false, Bool.true_and]
    rw [← hinit, Effect.after_bind]
    rcases (initSchema json f).outcome s with e | _
    · rfl
    · simp only [Effect.after_bind, Effect.outcome_change, Effect.after_change, Effect.after_check]
      rfl
  · simp [hready]

/-- A relation between the stores before and after a step of the opening. -/
structure Opens (R : Store → Store → Prop) : Prop where
  refl : ∀ s, R s s
  trans : ∀ s s' s'', R s s' → R s' s'' → R s s''
  columns : ∀ s columns, s.columns ⊆ columns → R s { s with columns }
  migrate : ∀ (s : Store) id env, R s { s with rows := Table.modify id (setEnv env) s.rows }
  ready : ∀ s, R s { s with schemaReady := true }

variable {R : Store → Store → Prop}

theorem Opens.migrateRows (h : Opens R) (rows : List (Sigma fun _ : ℤ => Row)) :
    Effect.Moves R (migrateRows json f rows) := by
  intro s
  induction rows generalizing s with
  | nil => exact h.refl s
  | cons entry rows ih =>
    obtain ⟨id, row⟩ := entry
    rw [after_migrateRows_cons]
    split_ifs
    · exact h.refl s
    · exact h.refl s
    · exact h.refl s
    · exact h.trans _ _ _ (h.migrate s id _) (ih _)

theorem Opens.ensureSessionsColumn (h : Opens R) (name : Text) :
    Effect.Moves R (ensureSessionsColumn f name) := by
  intro s
  rw [after_ensureSessionsColumn]
  split_ifs
  · exact h.refl s
  · exact h.refl s
  · exact h.refl s
  · exact h.columns s _ (List.subset_append_left _ _)

theorem Opens.ensureSessionsColumns (h : Opens R) (names : List Text) :
    Effect.Moves R (forM names (Session.ensureSessionsColumn f)) := by
  induction names with
  | nil => exact h.refl
  | cons name names ih =>
    rw [List.forM_cons]
    exact .bind h.trans (h.ensureSessionsColumn name) fun _ => ih

theorem Opens.migrateLegacy (h : Opens R) :
    Effect.Moves R (migrateLegacySessionTerminalFields json f) := by
  intro s
  unfold migrateLegacySessionTerminalFields
  simp only [after_sessionsHasColumn_bind]
  split_ifs <;> try exact h.refl s
  rw [Effect.after_check_bind]
  split_ifs
  · exact h.refl s
  · exact h.migrateRows _ s

theorem Opens.initSchema (h : Opens R) : Effect.Moves R (initSchema json f) := by
  refine .bind h.trans (.check h.refl _ _) fun _ => .bind h.trans ?_ fun _ =>
    .bind h.trans (h.ensureSessionsColumns _) fun _ => h.migrateLegacy
  intro s
  rw [Effect.after_change]
  split
  · next hnil => exact h.columns s _ (hnil ▸ List.nil_subset _)
  · exact h.refl s

/-- What the steps of the opening keep, the opening keeps. -/
theorem Opens.openDb (h : Opens R) : Effect.Moves R (openDb json f) := by
  refine .bind h.trans (.check h.refl _ _) fun _ => .bind h.trans (.check h.refl _ _) fun _ =>
    .bind h.trans (.get h.refl) fun s => ?_
  split
  · exact .check h.refl _ _
  · exact .bind h.trans h.initSchema fun _ => .bind h.trans h.ready fun _ => .check h.refl _ _

/-- The stores hold the same passwords. -/
def SamePasswords (s s' : Store) : Prop := s'.passwords = s.passwords

theorem opens_samePasswords : Opens SamePasswords where
  refl _ := rfl
  trans _ _ _ h h' := Eq.trans h' h
  columns _ _ _ := rfl
  migrate _ _ _ := rfl
  ready _ := rfl

/-- `open` leaves the passwords. -/
theorem samePasswords_openDb : Effect.Moves SamePasswords (openDb json f) :=
  opens_samePasswords.openDb

end Opening

end Termua.Session
