import Mathlib
import Termua.Lib.Run
import Termua.Session.Environment

/-!
# The migration of the terminal fields, over many runs of the application

Every run of the application moves the terminal fields of an older table into `session_env` when it
first opens the database. Migrating again changes nothing, and a variable that is there keeps its
value. But the fields stay in their columns: when the user removes a variable of that name, the next
run brings it back (`removed_stays_iff`).
-/

namespace Termua.Session

/-! ## Openings that return -/

/-- The table has the columns of the terminal fields. -/
structure Store.Legacy (s : Store) : Prop where
  term : "term".toList ∈ s.columns
  charset : "charset".toList ∈ s.columns
  colorterm : "colorterm".toList ∈ s.columns

/-- A new run of the application. -/
def Store.restart (s : Store) : Store := { s with schemaReady := false }

section Opening

variable {json : SessionJson} {f : Faults} {s : Store} {id : ℤ}

/-- What `open` does to a row: nothing, or it is migrated. -/
theorem row_openDb_cases (json : SessionJson) (f : Faults) (s : Store) (id : ℤ) :
    ((openDb json f).after s).row id = s.row id ∨
      ((openDb json f).after s).row id = (s.row id).map (migrateRow json) := by
  rw [row_openDb]
  split
  · exact .inr rfl
  · exact .inl rfl

theorem addColumns_mem {names columns columns' : List Text}
    (h : addColumns f names columns = some columns') {column : Text} (hmem : column ∈ columns) :
    column ∈ columns' := by
  induction names generalizing columns with
  | nil =>
    obtain rfl := Option.some.inj h
    exact hmem
  | cons name names ih =>
    unfold addColumns at h
    split_ifs at h
    · exact ih h hmem
    · exact ih h (List.mem_append_left _ hmem)

theorem createdColumns_of_legacy (h : s.Legacy) : createdColumns s.columns = s.columns := by
  unfold createdColumns
  rw [if_neg (List.ne_nil_of_mem h.term)]

/-- A migration of rows that returns came to each of them. -/
theorem reaches_of_ok {rows : List (Sigma fun _ : ℤ => Row)}
    (h : (migrateRows json f rows).outcome s = .ok ()) (hid : id ∈ rows.keys) :
    reaches json f id rows = true := by
  induction rows generalizing s with
  | nil => cases hid
  | cons entry rows ih =>
    obtain ⟨id', row⟩ := entry
    unfold migrateRows at h
    obtain ⟨_, hread, h, -⟩ := Effect.outcome_bind_eq_ok h
    obtain ⟨text, hserialize, h, -⟩ := Effect.outcome_bind_eq_ok h
    obtain ⟨_, hmigrate, h, -⟩ := Effect.outcome_bind_eq_ok h
    rw [outcome_serializeSessionEnv] at hserialize
    rw [outcome_execute] at hmigrate
    have hread := Effect.outcome_check_eq_ok hread
    unfold reaches
    split at hserialize
    · cases hserialize
    · next htext =>
      split at hmigrate
      · cases hmigrate
      · next hwrite =>
        rw [hread, Bool.eq_false_of_not_eq_true htext, Bool.eq_false_of_not_eq_true hwrite]
        show (decide (id' = id) || reaches json f id rows) = true
        rcases List.mem_cons.mp hid with heq | hmem
        · rw [decide_eq_true heq.symm, Bool.true_or]
        · rw [ih h hmem, Bool.or_true]

theorem sessionsHasColumn_ok {name : Text} {has : Bool}
    (h : (sessionsHasColumn f name).outcome s = .ok has) :
    f.tableInfo name = false ∧ has = s.columns.contains name := by
  rw [sessionsHasColumn_outcome] at h
  split at h
  · cases h
  · next hinfo => exact ⟨Bool.eq_false_of_not_eq_true hinfo, (Except.ok.inj h).symm⟩

theorem migratesLegacy_of_ok (h : (migrateLegacySessionTerminalFields json f).outcome s = .ok ())
    (hlegacy : s.Legacy) (hid : id ∈ s.rows.keys) :
    migratesLegacy json f s.columns s.rows id = true := by
  unfold migrateLegacySessionTerminalFields at h
  obtain ⟨_, hterm, h, -⟩ := Effect.outcome_bind_eq_ok h
  obtain ⟨hinfo₁, rfl⟩ := sessionsHasColumn_ok hterm
  rw [sessionsHasColumn_after] at h
  obtain ⟨_, hcharset, h, -⟩ := Effect.outcome_bind_eq_ok h
  obtain ⟨hinfo₂, rfl⟩ := sessionsHasColumn_ok hcharset
  rw [sessionsHasColumn_after] at h
  obtain ⟨_, hcolorterm, h, -⟩ := Effect.outcome_bind_eq_ok h
  obtain ⟨hinfo₃, rfl⟩ := sessionsHasColumn_ok hcolorterm
  rw [sessionsHasColumn_after] at h
  have hcolumns : (s.columns.contains "term".toList && s.columns.contains "charset".toList &&
      s.columns.contains "colorterm".toList) = true := by
    simp only [Bool.and_eq_true, List.contains_iff_mem]
    exact ⟨⟨hlegacy.term, hlegacy.charset⟩, hlegacy.colorterm⟩
  rw [if_neg] at h
  · obtain ⟨_, hselect, h, -⟩ := Effect.outcome_bind_eq_ok h
    have hselect := Effect.outcome_check_eq_ok hselect
    rw [Effect.after_check] at h
    obtain ⟨s', hget, h, -⟩ := Effect.outcome_bind_eq_ok h
    obtain rfl := Except.ok.inj hget
    unfold migratesLegacy
    rw [hinfo₁, hinfo₂, hinfo₃, hcolumns, hselect, reaches_of_ok h hid]
    rfl
  · rw [← Bool.not_and, ← Bool.not_and, hcolumns]
    decide

/-- An opening that returns has migrated every row of an older table. -/
theorem migrates_of_ok (h : (openDb json f).outcome s = .ok ()) (hready : s.schemaReady = false)
    (hlegacy : s.Legacy) (hid : id ∈ s.rows.keys) : migrates json f s id = true := by
  unfold openDb at h
  -- the opening returned, so each of its steps did
  obtain ⟨_, hdir, h, -⟩ := Effect.outcome_bind_eq_ok h
  rw [Effect.after_check] at h
  obtain ⟨_, hopen, h, -⟩ := Effect.outcome_bind_eq_ok h
  rw [Effect.after_check] at h
  obtain ⟨s', hget, h, -⟩ := Effect.outcome_bind_eq_ok h
  obtain rfl := Except.ok.inj hget
  rw [if_neg (by rw [hready]; decide)] at h
  obtain ⟨_, h, -⟩ := Effect.outcome_bind_eq_ok h
  unfold initSchema at h
  obtain ⟨_, hcreate, h, -⟩ := Effect.outcome_bind_eq_ok h
  rw [Effect.after_check] at h
  obtain ⟨_, -, h, -⟩ := Effect.outcome_bind_eq_ok h
  -- the table is there, and the columns that are missing are added
  have hcreated : (if s.columns = [] then { s with columns := schemaColumns } else s) = s :=
    if_neg (List.ne_nil_of_mem hlegacy.term)
  rw [Effect.after_change, Effect.after_get, hcreated] at h
  obtain ⟨_, hcolumns, h, -⟩ := Effect.outcome_bind_eq_ok h
  have hspec := ensureSessionsColumns_spec (f := f) (s := s) addedColumns
  rcases hadded : addColumns f addedColumns s.columns with _ | columns
  · rw [hadded] at hspec
    obtain ⟨e, _, herror, -⟩ := hspec
    cases hcolumns.symm.trans herror
  · rw [hadded] at hspec
    rw [hspec.2] at h
    have hlegacy' : Store.Legacy { s with columns } :=
      ⟨addColumns_mem hadded hlegacy.term, addColumns_mem hadded hlegacy.charset,
        addColumns_mem hadded hlegacy.colorterm⟩
    have hmigrates := migratesLegacy_of_ok h hlegacy' hid
    unfold migrates
    rw [Effect.outcome_check_eq_ok hdir, Effect.outcome_check_eq_ok hopen, hready,
      Effect.outcome_check_eq_ok hcreate, createdColumns_of_legacy hlegacy, hadded]
    exact hmigrates

theorem addColumns_noFaults (names columns : List Text) :
    ∃ columns', addColumns noFaults names columns = some columns' := by
  induction names generalizing columns with
  | nil => exact ⟨columns, rfl⟩
  | cons name names ih =>
    unfold addColumns
    show ∃ columns', (if columns.contains name then addColumns noFaults names columns
      else addColumns noFaults names (columns ++ [name])) = some columns'
    split
    · exact ih columns
    · exact ih (columns ++ [name])

theorem reaches_noFaults {rows : List (Sigma fun _ : ℤ => Row)} (hid : id ∈ rows.keys) :
    reaches json noFaults id rows = true := by
  induction rows with
  | nil => cases hid
  | cons entry rows ih =>
    obtain ⟨id', row⟩ := entry
    have hserialize : decide (migratedEnv json row ≠ [] ∧
        noFaults.serialize "serialize session_env" = true) = false :=
      decide_eq_false fun h => Bool.false_ne_true h.2
    unfold reaches
    rw [hserialize]
    show (decide (id' = id) || reaches json noFaults id rows) = true
    rcases List.mem_cons.mp hid with heq | hmem
    · rw [decide_eq_true heq.symm, Bool.true_or]
    · rw [ih hmem, Bool.or_true]

/-- Where no step fails, the first opening of a run migrates every row of an older table. -/
theorem migrates_noFaults (hready : s.schemaReady = false) (hlegacy : s.Legacy)
    (hid : id ∈ s.rows.keys) : migrates json noFaults s id = true := by
  obtain ⟨columns, hadded⟩ := addColumns_noFaults addedColumns s.columns
  have hterm := addColumns_mem hadded hlegacy.term
  have hcharset := addColumns_mem hadded hlegacy.charset
  have hcolorterm := addColumns_mem hadded hlegacy.colorterm
  unfold migrates migratesLegacy
  rw [hready, createdColumns_of_legacy hlegacy, hadded, Option.any_some,
    List.contains_iff_mem.mpr hterm, List.contains_iff_mem.mpr hcharset,
    List.contains_iff_mem.mpr hcolorterm, reaches_noFaults hid]
  rfl

end Opening

/-! ## What a migration keeps -/

/-- The last value of a variable of a session. -/
def Store.envValue (json : SessionJson) (s : Store) (id : ℤ) (name : Text) : Option Text :=
  (s.row id).bind fun row => lastValue name (row.env json)

/-- Migrating twice in a row changes nothing the second time. -/
def Settles (json : SessionJson) (s : Store) : Prop :=
  ∀ f f' id, (openDb json f).outcome s.restart = .ok () →
    ((openDb json f').after ((openDb json f).after s.restart).restart).row id =
      ((openDb json f).after s.restart).row id

/-- A migration keeps the last value of every variable. -/
def KeepsValues (json : SessionJson) (s : Store) : Prop :=
  ∀ f id name value, s.envValue json id name = some value →
    ((openDb json f).after s.restart).envValue json id name = some value

section Keeping

variable {json : StoreJson} {f : Faults} {s : Store} {id : ℤ}

theorem settles (hjson : json.RoundTrips) (hlegacy : s.Legacy) :
    Settles json.toSessionJson s := by
  intro f f' id hok
  have hmigrated : ((openDb json.toSessionJson f).after s.restart).row id =
      (s.row id).map (migrateRow json.toSessionJson) := by
    by_cases hid : id ∈ s.rows.keys
    · have hmigrates := migrates_of_ok hok rfl ⟨hlegacy.term, hlegacy.charset, hlegacy.colorterm⟩ hid
      rw [row_openDb, if_pos hmigrates]
      rfl
    · have hnone : s.row id = none := AList.lookup_eq_none.mpr hid
      rcases row_openDb_cases json.toSessionJson f s.restart id with heq | heq
      · exact heq.trans (hnone.trans (by rw [hnone]; rfl))
      · exact heq
  rcases row_openDb_cases json.toSessionJson f'
      ((openDb json.toSessionJson f).after s.restart).restart id with heq | heq
  · exact heq
  · refine heq.trans ?_
    show (((openDb json.toSessionJson f).after s.restart).row id).map _ = _
    rw [hmigrated, Option.map_map]
    refine congrFun (congrArg Option.map (funext fun row => ?_)) _
    exact migrateRow_migrateRow hjson row

theorem keepsValues (hjson : json.RoundTrips) (s : Store) : KeepsValues json.toSessionJson s := by
  intro f id name value hvalue
  obtain ⟨row, hrow, hlast⟩ := Option.bind_eq_some_iff.mp hvalue
  refine Option.bind_eq_some_iff.mpr ?_
  rcases row_openDb_cases json.toSessionJson f s.restart id with heq | heq
  · exact ⟨row, heq.trans hrow, hlast⟩
  · refine ⟨migrateRow json.toSessionJson row, heq.trans (congrArg (Option.map _) hrow), ?_⟩
    rw [lastValue_migrateRow hjson, hlast, Option.some_or]

end Keeping

/-! ## The calls of the store -/

/-- A relation between the stores before and after a call: calls open the database, store passwords,
and come one after the other. -/
structure Follows (json : SessionJson) (R : Store → Store → Prop) : Prop where
  refl : ∀ s, R s s
  trans : ∀ s s' s'', R s s' → R s' s'' → R s s''
  opens : ∀ f, Effect.Moves R (openDb json f)
  passwords : ∀ s passwords, R s { s with passwords }

section Calls

variable {json : StoreJson} {f : Faults} {now id : ℤ} {R : Store → Store → Prop}

theorem Follows.execute {json : SessionJson} (h : Follows json R) {write : Rows → Rows}
    (hwrite : ∀ s : Store, R s { s with rows := write s.rows }) (fails : Bool) (e : StoreError) :
    Effect.Moves R (execute fails e write) :=
  .bind h.trans (.check h.refl _ _) fun _ => .change hwrite

theorem Follows.serializeSshProxyEnv {json : SessionJson} (h : Follows json R)
    (env : List SessionEnvVar) : Effect.Moves R (serializeSshProxyEnv json f env) :=
  .bind h.trans (.check h.refl _ _) fun _ => h.refl

theorem Follows.serializeSessionEnv {json : SessionJson} (h : Follows json R)
    (env : List SessionEnvVar) : Effect.Moves R (serializeSessionEnv json f env) :=
  .bind h.trans (.check h.refl _ _) fun _ => h.refl

theorem Follows.serializeSshProxyJump {json : SessionJson} (h : Follows json R)
    (mode : Option SshProxyMode) (hops : List SshJumpHop) :
    Effect.Moves R (serializeSshProxyJump json f mode hops) := by
  unfold Session.serializeSshProxyJump
  split
  · exact h.refl
  · exact .bind h.trans (.check h.refl _ _) fun _ => h.refl

/-- The write of an update leaves the terminal fields in their columns. -/
def Rewrites (R : Store → Store → Prop) (id : ℤ) : Prop :=
  ∀ set : Row → Row, (∀ row, (set row).terminalField = row.terminalField) →
    ∀ s : Store, R s { s with rows := Table.modify id set s.rows }

theorem Follows.updateSessionRow {json : SessionJson} (h : Follows json R) (hwrite : Rewrites R id)
    (session : SessionWrite) : Effect.Moves R (updateSessionRow json f now id session) := by
  refine .bind h.trans (h.serializeSshProxyEnv _) fun _ =>
    .bind h.trans (h.serializeSshProxyJump _ _) fun _ =>
    .bind h.trans (h.serializeSessionEnv _) fun _ => h.execute ?_ _ _
  exact hwrite _ fun _ => rfl

theorem Follows.deleteSshPassword {json : SessionJson} (h : Follows json R) (id : ℤ) :
    Effect.Moves R (deleteSshPasswordIfPresent f id) := by
  refine .change fun s => ?_
  split
  · exact h.refl s
  · exact h.passwords s _

theorem Follows.storeSshPassword {json : SessionJson} (h : Follows json R) (id : ℤ)
    (password : Option Text) : Effect.Moves R (storeSshPasswordIfPresent f id password) := by
  rcases password with _ | password
  · exact h.refl
  · refine .change fun s => ?_
    split
    · exact h.refl s
    · exact h.passwords s _

theorem Follows.updateWithoutPassword {json : SessionJson} (h : Follows json R)
    (hwrite : Rewrites R id) (session : SessionWrite) (text : String) :
    Effect.Moves R (updateWithoutPassword json f now id session text) :=
  .bind h.trans (h.deleteSshPassword id) fun _ =>
    .bind h.trans (h.opens f) fun _ => .mapError (h.updateSessionRow hwrite session) _

theorem Follows.update (h : Follows json.toSessionJson R) (hwrite : Rewrites R id)
    (spec : SessionSpec) : Effect.Moves R (spec.update json f now id) := by
  cases spec with
  | «local» => exact h.updateWithoutPassword hwrite _ _
  | sshConfig => exact h.updateWithoutPassword hwrite _ _
  | serial => exact h.updateWithoutPassword hwrite _ _
  | sshPassword =>
    exact .bind h.trans (h.opens f) fun _ =>
      .bind h.trans (.mapError (h.updateSessionRow hwrite _) _) fun _ => h.storeSshPassword id _

theorem Follows.updatePort {json : SessionJson} (h : Follows json R) (port : Text)
    (hwrite : ∀ s : Store, R s { s with
      rows := Table.modify id (fun r => { r with serialPort := some port, updatedAt := now })
        s.rows }) :
    Effect.Moves R (updateSerialSessionPort json f now id port) :=
  .bind h.trans (h.opens f) fun _ => .mapError (h.execute hwrite _ _) _

theorem Follows.delete {json : SessionJson} (h : Follows json R)
    (hwrite : ∀ s : Store, R s { s with rows := AList.erase id s.rows }) :
    Effect.Moves R (deleteSession json f id) :=
  .bind h.trans (h.deleteSshPassword id) fun _ =>
    .bind h.trans (h.opens f) fun _ => .mapError (h.execute hwrite _ _) _

theorem Follows.saveSession (h : Follows json.toSessionJson R) {newId : ℤ}
    (hwrite : ∀ row (s : Store), R s { s with rows := Table.push newId row s.rows })
    (session : SessionWrite) (text : String) :
    Effect.Moves R (saveSession json f now newId session text) := by
  refine .bind h.trans (h.opens f) fun _ => .mapError ?_ _
  refine .bind h.trans (h.serializeSshProxyEnv _) fun _ =>
    .bind h.trans (h.serializeSshProxyJump _ _) fun _ =>
    .bind h.trans (h.serializeSessionEnv _) fun _ => .bind h.trans (.get h.refl) fun _ =>
    .bind h.trans ?_ fun _ => h.refl
  exact h.execute (hwrite _) _ _

theorem Follows.save (h : Follows json.toSessionJson R) {newId : ℤ}
    (hwrite : ∀ row (s : Store), R s { s with rows := Table.push newId row s.rows })
    (spec : SessionSpec) : Effect.Moves R (spec.save json f now newId) := by
  cases spec with
  | «local» => exact h.saveSession hwrite _ _
  | sshConfig => exact h.saveSession hwrite _ _
  | serial => exact h.saveSession hwrite _ _
  | sshPassword =>
    exact .bind h.trans (h.saveSession hwrite _ _) fun _ =>
      .bind h.trans (h.storeSshPassword _ _) fun _ => h.refl

theorem Follows.load (h : Follows json.toSessionJson R) (id : ℤ) :
    Effect.Moves R (loadSession json f id) := by
  refine .bind h.trans (h.opens f) fun _ => .bind h.trans (.check h.refl _ _) fun _ =>
    .bind h.trans (.get h.refl) fun s => ?_
  split
  · exact h.refl
  · split
    · exact h.refl
    · exact h.refl

end Calls

/-! ## Runs -/

/-- What happens to the database: a new run of the application, and the calls of the store, each with
its faults. -/
inductive StoreEvent
  | restart
  | load (f : Faults) (id : ℤ)
  | save (f : Faults) (now newId : ℤ) (spec : SessionSpec)
  | update (f : Faults) (now id : ℤ) (spec : SessionSpec)
  | updatePort (f : Faults) (now id : ℤ) (port : Text)
  | delete (f : Faults) (id : ℤ)

/-- The store after an event. -/
def Store.step (json : StoreJson) (s : Store) : StoreEvent → Store
  | .restart => s.restart
  | .load f id => (loadSession json f id).after s
  | .save f now newId spec => (spec.save json f now newId).after s
  | .update f now id spec => (spec.update json f now id).after s
  | .updatePort f now id port => (updateSerialSessionPort json.toSessionJson f now id port).after s
  | .delete f id => (deleteSession json.toSessionJson f id).after s

/-- The event writes the environment of the session. -/
def StoreEvent.Writes (id : ℤ) : StoreEvent → Prop
  | .save _ _ newId _ => newId = id
  | .update _ _ id' _ => id' = id
  | .restart | .load .. | .updatePort .. | .delete .. => False

section Runs

open Transition

variable {json : StoreJson} {f : Faults} {now id : ℤ} {s s' s₀ : Store} {es : List StoreEvent}

/-- The columns of the first store are still there. -/
def SameColumns (s s' : Store) : Prop := s.columns ⊆ s'.columns

theorem follows_sameColumns (json : SessionJson) : Follows json SameColumns where
  refl _ := List.Subset.refl _
  trans _ _ _ := List.Subset.trans
  opens _ := Opens.openDb
    { refl := fun _ => List.Subset.refl _
      trans := fun _ _ _ => List.Subset.trans
      columns := fun _ _ h => h
      migrate := fun _ _ _ => List.Subset.refl _
      ready := fun _ => List.Subset.refl _ }
  passwords _ _ := List.Subset.refl _

/-- What holds of the row of the session holds afterwards. -/
def KeepsOf (P : Row → Prop) (id : ℤ) (s s' : Store) : Prop :=
  (∀ row ∈ s.row id, P row) → ∀ row ∈ s'.row id, P row

theorem follows_keepsOf {json : SessionJson} {P : Row → Prop}
    (hmigrate : ∀ row, P row → P (migrateRow json row)) (id : ℤ) :
    Follows json (KeepsOf P id) where
  refl _ h := h
  trans _ _ _ h h' hs := h' (h hs)
  opens f s h := by
    intro row hrow
    rcases row_openDb_cases json f s id with heq | heq
    · rw [heq] at hrow
      exact h row hrow
    · rw [heq] at hrow
      obtain ⟨row', hrow', rfl⟩ := Option.map_eq_some_iff.mp hrow
      exact hmigrate row' (h row' hrow')
  passwords _ _ h := h

/-- The session has its terminal fields from before. -/
def SameFields (id : ℤ) (s s' : Store) : Prop :=
  ∀ row' ∈ s'.row id, ∃ row ∈ s.row id, row'.terminalField = row.terminalField

theorem follows_sameFields (json : SessionJson) (id : ℤ) : Follows json (SameFields id) where
  refl _ row hrow := ⟨row, hrow, rfl⟩
  trans _ _ _ h h' row hrow := by
    obtain ⟨row', hrow', heq'⟩ := h' row hrow
    obtain ⟨row'', hrow'', heq''⟩ := h row' hrow'
    exact ⟨row'', hrow'', heq'.trans heq''⟩
  opens f s row hrow := by
    rcases row_openDb_cases json f s id with heq | heq
    · exact ⟨row, heq ▸ hrow, rfl⟩
    · rw [heq] at hrow
      obtain ⟨row', hrow', rfl⟩ := Option.map_eq_some_iff.mp hrow
      exact ⟨row', hrow', rfl⟩
  passwords _ _ row hrow := ⟨row, hrow, rfl⟩

theorem rewrites_sameFields (id : ℤ) : Rewrites (SameFields id) id := by
  intro set hset s row hrow
  rw [row_modify, if_pos rfl] at hrow
  obtain ⟨row', hrow', rfl⟩ := Option.map_eq_some_iff.mp hrow
  exact ⟨row', hrow', hset row'⟩

/-- Every event leaves the columns that are there. -/
theorem sameColumns_step (json : StoreJson) (s : Store) (e : StoreEvent) : SameColumns s (s.step json e) := by
  have h := follows_sameColumns json.toSessionJson
  cases e with
  | restart => exact List.Subset.refl s.columns
  | load f id => exact h.load id s
  | save f now newId spec => exact h.save (fun _ s => h.refl s) spec s
  | update f now id spec => exact h.update (fun _ _ s => h.refl s) spec s
  | updatePort f now id port => exact h.updatePort port (fun s => h.refl s) s
  | delete f id => exact h.delete (fun s => h.refl s) s

/-- The columns of the terminal fields stay in the table. -/
theorem legacy_run (hlegacy : s₀.Legacy) (hrun : Run (ofFun (Store.step json)) s₀ es s) :
    s.Legacy := by
  refine hrun.invariant hlegacy fun _ s e s' _ h hs => ?_
  obtain rfl := hs
  have hcolumns := sameColumns_step json s e
  exact ⟨hcolumns h.term, hcolumns h.charset, hcolumns h.colorterm⟩

theorem row_push {newId : ℤ} {row : Row} {s : Store} (h : newId ≠ id) :
    Store.row { s with rows := Table.push newId row s.rows } id = s.row id := by
  by_cases hmem : newId ∈ s.rows
  · show (Table.push newId row s.rows).lookup id = _
    unfold Table.push
    rw [dif_pos hmem]
    rfl
  · exact (Table.lookup_push hmem).trans (if_neg (Ne.symm h))

/-- What a migration and a change of the port keep of the row of a session, every event keeps that
does not write its environment. -/
theorem keepsOf_step {P : Row → Prop}
    (hmigrate : ∀ row, P row → P (migrateRow json.toSessionJson row))
    (hport : ∀ row port now, P row → P { row with serialPort := some port, updatedAt := now })
    (s : Store) {e : StoreEvent} (he : ¬ e.Writes id) : KeepsOf P id s (s.step json e) := by
  have h := follows_keepsOf hmigrate id
  cases e with
  | restart => exact fun hs => hs
  | load f id' => exact h.load id' s
  | save f now newId spec =>
    refine h.save (fun row s hs => ?_) spec s
    rwa [row_push he]
  | update f now id' spec =>
    refine h.update (fun set _ s hs => ?_) spec s
    rw [row_modify, if_neg (Ne.symm he)]
    exact hs
  | updatePort f now id' port =>
    refine h.updatePort port (fun s hs row hrow => ?_) s
    rw [row_modify] at hrow
    split at hrow
    · next heq =>
      obtain ⟨row', hrow', rfl⟩ := Option.map_eq_some_iff.mp hrow
      exact hport row' port now (hs row' (heq ▸ hrow'))
    · exact hs row hrow
  | delete f id' =>
    refine h.delete (fun s hs row hrow => ?_) s
    by_cases heq : id = id'
    · subst heq
      cases (AList.lookup_erase id s.rows).symm.trans hrow
    · exact hs row ((AList.lookup_erase_ne heq).symm.trans hrow)

/-! ## Variables that were removed -/

/-- A migration of the row brings the variable back: its terminal field is there, and no variable of
the environment has its name up to case. -/
def Row.BringsBack (row : Row) (name : Text) (env : List SessionEnvVar) : Prop :=
  row.terminalField name ≠ none ∧ hasName env name = false

/-- The variable is not in the row, and a migration does not bring it back. -/
def Row.Without (json : SessionJson) (name : Text) (row : Row) : Prop :=
  lastValue name (row.env json) = none ∧ ¬ row.BringsBack name (row.env json)

theorem without_migrateRow (hjson : json.RoundTrips) (name : Text) (row : Row)
    (h : row.Without json.toSessionJson name) :
    (migrateRow json.toSessionJson row).Without json.toSessionJson name := by
  obtain ⟨hnone, hstays⟩ := h
  constructor
  · rw [lastValue_migrateRow hjson, hnone, Option.none_or]
    rcases hhas : hasName (row.env json.toSessionJson) name with _ | _
    · rw [if_neg Bool.false_ne_true]
      by_contra hfield
      exact hstays ⟨hfield, hhas⟩
    · rfl
  · rintro ⟨hfield, hnot⟩
    rw [env_migrateRow hjson, covered_migratedEnv json.toSessionJson row name hfield] at hnot
    cases hnot

/-- A variable that a migration does not bring back stays out until the environment is written. -/
theorem without_run (hjson : json.RoundTrips) {name : Text}
    (hrun : Run (ofFun (Store.step json)) s₀ es s) (hes : ∀ e ∈ es, ¬ e.Writes id)
    (h : ∀ row ∈ s₀.row id, row.Without json.toSessionJson name) :
    ∀ row ∈ s.row id, row.Without json.toSessionJson name := by
  induction hrun with
  | start => exact h
  | @next es s s' e _ hs ih =>
    obtain rfl := hs
    rw [List.forall_mem_append] at hes
    exact keepsOf_step (without_migrateRow hjson name) (fun _ _ _ h => h) s
      (hes.2 e List.mem_cons_self) (ih hes.1)

/-- A load only opens the database. -/
theorem after_loadSession (json : StoreJson) (f : Faults) (s : Store) :
    (loadSession json f id).after s = (openDb json.toSessionJson f).after s := by
  unfold loadSession
  rw [Effect.after_bind]
  rcases (openDb json.toSessionJson f).outcome s with e | _
  · rfl
  · simp only
    rw [Effect.after_check_bind]
    split
    · rfl
    · rw [Effect.after_bind, Effect.outcome_get, Effect.after_get]
      simp only
      split
      · rfl
      · split
        · rfl
        · rfl

/-- The first opening of a run, where no step fails. -/
theorem row_load_restart {row : Row} (hlegacy : s.Legacy) (hrow : s.row id = some row) :
    (s.restart.step json (.load noFaults id)).row id =
      some (migrateRow json.toSessionJson row) := by
  have hid : id ∈ s.rows.keys := AList.lookup_isSome.mp (Option.isSome_iff_exists.mpr ⟨row, hrow⟩)
  have hlegacy' : s.restart.Legacy := ⟨hlegacy.term, hlegacy.charset, hlegacy.colorterm⟩
  show ((loadSession json noFaults id).after s.restart).row id = _
  rw [after_loadSession, row_openDb, if_pos (migrates_noFaults rfl hlegacy' hid)]
  exact congrArg (Option.map _) hrow

theorem env_encode (hjson : json.RoundTrips) (now : ℤ) (session : SessionWrite) (row : Row) :
    (encode json.toSessionJson now session row).env json.toSessionJson = session.env := by
  show (((absentIfEmpty session.env).map json.envText).bind json.readEnv).getD [] = _
  rw [bind_absentIfEmpty (hjson.env session.env)]
  unfold absentIfEmpty
  rcases session.env with _ | ⟨var, env⟩ <;> rfl

/-- The row behind an edit. -/
theorem row_update (hjson : json.RoundTrips) {spec : SessionSpec} {row : Row}
    (hrow : s.row id = some row) (hedit : (spec.update json f now id).outcome s = .ok ()) :
    ∃ row', ((spec.update json f now id).after s).row id = some row' ∧
      row'.terminalField = row.terminalField ∧
      row'.env json.toSessionJson = spec.write.env := by
  obtain ⟨⟨-, now', row', hrow'⟩, -⟩ :=
    SessionSpec.stored_update (by rw [hrow]; rfl) hedit
  have hfields : SameFields id s ((spec.update json f now id).after s) :=
    (follows_sameFields json.toSessionJson id).update (rewrites_sameFields id) spec s
  obtain ⟨row'', hrow'', hsame⟩ := hfields _ hrow'
  obtain rfl := Option.some.inj (hrow''.symm.trans hrow)
  exact ⟨_, hrow', hsame, env_encode hjson now' spec.write row'⟩

/-- From an older table on, in every state that runs of the application and edits lead to: migrating
twice in a row changes nothing the second time; a migration keeps the last value of every variable;
and a variable that an edit leaves out of a session stays out, whatever follows but another write of
its environment, exactly when the migration of the row does not bring it back. -/
theorem removed_stays_iff (hjson : json.RoundTrips) (hlegacy : s₀.Legacy)
    (hrun : Run (ofFun (Store.step json)) s₀ es s) :
    Settles json.toSessionJson s ∧ KeepsValues json.toSessionJson s ∧
      ∀ f now id (spec : SessionSpec) row name, s.row id = some row →
        (spec.update json f now id).outcome s = .ok () → lastValue name spec.write.env = none →
        ((∀ es' s', Run (ofFun (Store.step json)) (s.step json (.update f now id spec)) es' s' →
            (∀ e ∈ es', ¬ e.Writes id) → s'.envValue json.toSessionJson id name = none) ↔
          ¬ row.BringsBack name spec.write.env) := by
  have hlegacy := legacy_run hlegacy hrun
  refine ⟨settles hjson hlegacy, keepsValues hjson s, ?_⟩
  intro f now id spec row name hrow hedit hremoved
  obtain ⟨row', hrow', hfields, henv⟩ := row_update hjson hrow hedit
  constructor
  · rintro hstays ⟨hfield, hnot⟩
    -- a run of the application in which nothing fails brings the variable back
    have hlegacy' : Store.Legacy (s.step json (.update f now id spec)) :=
      legacy_run hlegacy (.next .start rfl)
    have hother : ∀ e ∈ [StoreEvent.restart, .load noFaults id], ¬ e.Writes id := by
      simp [StoreEvent.Writes]
    have hnone := hstays [.restart, .load noFaults id] _ (run_ofFun_iff.mpr rfl) hother
    have hload : ((s.step json (.update f now id spec)).restart.step json
        (.load noFaults id)).row id = some (migrateRow json.toSessionJson row') :=
      row_load_restart hlegacy' hrow'
    have hvalue : lastValue name ((migrateRow json.toSessionJson row').env json.toSessionJson) =
        none := by
      have hbind := congrArg (Option.bind · fun row => lastValue name (row.env json.toSessionJson))
        hload
      exact hbind.symm.trans hnone
    rw [lastValue_migrateRow hjson, henv, hremoved, hnot, hfields, Option.none_or] at hvalue
    exact hfield hvalue
  · intro hstays es' s' hrun' hes'
    have hwithout : ∀ row ∈ (s.step json (.update f now id spec)).row id,
        row.Without json.toSessionJson name := by
      intro row'' hrow''
      obtain rfl := Option.some.inj (hrow'.symm.trans hrow'')
      refine ⟨henv ▸ hremoved, ?_⟩
      unfold Row.BringsBack at hstays ⊢
      rwa [hfields, henv]
    have hlast := without_run hjson hrun' hes' hwithout
    unfold Store.envValue
    rcases hrow'' : s'.row id with _ | row''
    · rfl
    · exact (hlast row'' hrow'').1

end Runs

/-! ## An older table -/

section Example

open Transition

/-- A local session with a terminal name and a variable of its own. -/
def legacyRow : Row :=
  { newRow 0 with
    protocol := protocolToStr .local
    groupPath := "local".toList
    label := "box".toList
    backend := backendToStr .alacritty
    sessionEnv := some (compactJson.envText [⟨"FOO".toList, "bar".toList⟩])
    term := "xterm".toList }

/-- The table with this session as number 7. -/
def legacyStore : Store where
  schemaReady := false
  columns := schemaColumns ++ ["term".toList, "charset".toList, "colorterm".toList]
  rows := AList.singleton 7 legacyRow
  passwords := fun _ => none

theorem legacy_legacyStore : legacyStore.Legacy := ⟨by decide, by decide, by decide⟩

/-- The table behind the first opening. -/
def migratedStore : Store := legacyStore.restart.step compactJson (.load noFaults 7)

/-- The session with one variable. -/
def boxWith (name value : Text) : SessionSpec :=
  .local "local".toList "box".toList .alacritty [⟨name, value⟩]

theorem eq_ok_of_isOk {ε : Type} {r : Except ε Unit} (h : r.isOk = true) : r = .ok () := by
  rcases r with _ | _
  · cases h
  · rfl

/-- A variable of the user that an edit leaves out does not come back. -/
theorem removed_stays_own :
    (((migratedStore.step compactJson (.update noFaults 1 7
        (boxWith "TERM".toList "vt100".toList))).step compactJson .restart).step compactJson
          (.load noFaults 7)).envValue compactJson.toSessionJson 7 "FOO".toList = none := by
  have hrow : migratedStore.row 7 = some (migrateRow compactJson.toSessionJson legacyRow) :=
    row_load_restart legacy_legacyStore rfl
  have hrun : Run (ofFun (Store.step compactJson)) legacyStore [.restart, .load noFaults 7]
      migratedStore := .next (.next .start rfl) rfl
  have hedit : ((boxWith "TERM".toList "vt100".toList).update compactJson noFaults 1 7).outcome
      migratedStore = .ok () := eq_ok_of_isOk (by decide +kernel)
  have hremoved : lastValue "FOO".toList (boxWith "TERM".toList "vt100".toList).write.env = none := by
    decide
  obtain ⟨-, -, hiff⟩ := removed_stays_iff compactJson_roundTrips legacy_legacyStore hrun
  have hstays := (hiff noFaults 1 7 _ _ _ hrow hedit hremoved).mpr fun h => h.1 (by decide)
  refine hstays [.restart, .load noFaults 7] _ (.next (.next .start rfl) rfl) fun e he => ?_
  rcases List.mem_pair.mp he with rfl | rfl
  · exact not_false
  · exact not_false

/-- The terminal name that an edit leaves out is there, is gone behind the edit, and comes back in
the next run of the application. -/
theorem not_removed_stays_term :
    migratedStore.envValue compactJson.toSessionJson 7 "TERM".toList = some "xterm".toList ∧
      (migratedStore.step compactJson (.update noFaults 1 7
        (boxWith "FOO".toList "bar".toList))).envValue compactJson.toSessionJson 7 "TERM".toList =
          none ∧
      ((migratedStore.step compactJson (.update noFaults 1 7
        (boxWith "FOO".toList "bar".toList))).restart.step compactJson (.load noFaults 7)).envValue
          compactJson.toSessionJson 7 "TERM".toList = some "xterm".toList := by
  refine ⟨?_, ?_, ?_⟩
  · decide +kernel
  · decide +kernel
  · decide +kernel

end Example

end Termua.Session
