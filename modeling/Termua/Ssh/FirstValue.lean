import Mathlib
import Termua.Lib.Inclusion
import Termua.Lib.Run
import Termua.Lib.Sections
import Termua.Ssh.Config
import Termua.Ssh.Reading

/-!
# The first value wins

With every include in its place a file is a sequence of sections, and what is parsed of it are their tables.
After any calls an option of a host is the value that was set for it last, and otherwise the first value that
counts for it in the files; only the identity files of a section are put together (`forHost_first_value`).
-/

namespace Termua.Ssh.ConfigFile

open Transition
open Inclusion (expand)
open Sections (Line sections push table values lookup first)

/-- A statement as a line of a file with sections; noting a file is none. -/
def Statement.toLine : Statement → Option (Line Header Text Text)
  | .load _ => none
  | .header h => some (.header h)
  | .option k v => some (.entry k v)

/-- The headers and options of a file, with those of each include in its place. -/
def fileLines (p : Platform) (fuel : ℕ) (d : Document) : Option (List (Line Header Text Text)) :=
  (expand (body p) fuel d).map fun l => l.filterMap Statement.toLine

/-- The options of a section count for the host. -/
def applies (p : Platform) (hostname user : Text) : Option Header → Bool
  | none => true
  | some h => h.isMatch p hostname user user .firstPass

/-- The values of an option of which several are kept. -/
def joined : List Text → Option Text
  | [] => none
  | vs => some ([' '].intercalate vs)

/-- The value that the files have for an option of a host. -/
def firstValue (p : Platform) (hostname user : Text) (files : List (List (Line Header Text Text)))
    (k : Text) : Option Text :=
  if k = "identityfile".toList then
    files.findSome? fun ls => (sections none ls).findSome? fun s =>
      if applies p hostname user s.1 then joined (values k s.2) else none
  else files.findSome? fun ls => first (applies p hostname user) k true ls

/-- The file at a path, where it can be read. -/
def fileAt (p : Platform) (path : Text) : List Document :=
  ((p.readToString path).map fun data => ⟨p.parent path, data⟩).toList

/-- The files that a call adds. -/
def Config.Call.files (p : Platform) : Config.Call → List Document
  | .addConfigString configString => [⟨none, configString⟩]
  | .addConfigFile path => fileAt p path
  | .addDefaultConfigFiles => (Config.defaultConfigFiles p).flatMap (fileAt p)
  | _ => []

/-- The value that a call sets an option to. -/
def Config.Call.value (p : Platform) (k : Text) : Config.Call → Option Text
  | .setOption key value => if p.toLowercase key = k then some value else none
  | _ => none

/-- The value that an option was set to last. -/
def setValue (p : Platform) (calls : List Config.Call) (k : Text) : Option Text :=
  (calls.filterMap (Config.Call.value p k)).getLast?

/-- What is parsed of a file with these sections. -/
def tabulate (entries : List (Text × Text)) (groups : List (Header × List (Text × Text)))
    (loadedFiles : List Text) : ParsedConfigFile :=
  { options := table addOption entries
    groups := groups.map fun g => ⟨g.1, table addOption g.2⟩
    loadedFiles }

/-- The options before the first header and the groups, as sections. -/
def asSections (entries : List (Text × Text)) (groups : List (Header × List (Text × Text))) :
    List (Option Header × List (Text × Text)) :=
  (none, entries) :: groups.map fun g => (some g.1, g.2)

variable {p : Platform} {fuel : ℕ} {cwd : Option Text} {text host user k : Text} {c c' : Config}
  {documents : List Document} {entries : List (Text × Text)} {groups : List (Header × List (Text × Text))}
  {loadedFiles : List Text}

/-! ## Parsing -/

/-- An option goes into the table of the last section. -/
theorem option_tabulate (entries : List (Text × Text)) (groups : List (Header × List (Text × Text)))
    (loadedFiles : List Text) (k v : Text) : ∃ entries' groups',
    (tabulate entries groups loadedFiles).option k v = tabulate entries' groups' loadedFiles ∧
      asSections entries' groups' = push (asSections entries groups) (.entry k v) := by
  -- without a group the last section is that of the options before the first header
  rcases List.eq_nil_or_concat' groups with rfl | ⟨init, g, rfl⟩
  · refine ⟨entries ++ [(k, v)], [], ?_, rfl⟩
    unfold tabulate
    rw [Sections.table_concat]
    rfl
  · refine ⟨entries, init ++ [(g.1, g.2 ++ [(k, v)])], ?_, ?_⟩
    · unfold tabulate ParsedConfigFile.option
      simp only [List.map_append, List.map_singleton, Sections.table_concat]
      rw [if_neg (by simp), List.modifyLast_concat]
    · unfold asSections push
      rw [List.map_append, List.map_append, List.map_singleton, List.map_singleton,
        ← List.cons_append, ← List.cons_append]
      have hlast := List.modifyLast_concat
        (fun s : Option Header × List (Text × Text) => (s.1, s.2 ++ [(k, v)])) (some g.1, g.2)
        ((none, entries) :: init.map fun g => (some g.1, g.2))
      exact hlast.symm

/-- What the statements of a file do to the sections that are parsed so far. -/
theorem foldl_apply (statements : List Statement) (entries : List (Text × Text))
    (groups : List (Header × List (Text × Text))) (loadedFiles : List Text) :
    ∃ entries' groups' loadedFiles',
      statements.foldl ParsedConfigFile.apply (tabulate entries groups loadedFiles) =
        tabulate entries' groups' loadedFiles' ∧
      asSections entries' groups' =
        (statements.filterMap Statement.toLine).foldl push (asSections entries groups) := by
  induction statements generalizing entries groups loadedFiles with
  | nil => exact ⟨entries, groups, loadedFiles, rfl, rfl⟩
  | cons statement statements ih =>
    rw [List.foldl_cons]
    cases statement with
    -- a file that is loaded adds no section
    | load file => exact ih entries groups (loadedFiles ++ [file])
    -- a header opens a section, and an option goes to the last one
    | header h =>
      obtain ⟨entries', groups', loadedFiles', hfold, hsections⟩ :=
        ih entries (groups ++ [(h, [])]) loadedFiles
      refine ⟨entries', groups', loadedFiles', ?_, ?_⟩
      · rw [← hfold]
        unfold tabulate
        rw [List.map_append]
        rfl
      · rw [hsections]
        unfold asSections
        rw [List.map_append]
        rfl
    | option k v =>
      obtain ⟨entries₁, groups₁, hoption, hpush⟩ := option_tabulate entries groups loadedFiles k v
      obtain ⟨entries', groups', loadedFiles', hfold, hsections⟩ := ih entries₁ groups₁ loadedFiles
      refine ⟨entries', groups', loadedFiles', ?_, ?_⟩
      · rw [← hfold, ← hoption]
        rfl
      · rw [hsections, hpush]
        rfl

/-- What is parsed of a file are the tables of its sections. -/
theorem parse_eq {sourceFile : Option Text} {f : ParsedConfigFile}
    (h : ParsedConfigFile.parse p fuel text cwd sourceFile = some f) :
    ∃ ls entries groups loadedFiles, fileLines p fuel ⟨cwd, text⟩ = some ls ∧
      f = tabulate entries groups loadedFiles ∧ asSections entries groups = sections none ls := by
  unfold ParsedConfigFile.parse at h
  rw [parseImpl_eq] at h
  obtain ⟨statements, hstatements, rfl⟩ := Option.map_eq_some_iff.mp h
  obtain ⟨entries, groups, loadedFiles, hfold, hsections⟩ := foldl_apply statements [] [] sourceFile.toList
  refine ⟨_, entries, groups, loadedFiles, Option.map_eq_some_iff.mpr ⟨_, hstatements, rfl⟩, hfold, ?_⟩
  rw [hsections]
  exact Sections.foldl_push _

/-! ## Taking the options -/

/-- The groups that match are looked up in their order. -/
theorem foldl_groups (groups : List (Header × List (Text × Text))) (target : ConfigMap) :
    (groups.map fun g => (⟨g.1, table addOption g.2⟩ : MatchGroup)).foldl (fun target g =>
      if g.header.isMatch p host user user .firstPass then ParsedConfigFile.orInsert target g.options
      else target) target k =
      (target k).or (lookup (applies p host user) addOption (groups.map fun g => (some g.1, g.2)) k) := by
  induction groups generalizing target with
  | nil => exact Option.or_none.symm
  | cons g groups ih =>
    rw [List.map_cons, List.foldl_cons, ih, List.map_cons]
    unfold lookup
    rw [List.findSome?_cons]
    -- a group that matches adds what is not there yet
    by_cases hmatch : g.1.isMatch p host user user .firstPass = true
    · rw [if_pos hmatch, if_pos (show applies p host user (some g.1) = true from hmatch)]
      unfold ParsedConfigFile.orInsert
      simp only
      rcases target k with _ | v <;> rcases table addOption g.2 k with _ | w <;> simp
    · rw [if_neg hmatch, if_neg (show ¬applies p host user (some g.1) = true from hmatch)]

/-- What a file adds to the options is what its sections have. -/
theorem applyMatches_tabulate (target : ConfigMap) :
    ((tabulate entries groups loadedFiles).applyMatches p host user user .firstPass target).2 k =
      (target k).or (lookup (applies p host user) addOption (asSections entries groups) k) := by
  unfold ParsedConfigFile.applyMatches tabulate
  simp only
  rw [foldl_groups]
  unfold lookup asSections
  rw [List.findSome?_cons, if_pos (show applies p host user none = true from rfl)]
  unfold ParsedConfigFile.orInsert
  rcases target k with _ | v <;> rcases table addOption entries k with _ | w <;> simp

/-- The identity files of a section, one behind the other. -/
theorem table_identityfile (entries : List (Text × Text)) :
    table addOption entries "identityfile".toList = joined (values "identityfile".toList entries) := by
  have hjoin (v : Text) (vs : List Text) :
      vs.foldl (fun o w => some (addOption "identityfile".toList o w)) (some v) =
        some ([' '].intercalate (v :: vs)) := by
    induction vs generalizing v with
    | nil => simp
    | cons w vs ih =>
      rw [List.foldl_cons, addOption, if_pos rfl, ih, List.intercalate_cons_cons]
      cases vs with
      | nil => simp
      | cons w' vs => simp [List.intercalate_cons_cons]
  rw [Sections.table_eq]
  rcases values "identityfile".toList entries with _ | ⟨v, vs⟩
  · rfl
  · exact hjoin v vs

/-- Looking up an option in the sections of a file. -/
theorem lookup_sections (ls : List (Line Header Text Text)) :
    lookup (applies p host user) addOption (sections none ls) k = firstValue p host user [ls] k := by
  unfold firstValue
  split
  · next hk =>
    subst hk
    unfold lookup
    simp only [table_identityfile]
    exact (List.findSome?_singleton).symm
  · next hk =>
    have hsome (w v : Text) : addOption k (some w) v = w := if_neg hk
    rw [Sections.lookup_eq_first (fun _ => rfl) hsome]
    exact (List.findSome?_singleton).symm

theorem firstValue_append (files files' : List (List (Line Header Text Text))) :
    firstValue p host user (files ++ files') k =
      (firstValue p host user files k).or (firstValue p host user files' k) := by
  unfold firstValue
  split <;> rw [List.findSome?_append]

/-! ## Calls -/

/-- Taking the options from the files of a configuration is looking them up in these documents. -/
def Config.Reads (p : Platform) (fuel : ℕ) (documents : List Document) (c : Config) : Prop :=
  ∃ linesOf, documents.mapM (fileLines p fuel) = some linesOf ∧
    ∀ (host user : Text) (target : ConfigMap) (k : Text),
      c.configFiles.foldl (fun result f => (f.applyMatches p host user user .firstPass result).2) target k =
        (target k).or (firstValue p host user linesOf k)

/-- A file that is added is looked up behind the others. -/
theorem Config.Reads.addParsed {sourceFile : Option Text} (h : c.Reads p fuel documents)
    (hadd : c.addParsed p fuel text cwd sourceFile = some c') :
    c'.Reads p fuel (documents ++ [⟨cwd, text⟩]) ∧ c'.options = c.options := by
  obtain ⟨linesOf, hlinesOf, hlookup⟩ := h
  obtain ⟨f, hf, rfl⟩ := Option.map_eq_some_iff.mp hadd
  obtain ⟨ls, entries, groups, loadedFiles, hls, rfl, hsections⟩ := parse_eq hf
  refine ⟨⟨linesOf ++ [ls], ?_, fun host user target k => ?_⟩, rfl⟩
  · rw [List.mapM_append, hlinesOf, List.mapM_cons, hls]
    rfl
  · simp only [List.foldl_append, List.foldl_cons, List.foldl_nil]
    rw [applyMatches_tabulate, hlookup, hsections,
      lookup_sections, Option.or_assoc, ← firstValue_append]

theorem Config.Reads.addConfigFile {path : Text} (h : c.Reads p fuel documents)
    (hadd : c.addConfigFile p fuel path = some c') :
    c'.Reads p fuel (documents ++ fileAt p path) ∧ c'.options = c.options := by
  unfold Config.addConfigFile at hadd
  unfold fileAt
  rcases hread : p.readToString path with _ | data
  · rw [hread] at hadd
    obtain rfl := Option.some.inj hadd
    rw [Option.map_none, Option.toList_none, List.append_nil]
    exact ⟨h, rfl⟩
  · rw [hread] at hadd
    exact h.addParsed hadd

theorem Config.Reads.addConfigFiles {paths : List Text} (h : c.Reads p fuel documents)
    (hadd : paths.foldlM (fun c path => c.addConfigFile p fuel path) c = some c') :
    c'.Reads p fuel (documents ++ paths.flatMap (fileAt p)) ∧ c'.options = c.options := by
  induction paths generalizing c documents with
  | nil =>
    obtain rfl := Option.some.inj hadd
    rw [List.flatMap_nil, List.append_nil]
    exact ⟨h, rfl⟩
  | cons path paths ih =>
    rw [List.foldlM_cons, Option.bind_eq_bind, Option.bind_eq_some_iff] at hadd
    obtain ⟨m, hm, hadd⟩ := hadd
    obtain ⟨hreads, hoptions⟩ := h.addConfigFile hm
    obtain ⟨hreads', hoptions'⟩ := ih hreads hadd
    rw [List.flatMap_cons, ← List.append_assoc]
    exact ⟨hreads', hoptions'.trans hoptions⟩

/-- A call adds its files and sets its option. -/
theorem Config.Reads.call {call : Config.Call} (h : c.Reads p fuel documents)
    (hcall : c.call p fuel call = some c') :
    c'.Reads p fuel (documents ++ call.files p) ∧
      ∀ k, c'.options k = (call.value p k).or (c.options k) := by
  -- a call that sets no option, and one that adds no file
  have hkeep {docs : List Document} (hadd : c'.Reads p fuel docs ∧ c'.options = c.options) :
      c'.Reads p fuel docs ∧ ∀ k, c'.options k = (none : Option Text).or (c.options k) :=
    ⟨hadd.1, fun k => congrFun hadd.2 k⟩
  have hfiles (hreads : c'.Reads p fuel documents) : c'.Reads p fuel (documents ++ []) :=
    (List.append_nil documents).symm ▸ hreads
  cases call with
  | assignEnvironment env =>
    obtain rfl := Option.some.inj hcall
    exact hkeep ⟨hfiles h, rfl⟩
  | assignTokens tokens =>
    obtain rfl := Option.some.inj hcall
    exact hkeep ⟨hfiles h, rfl⟩
  | setOption key value =>
    obtain rfl := Option.some.inj hcall
    refine ⟨hfiles h, fun k => ?_⟩
    show Function.update c.options (p.toLowercase key) (some value) k = Option.or (if _ then _ else _) _
    by_cases hk : p.toLowercase key = k
    · rw [if_pos hk, hk, Function.update_self]
      rfl
    · rw [if_neg hk, Function.update_of_ne (Ne.symm hk)]
      rfl
  | addConfigString configString => exact hkeep (h.addParsed hcall)
  | addConfigFile path => exact hkeep (h.addConfigFile hcall)
  | addDefaultConfigFiles => exact hkeep (h.addConfigFiles hcall)

/-- What calls make of an empty configuration. -/
theorem reads_of_run {calls : List Config.Call}
    (h : Run (ofPartial fun c call => Config.call p c fuel call) {} calls c) :
    c.Reads p fuel (calls.flatMap (Config.Call.files p)) ∧ ∀ k, c.options k = setValue p calls k := by
  refine h.historyInvariant (I := fun calls c =>
    c.Reads p fuel (calls.flatMap (Config.Call.files p)) ∧ ∀ k, c.options k = setValue p calls k) ?_ ?_
  · refine ⟨⟨[], rfl, fun host user target k => ?_⟩, fun k => rfl⟩
    unfold firstValue
    split <;> exact Option.or_none.symm
  · intro calls c call c' _ hI hcall
    obtain ⟨hreads, hoptions⟩ := hI.1.call hcall
    refine ⟨by rwa [List.flatMap_append, List.flatMap_singleton], fun k => ?_⟩
    rw [hoptions, hI.2]
    unfold setValue
    rw [List.filterMap_append, List.getLast?_append]
    congr 1
    rcases hvalue : call.value p k with _ | v <;> simp [hvalue]

/-- After any calls an option of a host is what was set for it last, and otherwise the first value in the
files, with every include in its place, in a section that counts for the host; of the identity files it is all
those of the first such section. The host gets it expanded, or the default where there is none. The name of
the host is expanded with the name that was asked for, which it is where there is none, and then once more
like the other options. -/
theorem forHost_first_value {calls : List Config.Call}
    (h : Run (ofPartial fun c call => Config.call p c fuel call) {} calls c) (host : Text) :
    ∃ linesOf, (calls.flatMap (Config.Call.files p)).mapM (fileLines p fuel) = some linesOf ∧
      (∀ k, c.resolve p host k =
        (setValue p calls k).or (firstValue p host (c.resolveLocalUser p) linesOf k)) ∧
      (∀ k, k ≠ "hostname".toList → c.forHost p host k =
        (((setValue p calls k).or (firstValue p host (c.resolveLocalUser p) linesOf k)).map
          (c.expand p (c.tokenMap p host) k)).or (c.default p k)) ∧
      c.forHost p host "hostname".toList =
        some (c.expand p (c.tokenMap p host) "hostname".toList
          (((setValue p calls "hostname".toList).or
            (firstValue p host (c.resolveLocalUser p) linesOf "hostname".toList)).elim host fun v =>
              c.expandTokens p v ["%h".toList] (Function.update c.tokens "%h".toList (some host)))) := by
  obtain ⟨⟨linesOf, hlinesOf, hlookup⟩, hset⟩ := reads_of_run h
  have hresolve (k : Text) : c.resolve p host k =
      (setValue p calls k).or (firstValue p host (c.resolveLocalUser p) linesOf k) := by
    rw [← hset]
    exact hlookup host (c.resolveLocalUser p) c.options k
  refine ⟨linesOf, hlinesOf, hresolve, fun k hk => ?_, ?_⟩
  · rw [← hresolve]
    unfold Config.forHost ParsedConfigFile.orInsert
    simp only
    rw [Function.update_of_ne hk]
  · rw [← hresolve]
    unfold Config.forHost ParsedConfigFile.orInsert Config.hostname
    simp only [Function.update_self, Option.map_some, Option.some_or]
    rcases c.resolve p host "hostname".toList with _ | curr <;> rfl

/-- An expression of characters, escaped ones, `.` and `.*` up to a `$` matches a text from its start. -/
def wildcardMatch : Text → Text → Bool
  | [], _ => true
  | ['$'], text => text.isEmpty
  | '.' :: '*' :: re, text =>
    (List.range (text.length + 1)).any fun n =>
      !(text.take n).contains '\n' && wildcardMatch re (text.drop n)
  | '.' :: re, c :: text => c ≠ '\n' && wildcardMatch re text
  | '\\' :: d :: re, c :: text => c = d && wildcardMatch re text
  | d :: re, c :: text => c = d && wildcardMatch re text
  | _ :: _, [] => false

/-- What the regex crate does with the expressions of patterns, and with values that refer to no variable. -/
def wildcardRegex : Regex where
  escape text :=
    text.flatMap fun c => if "\\.+*?()|[]\x7b\x7d^$#&-~".toList.contains c then ['\\', c] else [c]
  isMatch
    | '^' :: re => some (wildcardMatch re)
    | _ => none
  replaceAll _ value _ := value

/-- A machine with the files of the user and of the system, on which an include finds another file from each
of their directories. -/
def twoDirectories : Platform where
  toLowercase := List.map Char.toLower
  regex := wildcardRegex
  currentDir := none
  glob cwd _ :=
    if cwd = "/home/me/.ssh".toList then [("/home/me/.ssh/more".toList, "Host a*\nUser inner".toList)]
    else [("/etc/ssh/more".toList, "Port 7\nUser system\nCompression yes".toList)]
  parent path := some (path.reverse.dropWhile (· ≠ '/')).tail.reverse
  join path name := path ++ '/' :: name
  readToString path :=
    if path = "/home/me/.ssh/config".toList then some "Port 2\nInclude more\nUser outer".toList
    else if path = "/etc/ssh/ssh_config".toList then some "Include more\nCompression no".toList
    else none
  homeDir := some "/home/me".toList
  env _ := none
  gethostname := "box.lan".toList
  uid := "1000".toList
  sha256 := id

/-- Both files include what lies beside them, and an option behind an include belongs to the section that the
include ends with. -/
theorem forHost_first_value_include :
    ∃ (c : Config) (linesOf : List (List (Line Header Text Text))),
      Run (ofPartial fun c call => Config.call twoDirectories c 2 call) {}
        [.setOption "HostName".toList "%h.lan".toList, .addDefaultConfigFiles] c ∧
      (c.forHost twoDirectories "ab".toList "user".toList = some "inner".toList ∧
        c.forHost twoDirectories "ab".toList "port".toList = some "2".toList ∧
        c.forHost twoDirectories "ab".toList "compression".toList = some "yes".toList ∧
        c.forHost twoDirectories "ab".toList "hostname".toList = some "ab.lan".toList) ∧
      [⟨some "/home/me/.ssh".toList, "Port 2\nInclude more\nUser outer".toList⟩,
        ⟨some "/etc/ssh".toList, "Include more\nCompression no".toList⟩].mapM
          (fileLines twoDirectories 2) = some linesOf ∧
      ∀ k, c.resolve twoDirectories "ab".toList k =
        (setValue twoDirectories [.setOption "HostName".toList "%h.lan".toList, .addDefaultConfigFiles] k).or
          (firstValue twoDirectories "ab".toList (c.resolveLocalUser twoDirectories) linesOf k) := by
  obtain ⟨c, hrun, hc⟩ := exists_run_of_any (p := fun c : Config =>
      c.forHost twoDirectories "ab".toList "user".toList == some "inner".toList &&
        c.forHost twoDirectories "ab".toList "port".toList == some "2".toList &&
        c.forHost twoDirectories "ab".toList "compression".toList == some "yes".toList &&
        c.forHost twoDirectories "ab".toList "hostname".toList == some "ab.lan".toList) {}
    [.setOption "HostName".toList "%h.lan".toList, .addDefaultConfigFiles]
    (f := fun c call => Config.call twoDirectories c 2 call) (by decide +kernel)
  simp only [Bool.and_eq_true, beq_iff_eq] at hc
  obtain ⟨⟨⟨huser, hport⟩, hcompression⟩, hhostname⟩ := hc
  obtain ⟨linesOf, hlinesOf, hresolve, -⟩ := forHost_first_value hrun "ab".toList
  exact ⟨c, linesOf, hrun, ⟨huser, hport, hcompression, hhostname⟩, hlinesOf, hresolve⟩

end Termua.Ssh.ConfigFile
