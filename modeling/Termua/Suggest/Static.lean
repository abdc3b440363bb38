import Mathlib
import Termua.Lib.Serde
import Termua.Suggest.Engine

/-!
# Static suggestions

`StaticSuggestionsDb` of `termua/src/static_suggestions.rs`: candidates are loaded from the JSON files
of a directory under a command that they start with, and offered to the engine for a first word by
their command. What serde_json reads in a file is a parameter. The engine matches the whole of what is
typed; the two agree as long as the command of a candidate starts with the word that is typed
(`complete_iff_covered`).
-/

namespace Termua.Suggest

open Blank Text
open Serde (readArray readMap readText structFields put pairs)

/-! ## Loading -/

/-- `SuggestionsExample`. -/
structure SuggestionsExample where
  cmd : List Char
  desc : List Char
  deriving DecidableEq

/-- `BTreeMap<String, _>`, by its keys. -/
abbrev BTreeMap (α : Type) := AList fun _ : List Char => α

/-- The entries in the order of the keys, which is that of their code points. -/
def inOrder {α : Type} (m : BTreeMap α) : List (List Char × α) :=
  (pairs m).insertionSort fun a b => a.1 ≤ b.1

/-- What the loading uses of serde_json: `from_str` for a `SuggestionsFile`, by its commands with
their examples, and for the older format, where a command has its candidates alone. -/
structure SerdeJson where
  fromStr : List Char → Option (BTreeMap (List SuggestionsExample))
  fromStrLegacy : List Char → Option (BTreeMap (List (List Char)))

/-- The examples of a command, trimmed; one without a command line is left out. -/
def trimExamples (examples : List SuggestionsExample) : List SuggestionsExample :=
  examples.filterMap fun ex =>
    if trim ex.cmd = [] then none else some ⟨trim ex.cmd, trim ex.desc⟩

/-- The map with its values changed in the order of the keys. -/
def mapValues {α β : Type} (f : α → β) (m : BTreeMap α) : BTreeMap β :=
  (inOrder m).foldl (fun out e => put e.1 (f e.2) out) ∅

/-- `load_one_json`, for a file that may not be readable. -/
def loadOneJson (serde : SerdeJson) (contents : Option (List Char)) :
    Option (BTreeMap (List SuggestionsExample)) := do
  let contents ← contents
  match serde.fromStr contents with
  | some commands => return mapValues trimExamples commands
  | none =>
    let legacy ← serde.fromStrLegacy contents
    return mapValues (fun candidates => candidates.map fun c => ⟨c, []⟩) legacy

/-- A description with one more for the same command line: the longer one stays. -/
def mergeDesc (existing desc : List Char) : List Char :=
  if existing = [] ∧ desc ≠ [] then desc
  else if byteLen existing < byteLen desc ∧ desc ≠ [] then desc
  else existing

/-- An example of a command among those it has; one that does not start with it is left out. -/
def mergeHint (command : List Char) (slot : BTreeMap (List Char)) (hint : SuggestionsExample) :
    BTreeMap (List Char) :=
  let cmd := trim hint.cmd
  if cmd = [] then slot
  else if !command.isPrefixOf cmd then slot
  else
    let desc := trim hint.desc
    match slot.lookup cmd with
    | some existing => put cmd (mergeDesc existing desc) slot
    | none => put cmd desc slot

/-- A command with its examples. -/
def mergeCommand (dst : BTreeMap (BTreeMap (List Char)))
    (entry : List Char × List SuggestionsExample) : BTreeMap (BTreeMap (List Char)) :=
  let command := trim entry.1
  if command = [] then dst
  else put command (entry.2.foldl (mergeHint command) ((dst.lookup command).getD ∅)) dst

/-- `merge_suggestions`. -/
def mergeSuggestions (dst : BTreeMap (BTreeMap (List Char)))
    (src : BTreeMap (List SuggestionsExample)) : BTreeMap (BTreeMap (List Char)) :=
  (inOrder src).foldl mergeCommand dst

/-- A file of the directory; it may not be readable. -/
structure DirEntry where
  name : List Char
  contents : Option (List Char)

/-- `Path::extension` of a file: what follows its last dot, which does not begin its name. -/
def DirEntry.extension (f : DirEntry) : Option (List Char) :=
  let stem := (f.name.reverse.dropWhile (· ≠ '.')).drop 1
  if stem = [] then none else some (f.name.reverse.takeWhile (· ≠ '.')).reverse

/-- `StaticSuggestionsDb`, with its map in the order of the keys. -/
structure StaticSuggestionsDb where
  byCommand : List (List Char × List SuggestionsExample)

/-- The candidates of all files, merged in the order of their names. -/
def mergeFiles (serde : SerdeJson) (files : List DirEntry) : BTreeMap (BTreeMap (List Char)) :=
  ((files.filter (·.extension = some "json".toList)).insertionSort fun a b => a.name ≤ b.name).foldl
    (fun merged f =>
      match loadOneJson serde f.contents with
      | some map => mergeSuggestions merged map
      | none => merged) ∅

/-- `load_from_dir`, for a directory that was read. -/
def loadFromDir (serde : SerdeJson) (files : List DirEntry) : StaticSuggestionsDb where
  byCommand := (inOrder (mergeFiles serde files)).map fun e =>
    (e.1, (inOrder e.2).map fun hint => ⟨hint.1, hint.2⟩)

/-! ## The provider -/

/-- What is called back for an example. -/
def SuggestionsExample.candidate (hint : SuggestionsExample) : List Char × Option (List Char) :=
  (hint.cmd, if trim hint.desc = [] then none else some (trim hint.desc))

/-- The last of the commands that are looked up for a word. -/
def rangeEnd (word : List Char) : List Char := word ++ [Char.ofNat 0x10FFFF]

/-- `for_each_candidate`. -/
def StaticSuggestionsDb.forEachCandidate (db : StaticSuggestionsDb) : SuggestionStaticProvider :=
  fun firstWord =>
    let word := trim firstWord
    if word = [] then []
    else if word.length ≤ 1 then
      (((db.byCommand.find? (·.1 = word)).map (·.2)).getD []).map SuggestionsExample.candidate
    else
      (((db.byCommand.filter fun e => word ≤ e.1 ∧ e.1 ≤ rangeEnd word).flatMap (·.2)).map
        SuggestionsExample.candidate).take 500

/-! ## What is loaded -/

/-- A candidate is loaded under a command. -/
def StaticSuggestionsDb.Loads (db : StaticSuggestionsDb) (command cmd : List Char) : Prop :=
  ∃ hints, (command, hints) ∈ db.byCommand ∧ ∃ hint ∈ hints, hint.cmd = cmd

/-- The number of candidates. -/
def StaticSuggestionsDb.count (db : StaticSuggestionsDb) : ℕ :=
  (db.byCommand.flatMap (·.2)).length

/-- The command lines of every command start with it. -/
def UnderCommand (m : BTreeMap (BTreeMap (List Char))) : Prop :=
  ∀ command slot, m.lookup command = some slot → ∀ cmd ∈ slot, command <+: cmd

theorem mem_put {α : Type} {k x : List Char} {a : α} {m : BTreeMap α} :
    x ∈ put k a m ↔ x = k ∨ x ∈ m := by
  rw [← AList.lookup_isSome, ← AList.lookup_isSome, Serde.lookup_put]
  by_cases hx : x = k
  · simp [hx]
  · simp [hx]

theorem mem_inOrder {α : Type} {k : List Char} {a : α} {m : BTreeMap α} :
    (k, a) ∈ inOrder m ↔ m.lookup k = some a := by
  unfold inOrder pairs
  rw [List.mem_insertionSort, List.mem_map]
  constructor
  · rintro ⟨⟨k', a'⟩, hmem, heq⟩
    obtain ⟨rfl, rfl⟩ := Prod.mk.inj heq
    exact AList.mem_lookup_iff.mpr hmem
  · intro h
    exact ⟨⟨k, a⟩, AList.mem_lookup_iff.mp h, rfl⟩

theorem prefix_mergeHint {command : List Char} {slot : BTreeMap (List Char)}
    (h : ∀ cmd ∈ slot, command <+: cmd) (hint : SuggestionsExample) :
    ∀ cmd ∈ mergeHint command slot hint, command <+: cmd := by
  intro cmd hcmd
  unfold mergeHint at hcmd
  simp only at hcmd
  split at hcmd
  · exact h cmd hcmd
  · split at hcmd
    · exact h cmd hcmd
    · next hprefix =>
      have hprefix : command <+: trim hint.cmd := by simpa using hprefix
      split at hcmd
      · rcases mem_put.mp hcmd with rfl | hcmd
        · exact hprefix
        · exact h cmd hcmd
      · rcases mem_put.mp hcmd with rfl | hcmd
        · exact hprefix
        · exact h cmd hcmd

theorem prefix_foldl_mergeHint {command : List Char} (hints : List SuggestionsExample)
    {slot : BTreeMap (List Char)} (h : ∀ cmd ∈ slot, command <+: cmd) :
    ∀ cmd ∈ hints.foldl (mergeHint command) slot, command <+: cmd := by
  induction hints generalizing slot with
  | nil => exact h
  | cons hint hints ih => exact ih (prefix_mergeHint h hint)

theorem UnderCommand.mergeCommand {m : BTreeMap (BTreeMap (List Char))} (h : UnderCommand m)
    (entry : List Char × List SuggestionsExample) : UnderCommand (mergeCommand m entry) := by
  unfold Suggest.mergeCommand
  simp only
  split
  · exact h
  · intro command slot hslot
    rw [Serde.lookup_put] at hslot
    split at hslot
    · next heq =>
      subst heq
      obtain rfl := Option.some.inj hslot
      refine prefix_foldl_mergeHint entry.2 ?_
      rcases hold : m.lookup (trim entry.1) with _ | old
      · exact fun cmd hcmd => absurd hcmd (AList.notMem_empty cmd)
      · exact h _ old hold
    · exact h command slot hslot

theorem UnderCommand.mergeSuggestions {m : BTreeMap (BTreeMap (List Char))} (h : UnderCommand m)
    (src : BTreeMap (List SuggestionsExample)) : UnderCommand (mergeSuggestions m src) := by
  unfold Suggest.mergeSuggestions
  induction inOrder src generalizing m with
  | nil => exact h
  | cons entry entries ih => exact ih (h.mergeCommand entry)

theorem underCommand_mergeFiles (serde : SerdeJson) (files : List DirEntry) :
    UnderCommand (mergeFiles serde files) := by
  have hfold : ∀ (fs : List DirEntry) (m : BTreeMap (BTreeMap (List Char))), UnderCommand m →
      UnderCommand (fs.foldl (fun merged f =>
        match loadOneJson serde f.contents with
        | some map => mergeSuggestions merged map
        | none => merged) m) := by
    intro fs
    induction fs with
    | nil => exact fun m h => h
    | cons f fs ih =>
      intro m h
      refine ih _ ?_
      show UnderCommand (match loadOneJson serde f.contents with
        | some map => mergeSuggestions m map
        | none => m)
      split
      · exact h.mergeSuggestions _
      · exact h
  exact hfold _ ∅ fun command slot hslot => by
    rw [AList.lookup_empty] at hslot
    cases hslot

/-- What is loaded under a command starts with it. -/
theorem prefix_of_loads {serde : SerdeJson} {files : List DirEntry} {command cmd : List Char}
    (h : (loadFromDir serde files).Loads command cmd) : command <+: cmd := by
  obtain ⟨hints, hmem, hint, hhint, rfl⟩ := h
  obtain ⟨⟨k, slot⟩, hslot, heq⟩ := List.mem_map.mp hmem
  obtain ⟨rfl, rfl⟩ := Prod.mk.inj heq
  obtain ⟨⟨cmd, desc⟩, hcmd, rfl⟩ := List.mem_map.mp hhint
  refine underCommand_mergeFiles serde files k slot (mem_inOrder.mp hslot) cmd ?_
  rw [← AList.lookup_isSome, mem_inOrder.mp hcmd]
  rfl

/-! ## The range of a word -/

variable {word command cmd pre text : List Char}

theorem append_lt_append_iff (w a b : List Char) : w ++ a < w ++ b ↔ a < b := by
  induction w with
  | nil => exact Iff.rfl
  | cons c w ih => rw [List.cons_append, List.cons_append, List.cons_lt_cons_self, ih]

theorem not_maxChar_lt (c : Char) : ¬Char.ofNat 0x10FFFF < c := by
  have hmax : (Char.ofNat 0x10FFFF).toNat = 0x10FFFF := rfl
  intro hlt
  have hnat : (Char.ofNat 0x10FFFF).toNat < c.toNat := hlt
  rcases c.valid with hvalid | ⟨-, hvalid⟩
  · have : c.toNat < 0xD800 := hvalid
    omega
  · have : c.toNat < 0x110000 := hvalid
    omega

/-- Of the beginnings of a candidate that starts with a word, the range of the word has those that
start with it too and have nothing behind its end. -/
theorem mem_range_iff (hword : word <+: cmd) (hcommand : command <+: cmd) :
    word ≤ command ∧ command ≤ rangeEnd word ↔
      word <+: command ∧ ∀ rest, command = rangeEnd word ++ rest → rest = [] := by
  by_cases hprefix : word <+: command
  · obtain ⟨t, rfl⟩ := hprefix
    have hle : word ++ t ≤ rangeEnd word ↔ ¬[Char.ofNat 0x10FFFF] < t := by
      rw [← append_lt_append_iff word]
      exact not_lt.symm
    have hself : word ≤ word ++ t := by
      refine not_lt.mp fun hlt => ?_
      rw [← List.append_nil word, List.append_assoc, append_lt_append_iff] at hlt
      exact List.not_lt_nil _ hlt
    rw [hle]
    have hrest : ∀ rest, word ++ t = rangeEnd word ++ rest ↔ t = Char.ofNat 0x10FFFF :: rest := by
      intro rest
      unfold rangeEnd
      rw [List.append_assoc, List.append_right_inj]
      rfl
    simp only [hrest]
    refine and_congr ⟨fun _ => List.prefix_append _ _, fun _ => hself⟩ ?_
    rcases t with _ | ⟨c, t⟩
    · simp
    · rw [List.cons_lt_cons_iff]
      constructor
      · rintro hnot rest heq
        obtain ⟨rfl, rfl⟩ := List.cons.inj heq
        rcases t with _ | ⟨d, t⟩
        · rfl
        · exact absurd (.inr ⟨rfl, List.nil_lt_cons d t⟩) hnot
      · rintro hall (hlt | ⟨rfl, hlt⟩)
        · exact not_maxChar_lt c hlt
        · rw [hall t rfl] at hlt
          exact List.not_lt_nil _ hlt
  · -- a command that the word goes beyond is before the word
    refine iff_of_false ?_ fun h => hprefix h.1
    rintro ⟨hle, -⟩
    obtain ⟨s, rfl⟩ := (List.prefix_or_prefix_of_prefix hword hcommand).resolve_left hprefix
    rcases s with _ | ⟨c, s⟩
    · exact hprefix (by rw [List.append_nil])
    · have hlt := (append_lt_append_iff command [] (c :: s)).mpr (List.nil_lt_cons c s)
      rw [List.append_nil] at hlt
      exact not_lt.mpr hle hlt

/-! ## What is offered -/

variable {typed : List Char} {db : StaticSuggestionsDb} {files : List DirEntry}

theorem firstWord_trimStart (typed : List Char) : firstWord (trimStart typed) = firstWord typed := by
  unfold firstWord trimStart
  rw [List.dropWhile_idempotent]

theorem not_isWhitespace_of_mem_firstWord {c : Char} (h : c ∈ firstWord typed) :
    isWhitespace c = false := by
  simpa using List.mem_takeWhile_imp h

theorem trim_firstWord (typed : List Char) : trim (firstWord typed) = firstWord typed :=
  trim_of_forall fun _ hc => not_isWhitespace_of_mem_firstWord hc

/-- A candidate that extends what is typed starts with its first word. -/
theorem prefix_of_extends (h : Extends cmd (trimStart typed)) : firstWord typed <+: cmd := by
  obtain ⟨rest, -, hrest⟩ := extends_iff.mp h
  obtain ⟨m, rfl, hm, -⟩ := looseMatch_eq_some_iff.mp hrest
  have hsplit : trimStart typed =
      firstWord typed ++ (trimStart typed).dropWhile fun c => !isWhitespace c :=
    (List.takeWhile_append_dropWhile ..).symm
  refine (prefix_of_collapse (hm.trans (congrArg _ hsplit)) fun c hc => ?_).trans
    (List.prefix_append m rest)
  rcases hb : blankOf (m ++ rest) (trimStart typed) c with _ | _
  · rfl
  · have hspace := isWhitespace_of_blankOf c hb
    rw [not_isWhitespace_of_mem_firstWord hc] at hspace
    cases hspace

/-- The candidates that are offered for a word. -/
def StaticSuggestionsDb.offered (db : StaticSuggestionsDb) (word : List Char) : List (List Char) :=
  (db.forEachCandidate word).map Prod.fst

/-- With no more candidates than are called back, all those in the range of the word are offered. -/
theorem offered_eq (hword : 2 ≤ (firstWord typed).length) (hcount : db.count ≤ 500) :
    db.offered (firstWord typed) =
      ((db.byCommand.filter fun e =>
        firstWord typed ≤ e.1 ∧ e.1 ≤ rangeEnd (firstWord typed)).flatMap (·.2)).map
          SuggestionsExample.cmd := by
  have hne : firstWord typed ≠ [] := by
    intro hnil
    rw [hnil] at hword
    cases hword
  have hlen : ((db.byCommand.filter fun e =>
      firstWord typed ≤ e.1 ∧ e.1 ≤ rangeEnd (firstWord typed)).flatMap (·.2)).length ≤ 500 :=
    (List.filter_sublist.flatMap _).length_le.trans hcount
  unfold StaticSuggestionsDb.offered StaticSuggestionsDb.forEachCandidate
  simp only [trim_firstWord]
  rw [if_neg hne, if_neg (by omega), List.take_of_length_le (by rwa [List.length_map]), List.map_map]
  rfl

theorem mem_offered (hword : 2 ≤ (firstWord typed).length) (hcount : db.count ≤ 500) :
    cmd ∈ db.offered (firstWord typed) ↔
      ∃ command, db.Loads command cmd ∧
        firstWord typed ≤ command ∧ command ≤ rangeEnd (firstWord typed) := by
  rw [offered_eq hword hcount, List.mem_map]
  constructor
  · rintro ⟨hint, hhint, rfl⟩
    obtain ⟨⟨command, hints⟩, hmem, hhint⟩ := List.mem_flatMap.mp hhint
    obtain ⟨hmem, hrange⟩ := List.mem_filter.mp hmem
    exact ⟨command, ⟨hints, hmem, hint, hhint, rfl⟩, of_decide_eq_true hrange⟩
  · rintro ⟨command, ⟨hints, hmem, hint, hhint, rfl⟩, hrange⟩
    exact ⟨hint, List.mem_flatMap.mpr ⟨_, List.mem_filter.mpr ⟨hmem, decide_eq_true hrange⟩, hhint⟩, rfl⟩

theorem length_offered_le (hword : 2 ≤ (firstWord typed).length) (hcount : db.count ≤ 500) :
    (db.offered (firstWord typed)).length ≤ db.count := by
  rw [offered_eq hword hcount, List.length_map]
  exact (List.filter_sublist.flatMap _).length_le

/-! ## What is suggested -/

/-- An engine with a provider of static suggestions. -/
def engineOf (maxItems : ℕ) (db : StaticSuggestionsDb) : SuggestionEngine where
  maxItems := maxItems
  staticProvider := some db.forEachCandidate

theorem mem_metas_engineOf {maxItems : ℕ} (hword : firstWord typed ≠ []) :
    text ∈ (engineOf maxItems db).metas (trimStart typed) ↔
      text ∈ db.offered (firstWord typed) ∧ Extends text (trimStart typed) := by
  rw [mem_metas, firstWord_trimStart]
  constructor
  · rintro ⟨provider, hprovider, -, c, hc, rfl, hextends⟩
    obtain rfl := Option.some.inj hprovider
    exact ⟨List.mem_map_of_mem hc, hextends⟩
  · rintro ⟨hmem, hextends⟩
    obtain ⟨c, hc, rfl⟩ := List.mem_map.mp hmem
    exact ⟨_, rfl, hword, c, hc, rfl, hextends⟩

/-- An engine that shows at least as many items as there are candidates suggests those that are offered
and extend what is typed. -/
theorem mem_suggest_iff {maxItems : ℕ} (hword : 2 ≤ (firstWord typed).length)
    (hcount : db.count ≤ 500) (hmax : db.count ≤ maxItems) :
    (∃ item ∈ (engineOf maxItems db).suggest typed, item.fullText = text) ↔
      text ∈ db.offered (firstWord typed) ∧ Extends text (trimStart typed) := by
  have hne : firstWord typed ≠ [] := by
    intro hnil
    rw [hnil] at hword
    cases hword
  have htyped : trimStart typed ≠ [] := by
    intro hnil
    apply hne
    unfold firstWord
    unfold trimStart at hnil
    rw [hnil]
    rfl
  -- no suggestion is cut off: there is one for each text that is offered at most
  have hsubset : ((engineOf maxItems db).metas (trimStart typed)).keys ⊆
      db.offered (firstWord typed) := fun text hmem =>
    ((mem_metas_engineOf hne).mp (AList.mem_keys.mpr hmem)).1
  have hlength : ((engineOf maxItems db).metas (trimStart typed)).keys.length ≤ maxItems :=
    ((AList.keys_nodup _).subperm hsubset).length_le.trans
      ((length_offered_le hword hcount).trans hmax)
  rw [← @mem_metas_engineOf _ _ _ maxItems hne]
  unfold SuggestionEngine.suggest
  simp only
  rw [if_neg htyped, List.take_of_length_le]
  · constructor
    · rintro ⟨item, hitem, rfl⟩
      obtain ⟨entry, hentry, rfl⟩ := List.mem_map.mp ((List.mem_insertionSort _).mp hitem)
      exact AList.mem_keys.mpr (List.mem_map_of_mem hentry)
    · intro hmem
      obtain ⟨entry, hentry, rfl⟩ := List.mem_map.mp (AList.mem_keys.mp hmem)
      exact ⟨_, (List.mem_insertionSort _).mpr (List.mem_map_of_mem hentry), rfl⟩
  · rw [List.length_insertionSort, List.length_map]
    exact (List.length_map _).symm.le.trans (hlength.trans (le_max_left ..))

/-- Every candidate that extends what is typed is loaded under a command that its first word is a
beginning of. -/
def Covered (db : StaticSuggestionsDb) (typed : List Char) : Prop :=
  ∀ command cmd, db.Loads command cmd → Extends cmd (trimStart typed) →
    ∃ command', db.Loads command' cmd ∧ firstWord typed <+: command' ∧
      ∀ rest, command' = rangeEnd (firstWord typed) ++ rest → rest = []

/-- All loaded candidates that extend what is typed are offered, and an engine with room for them
suggests exactly these, if and only if they are covered. -/
theorem complete_iff_covered {serde : SerdeJson} {files : List DirEntry} {typed : List Char}
    {maxItems : ℕ} (hword : 2 ≤ (firstWord typed).length)
    (hcount : (loadFromDir serde files).count ≤ 500)
    (hmax : (loadFromDir serde files).count ≤ maxItems) :
    ((∀ command cmd, (loadFromDir serde files).Loads command cmd → Extends cmd (trimStart typed) →
        cmd ∈ (loadFromDir serde files).offered (firstWord typed)) ∧
      ∀ text,
        (∃ item ∈ (engineOf maxItems (loadFromDir serde files)).suggest typed,
          item.fullText = text) ↔
          ∃ command, (loadFromDir serde files).Loads command text ∧
            Extends text (trimStart typed)) ↔
      Covered (loadFromDir serde files) typed := by
  -- what extends the text is offered where its command is in the range that is searched
  have hoffered : ∀ cmd, Extends cmd (trimStart typed) →
      (cmd ∈ (loadFromDir serde files).offered (firstWord typed) ↔
        ∃ command, (loadFromDir serde files).Loads command cmd ∧ firstWord typed <+: command ∧
          ∀ rest, command = rangeEnd (firstWord typed) ++ rest → rest = []) := by
    intro cmd hextends
    rw [mem_offered hword hcount]
    refine exists_congr fun command => and_congr_right fun hloads => ?_
    exact mem_range_iff (prefix_of_extends hextends) (prefix_of_loads hloads)
  constructor
  · rintro ⟨hall, -⟩ command cmd hloads hextends
    exact (hoffered cmd hextends).mp (hall command cmd hloads hextends)
  · intro hcovered
    refine ⟨fun command cmd hloads hextends =>
      (hoffered cmd hextends).mpr (hcovered command cmd hloads hextends), fun text => ?_⟩
    rw [mem_suggest_iff hword hcount hmax]
    constructor
    · rintro ⟨hmem, hextends⟩
      obtain ⟨command, hloads, -⟩ := (mem_offered hword hcount).mp hmem
      exact ⟨command, hloads, hextends⟩
    · rintro ⟨command, hloads, hextends⟩
      exact ⟨(hoffered text hextends).mpr (hcovered command text hloads hextends), hextends⟩

/-- `SuggestionsExample` in a document. -/
def readExample (v : Json.Value) : Option SuggestionsExample := do
  let fields ← structFields ["cmd", "desc"] v
  let cmd ← (fields "cmd").bind readText
  let desc ← (fields "desc").bind readText
  return ⟨cmd, desc⟩

/-- `SuggestionsCommand` in a document. -/
def readCommand (v : Json.Value) : Option (List SuggestionsExample) := do
  let fields ← structFields ["examples"] v
  (fields "examples").bind (readArray readExample)

/-- `SuggestionsFile` in a document. -/
def readSuggestionsFile (v : Json.Value) : Option (BTreeMap (List SuggestionsExample)) := do
  let fields ← structFields ["commands"] v
  (fields "commands").bind (readMap readCommand)

/-- Documents whose texts are written without surrogate pairs. -/
def plainJson : SerdeJson where
  fromStr text := (Json.parse text).bind readSuggestionsFile
  fromStrLegacy text := (Json.parse text).bind (readMap (readArray readText))

/-- A file with one command, under which `ls -al` is loaded. -/
def lsFile : DirEntry where
  name := "ls.json".toList
  contents := some "\x7b\"ls\": [\"ls -al\"]\x7d".toList

theorem complete_iff_covered_ls :
    2 ≤ (firstWord "ls".toList).length ∧ (loadFromDir plainJson [lsFile]).count ≤ 500 ∧
      (((∀ command cmd, (loadFromDir plainJson [lsFile]).Loads command cmd →
          Extends cmd (trimStart "ls".toList) →
          cmd ∈ (loadFromDir plainJson [lsFile]).offered (firstWord "ls".toList)) ∧
        ∀ text,
          (∃ item ∈ (engineOf 8 (loadFromDir plainJson [lsFile])).suggest "ls".toList,
            item.fullText = text) ↔
            ∃ command, (loadFromDir plainJson [lsFile]).Loads command text ∧
              Extends text (trimStart "ls".toList)) ↔
        Covered (loadFromDir plainJson [lsFile]) "ls".toList) :=
  have hword : 2 ≤ (firstWord "ls".toList).length := by decide +kernel
  have hcount : (loadFromDir plainJson [lsFile]).count ≤ 500 := by decide +kernel
  have hmax : (loadFromDir plainJson [lsFile]).count ≤ 8 := by decide +kernel
  ⟨hword, hcount, complete_iff_covered hword hcount hmax⟩

/-- A file with one command, under which a longer word is loaded. -/
def dockerFile : DirEntry where
  name := "docker.json".toList
  contents := some "\x7b\"docker\": [\"docker-compose up\"]\x7d".toList

/-- Of a word that is typed beyond its command a candidate is not offered. -/
theorem not_complete_docker :
    ¬∀ (files : List DirEntry) (typed : List Char) (maxItems : ℕ), 2 ≤ (firstWord typed).length →
      (loadFromDir plainJson files).count ≤ 500 → (loadFromDir plainJson files).count ≤ maxItems →
      (∀ command cmd, (loadFromDir plainJson files).Loads command cmd →
        Extends cmd (trimStart typed) →
        cmd ∈ (loadFromDir plainJson files).offered (firstWord typed)) ∧
      ∀ text,
        (∃ item ∈ (engineOf maxItems (loadFromDir plainJson files)).suggest typed,
          item.fullText = text) ↔
          ∃ command, (loadFromDir plainJson files).Loads command text ∧
            Extends text (trimStart typed) := by
  intro hall
  have hloaded : (loadFromDir plainJson [dockerFile]).byCommand =
      [("docker".toList, [⟨"docker-compose up".toList, []⟩])] := by decide +kernel
  have hloads : (loadFromDir plainJson [dockerFile]).Loads "docker".toList "docker-compose up".toList :=
    ⟨_, by rw [hloaded]; exact List.mem_singleton_self _, _, List.mem_singleton_self _, rfl⟩
  have hextends : Extends "docker-compose up".toList (trimStart "docker-".toList) :=
    ⟨7, by decide +kernel, by decide +kernel⟩
  have hoffered : (loadFromDir plainJson [dockerFile]).offered (firstWord "docker-".toList) = [] := by
    decide +kernel
  have hmem := (hall [dockerFile] "docker-".toList 8 (by decide +kernel) (by decide +kernel)
    (by decide +kernel)).1 _ _ hloads hextends
  rw [hoffered] at hmem
  exact List.not_mem_nil hmem

end Termua.Suggest
