import Mathlib
import Termua.Lib.Table
import Termua.Suggest.Matching

/-!
# The suggestion engine

`SuggestionEngine::suggest` of `gpui_term/src/suggestions.rs` and what is inserted for a suggestion,
`compute_insert_suffix_for_line`. Both match the typed text with `loose_prefix_match_end`, when the
suggestion is made and again when it is accepted; what the first finds the second inserts
(`insertable_of_mem_suggest`).
-/

namespace Termua.Suggest

open Blank Text Utf8

/-! ## What is inserted -/

/-- `&text[start..]`; it panics inside a character. -/
def sliceFrom (text : List Char) (start : ℕ) : Option (List Char) :=
  decode ((encode text).drop start)

/-- `compute_insert_suffix`; a slice that panics gives nothing here. -/
def computeInsertSuffix (currentPrefix fullText : List Char) : Option (List Char) := do
  let currentPrefix := trimStart currentPrefix
  if currentPrefix = [] then none
  else
    let stop ← loosePrefixMatchEnd fullText currentPrefix
    if byteLen fullText ≤ stop then none
    else
      let suffix ← sliceFrom fullText stop
      if suffix = [] then none else some suffix

/-- `str::strip_prefix`. -/
def stripPrefix (line pre : List Char) : Option (List Char) :=
  if pre.isPrefixOf line then some (line.drop pre.length) else none

/-- `compute_insert_suffix_for_line`. -/
def computeInsertSuffixForLine (line : List Char) (prompt : Option (List Char))
    (fullText : List Char) : Option (List Char × List Char) :=
  let stripped := prompt.bind fun prompt =>
    let input := (stripPrefix line prompt).getD []
    (computeInsertSuffix input fullText).map fun suffix => (input, suffix)
  stripped.or (line.tails.findSome? fun candidate =>
    (computeInsertSuffix candidate fullText).map fun suffix => (trimStart candidate, suffix))

/-! ## The engine -/

/-- `SuggestionItem`. -/
structure SuggestionItem where
  fullText : List Char
  score : ℤ
  description : Option (List Char)
  deriving DecidableEq

/-- `SuggestionMeta`. -/
structure SuggestionMeta where
  score : ℤ
  description : Option (List Char)
  deriving DecidableEq

/-- `SuggestionStaticProvider`: the candidates that it calls back with for a first word, with their
descriptions. -/
abbrev SuggestionStaticProvider := List Char → List (List Char × Option (List Char))

/-- One more occurrence of a candidate: its description counts where there is none yet, or where the
score is higher and it is longer. -/
def SuggestionMeta.merge (existing : SuggestionMeta) (score : ℤ) (description : Option (List Char)) :
    SuggestionMeta :=
  if score ≤ existing.score then
    { existing with description := existing.description.or description }
  else
    match description, existing.description with
    | none, _ => { existing with score }
    | some text, some v =>
      if byteLen v < byteLen text then ⟨score, some text⟩ else ⟨score, some v⟩
    | some text, none => ⟨score, some text⟩

/-- The suggestions by their text. -/
abbrev Metas := AList fun _ : List Char => SuggestionMeta

/-- `push_candidate`. -/
def pushCandidate (inputPrefix : List Char) (score : ℤ) (metas : Metas)
    (c : List Char × Option (List Char)) : Metas :=
  match loosePrefixMatchEnd c.1 inputPrefix with
  | none => metas
  | some stop =>
    if byteLen c.1 ≤ stop then metas
    else
      let description := (c.2.map trim).filter (· ≠ [])
      if c.1 ∈ metas then Table.modify c.1 (fun m => m.merge score description) metas
      else Table.push c.1 ⟨score, description⟩ metas

/-- `SuggestionEngine`. -/
structure SuggestionEngine where
  maxItems : ℕ
  staticProvider : Option SuggestionStaticProvider

/-- The order of the suggestions: by score, then by text, which orders by code points. -/
def SuggestionItem.before (a b : SuggestionItem) : Prop :=
  b.score < a.score ∨ (a.score = b.score ∧ a.fullText ≤ b.fullText)

instance (a b : SuggestionItem) : Decidable (a.before b) := by
  unfold SuggestionItem.before
  exact inferInstance

/-- The static suggestions for an input. -/
def SuggestionEngine.metas (e : SuggestionEngine) (inputPrefix : List Char) : Metas :=
  match e.staticProvider with
  | none => ∅
  | some provider =>
    if firstWord inputPrefix = [] then ∅
    else (provider (firstWord inputPrefix)).foldl (pushCandidate inputPrefix 110) ∅

/-- `suggest`. -/
def SuggestionEngine.suggest (e : SuggestionEngine) (input : List Char) : List SuggestionItem :=
  let inputPrefix := trimStart input
  if inputPrefix = [] then []
  else
    let out := (e.metas inputPrefix).entries.map fun s => ⟨s.1, s.2.score, s.2.description⟩
    (out.insertionSort SuggestionItem.before).take (max e.maxItems 1)

/-! ## Matching -/

variable {full pre rest input suffix text : List Char}

/-- The blanks of the loop that matches two texts. -/
def blankOf (full pre : List Char) : Char → Bool :=
  if isAscii full && isAscii pre then isAsciiBlank else isWhitespace

theorem isWhitespace_of_blankOf (c : Char) (h : blankOf full pre c = true) :
    isWhitespace c = true := by
  unfold blankOf at h
  split at h
  · exact isWhitespace_of_isAsciiBlank c h
  · exact h

theorem loosePrefixMatchEnd_eq (full pre : List Char) :
    loosePrefixMatchEnd full pre =
      (looseMatch (blankOf full pre) full pre).map fun rest => byteLen full - byteLen rest := by
  unfold loosePrefixMatchEnd blankOf
  split
  · next hascii =>
    rw [Bool.and_eq_true] at hascii
    exact loosePrefixMatchEndAscii_eq hascii.1 hascii.2
  · exact loosePrefixMatchEndChars_eq full pre

/-- A text extends a prefix: it matches before the text ends. -/
def Extends (full pre : List Char) : Prop :=
  ∃ stop, loosePrefixMatchEnd full pre = some stop ∧ stop < byteLen full

theorem byteLen_pos_iff : 0 < byteLen text ↔ text ≠ [] := by
  constructor
  · rintro hpos rfl
    exact absurd hpos (lt_irrefl _)
  · intro hne
    exact Nat.pos_of_ne_zero fun hzero => hne (encode_eq_nil (List.length_eq_zero_iff.mp hzero))

/-- What is left of a text that extends a prefix. -/
theorem extends_iff :
    Extends full pre ↔ ∃ rest, rest ≠ [] ∧ looseMatch (blankOf full pre) full pre = some rest := by
  unfold Extends
  rw [loosePrefixMatchEnd_eq]
  constructor
  · rintro ⟨stop, hstop, hlt⟩
    obtain ⟨rest, hrest, rfl⟩ := Option.map_eq_some_iff.mp hstop
    refine ⟨rest, ?_, hrest⟩
    rintro rfl
    rw [byteLen_nil, Nat.sub_zero] at hlt
    exact lt_irrefl _ hlt
  · rintro ⟨rest, hne, hrest⟩
    obtain ⟨m, rfl, -, -⟩ := looseMatch_eq_some_iff.mp hrest
    refine ⟨_, by rw [hrest, Option.map_some], ?_⟩
    have hpos := byteLen_pos_iff.mpr hne
    rw [byteLen_append]
    omega

/-- The slice behind a match is what is left, and never starts inside a character. -/
theorem sliceFrom_looseMatch {p : Char → Bool} (h : looseMatch p full pre = some rest) :
    sliceFrom full (byteLen full - byteLen rest) = some rest := by
  obtain ⟨m, rfl, -, -⟩ := looseMatch_eq_some_iff.mp h
  have hlen : byteLen (m ++ rest) - byteLen rest = (encode m).length := by
    rw [byteLen_append]
    exact Nat.add_sub_cancel ..
  unfold sliceFrom
  rw [hlen, encode_append, List.drop_left, decode_encode]

/-- What is inserted is what is left of a text that extends the input. -/
theorem computeInsertSuffix_eq (hinput : trimStart input ≠ [])
    (hrest : looseMatch (blankOf full (trimStart input)) full (trimStart input) = some suffix)
    (hne : suffix ≠ []) : computeInsertSuffix input full = some suffix := by
  obtain ⟨m, hm, -, -⟩ := looseMatch_eq_some_iff.mp hrest
  have hpos := byteLen_pos_iff.mpr hne
  have hlen : byteLen full = byteLen m + byteLen suffix := by rw [hm, byteLen_append]
  unfold computeInsertSuffix
  simp only
  rw [if_neg hinput, loosePrefixMatchEnd_eq, hrest, Option.map_some, Option.bind_eq_bind,
    Option.bind_some, if_neg (by omega), sliceFrom_looseMatch hrest]
  exact if_neg hne

/-! ## What the engine suggests -/

theorem mem_pushCandidate {score : ℤ} {metas : Metas} {c : List Char × Option (List Char)} :
    text ∈ pushCandidate pre score metas c ↔ text ∈ metas ∨ text = c.1 ∧ Extends c.1 pre := by
  unfold pushCandidate Extends
  rcases hmatch : loosePrefixMatchEnd c.1 pre with _ | stop
  · exact ⟨.inl, fun h => h.elim id fun ⟨_, _, hstop, _⟩ => nomatch hstop⟩
  simp only
  split
  -- what is typed is all of it already
  · next hle =>
    constructor
    · exact .inl
    · rintro (hmem | ⟨-, stop', hstop, hlt⟩)
      · exact hmem
      · obtain rfl := Option.some.inj hstop
        omega
  · next hlt =>
    have hextends : ∃ stop', some stop = some stop' ∧ stop' < byteLen c.1 :=
      ⟨stop, rfl, Nat.not_le.mp hlt⟩
    split
    -- a candidate that is there keeps the better score
    · next hmem =>
      rw [Table.mem_modify]
      constructor
      · exact .inl
      · rintro (h | ⟨rfl, -⟩)
        · exact h
        · exact hmem
    · next hnot =>
      rw [Table.mem_push hnot]
      constructor
      · rintro (rfl | h)
        · exact .inr ⟨rfl, hextends⟩
        · exact .inl h
      · rintro (h | ⟨rfl, -⟩)
        · exact .inr h
        · exact .inl rfl

theorem mem_foldl_pushCandidate {score : ℤ} (cs : List (List Char × Option (List Char)))
    (metas : Metas) :
    text ∈ cs.foldl (pushCandidate pre score) metas ↔
      text ∈ metas ∨ ∃ c ∈ cs, text = c.1 ∧ Extends c.1 pre := by
  induction cs generalizing metas with
  | nil => simp
  | cons c cs ih =>
    rw [List.foldl_cons, ih, mem_pushCandidate, or_assoc]
    simp only [List.mem_cons, exists_eq_or_imp]

/-- The suggestions for an input are the candidates of the provider that extend it. -/
theorem mem_metas (e : SuggestionEngine) :
    text ∈ e.metas pre ↔
      ∃ provider ∈ e.staticProvider, firstWord pre ≠ [] ∧
        ∃ c ∈ provider (firstWord pre), text = c.1 ∧ Extends c.1 pre := by
  unfold SuggestionEngine.metas
  rcases e.staticProvider with _ | provider
  · simp
  · simp only [Option.mem_def, Option.some.injEq, exists_eq_left']
    split
    · next hnil => simp [hnil]
    · next hne =>
      rw [mem_foldl_pushCandidate]
      simp [hne]

/-- What is suggested is among the suggestions. -/
theorem mem_metas_of_mem_suggest {e : SuggestionEngine} {item : SuggestionItem}
    (h : item ∈ e.suggest input) :
    trimStart input ≠ [] ∧ item.fullText ∈ e.metas (trimStart input) := by
  unfold SuggestionEngine.suggest at h
  simp only at h
  split at h
  · cases h
  · next hne =>
    have hsorted := (List.mem_insertionSort _).mp (List.mem_of_mem_take h)
    obtain ⟨s, hs, rfl⟩ := List.mem_map.mp hsorted
    exact ⟨hne, AList.mem_keys.mpr (List.mem_map_of_mem hs)⟩

/-! ## What is suggested can be inserted -/

/-- Up to the length and kind of the blanks, a text that matches is the prefix and what is left. -/
theorem collapse_append_of_looseMatch
    (h : looseMatch (blankOf full pre) full pre = some rest) :
    collapse isWhitespace (pre ++ rest) = collapse isWhitespace full := by
  obtain ⟨m, rfl, hm, -⟩ := looseMatch_eq_some_iff.mp h
  exact collapse_append_congr (collapse_mono isWhitespace_of_blankOf hm.symm) rest

theorem trimStart_append (hinput : trimStart input ≠ []) :
    trimStart (input ++ rest) = trimStart input ++ rest := by
  unfold trimStart at hinput ⊢
  rw [List.dropWhile_append, if_neg (by rwa [List.isEmpty_iff])]

theorem head_trimStart {c : Char} (h : (trimStart input).head? = some c) :
    isWhitespace c = false := by
  have hnot := List.head?_dropWhile_not isWhitespace input
  unfold trimStart at h
  rw [h] at hnot
  simpa using hnot

/-- A text that a trimmed input matches is trimmed. -/
theorem trimStart_of_looseMatch (hinput : trimStart input ≠ [])
    (h : looseMatch (blankOf full (trimStart input)) full (trimStart input) = some rest) :
    trimStart full = full := by
  obtain ⟨c, t, hct⟩ := List.exists_cons_of_ne_nil hinput
  have hc : isWhitespace c = false := @head_trimStart input c (by rw [hct]; rfl)
  have hblank : blankOf full (trimStart input) c = false := by
    rcases hb : blankOf full (trimStart input) c with _ | _
    · rfl
    · rw [isWhitespace_of_blankOf c hb] at hc
      cases hc
  obtain ⟨m, rfl, hm, -⟩ := looseMatch_eq_some_iff.mp h
  rw [hct] at hm hblank
  rw [collapse_cons_of_neg hblank] at hm
  obtain ⟨m', rfl, -, -⟩ := collapse_eq_some_cons hm
  exact List.dropWhile_cons_of_neg (by simpa using hc)

/-- For every item that is suggested there is something left to insert: a proper part of the end of
the item, which behind the input is the item up to the blanks. -/
theorem exists_suffix_of_mem_suggest {e : SuggestionEngine} {item : SuggestionItem}
    (h : item ∈ e.suggest input) :
    ∃ suffix, computeInsertSuffix input item.fullText = some suffix ∧
      suffix ≠ [] ∧ suffix <:+ item.fullText ∧ suffix ≠ item.fullText ∧
      collapse isWhitespace (trimStart (input ++ suffix)) =
        collapse isWhitespace (trimStart item.fullText) := by
  obtain ⟨hne, hmem⟩ := mem_metas_of_mem_suggest h
  obtain ⟨-, -, -, c, -, htext, hextends⟩ := (mem_metas e).mp hmem
  obtain ⟨suffix, hsuffix, hrest⟩ := extends_iff.mp hextends
  rw [← htext] at hrest
  obtain ⟨m, hm, hcollapse, -⟩ := looseMatch_eq_some_iff.mp hrest
  refine ⟨suffix, computeInsertSuffix_eq hne hrest hsuffix, hsuffix, ⟨m, hm.symm⟩, ?_, ?_⟩
  · intro heq
    have hnil : m = [] := List.self_eq_append_left.mp (heq.trans hm)
    rw [hnil] at hcollapse
    exact hne (collapse_eq_nil hcollapse.symm)
  · rw [trimStart_append hne, trimStart_of_looseMatch hne hrest,
      collapse_append_of_looseMatch hrest]

/-- Every item that is suggested for the part of a line behind the prompt is inserted when it is
accepted on that line. -/
theorem insertable_of_mem_suggest {e : SuggestionEngine} {line prompt : List Char}
    {item : SuggestionItem} (h : item ∈ e.suggest ((stripPrefix line prompt).getD [])) :
    ∃ suffix,
      computeInsertSuffixForLine line (some prompt) item.fullText =
        some ((stripPrefix line prompt).getD [], suffix) ∧
      suffix ≠ [] ∧ suffix <:+ item.fullText ∧ suffix ≠ item.fullText ∧
      collapse isWhitespace (trimStart ((stripPrefix line prompt).getD [] ++ suffix)) =
        collapse isWhitespace (trimStart item.fullText) := by
  obtain ⟨suffix, hsuffix, hrest⟩ := exists_suffix_of_mem_suggest h
  refine ⟨suffix, ?_, hrest⟩
  unfold computeInsertSuffixForLine
  simp only [Option.bind_some]
  rw [hsuffix]
  rfl

/-- Without a known prompt the whole line is the input, and its leading blanks are left out. -/
theorem insertable_without_prompt {e : SuggestionEngine} {line : List Char} {item : SuggestionItem}
    (h : item ∈ e.suggest line) :
    ∃ suffix,
      computeInsertSuffixForLine line none item.fullText = some (trimStart line, suffix) ∧
      suffix ≠ [] ∧ suffix <:+ item.fullText := by
  obtain ⟨suffix, hsuffix, hne, hend, -⟩ := exists_suffix_of_mem_suggest h
  have hfirst : ∃ tails, line.tails = line :: tails := by
    rcases line with _ | ⟨c, line⟩
    · exact ⟨_, rfl⟩
    · exact ⟨_, rfl⟩
  obtain ⟨tails, htails⟩ := hfirst
  refine ⟨suffix, ?_, hne, hend⟩
  unfold computeInsertSuffixForLine
  rw [Option.bind_none, Option.none_or, htails, List.findSome?_cons, hsuffix]
  rfl

/-- An engine that knows one command. -/
def lsEngine : SuggestionEngine where
  maxItems := 8
  staticProvider := some fun word =>
    if word = "ls".toList then [("ls -al".toList, some "List directory contents".toList)] else []

theorem insertable_of_mem_suggest_ls :
    ∃ suffix,
      computeInsertSuffixForLine "$ ls".toList (some "$ ".toList) "ls -al".toList =
        some ((stripPrefix "$ ls".toList "$ ".toList).getD [], suffix) ∧
      suffix ≠ [] ∧ suffix <:+ "ls -al".toList ∧ suffix ≠ "ls -al".toList ∧
      collapse isWhitespace
          (trimStart ((stripPrefix "$ ls".toList "$ ".toList).getD [] ++ suffix)) =
        collapse isWhitespace (trimStart "ls -al".toList) :=
  @insertable_of_mem_suggest lsEngine _ _
    ⟨"ls -al".toList, 110, some "List directory contents".toList⟩ (by decide +kernel)

end Termua.Suggest
