import Mathlib
import Termua.Assistant.Conversation
import Termua.Lib.Serde
import Termua.Lib.Text

/-!
# The assistant's headers as a text

`assistant_headers_to_text` and `parse_assistant_headers` of `window/settings/state.rs`: the settings
page shows the headers one on a line and reads them back when the text changes. A line that begins with
a number sign is a comment, and a name may begin with one.
-/

namespace Termua.Settings

open Assistant (lines)
open Serde (Text TextMap put putAll pairs pairs_putAll nodup_pairs lookup_put)

/-! ## The code -/

/-- The line of a header. -/
def headerLine (entry : Text × Text) : Text :=
  Text.trim entry.1 ++ ": ".toList ++ Text.trim entry.2

/-- The headers in the order of their names. -/
def sorted (headers : TextMap) : List (Text × Text) :=
  (pairs headers).insertionSort fun a b => a.1 ≤ b.1

/-- `assistant_headers_to_text`. -/
def assistantHeadersToText (headers : TextMap) : Text :=
  if pairs headers = [] then [] else ['\n'].intercalate ((sorted headers).map headerLine)

/-- `str::split_once` at a character. -/
def splitOnce (c : Char) (text : Text) : Option (Text × Text) :=
  if c ∈ text then some (text.takeWhile (· ≠ c), (text.dropWhile (· ≠ c)).tail) else none

/-- A line of the text: a header, or nothing where the line is empty or a comment. -/
def parseHeaderLine (lineIx : ℕ) (rawLine : Text) : Except Text (Option (Text × Text)) :=
  let line := Text.trim rawLine
  if line = [] ∨ line.head? = some '#' then .ok none
  else
    match splitOnce ':' line with
    | none =>
      .error ("invalid header on line ".toList ++ Nat.toDigits 10 (lineIx + 1) ++
        " (expected \"Name: Value\")".toList)
    | some (k, v) =>
      let k := Text.trim k
      let v := Text.trim v
      if k = [] then
        .error ("invalid header on line ".toList ++ Nat.toDigits 10 (lineIx + 1) ++
          " (empty name)".toList)
      else .ok (some (k, v))

/-- The headers with what a line has. -/
def withHeader (out : TextMap) : Option (Text × Text) → TextMap
  | none => out
  | some entry => put entry.1 entry.2 out

/-- One turn of the loop over the lines. -/
def parseStep (out : TextMap) (line : Text × ℕ) : Except Text TextMap :=
  (parseHeaderLine line.2 line.1).map (withHeader out)

/-- `parse_assistant_headers`. -/
def parseAssistantHeaders (text : Text) : Except Text TextMap :=
  (lines text).zipIdx.foldlM parseStep ∅

/-! ## Headers -/

/-- A character of a field name. -/
def isTokenChar (c : Char) : Bool := c.isAlphanum || "!#$%&'*+-.^_`|~".toList.contains c

/-- A field name. -/
def IsToken (name : Text) : Prop := name ≠ [] ∧ ∀ c ∈ name, isTokenChar c = true

/-- A value without blanks around it and without line breaks. -/
def IsValue (v : Text) : Prop := Text.trim v = v ∧ '\n' ∉ v ∧ '\r' ∉ v

/-- The maps have the same entries. -/
def SameEntries (m m' : TextMap) : Prop := (pairs m).Perm (pairs m')

/-- An entry whose line has the name and the value in it. -/
structure Printable (entry : Text × Text) : Prop where
  name : Text.Trimmed entry.1
  colon : ':' ∉ entry.1
  nameLine : '\n' ∉ entry.1
  value : Text.trim entry.2 = entry.2
  valueLine : '\n' ∉ entry.2

/-- The line of the header is not taken for a comment. -/
def Kept (entry : Text × Text) : Bool := entry.1.head? ≠ some '#'

/-! ## A line -/

theorem isWhitespace_of_isTokenChar {c : Char} (h : isTokenChar c = true) :
    Text.isWhitespace c = false := by
  rcases Bool.or_eq_true_iff.mp h with halpha | hsign
  · have hrange : 48 ≤ c.toNat ∧ c.toNat ≤ 122 := by
      simp only [Char.isAlphanum, Char.isAlpha, Char.isUpper, Char.isLower, Char.isDigit,
        Bool.or_eq_true, Bool.and_eq_true, decide_eq_true_eq, UInt32.le_iff_toNat_le, ge_iff_le]
        at halpha
      simp at halpha
      omega
    unfold Text.isWhitespace
    simp only [decide_eq_false_iff_not]
    omega
  · have hsigns : "!#$%&'*+-.^_`|~".toList.all (fun c => !Text.isWhitespace c) = true := by decide
    simpa using List.all_eq_true.mp hsigns c (List.contains_iff_mem.mp hsign)

/-- Headers with field names have lines of their own. -/
theorem printable_of_isToken {entry : Text × Text} (hname : IsToken entry.1) (hvalue : IsValue entry.2) :
    Printable entry where
  name := ⟨Text.trim_of_forall fun c hc => isWhitespace_of_isTokenChar (hname.2 c hc), hname.1⟩
  colon hmem := by
    have hcolon := hname.2 ':' hmem
    revert hcolon
    decide
  nameLine hmem := by
    have hline := hname.2 '\n' hmem
    revert hline
    decide
  value := hvalue.1
  valueLine := hvalue.2.1

/-- A blank in front is trimmed. -/
theorem trim_cons_blank (v : Text) : Text.trim (' ' :: v) = Text.trim v := by
  unfold Text.trim
  by_cases hv : v.all Text.isWhitespace = true
  · have hblank : (' ' :: v).all Text.isWhitespace = true := by
      rw [List.all_cons, hv]
      rfl
    rw [← List.nil_append (' ' :: v), Text.trimEnd_append_of_blank hblank, ← List.nil_append v,
      Text.trimEnd_append_of_blank hv]
  · rw [← List.singleton_append,
      Text.trimEnd_append_of_not_blank (Bool.eq_false_of_not_eq_true hv), List.singleton_append,
      List.dropWhile_cons_of_pos (by decide)]

theorem splitOnce_append {k : Text} (hk : ':' ∉ k) (rest : Text) :
    splitOnce ':' (k ++ ':' :: rest) = some (k, rest) := by
  have hall : ∀ c ∈ k, decide (c ≠ ':') = true := by
    intro c hc
    rw [decide_eq_true_eq]
    rintro rfl
    exact hk hc
  unfold splitOnce
  rw [if_pos (by simp), List.takeWhile_append_of_pos hall, List.dropWhile_append_of_pos hall,
    List.takeWhile_cons_of_neg (by simp), List.dropWhile_cons_of_neg (by simp), List.append_nil]
  rfl

namespace Printable

variable {entry : Text × Text}

theorem line_eq (h : Printable entry) : headerLine entry = entry.1 ++ ':' :: ' ' :: entry.2 := by
  unfold headerLine
  rw [h.name.1, h.value]
  simp

/-- The line begins with the first character of the name. -/
theorem head_line (h : Printable entry) (rest : Text) : (entry.1 ++ rest).head? = entry.1.head? := by
  obtain ⟨c, name, hname⟩ := List.exists_cons_of_ne_nil h.name.2
  rw [hname]
  rfl

/-- The line without the blank that an empty value leaves behind the colon. -/
theorem trim_line (h : Printable entry) :
    Text.trim (headerLine entry) =
      entry.1 ++ ':' :: (if entry.2 = [] then [] else ' ' :: entry.2) := by
  have hhead := (Text.trim_eq_self_iff.mp h.name.1).1
  rw [h.line_eq]
  split
  · next hvalue =>
    have hline : entry.1 ++ ':' :: ' ' :: entry.2 = entry.1 ++ [':'] ++ [' '] := by
      rw [hvalue]
      simp
    have hblank : Text.trim (entry.1 ++ [':'] ++ [' ']) = Text.trim (entry.1 ++ [':']) := by
      unfold Text.trim
      rw [Text.trimEnd_append_of_blank rfl]
    rw [hline, hblank, Text.trim_eq_self_iff, h.head_line]
    refine ⟨hhead, fun c hc => ?_⟩
    rw [List.getLast?_concat] at hc
    obtain rfl := Option.some.inj hc
    decide
  · next hvalue =>
    have hline : entry.1 ++ ':' :: ' ' :: entry.2 = entry.1 ++ [':', ' '] ++ entry.2 := by simp
    rw [Text.trim_eq_self_iff, h.head_line]
    refine ⟨hhead, fun c hc => (Text.trim_eq_self_iff.mp h.value).2 c ?_⟩
    rwa [hline, List.getLast?_append_of_ne_nil _ hvalue] at hc

/-- The line of a header is read as the header, or as a comment. -/
theorem parse_line (h : Printable entry) (lineIx : ℕ) :
    parseHeaderLine lineIx (headerLine entry) = .ok (if Kept entry then some entry else none) := by
  have hvalue : Text.trim (if entry.2 = [] then [] else ' ' :: entry.2) = entry.2 := by
    split
    · next hnil =>
      rw [hnil]
      rfl
    · rw [trim_cons_blank, h.value]
  unfold parseHeaderLine
  simp only [h.trim_line, h.head_line, splitOnce_append h.colon, h.name.1, hvalue]
  by_cases hcomment : entry.1.head? = some '#'
  · rw [if_pos (.inr hcomment), if_neg (by simp [Kept, hcomment])]
  · rw [if_neg (by simp [hcomment]), if_neg h.name.2, if_pos (by simp [Kept, hcomment])]

/-- The line of a header is one line. -/
theorem isLine (h : Printable entry) :
    headerLine entry ≠ [] ∧ '\n' ∉ headerLine entry ∧ (headerLine entry).getLast? ≠ some '\r' := by
  rw [h.line_eq]
  refine ⟨by simp, by simp [h.nameLine, h.valueLine], fun hlast => ?_⟩
  by_cases hvalue : entry.2 = []
  · rw [hvalue, List.getLast?_append_of_ne_nil _ (by simp)] at hlast
    cases hlast
  · have hline : entry.1 ++ ':' :: ' ' :: entry.2 = entry.1 ++ [':', ' '] ++ entry.2 := by simp
    rw [hline, List.getLast?_append_of_ne_nil _ hvalue] at hlast
    -- a carriage return is a blank, and the value ends with none
    have hblank := (Text.trim_eq_self_iff.mp h.value).2 '\r' hlast
    revert hblank
    decide

end Printable

/-! ## The text -/

/-- The lines of a text that is lines with breaks between them. -/
theorem lines_intercalate {ls : List Text} (hne : ls ≠ [])
    (h : ∀ l ∈ ls, l ≠ [] ∧ '\n' ∉ l ∧ l.getLast? ≠ some '\r') :
    lines (['\n'].intercalate ls) = ls := by
  have hsplit : (['\n'].intercalate ls).splitOn '\n' = ls :=
    List.splitOn_intercalate '\n' (fun l hl => (h l hl).2.1) hne
  have hlast : ls.getLastD [] = ls.getLast hne := by
    rw [List.getLastD_eq_getLast?, List.getLast?_eq_some_getLast hne]
    rfl
  have hkeep : ls.dropLast.map (fun line => if line.getLast? = some '\r' then line.dropLast else line) =
      ls.dropLast := by
    refine (List.map_congr_left fun l hl => ?_).trans (List.map_id _)
    exact if_neg (h l (List.dropLast_subset _ hl)).2.2
  unfold lines
  simp only [hsplit, hlast, hkeep]
  rw [if_neg (h _ (List.getLast_mem hne)).1, List.dropLast_append_getLast]

/-- Lines that are read one by one. -/
theorem foldlM_parseStep {entries : List (Text × Text)} (h : ∀ e ∈ entries, Printable e) (n : ℕ)
    (out : TextMap) :
    ((entries.map headerLine).zipIdx n).foldlM parseStep out =
      .ok ((entries.filter Kept).foldl (fun m e => put e.1 e.2 m) out) := by
  induction entries generalizing n out with
  | nil => rfl
  | cons entry entries ih =>
    have hrest := fun e he => h e (List.mem_cons_of_mem entry he)
    have hstep : parseStep out (headerLine entry, n) =
        .ok (if Kept entry then put entry.1 entry.2 out else out) := by
      unfold parseStep
      rw [(h entry List.mem_cons_self).parse_line n]
      split <;> rfl
    rw [List.map_cons, List.zipIdx_cons, List.foldlM_cons, hstep]
    show ((entries.map headerLine).zipIdx (n + 1)).foldlM parseStep _ = _
    rw [ih hrest]
    by_cases hkept : Kept entry = true
    · rw [if_pos hkept, List.filter_cons_of_pos hkept]
      rfl
    · rw [if_neg hkept, List.filter_cons_of_neg hkept]

theorem perm_sorted (headers : TextMap) : (sorted headers).Perm (pairs headers) :=
  List.perm_insertionSort _ _

theorem nodup_sorted (headers : TextMap) : ((sorted headers).map (·.1)).Nodup :=
  ((perm_sorted headers).map _).nodup_iff.mpr (nodup_pairs headers)

/-- What is read of a printed text: the headers whose lines are not taken for comments. -/
theorem parse_printed {m : TextMap} (h : ∀ e ∈ pairs m, Printable e) :
    parseAssistantHeaders (assistantHeadersToText m) = .ok (putAll ((sorted m).filter Kept)) := by
  have hsorted : ∀ e ∈ sorted m, Printable e := fun e he => h e ((perm_sorted m).mem_iff.mp he)
  by_cases hm : pairs m = []
  · have hempty : sorted m = [] := by
      unfold sorted
      rw [hm]
      rfl
    unfold assistantHeadersToText
    rw [if_pos hm, hempty]
    rfl
  · have hne : (sorted m).map headerLine ≠ [] := by
      intro hnil
      have hperm := perm_sorted m
      rw [List.map_eq_nil_iff.mp hnil] at hperm
      exact hm (List.nil_perm.mp hperm)
    have hlines : lines (['\n'].intercalate ((sorted m).map headerLine)) =
        (sorted m).map headerLine := by
      refine lines_intercalate hne fun l hl => ?_
      obtain ⟨e, he, rfl⟩ := List.mem_map.mp hl
      exact (hsorted e he).isLine
    unfold assistantHeadersToText parseAssistantHeaders
    rw [if_neg hm, hlines, foldlM_parseStep hsorted]
    rfl

/-- The printed headers are read as the headers exactly when no line is taken for a comment. -/
theorem roundTrip_iff {m : TextMap} (h : ∀ e ∈ pairs m, Printable e) :
    (∃ m', parseAssistantHeaders (assistantHeadersToText m) = .ok m' ∧ SameEntries m' m) ↔
      ∀ e ∈ pairs m, e.1.head? ≠ some '#' := by
  have hread : pairs (putAll ((sorted m).filter Kept)) = (sorted m).filter Kept :=
    pairs_putAll ((nodup_sorted m).sublist (List.filter_sublist.map _))
  rw [parse_printed h]
  constructor
  · -- a header that is read is one whose line was kept
    rintro ⟨m', hm', hsame⟩ e he
    obtain rfl := Except.ok.inj hm'
    have hmem := hsame.mem_iff.mpr he
    rw [hread] at hmem
    exact of_decide_eq_true (List.mem_filter.mp hmem).2
  · intro hkept
    refine ⟨_, rfl, ?_⟩
    have hall : (sorted m).filter Kept = sorted m :=
      List.filter_eq_self.mpr fun e he => decide_eq_true (hkept e ((perm_sorted m).mem_iff.mp he))
    unfold SameEntries
    rw [hread, hall]
    exact perm_sorted m

/-! ## What is read of any text -/

theorem notMem_of_mem_lines {text line : Text} (h : line ∈ lines text) : '\n' ∉ line := by
  have hpiece (piece : Text) (hpiece : piece ∈ text.splitOn '\n') : '\n' ∉ piece :=
    Text.notMem_of_mem_splitOn hpiece
  unfold lines at h
  rcases List.mem_append.mp h with h | h
  · obtain ⟨piece, hmem, rfl⟩ := List.mem_map.mp h
    have hnot := hpiece piece (List.dropLast_subset _ hmem)
    split
    · exact fun hmem => hnot (List.dropLast_subset _ hmem)
    · exact hnot
  · split at h
    · cases h
    · obtain rfl := List.mem_singleton.mp h
      refine hpiece _ ?_
      rw [List.getLastD_eq_getLast?, List.getLast?_eq_some_getLast (List.splitOn_ne_nil _ _)]
      exact List.getLast_mem _

theorem eq_of_splitOnce {c : Char} {text k v : Text} (h : splitOnce c text = some (k, v)) :
    text = k ++ c :: v ∧ c ∉ k := by
  unfold splitOnce at h
  split at h
  · next hc =>
    obtain ⟨rfl, rfl⟩ := Prod.mk.inj (Option.some.inj h)
    have hne : text.dropWhile (· ≠ c) ≠ [] := fun hnil => by
      simpa using List.dropWhile_eq_nil_iff.mp hnil c hc
    have hhead : (text.dropWhile (· ≠ c)).head hne = c := by
      simpa using List.head_dropWhile_not (· ≠ c) hne
    refine ⟨?_, fun hmem => by simpa using List.mem_takeWhile_imp hmem⟩
    conv_lhs => rw [← List.takeWhile_append_dropWhile (p := (· ≠ c)) (l := text),
      ← List.cons_head_tail hne, hhead]
  · cases h

/-- A text that no blank begins still begins so when it is trimmed. -/
theorem head_trim {c : Char} {k : Text} (hc : Text.isWhitespace c = false)
    (hne : Text.trim (c :: k) ≠ []) : (Text.trim (c :: k)).head? = some c := by
  unfold Text.trim at hne ⊢
  have hprefix : Text.trimEnd (c :: k) <+: c :: k := List.rdropWhile_prefix _ _
  cases hend : Text.trimEnd (c :: k) with
  | nil =>
    rw [hend] at hne
    exact absurd rfl hne
  | cons d rest =>
    rw [hend] at hprefix
    obtain ⟨rfl, -⟩ := List.cons_prefix_cons.mp hprefix
    rw [List.dropWhile_cons_of_neg (by simp [hc])]
    rfl

/-- A header that is read can be printed, and its line is no comment. -/
theorem printable_of_parseHeaderLine {lineIx : ℕ} {rawLine : Text} {entry : Text × Text}
    (hline : '\n' ∉ rawLine) (h : parseHeaderLine lineIx rawLine = .ok (some entry)) :
    Printable entry ∧ entry.1.head? ≠ some '#' := by
  unfold parseHeaderLine at h
  simp only at h
  split at h
  · cases h
  · next hcomment =>
    split at h
    · cases h
    · next k v hsplit =>
      split at h
      · cases h
      · next hname =>
        obtain rfl := Option.some.inj (Except.ok.inj h)
        obtain ⟨hwhole, hcolon⟩ := eq_of_splitOnce hsplit
        have hbreak (c) (hc : c ∈ k ++ ':' :: v) : c ∈ rawLine :=
          Text.mem_of_mem_trim (hwhole ▸ hc)
        refine ⟨⟨Text.trimmed_trim hname, fun hmem => hcolon (Text.mem_of_mem_trim hmem),
          fun hmem => hline (hbreak _ ?_), Text.trim_trim v, fun hmem => hline (hbreak _ ?_)⟩, ?_⟩
        · exact List.mem_append_left _ (Text.mem_of_mem_trim hmem)
        · exact List.mem_append_right _ (List.mem_cons_of_mem _ (Text.mem_of_mem_trim hmem))
        · cases k with
          | nil => exact absurd rfl hname
          | cons c k =>
            -- the line has no blank in front, so that the name begins as the line does
            have htrimmed := Text.trim_trim rawLine
            rw [hwhole] at htrimmed
            have hc := (Text.trim_eq_self_iff.mp htrimmed).1 c rfl
            have hhead := head_trim hc hname
            simp only [hhead]
            rw [not_or, hwhole] at hcomment
            exact hcomment.2

/-- The entries of a map with a value for the key. -/
theorem mem_pairs_put {k v : Text} {m : TextMap} {e : Text × Text} (h : e ∈ pairs (put k v m)) :
    e = (k, v) ∨ e ∈ pairs m := by
  have hiff (m : TextMap) : e ∈ pairs m ↔ m.lookup e.1 = some e.2 := by
    rw [← Option.mem_def, AList.mem_lookup_iff, pairs, List.mem_map]
    constructor
    · rintro ⟨x, hx, rfl⟩
      exact hx
    · intro hx
      exact ⟨_, hx, rfl⟩
  rw [hiff, lookup_put] at h
  rw [hiff]
  split at h
  · next hkey =>
    obtain rfl := Option.some.inj h
    exact .inl (Prod.ext hkey rfl)
  · exact .inr h

/-- Every header that was read can be printed, and its line is no comment. -/
theorem printable_of_parse {text : Text} {m : TextMap} (h : parseAssistantHeaders text = .ok m) :
    ∀ e ∈ pairs m, Printable e ∧ e.1.head? ≠ some '#' := by
  have hfold (ls : List (Text × ℕ)) (hls : ∀ l ∈ ls, '\n' ∉ l.1) (out : TextMap)
      (hout : ∀ e ∈ pairs out, Printable e ∧ e.1.head? ≠ some '#')
      (hm : ls.foldlM parseStep out = .ok m) :
      ∀ e ∈ pairs m, Printable e ∧ e.1.head? ≠ some '#' := by
    induction ls generalizing out with
    | nil =>
      obtain rfl := Except.ok.inj hm
      exact hout
    | cons l ls ih =>
      rw [List.foldlM_cons] at hm
      rcases hline : parseHeaderLine l.2 l.1 with err | found
      · simp only [parseStep, hline] at hm
        cases hm
      · have hstep : parseStep out l = .ok (withHeader out found) := by
          unfold parseStep
          rw [hline]
          rfl
        rw [hstep] at hm
        refine ih (fun l hl => hls l (List.mem_cons_of_mem _ hl)) _ ?_ hm
        intro e he
        rcases found with _ | entry
        · exact hout e he
        · rcases mem_pairs_put he with rfl | he
          · exact printable_of_parseHeaderLine (hls l List.mem_cons_self) hline
          · exact hout e he
  refine hfold _ (fun l hl => ?_) ∅ (fun e he => absurd he List.not_mem_nil) h
  exact notMem_of_mem_lines (List.fst_mem_of_mem_zipIdx hl)

/-- Headers with field names and values of one line come back from the text exactly when no name begins
with a number sign; and what is read of any text comes back when it is printed and read again. -/
theorem headers_roundTrip (headers : TextMap) (text : Text) :
    ((∀ e ∈ pairs headers, IsToken e.1 ∧ IsValue e.2) →
      ((∃ m, parseAssistantHeaders (assistantHeadersToText headers) = .ok m ∧
          SameEntries m headers) ↔
        ∀ e ∈ pairs headers, e.1.head? ≠ some '#')) ∧
    ∀ m, parseAssistantHeaders text = .ok m →
      ∃ m', parseAssistantHeaders (assistantHeadersToText m) = .ok m' ∧ SameEntries m' m := by
  constructor
  · intro hheaders
    apply roundTrip_iff
    intro e he
    exact printable_of_isToken (hheaders e he).1 (hheaders e he).2
  · intro m hm
    have hread := printable_of_parse hm
    apply (roundTrip_iff fun e he => (hread e he).1).mpr
    exact fun e he => (hread e he).2

/-- Two headers, one with a colon in its value and one without a value. -/
def twoHeaders : TextMap := put "x-tag".toList [] (put "Accept".toList "a: b".toList ∅)

/-- A comment, a name that is given twice with blanks around it, and an empty line. -/
theorem headers_roundTrip_two :
    (∃ m, parseAssistantHeaders (assistantHeadersToText twoHeaders) = .ok m ∧
      SameEntries m twoHeaders) ∧
    ∃ m, parseAssistantHeaders "# note\r\n x-key : one \n\nx-key:two\n#b: c\nA:".toList = .ok m ∧
      pairs m = [("x-key".toList, "two".toList), ("A".toList, [])] ∧
      ∃ m', parseAssistantHeaders (assistantHeadersToText m) = .ok m' ∧ SameEntries m' m := by
  obtain ⟨hheaders, hread⟩ :=
    headers_roundTrip twoHeaders "# note\r\n x-key : one \n\nx-key:two\n#b: c\nA:".toList
  refine ⟨(hheaders ?_).mpr ?_, ?_⟩
  · have htokens : (pairs twoHeaders).all fun e => e.1 ≠ [] ∧ (e.1.all isTokenChar = true) ∧
        Text.trim e.2 = e.2 ∧ '\n' ∉ e.2 ∧ '\r' ∉ e.2 := by
      decide +kernel
    intro e he
    obtain ⟨hne, hchars, hvalue⟩ := of_decide_eq_true (List.all_eq_true.mp htokens e he)
    exact ⟨⟨hne, List.all_eq_true.mp hchars⟩, hvalue⟩
  · decide +kernel
  · have hpairs : (parseAssistantHeaders "# note\r\n x-key : one \n\nx-key:two\n#b: c\nA:".toList).map
        pairs = .ok [("x-key".toList, "two".toList), ("A".toList, [])] := by
      decide +kernel
    rcases hm : parseAssistantHeaders "# note\r\n x-key : one \n\nx-key:two\n#b: c\nA:".toList
      with err | m
    · rw [hm] at hpairs
      cases hpairs
    · rw [hm] at hpairs
      exact ⟨m, rfl, Except.ok.inj hpairs, hread m hm⟩

/-- A header whose name begins with a number sign is lost. -/
theorem not_roundTrip_numberSign :
    (∀ e ∈ pairs (put "#a".toList "1".toList ∅), IsToken e.1 ∧ IsValue e.2) ∧
      ¬ ∃ m', parseAssistantHeaders (assistantHeadersToText (put "#a".toList "1".toList ∅)) = .ok m' ∧
        SameEntries m' (put "#a".toList "1".toList ∅) := by
  constructor
  · intro e he
    obtain rfl := List.mem_singleton.mp he
    refine ⟨⟨List.cons_ne_nil _ _, List.all_eq_true.mp rfl⟩, rfl, by simp, by simp⟩
  · rintro ⟨m', hm', hsame⟩
    have hread : parseAssistantHeaders (assistantHeadersToText (put "#a".toList "1".toList ∅)) =
        .ok ∅ := rfl
    rw [hread] at hm'
    obtain rfl := Except.ok.inj hm'
    cases List.nil_perm.mp hsame

end Termua.Settings
