import Mathlib
import Termua.Lib.Collapse
import Termua.Lib.Text
import Termua.Lib.Utf8

/-!
# Matching what is typed with a suggestion

`loose_prefix_match_end` of `gpui_term/src/suggestions.rs`: a typed prefix matches the front of a
suggestion up to the length and kind of the blanks in it. There are two loops for it, one over bytes
where both texts are ASCII and one over characters. Both are the same matching
(`matchAscii_eq`, `matchChars_eq`), but the vertical tab is a blank of the second only.
-/

namespace Termua.Suggest

open Blank Text Utf8

/-- `str::char_indices`, from a byte on. -/
def charIndices : ℕ → List Char → List (ℕ × Char)
  | _, [] => []
  | idx, c :: text => (idx, c) :: charIndices (idx + c.utf8Size) text

/-- `u8::is_ascii_whitespace`. -/
def isAsciiWhitespace (b : UInt8) : Bool :=
  b = 0x20 || b = 0x09 || b = 0x0A || b = 0x0C || b = 0x0D

/-- The byte behind the last of the characters, if there is one. -/
def endOf (matchedEnd : ℕ) (run : List (ℕ × Char)) : ℕ :=
  (run.getLast?.map fun s => s.1 + s.2.utf8Size).getD matchedEnd

/-- The loop of `loose_prefix_match_end` over characters. -/
def matchChars : List (ℕ × Char) → List Char → ℕ → Option ℕ
  | _, [], matchedEnd => some matchedEnd
  | full, p :: pre, matchedEnd =>
    if isWhitespace p then
      let run := full.takeWhile fun s => isWhitespace s.2
      if run = [] then none
      else
        matchChars (full.dropWhile fun s => isWhitespace s.2) (pre.dropWhile isWhitespace)
          (endOf matchedEnd run)
    else
      match full with
      | [] => none
      | (idx, f) :: full => if f ≠ p then none else matchChars full pre (idx + f.utf8Size)
termination_by _ pre => pre.length
decreasing_by
  · exact Nat.lt_succ_of_le (List.dropWhile_suffix _).length_le
  · exact Nat.lt_succ_self _

/-- The loop of `loose_prefix_match_end_ascii`. -/
def matchAscii (full pre : List UInt8) (i j matchedEnd : ℕ) : Option ℕ :=
  if hj : j < pre.length then
    if hblank : isAsciiWhitespace pre[j] then
      let i' := skipWhile isAsciiWhitespace full i
      if i' = i then none
      else matchAscii full pre i' (skipWhile isAsciiWhitespace pre j) i'
    else
      match full[i]? with
      | none => none
      | some b => if b ≠ pre[j] then none else matchAscii full pre (i + 1) (j + 1) (i + 1)
  else some matchedEnd
termination_by pre.length - j
decreasing_by
  · have := lt_skipWhile (List.getElem?_eq_getElem hj) hblank
    omega
  · omega

/-- `loose_prefix_match_end_ascii`. -/
def loosePrefixMatchEndAscii (full pre : List UInt8) : Option ℕ := matchAscii full pre 0 0 0

/-- `loose_prefix_match_end` behind its test for ASCII. -/
def loosePrefixMatchEndChars (fullText pre : List Char) : Option ℕ :=
  matchChars (charIndices 0 fullText) pre 0

/-- `str::is_ascii`. -/
def isAscii (text : List Char) : Bool := text.all fun c => decide (c.toNat < 128)

/-- `loose_prefix_match_end`. -/
def loosePrefixMatchEnd (fullText pre : List Char) : Option ℕ :=
  if isAscii fullText && isAscii pre then
    loosePrefixMatchEndAscii (encode fullText) (encode pre)
  else loosePrefixMatchEndChars fullText pre

/-- A character whose byte is ASCII whitespace. -/
def isAsciiBlank (c : Char) : Bool :=
  c = ' ' || c = '\t' || c = '\n' || c = '\x0c' || c = '\r'

/-! ## The loop over characters -/

variable {text full pre rest : List Char} {idx : ℕ}

/-- The length of a text in bytes. -/
def byteLen (text : List Char) : ℕ := (encode text).length

@[simp] theorem byteLen_nil : byteLen [] = 0 := rfl

@[simp] theorem byteLen_cons (c : Char) (text : List Char) :
    byteLen (c :: text) = c.utf8Size + byteLen text := by
  unfold byteLen
  rw [encode_cons, List.length_append, String.length_utf8EncodeChar]

theorem byteLen_append (a b : List Char) : byteLen (a ++ b) = byteLen a + byteLen b := by
  unfold byteLen
  rw [encode_append, List.length_append]

theorem charIndices_cons (idx : ℕ) (c : Char) (text : List Char) :
    charIndices idx (c :: text) = (idx, c) :: charIndices (idx + c.utf8Size) text := rfl

theorem takeWhile_charIndices (p : Char → Bool) (idx : ℕ) (text : List Char) :
    (charIndices idx text).takeWhile (fun s => p s.2) = charIndices idx (text.takeWhile p) := by
  induction text generalizing idx with
  | nil => rfl
  | cons c text ih =>
    rw [charIndices_cons]
    rcases hc : p c with _ | _
    · rw [List.takeWhile_cons_of_neg (by simp [hc]), List.takeWhile_cons_of_neg (by simp [hc])]
      rfl
    · rw [List.takeWhile_cons_of_pos hc, charIndices_cons, ← ih]
      exact List.takeWhile_cons_of_pos hc

theorem dropWhile_charIndices (p : Char → Bool) (idx : ℕ) (text : List Char) :
    (charIndices idx text).dropWhile (fun s => p s.2) =
      charIndices (idx + byteLen (text.takeWhile p)) (text.dropWhile p) := by
  induction text generalizing idx with
  | nil => rfl
  | cons c text ih =>
    rcases hc : p c with _ | _
    · rw [List.takeWhile_cons_of_neg (by simp [hc]), List.dropWhile_cons_of_neg (by simp [hc]),
        byteLen_nil]
      exact List.dropWhile_cons_of_neg (by simp [hc])
    · rw [List.takeWhile_cons_of_pos hc, List.dropWhile_cons_of_pos hc, byteLen_cons, ← Nat.add_assoc,
        ← ih]
      exact List.dropWhile_cons_of_pos hc

theorem endOf_charIndices (matchedEnd idx : ℕ) (hne : text ≠ []) :
    endOf matchedEnd (charIndices idx text) = idx + byteLen text := by
  induction text generalizing idx with
  | nil => exact absurd rfl hne
  | cons c text ih =>
    rcases text with _ | ⟨d, text⟩
    · rw [byteLen_cons, byteLen_nil]
      rfl
    · have htail := ih (idx + c.utf8Size) (List.cons_ne_nil _ _)
      rw [byteLen_cons, ← Nat.add_assoc, ← htail]
      unfold endOf
      rw [charIndices_cons, charIndices_cons, List.getLast?_cons_cons]

theorem matchChars_of_pos {p : Char} (hp : isWhitespace p = true) (full : List (ℕ × Char))
    (pre : List Char) (matchedEnd : ℕ) :
    matchChars full (p :: pre) matchedEnd =
      if (full.takeWhile fun s => isWhitespace s.2) = [] then none
      else matchChars (full.dropWhile fun s => isWhitespace s.2) (pre.dropWhile isWhitespace)
        (endOf matchedEnd (full.takeWhile fun s => isWhitespace s.2)) := by
  rw [matchChars.eq_def]
  exact if_pos hp

theorem matchChars_nil_of_neg {p : Char} (hp : isWhitespace p = false) (pre : List Char)
    (matchedEnd : ℕ) : matchChars [] (p :: pre) matchedEnd = none := by
  rw [matchChars.eq_def]
  exact if_neg (by simp [hp])

theorem matchChars_of_neg {p : Char} (hp : isWhitespace p = false) (s : ℕ × Char)
    (full : List (ℕ × Char)) (pre : List Char) (matchedEnd : ℕ) :
    matchChars (s :: full) (p :: pre) matchedEnd =
      if s.2 ≠ p then none else matchChars full pre (s.1 + s.2.utf8Size) := by
  rw [matchChars.eq_def]
  exact if_neg (by simp [hp])

/-- The loop over characters matches with the blanks of Unicode. -/
theorem matchChars_eq (idx : ℕ) (full pre : List Char) :
    matchChars (charIndices idx full) pre idx =
      (looseMatch isWhitespace full pre).map fun rest => idx + (byteLen full - byteLen rest) := by
  -- a run of blanks is taken at once
  induction hn : pre.length using Nat.strong_induction_on generalizing idx full pre with
  | _ n ih =>
    subst hn
    rcases pre with _ | ⟨p, pre⟩
    · rw [matchChars, looseMatch_nil, Option.map_some, Nat.sub_self, Nat.add_zero]
    rcases hp : isWhitespace p with _ | _
    · rcases full with _ | ⟨f, full⟩
      · rw [looseMatch_nil_of_neg hp]
        exact matchChars_nil_of_neg hp pre idx
      · rw [charIndices_cons, matchChars_of_neg hp, looseMatch_of_neg hp]
        by_cases hf : f = p
        · rw [if_neg (not_not.mpr hf), if_pos hf, ih pre.length (Nat.lt_succ_self _) _ _ _ rfl]
          refine Option.map_congr fun rest hrest => ?_
          obtain ⟨m, rfl, -, -⟩ := looseMatch_eq_some_iff.mp hrest
          rw [byteLen_cons, byteLen_append]
          omega
        · rw [if_pos hf, if_neg hf, Option.map_none]
    · have hlt : (pre.dropWhile isWhitespace).length < (p :: pre).length :=
        Nat.lt_succ_of_le (List.dropWhile_suffix _).length_le
      have hempty : (charIndices idx (full.takeWhile isWhitespace) = []) ↔
          full.takeWhile isWhitespace = [] := by
        rcases full.takeWhile isWhitespace with _ | ⟨c, run⟩
        · exact ⟨fun _ => rfl, fun _ => rfl⟩
        · exact ⟨nofun, nofun⟩
      rw [matchChars_of_pos hp, looseMatch_of_pos hp, takeWhile_charIndices, dropWhile_charIndices]
      simp only [hempty]
      split
      · rfl
      · next hrun =>
        rw [endOf_charIndices _ _ hrun, ih _ hlt _ _ _ rfl]
        refine Option.map_congr fun rest hrest => ?_
        obtain ⟨m, hm, -, -⟩ := looseMatch_eq_some_iff.mp hrest
        have hfull := congrArg byteLen
          (List.takeWhile_append_dropWhile (p := isWhitespace) (l := full))
        rw [byteLen_append, hm, byteLen_append] at hfull
        rw [hm, byteLen_append]
        omega

/-- The loop over bytes matches with the blanks of ASCII. -/
theorem matchAscii_eq (full pre : List UInt8) {i : ℕ} (hi : i ≤ full.length) (j : ℕ) :
    matchAscii full pre i j i =
      (looseMatch isAsciiWhitespace (full.drop i) (pre.drop j)).map fun rest =>
        full.length - rest.length := by
  -- on what is left of the pattern; a blank in it moves both indices past their runs
  induction hn : pre.length - j using Nat.strong_induction_on generalizing i j with
  | _ n ih =>
    subst hn
    rw [matchAscii]
    split
    · next hj =>
      rw [List.drop_eq_getElem_cons hj]
      split
      · next hblank =>
        have hpre : (pre.drop (j + 1)).dropWhile isAsciiWhitespace =
            pre.drop (skipWhile isAsciiWhitespace pre j) := by
          rw [drop_skipWhile, List.drop_eq_getElem_cons hj, List.dropWhile_cons_of_pos hblank]
        have hlt := lt_skipWhile (List.getElem?_eq_getElem hj) hblank
        have hrun := (List.takeWhile_prefix isAsciiWhitespace (l := full.drop i)).length_le
        rw [List.length_drop] at hrun
        have hle : skipWhile isAsciiWhitespace full i ≤ full.length := by
          unfold skipWhile
          omega
        -- the loop sees by the index that there was no blank in the line
        have hempty : skipWhile isAsciiWhitespace full i = i ↔
            (full.drop i).takeWhile isAsciiWhitespace = [] := by
          rw [← List.length_eq_zero_iff]
          unfold skipWhile
          omega
        rw [looseMatch_of_pos hblank, hpre, ← drop_skipWhile]
        simp only [hempty]
        split
        · rfl
        · exact ih _ (by omega) hle _ rfl
      · next hblank =>
        have hblank : isAsciiWhitespace pre[j] = false := by simpa using hblank
        rcases Nat.lt_or_ge i full.length with hlt | hge
        · rw [List.getElem?_eq_getElem hlt, List.drop_eq_getElem_cons hlt, looseMatch_of_neg hblank]
          simp only
          by_cases hf : full[i] = pre[j]
          · rw [if_neg (not_not.mpr hf), if_pos hf]
            exact ih _ (by omega) hlt _ rfl
          · rw [if_pos hf, if_neg hf, Option.map_none]
        · rw [List.getElem?_eq_none hge, List.drop_eq_nil_of_le hge, looseMatch_nil_of_neg hblank]
          rfl
    · next hj =>
      rw [List.drop_eq_nil_of_le (Nat.not_lt.mp hj), looseMatch_nil, Option.map_some,
        List.length_drop]
      congr 1
      omega

/-! ## ASCII -/

theorem toNat_ofUInt8 (b : UInt8) : (Char.ofUInt8 b).toNat = b.toNat := UInt8.toNat_toUInt32 b

theorem ofUInt8_injective : Function.Injective Char.ofUInt8 := by
  intro a b h
  have hnat := congrArg Char.toNat h
  rw [toNat_ofUInt8, toNat_ofUInt8] at hnat
  exact UInt8.toNat_inj.mp hnat

theorem isAsciiBlank_ofUInt8 : isAsciiBlank ∘ Char.ofUInt8 = isAsciiWhitespace := by
  funext b
  have hnat := toNat_ofUInt8 b
  have hspace : (' ').toNat = 32 := rfl
  have htab : ('\t').toNat = 9 := rfl
  have hline : ('\n').toNat = 10 := rfl
  have hform : ('\x0c').toNat = 12 := rfl
  have hreturn : ('\r').toNat = 13 := rfl
  simp only [Function.comp_apply, isAsciiBlank, isAsciiWhitespace, ← Char.toNat_inj,
    ← UInt8.toNat_inj, hnat, hspace, htab, hline, hform, hreturn, UInt8.reduceToNat]

theorem encode_of_ascii (h : isAscii text = true) : (encode text).map Char.ofUInt8 = text := by
  induction text with
  | nil => rfl
  | cons c text ih =>
    unfold isAscii at h
    rw [List.all_cons, Bool.and_eq_true, decide_eq_true_eq] at h
    rw [encode_cons, utf8EncodeChar_of_ascii h.1, List.singleton_append, List.map_cons, ih h.2]
    congr 1
    refine Char.toNat_inj.mp ?_
    rw [toNat_ofUInt8, UInt8.toNat_ofNat', Nat.mod_eq_of_lt (by omega)]

theorem byteLen_of_ascii (h : isAscii text = true) : byteLen text = text.length := by
  have hlen := congrArg List.length (encode_of_ascii h)
  rwa [List.length_map] at hlen

/-- The loop over bytes on ASCII texts matches their characters. -/
theorem loosePrefixMatchEndAscii_eq (hfull : isAscii full = true) (hpre : isAscii pre = true) :
    loosePrefixMatchEndAscii (encode full) (encode pre) =
      (looseMatch isAsciiBlank full pre).map fun rest => byteLen full - byteLen rest := by
  have hmap := looseMatch_map (p := isAsciiBlank) ofUInt8_injective (encode full) (encode pre)
  rw [encode_of_ascii hfull, encode_of_ascii hpre, isAsciiBlank_ofUInt8] at hmap
  unfold loosePrefixMatchEndAscii
  rw [matchAscii_eq _ _ (Nat.zero_le _), List.drop_zero, List.drop_zero, hmap, Option.map_map]
  refine Option.map_congr fun rest hrest => ?_
  have hascii : isAscii (rest.map Char.ofUInt8) = true := by
    obtain ⟨m, hm, -, -⟩ := looseMatch_eq_some_iff.mp
      (hmap.trans (by rw [hrest, Option.map_some]))
    unfold isAscii at hfull
    rw [hm, List.all_append, Bool.and_eq_true] at hfull
    exact hfull.2
  show _ = byteLen full - byteLen (rest.map Char.ofUInt8)
  rw [byteLen_of_ascii hascii, List.length_map]
  rfl

theorem loosePrefixMatchEndChars_eq (full pre : List Char) :
    loosePrefixMatchEndChars full pre =
      (looseMatch isWhitespace full pre).map fun rest => byteLen full - byteLen rest := by
  unfold loosePrefixMatchEndChars
  rw [matchChars_eq]
  simp only [Nat.zero_add]

theorem isWhitespace_of_isAsciiBlank (c : Char) (h : isAsciiBlank c = true) :
    isWhitespace c = true := by
  simp only [isAsciiBlank, Bool.or_eq_true, decide_eq_true_eq] at h
  rcases h with (((rfl | rfl) | rfl) | rfl) | rfl <;> rfl

/-- The blanks of a text that match, its last run taken whole, are the same blanks when a vertical
tab is none. -/
def SameTabs (full pre : List Char) : Prop :=
  ∀ m rest, full = m ++ rest → collapse isWhitespace m = collapse isWhitespace pre →
    Ends isWhitespace pre rest → collapse isAsciiBlank m = collapse isAsciiBlank pre

/-- What is left of a text is determined by where it starts. -/
theorem eq_of_byteLen {m m' rest rest' : List Char} (h : m ++ rest = m' ++ rest')
    (hlen : byteLen m = byteLen m') : rest = rest' := by
  have henc := congrArg encode h
  rw [encode_append, encode_append] at henc
  have hrest := (List.append_inj henc hlen).2
  have hdecode := congrArg decode hrest
  rw [decode_encode, decode_encode] at hdecode
  exact Option.some.inj hdecode

/-- On ASCII texts the two loops agree exactly where the vertical tabs of what matches are the same. -/
theorem ascii_eq_chars_iff {full pre : List Char} (hfull : isAscii full = true)
    (hpre : isAscii pre = true) :
    loosePrefixMatchEndAscii (encode full) (encode pre) = loosePrefixMatchEndChars full pre ↔
      SameTabs full pre := by
  rw [loosePrefixMatchEndAscii_eq hfull hpre, loosePrefixMatchEndChars_eq]
  refine Iff.trans ?_ (looseMatch_eq_iff isWhitespace_of_isAsciiBlank)
  constructor
  · intro heq
    rcases hfast : looseMatch isAsciiBlank full pre with _ | rest <;>
    rcases hslow : looseMatch isWhitespace full pre with _ | rest'
    · rfl
    · rw [hfast, hslow] at heq
      cases heq
    · rw [hfast, hslow] at heq
      cases heq
    · rw [hfast, hslow] at heq
      obtain ⟨m, hm, -, -⟩ := looseMatch_eq_some_iff.mp hfast
      obtain ⟨m', hm', -, -⟩ := looseMatch_eq_some_iff.mp hslow
      have hlen : byteLen full - byteLen rest = byteLen full - byteLen rest' := Option.some.inj heq
      have hfull₁ := congrArg byteLen hm
      have hfull₂ := congrArg byteLen hm'
      rw [byteLen_append] at hfull₁ hfull₂
      rw [eq_of_byteLen (hm.symm.trans hm') (by omega)]
  · intro heq
    rw [heq]

/-- Texts without a vertical tab have the same blanks for both loops. -/
theorem sameTabs_of_not_mem (hfull : isAscii full = true) (hpre : isAscii pre = true)
    (htabs : '\x0b' ∉ full ++ pre) : SameTabs full pre := by
  have hblank : ∀ c ∈ full ++ pre, isWhitespace c = isAsciiBlank c := by
    intro c hc
    have hne : c ≠ '\x0b' := ne_of_mem_of_not_mem hc htabs
    have hlt : c.toNat < 128 := by
      unfold isAscii at hfull hpre
      rcases List.mem_append.mp hc with hc | hc
      · exact of_decide_eq_true (List.all_eq_true.mp hfull c hc)
      · exact of_decide_eq_true (List.all_eq_true.mp hpre c hc)
    rw [Bool.eq_iff_iff]
    rw [ne_eq, ← Char.toNat_inj] at hne
    have htab : ('\x0b').toNat = 11 := rfl
    have hspace : (' ').toNat = 32 := rfl
    have hchar : ('\t').toNat = 9 := rfl
    have hline : ('\n').toNat = 10 := rfl
    have hform : ('\x0c').toNat = 12 := rfl
    have hreturn : ('\r').toNat = 13 := rfl
    simp only [isWhitespace, isAsciiBlank, Bool.or_eq_true, decide_eq_true_eq, ← Char.toNat_inj]
    omega
  rintro m rest rfl hcollapse -
  rwa [collapse_congr fun c hc => hblank c (List.mem_append_left _ (List.mem_append_left _ hc)),
    collapse_congr fun c hc => hblank c (List.mem_append_right _ hc)] at hcollapse

/-- A candidate with a vertical tab is matched by a typed blank over characters only. -/
theorem ascii_ne_chars_verticalTab :
    ¬∀ full pre : List Char, isAscii full = true → isAscii pre = true →
      loosePrefixMatchEndAscii (encode full) (encode pre) = loosePrefixMatchEndChars full pre := by
  intro hall
  have hsame := hall "a\x0bb".toList "a b".toList (by decide) (by decide)
  exact absurd hsame (by decide +kernel)

theorem ascii_eq_chars_iff_blanks :
    loosePrefixMatchEndAscii (encode "git  status".toList) (encode "git st".toList) =
        loosePrefixMatchEndChars "git  status".toList "git st".toList ↔
      SameTabs "git  status".toList "git st".toList :=
  ascii_eq_chars_iff (by decide) (by decide)

end Termua.Suggest
