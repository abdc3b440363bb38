import Mathlib

/-!
# Blanks, case and numbers in a text

Rust's `char::is_whitespace`, `str::trim`, `str::eq_ignore_ascii_case` and `str::parse` to an unsigned
integer on texts as lists of characters. A text that neither begins nor ends with a blank is what
trimming leaves of it.
-/

namespace Text

/-- `char::is_whitespace`. -/
def isWhitespace (c : Char) : Bool :=
  (0x09 ≤ c.toNat ∧ c.toNat ≤ 0x0D) ∨ c.toNat = 0x20 ∨ c.toNat = 0x85 ∨ c.toNat = 0xA0 ∨
    c.toNat = 0x1680 ∨ (0x2000 ≤ c.toNat ∧ c.toNat ≤ 0x200A) ∨ c.toNat = 0x2028 ∨
    c.toNat = 0x2029 ∨ c.toNat = 0x202F ∨ c.toNat = 0x205F ∨ c.toNat = 0x3000

/-- `str::trim_start`. -/
def trimStart (text : List Char) : List Char := text.dropWhile isWhitespace

/-- The first item of `str::split_whitespace`, empty where there is none. -/
def firstWord (text : List Char) : List Char :=
  (text.dropWhile isWhitespace).takeWhile fun c => !isWhitespace c

/-- `str::trim_end`. -/
def trimEnd (text : List Char) : List Char := text.rdropWhile isWhitespace

/-- `str::trim`. -/
def trim (text : List Char) : List Char := (trimEnd text).dropWhile isWhitespace

/-- `str::eq_ignore_ascii_case`. -/
def eqIgnoreAsciiCase (s t : List Char) : Bool := s.map Char.toLower = t.map Char.toLower

/-- `str::parse` to an unsigned integer of the width. -/
def parseUnsigned (width : ℕ) (text : List Char) : Option ℕ :=
  let digits := match text with
    | '+' :: rest => rest
    | text => text
  if digits = [] ∨ !digits.all Char.isDigit then none
  else (some (Nat.ofDigitChars 10 digits 0)).filter (· < 2 ^ width)

/-- The text is not blank and has no blanks around it. -/
def Trimmed (text : List Char) : Prop := trim text = text ∧ text ≠ []

/-- No piece of a text that is split at a character has that character. -/
theorem notMem_of_mem_splitOn {α : Type*} [BEq α] [LawfulBEq α] {sep : α} {text piece : List α}
    (h : piece ∈ text.splitOn sep) : sep ∉ piece := by
  induction text generalizing piece with
  | nil =>
    obtain rfl := List.mem_singleton.mp h
    exact List.not_mem_nil
  | cons c text ih =>
    rw [List.splitOn_cons_eq_if_modifyHead] at h
    split at h
    · rcases List.mem_cons.mp h with rfl | h
      · exact List.not_mem_nil
      · exact ih h
    · next hc =>
      rcases hsplit : text.splitOn sep with _ | ⟨first, rest⟩
      · rw [hsplit] at h
        cases h
      · rw [hsplit, List.modifyHead_cons] at h
        rcases List.mem_cons.mp h with rfl | h
        · have hfirst := ih (hsplit ▸ List.mem_cons_self)
          simp only [List.mem_cons, not_or]
          exact ⟨fun heq => hc (beq_iff_eq.mpr heq.symm), hfirst⟩
        · exact ih (hsplit ▸ List.mem_cons_of_mem _ h)

theorem mem_of_mem_trim {text : List Char} {c : Char} (h : c ∈ trim text) : c ∈ text :=
  (List.rdropWhile_prefix _ _).subset ((List.dropWhile_suffix _).subset h)

theorem trimEnd_concat {init : List Char} {c : Char} (hc : isWhitespace c = false) :
    trimEnd (init ++ [c]) = init ++ [c] := by
  unfold trimEnd
  rw [List.rdropWhile_concat_neg _ _ _ (by simp [hc])]

theorem trimEnd_append_of_blank {x y : List Char} (h : y.all isWhitespace = true) :
    trimEnd (x ++ y) = trimEnd x := by
  have hy : y.reverse.dropWhile isWhitespace = [] :=
    List.dropWhile_eq_nil_iff.mpr fun c hc => List.all_eq_true.mp h c (List.mem_reverse.mp hc)
  unfold trimEnd List.rdropWhile
  rw [List.reverse_append, List.dropWhile_append, hy, if_pos List.isEmpty_nil]

theorem trimEnd_append_of_not_blank {x y : List Char} (h : y.all isWhitespace = false) :
    trimEnd (x ++ y) = x ++ trimEnd y := by
  have hy : ¬ (y.reverse.dropWhile isWhitespace).isEmpty = true := by
    rw [List.isEmpty_iff, List.dropWhile_eq_nil_iff]
    intro hall
    refine Bool.eq_false_iff.mp h (List.all_eq_true.mpr fun c hc => ?_)
    exact hall c (List.mem_reverse.mpr hc)
  unfold trimEnd List.rdropWhile
  rw [List.reverse_append, List.dropWhile_append, if_neg hy, List.reverse_append, List.reverse_reverse]

theorem trim_of_trimEnd {c : Char} {rest : List Char} (hend : trimEnd (c :: rest) = c :: rest)
    (hc : isWhitespace c = false) : trim (c :: rest) = c :: rest := by
  unfold trim
  rw [hend, List.dropWhile_cons_of_neg (by simp [hc])]

theorem trim_of_forall {text : List Char} (h : ∀ c ∈ text, isWhitespace c = false) :
    trim text = text := by
  have hend : trimEnd text = text :=
    List.rdropWhile_eq_self_iff.mpr fun hne => by simp [h _ (List.getLast_mem hne)]
  unfold trim
  rw [hend, List.dropWhile_eq_self_iff]
  intro hpos
  simp [h _ (List.getElem_mem hpos)]

theorem trimEnd_trim (text : List Char) : trimEnd (trim text) = trim text := by
  refine List.rdropWhile_eq_self_iff.mpr fun hne => ?_
  have hsuffix : trim text <:+ trimEnd text := List.dropWhile_suffix _
  have hne' : trimEnd text ≠ [] := fun h => hne (List.suffix_nil.mp (h ▸ hsuffix))
  rw [hsuffix.getLast hne]
  exact List.rdropWhile_last_not _ _ hne'

/-- What trimming leaves is trimmed. -/
theorem trim_trim (text : List Char) : trim (trim text) = trim text := by
  have hidem : (trim text).dropWhile isWhitespace = trim text := List.dropWhile_idempotent _ _
  show (trimEnd (trim text)).dropWhile isWhitespace = trim text
  rw [trimEnd_trim, hidem]

/-- What trimming takes away is blank. -/
theorem exists_eq_append_trim (text : List Char) :
    ∃ init tail, text = init ++ (trim text ++ tail) ∧ (∀ c ∈ init, isWhitespace c = true) ∧
      ∀ c ∈ tail, isWhitespace c = true := by
  refine ⟨(trimEnd text).takeWhile isWhitespace, text.rtakeWhile isWhitespace, ?_,
    fun c hc => List.mem_takeWhile_imp hc, fun c hc => List.mem_rtakeWhile_imp hc⟩
  have hstart : (trimEnd text).takeWhile isWhitespace ++ trim text = trimEnd text :=
    List.takeWhile_append_dropWhile
  have hend : trimEnd text ++ text.rtakeWhile isWhitespace = text :=
    List.rdropWhile_append_rtakeWhile
  rw [← List.append_assoc, hstart, hend]

/-- Trimming takes nothing away where no blank stands at an end. -/
theorem trim_eq_self_iff {text : List Char} :
    trim text = text ↔ (∀ c ∈ text.head?, isWhitespace c = false) ∧
      ∀ c ∈ text.getLast?, isWhitespace c = false := by
  constructor
  · intro h
    refine ⟨fun c hc => ?_, fun c hc => ?_⟩
    · rw [← h] at hc
      have hnot := List.head?_dropWhile_not isWhitespace (trimEnd text)
      have htrim : ((trimEnd text).dropWhile isWhitespace).head? = some c := Option.mem_def.mp hc
      rw [htrim] at hnot
      exact hnot
    · have hend := trimEnd_trim text
      rw [h] at hend
      obtain ⟨hne, hlast⟩ := List.mem_getLast?_eq_getLast hc
      have hnot := List.rdropWhile_eq_self_iff.mp hend hne
      rw [hlast]
      simpa using hnot
  · rintro ⟨hhead, hlast⟩
    have hend : trimEnd text = text := by
      refine List.rdropWhile_eq_self_iff.mpr fun hne => ?_
      rw [hlast _ (List.getLast?_eq_some_getLast hne)]
      exact Bool.false_ne_true
    unfold trim
    rw [hend, List.dropWhile_eq_self_iff]
    intro hpos
    rw [hhead text[0] (List.head?_eq_getElem? ▸ List.getElem?_eq_getElem hpos)]
    exact Bool.false_ne_true

theorem trimmed_trim {text : List Char} (h : trim text ≠ []) : Trimmed (trim text) :=
  ⟨trim_trim text, h⟩

/-- A number that was read has the width. -/
theorem lt_of_parseUnsigned {width n : ℕ} {text : List Char}
    (h : parseUnsigned width text = some n) : n < 2 ^ width := by
  unfold parseUnsigned at h
  simp only at h
  split at h
  all_goals
    split at h
    · cases h
    · simpa using (Option.filter_eq_some_iff.mp h).2

/-- The digits of a number are read as the number. -/
theorem parseUnsigned_toDigits {width n : ℕ} (h : n < 2 ^ width) :
    parseUnsigned width (trim (Nat.toDigits 10 n)) = some n := by
  have hdigit : ∀ c ∈ Nat.toDigits 10 n, c.isDigit = true := fun c hc =>
    Nat.isDigit_of_mem_toDigits (by decide) (by decide) hc
  have htrim : trim (Nat.toDigits 10 n) = Nat.toDigits 10 n := by
    refine trim_of_forall fun c hc => ?_
    have hd : 48 ≤ c.toNat ∧ c.toNat ≤ 57 := by
      simpa [Char.isDigit, UInt32.le_iff_toNat_le] using hdigit c hc
    unfold isWhitespace
    simp only [decide_eq_false_iff_not]
    omega
  obtain ⟨c, cs, hcons⟩ := List.exists_cons_of_ne_nil (Nat.toDigits_ne_nil (n := n) (b := 10))
  have hplus : c ≠ '+' := by
    rintro rfl
    have hc := hdigit '+' (hcons ▸ List.mem_cons_self)
    cases hc
  have hdigits : (match Nat.toDigits 10 n with
      | '+' :: rest => rest
      | text => text) = Nat.toDigits 10 n := by
    rw [hcons]
    split
    · next heq => exact absurd (List.cons.inj heq).1 hplus
    · rfl
  unfold parseUnsigned
  rw [htrim, hdigits, if_neg, Nat.ofDigitChars_ten_toDigits]
  · simpa using h
  · rintro (hnil | hall)
    · exact Nat.toDigits_ne_nil hnil
    · simp only [Bool.not_eq_true', List.all_eq_false] at hall
      obtain ⟨d, hd, hnot⟩ := hall
      exact hnot (hdigit d hd)

end Text
