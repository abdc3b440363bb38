import Mathlib

/-!
# JSON literals

The compact text of a JSON string and of a natural number, and their readers. Reading a literal that
was written gives the value back and leaves what follows it.
-/

namespace Json

/-- The lower-case hexadecimal digit of a number below 16. -/
def hexDigit (n : ℕ) : Char := Nat.digitChar n

/-- The value of a hexadecimal digit. -/
def hexValue (c : Char) : Option ℕ :=
  if '0' ≤ c ∧ c ≤ '9' then some (c.toNat - 0x30)
  else if 'a' ≤ c ∧ c ≤ 'f' then some (c.toNat - 0x57)
  else if 'A' ≤ c ∧ c ≤ 'F' then some (c.toNat - 0x37)
  else none

/-- A character inside a string literal. -/
def escapeChar (c : Char) : List Char :=
  if c = '"' then ['\\', '"']
  else if c = '\\' then ['\\', '\\']
  else if c = '\x08' then ['\\', 'b']
  else if c = '\t' then ['\\', 't']
  else if c = '\n' then ['\\', 'n']
  else if c = '\x0c' then ['\\', 'f']
  else if c = '\r' then ['\\', 'r']
  else if c.toNat < 0x20 then ['\\', 'u', '0', '0', hexDigit (c.toNat / 16), hexDigit (c.toNat % 16)]
  else [c]

/-- A string literal. -/
def quote (text : List Char) : List Char := '"' :: (text.flatMap escapeChar ++ ['"'])

/-- The character of an escape sequence, after its backslash, and what follows; surrogates are not
read. -/
def readEscape : List Char → Option (Char × List Char)
  | '"' :: rest => some ('"', rest)
  | '\\' :: rest => some ('\\', rest)
  | '/' :: rest => some ('/', rest)
  | 'b' :: rest => some ('\x08', rest)
  | 't' :: rest => some ('\t', rest)
  | 'n' :: rest => some ('\n', rest)
  | 'f' :: rest => some ('\x0c', rest)
  | 'r' :: rest => some ('\r', rest)
  | 'u' :: a :: b :: c :: d :: rest => do
    let a ← hexValue a
    let b ← hexValue b
    let c ← hexValue c
    let d ← hexValue d
    let n := ((a * 16 + b) * 16 + c) * 16 + d
    if n.isValidChar then some (Char.ofNat n, rest) else none
  | _ => none

/-- The rest of a string literal, with fuel for its characters. -/
def readStringFuel : ℕ → List Char → Option (List Char × List Char)
  | 0, _ => none
  | _ + 1, [] => none
  | _ + 1, '"' :: rest => some ([], rest)
  | n + 1, '\\' :: rest => do
    let (c, rest) ← readEscape rest
    let (text, rest) ← readStringFuel n rest
    some (c :: text, rest)
  | n + 1, c :: rest => do
    let (text, rest) ← readStringFuel n rest
    some (c :: text, rest)

/-- A string literal and what follows it. -/
def readString : List Char → Option (List Char × List Char)
  | '"' :: rest => readStringFuel rest.length rest
  | _ => none

/-- A natural number and what follows its digits. -/
def readNat (text : List Char) : Option (ℕ × List Char) :=
  if (text.takeWhile Char.isDigit) = [] then none
  else some (Nat.ofDigitChars 10 (text.takeWhile Char.isDigit) 0, text.dropWhile Char.isDigit)

/-- What follows a fixed text. -/
def expect (pat text : List Char) : Option (List Char) :=
  if pat.isPrefixOf text then some (text.drop pat.length) else none

/-! ## Arrays and optional values -/

section Compound

variable {α : Type*} (item : α → List Char) (read : List Char → Option (α × List Char))

/-- The items of an array that has some, behind its opening bracket. -/
def items : α → List α → List Char
  | x, [] => item x ++ [']']
  | x, y :: xs => item x ++ ',' :: items y xs

/-- An array. -/
def array : List α → List Char
  | [] => ['[', ']']
  | x :: xs => '[' :: items item x xs

/-- The items of an array that has some, with fuel for them, and what follows the array. -/
def readItems : ℕ → List Char → Option (List α × List Char)
  | 0, _ => none
  | n + 1, text => do
    let (x, rest) ← read text
    match rest with
    | ']' :: rest => some ([x], rest)
    | ',' :: rest => do
      let (xs, rest) ← readItems n rest
      some (x :: xs, rest)
    | _ => none

/-- An array and what follows it. -/
def readArray : List Char → Option (List α × List Char)
  | '[' :: ']' :: rest => some ([], rest)
  | '[' :: rest => readItems read rest.length rest
  | _ => none

/-- A value or `null`. -/
def optional : Option α → List Char
  | none => "null".toList
  | some x => item x

/-- A value or `null`, and what follows it. -/
def readOptional (text : List Char) : Option (Option α × List Char) :=
  match expect "null".toList text with
  | some rest => some (none, rest)
  | none => (read text).map fun (x, rest) => (some x, rest)

end Compound

variable {c : Char} {text rest pat : List Char} {n : ℕ}

theorem expect_append : expect pat (pat ++ rest) = some rest := by
  unfold expect
  rw [if_pos (by simp [List.isPrefixOf_iff_prefix]), List.drop_left]

theorem readNat_toDigits (hrest : ∀ d ∈ rest.head?, d.isDigit = false) :
    readNat (Nat.toDigits 10 n ++ rest) = some (n, rest) := by
  have hdigits : ∀ d ∈ Nat.toDigits 10 n, d.isDigit = true := fun d hd =>
    Nat.isDigit_of_mem_toDigits (by decide) (by decide) hd
  have htake : (Nat.toDigits 10 n ++ rest).takeWhile Char.isDigit = Nat.toDigits 10 n := by
    rw [List.takeWhile_append_of_pos hdigits]
    rcases rest with _ | ⟨d, rest⟩
    · simp
    · rw [List.takeWhile_cons_of_neg (by simpa using hrest d rfl), List.append_nil]
  have hdrop : (Nat.toDigits 10 n ++ rest).dropWhile Char.isDigit = rest := by
    rw [List.dropWhile_append_of_pos hdigits]
    rcases rest with _ | ⟨d, rest⟩
    · rfl
    · rw [List.dropWhile_cons_of_neg (by simpa using hrest d rfl)]
  unfold readNat
  rw [htake, hdrop, if_neg Nat.toDigits_ne_nil, Nat.ofDigitChars_ten_toDigits]

/-- The escape sequence of a control character. -/
theorem readEscape_control (hc : c.toNat < 0x20) :
    readEscape ('u' :: '0' :: '0' :: hexDigit (c.toNat / 16) :: hexDigit (c.toNat % 16) :: rest) =
      some (c, rest) := by
  obtain ⟨n, hn⟩ : ∃ n, n = c.toNat := ⟨_, rfl⟩
  obtain rfl : c = Char.ofNat n := by rw [hn, Char.ofNat_toNat]
  rw [← hn] at hc ⊢
  interval_cases n <;> rfl

/-- One step of the reader undoes the escaping of one character. -/
theorem readStringFuel_escapeChar :
    readStringFuel (n + 1) (escapeChar c ++ rest) =
      (readStringFuel n rest).map fun (text, rest) => (c :: text, rest) := by
  -- a backslash reads one escape, so it is enough to look at what follows it
  have hstep : ∀ cs, readEscape cs = some (c, rest) →
      readStringFuel (n + 1) ('\\' :: cs) =
        (readStringFuel n rest).map fun (text, rest) => (c :: text, rest) := by
    intro cs hcs
    show ((readEscape cs).bind fun (c, rest) =>
      (readStringFuel n rest).bind fun (text, rest) => some (c :: text, rest)) = _
    rw [hcs]
    show ((readStringFuel n rest).bind fun (text, rest) => some (c :: text, rest)) = _
    rcases readStringFuel n rest with _ | _ <;> rfl
  unfold escapeChar
  -- the seven short escapes, a control character, and any other one as it is
  by_cases h₁ : c = '"'
  · subst h₁; exact hstep _ rfl
  by_cases h₂ : c = '\\'
  · subst h₂; exact hstep _ rfl
  by_cases h₃ : c = '\x08'
  · subst h₃; exact hstep _ rfl
  by_cases h₄ : c = '\t'
  · subst h₄; exact hstep _ rfl
  by_cases h₅ : c = '\n'
  · subst h₅; exact hstep _ rfl
  by_cases h₆ : c = '\x0c'
  · subst h₆; exact hstep _ rfl
  by_cases h₇ : c = '\r'
  · subst h₇; exact hstep _ rfl
  rw [if_neg h₁, if_neg h₂, if_neg h₃, if_neg h₄, if_neg h₅, if_neg h₆, if_neg h₇]
  by_cases h₈ : c.toNat < 0x20
  · rw [if_pos h₈]
    exact hstep _ (readEscape_control h₈)
  · rw [if_neg h₈]
    show readStringFuel (n + 1) (c :: rest) = _
    rw [readStringFuel.eq_5 n c rest h₁ h₂]
    cases readStringFuel n rest <;> rfl

theorem readStringFuel_flatMap (h : text.length < n) :
    readStringFuel n (text.flatMap escapeChar ++ '"' :: rest) = some (text, rest) := by
  induction text generalizing n with
  | nil =>
    obtain ⟨n, rfl⟩ : ∃ m, n = m + 1 := ⟨n - 1, by simp at h; omega⟩
    rfl
  | cons c text ih =>
    obtain ⟨n, rfl⟩ : ∃ m, n = m + 1 := ⟨n - 1, by omega⟩
    rw [List.flatMap_cons, List.append_assoc, readStringFuel_escapeChar,
      ih (by simpa using h)]
    rfl

theorem escapeChar_ne_nil : escapeChar c ≠ [] := by
  unfold escapeChar
  split_ifs <;> exact List.cons_ne_nil _ _

/-- Reading a string literal gives the string and what follows. -/
theorem readString_quote : readString (quote text ++ rest) = some (text, rest) := by
  have hlength : text.length ≤ (text.flatMap escapeChar).length := by
    induction text with
    | nil => exact Nat.zero_le _
    | cons c text ih =>
      have hpos : 0 < (escapeChar c).length := List.length_pos_of_ne_nil escapeChar_ne_nil
      rw [List.flatMap_cons, List.length_append, List.length_cons]
      omega
  have hquote : quote text ++ rest = '"' :: (text.flatMap escapeChar ++ '"' :: rest) := by
    simp [quote]
  rw [hquote]
  refine readStringFuel_flatMap ?_
  rw [List.length_append, List.length_cons]
  omega

section Compound

variable {α : Type*} {item : α → List Char} {read : List Char → Option (α × List Char)}

theorem readItems_items {x : α} {xs : List α} (hread : ∀ y ∈ x :: xs, ∀ rest,
    read (item y ++ rest) = some (y, rest)) (hn : xs.length < n) :
    readItems read n (items item x xs ++ rest) = some (x :: xs, rest) := by
  induction xs generalizing x n with
  | nil =>
    obtain ⟨n, rfl⟩ : ∃ m, n = m + 1 := ⟨n - 1, by simp at hn; omega⟩
    have hx : read (item x ++ ']' :: rest) = some (x, ']' :: rest) := hread x (by simp) _
    unfold items readItems
    rw [List.append_assoc, List.singleton_append, hx]
    rfl
  | cons y xs ih =>
    obtain ⟨n, rfl⟩ : ∃ m, n = m + 1 := ⟨n - 1, by simp at hn; omega⟩
    have hx : read (item x ++ ',' :: (items item y xs ++ rest)) =
        some (x, ',' :: (items item y xs ++ rest)) := hread x (by simp) _
    have hxs := ih (x := y) (n := n) (fun z hz => hread z (List.mem_cons_of_mem _ hz)) (by
      simpa using hn)
    unfold items readItems
    rw [List.append_assoc, List.cons_append, hx]
    show ((readItems read n (items item y xs ++ rest)).bind fun (xs, rest) =>
      some (x :: xs, rest)) = _
    rw [hxs]
    rfl

theorem length_lt_items {x : α} {xs : List α} : xs.length < (items item x xs).length := by
  induction xs generalizing x with
  | nil => simp [items]
  | cons y xs ih =>
    have hrest := ih (x := y)
    unfold items
    rw [List.length_append, List.length_cons, List.length_cons]
    omega

/-- Reading an array gives its items and what follows, once reading an item gives the item; the items
do not begin with a bracket. -/
theorem readArray_array {xs : List α}
    (hread : ∀ x ∈ xs, ∀ rest, read (item x ++ rest) = some (x, rest))
    (hitem : ∀ x rest, (item x ++ rest).head? ≠ some ']') :
    readArray read (array item xs ++ rest) = some (xs, rest) := by
  rcases xs with _ | ⟨x, xs⟩
  · rfl
  · have hhead : ∀ cs, items item x xs ++ rest ≠ ']' :: cs := by
      intro cs heq
      rcases xs with _ | ⟨y, xs⟩
      · unfold items at heq
        rw [List.append_assoc] at heq
        exact hitem x _ (by rw [heq]; rfl)
      · unfold items at heq
        rw [List.append_assoc] at heq
        exact hitem x _ (by rw [heq]; rfl)
    show readArray read ('[' :: (items item x xs ++ rest)) = _
    rw [readArray.eq_2 read _ hhead]
    refine readItems_items hread ?_
    rw [List.length_append]
    exact lt_of_lt_of_le length_lt_items (Nat.le_add_right _ _)

theorem readOptional_optional {x : Option α}
    (hread : ∀ y ∈ x, read (item y ++ rest) = some (y, rest))
    (hnull : ∀ y ∈ x, expect "null".toList (item y ++ rest) = none) :
    readOptional read (optional item x ++ rest) = some (x, rest) := by
  rcases x with _ | x
  · unfold readOptional optional
    rw [expect_append]
  · unfold readOptional optional
    rw [hnull x rfl]
    show (read (item x ++ rest)).map _ = _
    rw [hread x rfl]
    rfl

end Compound

/-- A literal has no line break. -/
theorem newline_notMem_quote : '\n' ∉ quote text := by
  have hcontrol : ∀ c : Char, c.toNat < 0x20 →
      '\n' ≠ hexDigit (c.toNat / 16) ∧ '\n' ≠ hexDigit (c.toNat % 16) := by
    intro c hc
    generalize c.toNat = n at hc
    interval_cases n <;> decide
  have hchar : ∀ c, '\n' ∉ escapeChar c := by
    intro c
    unfold escapeChar
    split_ifs with h₁ h₂ h₃ h₄ h₅ h₆ h₇ h₈ <;> try decide
    · simpa using hcontrol c h₈
    · simpa using Ne.symm h₅
  simp [quote, hchar]

end Json
