import Mathlib
import Termua.Lib.Json

/-!
# JSON documents

The values of JSON documents with their members in order, their text with two blanks of indentation
for each level, and its reader. A value that was written is read back (`parse_pretty`).
-/

namespace Json

/-- The characters of number literals. -/
def isNumeral (c : Char) : Bool := c.isDigit || c = '-' || c = '+' || c = '.' || c = 'e' || c = 'E'

/-- The literal of a number. -/
structure Numeral where
  literal : List Char
  ne_nil : literal ≠ []
  numeral : ∀ c ∈ literal, isNumeral c = true
  deriving DecidableEq

/-- A JSON value. -/
inductive Value
  | null
  | bool (b : Bool)
  | number (n : Numeral)
  | string (s : List Char)
  | array (items : List Value)
  | object (members : List (List Char × Value))

/-! ## Writing -/

/-- A new line with its indentation. -/
def newline (indent : ℕ) : List Char := '\n' :: List.replicate (2 * indent) ' '

section Sequence

variable {α : Type} (item : α → List Char) (indent : ℕ)

/-- The items of an array or an object, behind its opening bracket or behind an item, up to its
closing bracket. -/
def writeSeq : Bool → List α → List Char
  | first, [] => if first then [] else newline indent
  | first, x :: xs =>
    (if first then [] else [',']) ++ (newline (indent + 1) ++ (item x ++ writeSeq false xs))

end Sequence

/-- A member of an object. -/
def writeMember (name text : List Char) : List Char := quote name ++ ':' :: ' ' :: text

mutual

/-- The text of a value. -/
def write (indent : ℕ) : Value → List Char
  | .null => "null".toList
  | .bool true => "true".toList
  | .bool false => "false".toList
  | .number n => n.literal
  | .string s => quote s
  | .array items => '[' :: (writeItems indent true items ++ [']'])
  | .object members => '\x7b' :: (writeMembers indent true members ++ ['\x7d'])

/-- The items of an array. -/
def writeItems (indent : ℕ) : Bool → List Value → List Char
  | first, [] => if first then [] else newline indent
  | first, v :: vs =>
    (if first then [] else [',']) ++
      (newline (indent + 1) ++ (write (indent + 1) v ++ writeItems indent false vs))

/-- The members of an object. -/
def writeMembers (indent : ℕ) : Bool → List (List Char × Value) → List Char
  | first, [] => if first then [] else newline indent
  | first, (name, v) :: ms =>
    (if first then [] else [',']) ++
      (newline (indent + 1) ++
        (writeMember name (write (indent + 1) v) ++ writeMembers indent false ms))

end

/-- The text of a document. -/
def pretty (v : Value) : List Char := write 0 v

theorem writeItems_eq (indent : ℕ) (first : Bool) (vs : List Value) :
    writeItems indent first vs = writeSeq (write (indent + 1)) indent first vs := by
  induction vs generalizing first with
  | nil => rw [writeItems, writeSeq]
  | cons v vs ih => rw [writeItems, writeSeq, ih]

theorem writeMembers_eq (indent : ℕ) (first : Bool) (ms : List (List Char × Value)) :
    writeMembers indent first ms =
      writeSeq (fun (name, v) => writeMember name (write (indent + 1) v)) indent first ms := by
  induction ms generalizing first with
  | nil => rw [writeMembers, writeSeq]
  | cons m ms ih => rw [writeMembers, writeSeq, ih]

/-! ## Reading -/

/-- JSON's blanks. -/
def isBlank (c : Char) : Bool := c = ' ' || c = '\n' || c = '\r' || c = '\t'

/-- The text without the blanks before it. -/
def skip (text : List Char) : List Char := text.dropWhile isBlank

/-- The items of an array or an object up to its closing bracket, with fuel for them. -/
def readSeq {α : Type} (read : List Char → Option (α × List Char)) (close : Char) :
    ℕ → Bool → List Char → Option (List α × List Char)
  | 0, _, _ => none
  | n + 1, first, text =>
    match skip text with
    | [] => none
    | c :: rest =>
      if c = close then some ([], rest)
      else do
        let (x, rest) ← if first then read (c :: rest) else if c = ',' then read rest else none
        let (xs, rest) ← readSeq read close n false rest
        some (x :: xs, rest)

/-- A member of an object, with the reader of its value. -/
def readMember (read : List Char → Option (Value × List Char)) (text : List Char) :
    Option ((List Char × Value) × List Char) := do
  let (name, rest) ← readString (skip text)
  let rest ← expect [':'] (skip rest)
  let (v, rest) ← read rest
  some ((name, v), rest)

/-- A number literal. -/
def readNumber (text : List Char) : Option (Value × List Char) :=
  if h : text.takeWhile isNumeral ≠ [] then
    some (.number ⟨text.takeWhile isNumeral, h, fun _ hc => List.mem_takeWhile_imp hc⟩,
      text.dropWhile isNumeral)
  else none

/-- `null`, `true` or `false`. -/
def readWord (text : List Char) : Option (Value × List Char) :=
  ((expect "null".toList text).map fun rest => (.null, rest)).or
    (((expect "true".toList text).map fun rest => (.bool true, rest)).or
      ((expect "false".toList text).map fun rest => (.bool false, rest)))

/-- A value and what follows it, with fuel for its depth. -/
def readValue : ℕ → List Char → Option (Value × List Char)
  | 0, _ => none
  | n + 1, text =>
    match skip text with
    | [] => none
    | c :: rest =>
      if c = '"' then (readString (c :: rest)).map fun (s, rest) => (.string s, rest)
      else if c = '[' then
        (readSeq (readValue n) ']' n true rest).map fun (vs, rest) => (.array vs, rest)
      else if c = '\x7b' then
        (readSeq (readMember (readValue n)) '\x7d' n true rest).map fun (ms, rest) =>
          (.object ms, rest)
      else if isNumeral c then readNumber (c :: rest)
      else readWord (c :: rest)

/-- A document. -/
def parse (text : List Char) : Option Value :=
  (readValue text.length text).bind fun (v, rest) => if skip rest = [] then some v else none

/-! ## Reading what was written -/

section RoundTrip

variable {c close : Char} {ws text rest : List Char} {n indent : ℕ}

theorem isBlank_newline : ∀ c ∈ newline indent, isBlank c = true := by
  intro c hc
  rcases List.mem_cons.mp hc with rfl | hmem
  · rfl
  · rw [List.eq_of_mem_replicate hmem]
    rfl

theorem skip_append (hws : ∀ c ∈ ws, isBlank c = true) : skip (ws ++ text) = skip text :=
  List.dropWhile_append_of_pos hws

theorem skip_cons (h : isBlank c = false) : skip (c :: text) = c :: text :=
  List.dropWhile_cons_of_neg (by rw [h]; exact Bool.false_ne_true)

/-- What follows is no part of a number. -/
def EndsNumber (rest : List Char) : Prop := ∀ c ∈ rest.head?, isNumeral c = false

/-- The reader gives back what was written, behind blanks and before what ends a number. -/
def Reads {α : Type} (read : List Char → Option (α × List Char)) (item : List Char) (x : α) : Prop :=
  ∀ ws rest, (∀ c ∈ ws, isBlank c = true) → EndsNumber rest →
    read (ws ++ (item ++ rest)) = some (x, rest)

/-- The text begins with a character that is not blank and does not close. -/
def Starts (close : Char) (item : List Char) : Prop :=
  ∃ c cs, item = c :: cs ∧ isBlank c = false ∧ c ≠ close

section Sequence

variable {α : Type} {item : α → List Char} {read : List Char → Option (α × List Char)} {xs : List α}

theorem endsNumber_writeSeq (xs : List α) :
    EndsNumber (writeSeq item indent false xs ++ close :: rest) := by
  rcases xs with _ | ⟨x, xs⟩
  · rintro c ⟨⟩
    rfl
  · rintro c ⟨⟩
    rfl

/-- The items of an array or an object. -/
theorem readSeq_writeSeq (hblank : isBlank close = false) (hcomma : close ≠ ',')
    (hread : ∀ x ∈ xs, Reads read (item x) x)
    (hstart : ∀ x ∈ xs, Starts close (item x)) (hn : xs.length < n) (first : Bool) :
    readSeq read close n first (writeSeq item indent first xs ++ close :: rest) =
      some (xs, rest) := by
  induction xs generalizing n first with
  | nil =>
    obtain ⟨n, rfl⟩ : ∃ m, n = m + 1 := ⟨n - 1, by simp at hn; omega⟩
    have hskip : skip (writeSeq item indent first [] ++ close :: rest) = close :: rest := by
      unfold writeSeq
      rcases first with _ | _
      · exact (skip_append isBlank_newline).trans (skip_cons hblank)
      · exact skip_cons hblank
    unfold readSeq
    rw [hskip]
    simp only [if_true]
  | cons x xs ih =>
    obtain ⟨n, rfl⟩ : ∃ m, n = m + 1 := ⟨n - 1, by simp at hn; omega⟩
    obtain ⟨hx, hxs⟩ := List.forall_mem_cons.mp hread
    obtain ⟨⟨c, cs, hitem, hc, hne⟩, hstarts⟩ := List.forall_mem_cons.mp hstart
    have hrest := ih hxs hstarts (by simpa using hn) false
    have hends : EndsNumber (writeSeq item indent false xs ++ close :: rest) :=
      endsNumber_writeSeq xs
    unfold readSeq writeSeq
    rcases first with _ | _
    · -- behind a comma
      have htext : (if false then [] else [',']) ++ (newline (indent + 1) ++
          (item x ++ writeSeq item indent false xs)) ++ close :: rest =
          ',' :: (newline (indent + 1) ++ (item x ++
            (writeSeq item indent false xs ++ close :: rest))) := by simp
      rw [htext, skip_cons rfl]
      simp only [if_neg (Ne.symm hcomma), Bool.false_eq_true, if_false, if_true]
      rw [hx _ _ isBlank_newline hends]
      simp only [Option.bind_eq_bind, Option.bind_some, hrest]
    · have htext : (if true then [] else [',']) ++ (newline (indent + 1) ++
          (item x ++ writeSeq item indent false xs)) ++ close :: rest =
          newline (indent + 1) ++ (c :: (cs ++
            (writeSeq item indent false xs ++ close :: rest))) := by simp [hitem]
      have hfirst := hx [] _ nofun hends
      rw [hitem] at hfirst
      rw [htext, skip_append isBlank_newline, skip_cons hc]
      simp only [if_neg hne, if_true]
      rw [show c :: (cs ++ (writeSeq item indent false xs ++ close :: rest)) =
        [] ++ (c :: cs ++ (writeSeq item indent false xs ++ close :: rest)) from rfl, hfirst]
      simp only [Option.bind_eq_bind, Option.bind_some, hrest]

theorem length_item_le {x : α} (h : x ∈ xs) (first : Bool) :
    (item x).length ≤ (writeSeq item indent first xs).length := by
  induction xs generalizing first with
  | nil => cases h
  | cons y xs ih =>
    unfold writeSeq
    simp only [List.length_append]
    rcases List.mem_cons.mp h with rfl | hmem
    · omega
    · have hrest := ih hmem false
      omega

theorem length_le_writeSeq (first : Bool) : xs.length ≤ (writeSeq item indent first xs).length := by
  induction xs generalizing first with
  | nil => exact Nat.zero_le _
  | cons x xs ih =>
    have hrest := ih false
    have hline : 0 < (newline (indent + 1)).length := Nat.succ_pos _
    unfold writeSeq
    simp only [List.length_append, List.length_cons]
    omega

end Sequence

theorem of_isNumeral (h : isNumeral c = true) :
    isBlank c = false ∧ c ≠ '"' ∧ c ≠ '[' ∧ c ≠ '\x7b' := by
  refine ⟨?_, ?_, ?_, ?_⟩
  · rcases hblank : isBlank c with _ | _
    · rfl
    · simp only [isBlank, Bool.or_eq_true, decide_eq_true_eq] at hblank
      rcases hblank with ((rfl | rfl) | rfl) | rfl <;> cases h
  · rintro rfl
    cases h
  · rintro rfl
    cases h
  · rintro rfl
    cases h

/-- A value begins with a character that is not blank and closes no array. -/
theorem starts_write (indent : ℕ) (v : Value) : Starts ']' (write indent v) := by
  cases v with
  | null => exact ⟨_, _, rfl, by decide, by decide⟩
  | bool b => rcases b with _ | _ <;> exact ⟨_, _, rfl, by decide, by decide⟩
  | number n =>
    obtain ⟨literal, hne, hnumeral⟩ := n
    rcases literal with _ | ⟨c, cs⟩
    · exact absurd rfl hne
    · have hc := hnumeral c List.mem_cons_self
      refine ⟨c, cs, rfl, (of_isNumeral hc).1, ?_⟩
      rintro rfl
      cases hc
  | string s => exact ⟨_, _, rfl, by decide, by decide⟩
  | array items => exact ⟨_, _, by rw [write], by decide, by decide⟩
  | object members => exact ⟨_, _, by rw [write], by decide, by decide⟩

theorem reads_member {v : Value} {name : List Char}
    {read : List Char → Option (Value × List Char)} (h : Reads read text v) :
    Reads (readMember read) (writeMember name text) (name, v) := by
  intro ws rest hws hends
  have htext : writeMember name text ++ rest = quote name ++ ':' :: ' ' :: (text ++ rest) := by
    simp [writeMember]
  have hquote : skip (ws ++ (quote name ++ ':' :: ' ' :: (text ++ rest))) =
      quote name ++ ':' :: ' ' :: (text ++ rest) := (skip_append hws).trans (skip_cons rfl)
  have hvalue : read (' ' :: (text ++ rest)) = some (v, rest) :=
    h [' '] rest (by simp [isBlank]) hends
  unfold readMember
  rw [htext, hquote, readString_quote]
  simp only [Option.bind_eq_bind, Option.bind_some]
  rw [skip_cons rfl, show ':' :: ' ' :: (text ++ rest) = [':'] ++ (' ' :: (text ++ rest)) from rfl,
    expect_append]
  simp only [Option.bind_some, hvalue]

theorem readNumber_append (m : Numeral) (h : EndsNumber rest) :
    readNumber (m.literal ++ rest) = some (.number m, rest) := by
  have htake : (m.literal ++ rest).takeWhile isNumeral = m.literal := by
    rw [List.takeWhile_append_of_pos m.numeral]
    rcases rest with _ | ⟨d, rest⟩
    · simp
    · rw [List.takeWhile_cons_of_neg (by simpa using h d rfl), List.append_nil]
  have hdrop : (m.literal ++ rest).dropWhile isNumeral = rest := by
    rw [List.dropWhile_append_of_pos m.numeral]
    rcases rest with _ | ⟨d, rest⟩
    · rfl
    · rw [List.dropWhile_cons_of_neg (by simpa using h d rfl)]
  unfold readNumber
  rw [dif_pos (by rw [htake]; exact m.ne_nil)]
  simp only [htake, hdrop]

/-- A value is read back, with fuel for its text. -/
theorem reads_write (n : ℕ) (v : Value) (indent : ℕ) (h : (write indent v).length ≤ n) :
    Reads (readValue n) (write indent v) v := by
  induction n generalizing v indent with
  | zero =>
    obtain ⟨c, cs, hwrite, -⟩ := starts_write indent v
    rw [hwrite] at h
    cases h
  | succ n ih =>
    intro ws rest hws hends
    unfold readValue
    rw [skip_append hws]
    cases v with
    | null => rfl
    | bool b => rcases b with _ | _ <;> rfl
    -- a number starts with none of the characters that the other values start with
    | number m =>
      have hread := readNumber_append m hends
      obtain ⟨literal, hne, hnumeral⟩ := m
      rcases literal with _ | ⟨c, cs⟩
      · exact absurd rfl hne
      · obtain ⟨hblank, hquote, harray, hobject⟩ := of_isNumeral (hnumeral c List.mem_cons_self)
        rw [write, List.cons_append, skip_cons hblank]
        simp only [if_neg hquote, if_neg harray, if_neg hobject, hnumeral c List.mem_cons_self,
          if_true]
        exact hread
    | string s =>
      have hread : readString ('"' :: (s.flatMap escapeChar ++ ['"'] ++ rest)) = some (s, rest) :=
        readString_quote
      rw [write, quote, List.cons_append, skip_cons rfl]
      simp only [if_true, hread, Option.map_some]
    -- the items are read with the fuel that their own text leaves
    | array items =>
      have htext : write indent (.array items) ++ rest =
          '[' :: (writeSeq (write (indent + 1)) indent true items ++ ']' :: rest) := by
        rw [write, writeItems_eq]
        simp
      have hlength : (writeSeq (write (indent + 1)) indent true items).length + 2 ≤ n + 1 := by
        rw [write, writeItems_eq] at h
        simpa using h
      have hitems : items.length ≤ (writeSeq (write (indent + 1)) indent true items).length :=
        length_le_writeSeq true
      have hseq : readSeq (readValue n) ']' n true
          (writeSeq (write (indent + 1)) indent true items ++ ']' :: rest) = some (items, rest) := by
        refine readSeq_writeSeq rfl (by decide) (fun x hx => ?_) (fun x _ => starts_write _ x)
          (by omega) true
        have hitem : (write (indent + 1) x).length ≤
            (writeSeq (write (indent + 1)) indent true items).length := length_item_le hx true
        exact ih x (indent + 1) (by omega)
      rw [htext, skip_cons rfl]
      simp only [hseq, Option.map_some]
      rfl
    | object members =>
      let item : List Char × Value → List Char := fun (name, v) =>
        writeMember name (write (indent + 1) v)
      have htext : write indent (.object members) ++ rest =
          '\x7b' :: (writeSeq item indent true members ++ '\x7d' :: rest) := by
        rw [write, writeMembers_eq]
        simp [item]
      have hlength : (writeSeq item indent true members).length + 2 ≤ n + 1 := by
        rw [write, writeMembers_eq] at h
        simpa using h
      have hmembers : members.length ≤ (writeSeq item indent true members).length :=
        length_le_writeSeq true
      have hseq : readSeq (readMember (readValue n)) '\x7d' n true
          (writeSeq item indent true members ++ '\x7d' :: rest) = some (members, rest) := by
        refine readSeq_writeSeq rfl (by decide) (fun m hm => ?_)
          (fun _ _ => ⟨_, _, rfl, rfl, by decide⟩) (by omega) true
        obtain ⟨name, v⟩ := m
        have hitem : (item (name, v)).length ≤ (writeSeq item indent true members).length :=
          length_item_le hm true
        have hvalue : (write (indent + 1) v).length ≤ (item (name, v)).length := by
          simp [item, writeMember]
          omega
        exact reads_member (ih v (indent + 1) (by omega))
      rw [htext, skip_cons rfl]
      simp only [hseq, Option.map_some]
      rfl

/-- A document that was written is read back. -/
theorem parse_pretty (v : Value) : parse (pretty v) = some v := by
  have hread := reads_write _ v 0 le_rfl [] [] nofun nofun
  rw [List.nil_append, List.append_nil] at hread
  unfold parse pretty
  rw [hread]
  rfl

end RoundTrip

end Json
