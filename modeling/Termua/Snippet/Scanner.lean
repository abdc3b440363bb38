import Mathlib
import Termua.Lib.Utf8
import Termua.Snippet.Parse

/-!
# The scanner of snippet templates

The loop of `parse_snippet_suffix` of `gpui_term/src/snippet.rs` reads the bytes of a template, takes
slices of it between byte positions, and counts characters as it goes. On the encoding of a text it
reads what `parseSnippetSuffix` reads of the text (`parseSnippetSuffixBytes_encode`): every slice
starts and ends between characters, and the counts are those of the rendered text.
-/

namespace Termua.Snippet

open Utf8

/-- What the loop of `parse_snippet_suffix` has so far. -/
structure Scanned where
  rendered : List Char := []
  renderedLenChars : ℕ := 0
  stops : List ParsedStop := []
  appearance : ℕ := 0

/-- `&input[start..stop]`; it panics where it does not start and end between characters. -/
def slice (bytes : List UInt8) (start stop : ℕ) : Option (List Char) :=
  decode ((bytes.take stop).drop start)

/-- `u8::is_ascii_digit`. -/
def isAsciiDigit (b : UInt8) : Bool := 0x30 ≤ b && b ≤ 0x39

/-- The byte is not a closing brace. -/
def notClosing (b : UInt8) : Bool := b ≠ 0x7D

/-- The default of a placeholder behind its number, from where to where, and the place behind the
placeholder. -/
def defaultAt (bytes : List UInt8) (j : ℕ) : Option (ℕ × ℕ × ℕ) :=
  if bytes[j]? = some 0x7D then some (j, j, j + 1)
  else if bytes[j]? = some 0x3A then
    let start := j + 1
    let stop := skipWhile notClosing bytes start
    if bytes.length ≤ stop then none else some (start, stop, stop + 1)
  else none

/-- A character of the text. -/
def Scanned.push (p : Scanned) (ch : Char) : Scanned :=
  { p with rendered := p.rendered ++ [ch], renderedLenChars := p.renderedLenChars + 1 }

/-- A placeholder; the default of the final cursor position is not looked at. -/
def Scanned.place (p : Scanned) (bytes : List UInt8) (index defaultStart defaultEnd : ℕ) :
    Option Scanned :=
  (if index = 0 then some [] else slice bytes defaultStart defaultEnd).map fun text =>
    let endChars := p.renderedLenChars + text.length
    ⟨p.rendered ++ text, endChars,
      p.stops ++ [⟨⟨index, p.renderedLenChars, endChars⟩, p.appearance⟩], p.appearance + 1⟩

/-- A turn of the loop at a byte, with the byte of the next turn; nothing where it panics. -/
def turn (bytes : List UInt8) (p : Scanned) (i : ℕ) : Option (Scanned × ℕ) :=
  if bytes[i]? = some 0x24 ∧ bytes[i + 1]? = some 0x7B then
    let digitsStart := i + 2
    let j := skipWhile isAsciiDigit bytes digitsStart
    if j = digitsStart then some (p.push '$', i + 1)
    else do
      let digits ← slice bytes digitsStart j
      match parseU32 digits, defaultAt bytes j with
      | some index, some (defaultStart, defaultEnd, nextI) =>
        let p ← p.place bytes index defaultStart defaultEnd
        return (p, nextI)
      | _, _ => return (p.push '$', i + 1)
  else do
    let ch ← decodeChar (bytes.drop i)
    return (p.push ch, i + ch.utf8Size)

theorem lt_of_defaultAt {bytes : List UInt8} {j a b nextI : ℕ}
    (h : defaultAt bytes j = some (a, b, nextI)) : j < nextI := by
  unfold defaultAt at h
  split at h
  · cases h
    exact Nat.lt_succ_self j
  · split at h
    · simp only at h
      split at h
      · cases h
      · cases h
        exact Nat.lt_succ_of_le ((Nat.le_succ j).trans (le_skipWhile _ _ _))
    · cases h

/-- Every turn goes on. -/
theorem lt_of_turn {bytes : List UInt8} {p p' : Scanned} {i i' : ℕ}
    (h : turn bytes p i = some (p', i')) : i < i' := by
  unfold turn at h
  split at h
  · simp only at h
    split at h
    · cases h
      exact Nat.lt_succ_self i
    · obtain ⟨digits, -, h⟩ := Option.bind_eq_some_iff.mp h
      split at h
      · next hdefault =>
        obtain ⟨q, -, h⟩ := Option.bind_eq_some_iff.mp h
        cases h
        have := lt_of_defaultAt hdefault
        have := le_skipWhile isAsciiDigit bytes (i + 2)
        omega
      · cases h
        exact Nat.lt_succ_self i
  · obtain ⟨ch, -, h⟩ := Option.bind_eq_some_iff.mp h
    cases h
    exact Nat.lt_add_of_pos_right ch.utf8Size_pos

/-- The loop from a byte on. -/
def scanBytes (bytes : List UInt8) (p : Scanned) (i : ℕ) : Option Scanned :=
  if i < bytes.length then
    match _h : turn bytes p i with
    | none => none
    | some (p', i') => scanBytes bytes p' i'
  else some p
termination_by bytes.length - i
decreasing_by
  have := lt_of_turn _h
  omega

/-- `parse_snippet_suffix` on the bytes of its input; nothing where it panics. -/
def parseSnippetSuffixBytes (input : List UInt8) : Option (Option SnippetSuffix) := do
  let p ← scanBytes input {} 0
  return if p.stops.isEmpty then none
    else
      some
        { rendered := p.rendered
          tabstops :=
            (p.stops.insertionSort fun a b => compareStops a b ≠ .gt).map ParsedStop.stop }

/-! ## Positions in an encoding -/

variable {pre mid rest : List Char}

theorem drop_encode (pre rest : List Char) :
    (encode (pre ++ rest)).drop (encode pre).length = encode rest := by
  rw [encode_append, List.drop_left]

theorem getElem?_encode_append (pre rest : List Char) (k : ℕ) :
    (encode (pre ++ rest))[(encode pre).length + k]? = (encode rest)[k]? := by
  rw [← List.getElem?_drop, drop_encode]

/-- The byte at the front of what follows is ASCII exactly where its character is. -/
theorem getElem?_encode_iff {d : Char} (hd : d.toNat < 128) :
    (encode (pre ++ rest))[(encode pre).length]? = some (UInt8.ofNat d.toNat) ↔
      ∃ rest', rest = d :: rest' := by
  rw [← Nat.add_zero (encode pre).length, getElem?_encode_append pre rest 0, getElem?_encode_zero hd]
  rcases rest with _ | ⟨c, rest⟩
  · simp
  · simp

/-- A slice between characters. -/
theorem slice_encode (pre mid rest : List Char) :
    slice (encode (pre ++ (mid ++ rest))) (encode pre).length (encode (pre ++ mid)).length =
      some mid := by
  have htake : (encode (pre ++ (mid ++ rest))).take (encode (pre ++ mid)).length =
      encode (pre ++ mid) := by
    rw [← List.append_assoc, @encode_append (pre ++ mid) rest, List.take_left]
  unfold slice
  rw [htake, drop_encode, decode_encode]

theorem skipWhile_encode {p : UInt8 → Bool} {q : Char → Bool}
    (hp : ∀ c, ∀ b ∈ String.utf8EncodeChar c, p b = q c) (pre rest : List Char) :
    skipWhile p (encode (pre ++ rest)) (encode pre).length =
      (encode (pre ++ rest.takeWhile q)).length := by
  unfold skipWhile
  rw [drop_encode, takeWhile_encode hp, encode_append, List.length_append]

/-- The input ends behind a part of it exactly where nothing follows. -/
theorem length_encode_le_iff (pre rest : List Char) :
    (encode (pre ++ rest)).length ≤ (encode pre).length ↔ rest = [] := by
  rw [encode_append, List.length_append]
  constructor
  · intro hle
    exact encode_eq_nil (List.length_eq_zero_iff.mp (by omega))
  · rintro rfl
    exact le_rfl

/-- A byte of a character is its number, or neither is ASCII. -/
theorem toNat_of_mem {c : Char} {b : UInt8} (hb : b ∈ String.utf8EncodeChar c) :
    b.toNat = c.toNat ∨ (128 ≤ b.toNat ∧ 128 ≤ c.toNat) := by
  rcases Nat.lt_or_ge c.toNat 128 with hlt | hge
  · rw [utf8EncodeChar_of_ascii hlt, List.mem_singleton] at hb
    rw [hb, UInt8.toNat_ofNat']
    exact .inl (Nat.mod_eq_of_lt (by omega))
  · exact .inr ⟨le_of_mem_utf8EncodeChar hge hb, hge⟩

theorem isAsciiDigit_of_mem (c : Char) (b : UInt8) (hb : b ∈ String.utf8EncodeChar c) :
    isAsciiDigit b = c.isDigit := by
  have hnat := toNat_of_mem hb
  have hc : c.val.toNat = c.toNat := rfl
  rw [Bool.eq_iff_iff]
  simp only [isAsciiDigit, Char.isDigit, ge_iff_le, UInt8.le_iff_toNat_le, UInt32.le_iff_toNat_le,
    hc, UInt8.reduceToNat, UInt32.reduceToNat, Char.reduceVal, Bool.and_eq_true, decide_eq_true_eq]
  omega

theorem notClosing_of_mem (c : Char) (b : UInt8) (hb : b ∈ String.utf8EncodeChar c) :
    notClosing b = decide (c ≠ '\x7d') := by
  have hnat := toNat_of_mem hb
  have hclosing : ('\x7d').toNat = 125 := rfl
  simp only [notClosing, ne_eq, ← UInt8.toNat_inj, ← Char.toNat_inj, hclosing, UInt8.reduceToNat,
    decide_eq_decide]
  omega

/-- After one more ASCII character the position is one byte further. -/
theorem length_encode_concat {c : Char} (hc : c.toNat < 128) (pre : List Char) :
    (encode (pre ++ [c])).length = (encode pre).length + 1 := by
  rw [encode_append, List.length_append, encode_cons, utf8EncodeChar_of_ascii hc]
  rfl

/-- The default of a placeholder behind its number, with the length up to the end of the placeholder,
as `parsePlaceholder` reads it. -/
def placeholderEnd : List Char → Option (List Char × ℕ)
  | '\x7d' :: _ => some ([], 1)
  | ':' :: rest =>
    let default := rest.takeWhile (· ≠ '\x7d')
    if default.length = rest.length then none else some (default, default.length + 2)
  | _ => none

theorem parsePlaceholder_eq (input : List Char) :
    parsePlaceholder input =
      if input.takeWhile Char.isDigit = [] then none
      else (parseU32 (input.takeWhile Char.isDigit)).bind fun index =>
        (placeholderEnd (input.dropWhile Char.isDigit)).map fun e =>
          (index, e.1, (input.takeWhile Char.isDigit).length + e.2) := by
  have hdrop : input.drop (input.takeWhile Char.isDigit).length = input.dropWhile Char.isDigit := by
    have happ := List.takeWhile_append_dropWhile (p := Char.isDigit) (l := input)
    exact (congrArg (List.drop _) happ.symm).trans List.drop_left
  unfold parsePlaceholder
  simp only [hdrop]
  generalize input.dropWhile Char.isDigit = after
  split
  · rfl
  · rcases parseU32 _ with _ | index
    · rfl
    · rw [Option.bind_some]
      rcases after with _ | ⟨c, after⟩
      · rfl
      by_cases hclosing : c = '\x7d'
      · subst hclosing
        rfl
      by_cases hcolon : c = ':'
      · subst hcolon
        unfold placeholderEnd
        simp only
        split <;> rfl
      · unfold placeholderEnd
        simp [hclosing, hcolon]

/-- Bytes and characters agree on the default and the end of a placeholder. -/
theorem defaultAt_encode (pre after : List Char) :
    (placeholderEnd after = none ∧ defaultAt (encode (pre ++ after)) (encode pre).length = none) ∨
      ∃ sep default rest, after = sep ++ (default ++ '\x7d' :: rest) ∧
        placeholderEnd after = some (default, sep.length + default.length + 1) ∧
        defaultAt (encode (pre ++ after)) (encode pre).length =
          some ((encode (pre ++ sep)).length, (encode (pre ++ sep ++ default)).length,
            (encode (pre ++ sep ++ default ++ ['\x7d'])).length) := by
  have hclosing : (encode (pre ++ after))[(encode pre).length]? = some 0x7D ↔
      ∃ rest, after = '\x7d' :: rest := getElem?_encode_iff (d := '\x7d') (by decide)
  have hcolon : (encode (pre ++ after))[(encode pre).length]? = some 0x3A ↔
      ∃ rest, after = ':' :: rest := getElem?_encode_iff (d := ':') (by decide)
  -- a closing brace at once: there is no default
  by_cases hbyte : (encode (pre ++ after))[(encode pre).length]? = some 0x7D
  · obtain ⟨rest, rfl⟩ := hclosing.mp hbyte
    refine .inr ⟨[], [], rest, rfl, rfl, ?_⟩
    unfold defaultAt
    rw [if_pos hbyte, List.append_nil, List.append_nil, length_encode_concat (by decide)]
  -- a colon: the default goes up to the next closing brace, where there is one
  by_cases hbyte' : (encode (pre ++ after))[(encode pre).length]? = some 0x3A
  · obtain ⟨rest, rfl⟩ := hcolon.mp hbyte'
    have hstart := length_encode_concat (c := ':') (by decide) pre
    have hsplit : pre ++ ':' :: rest = pre ++ [':'] ++ rest := by simp
    have happ := List.takeWhile_append_dropWhile (p := fun c => decide (c ≠ '\x7d')) (l := rest)
    have hlen := congrArg List.length happ
    rw [List.length_append] at hlen
    have hend : (encode (pre ++ ':' :: rest)).length ≤
          (encode (pre ++ [':'] ++ rest.takeWhile (· ≠ '\x7d'))).length ↔
        (rest.takeWhile (· ≠ '\x7d')).length = rest.length := by
      have hiff := length_encode_le_iff (pre ++ [':'] ++ rest.takeWhile (· ≠ '\x7d'))
        (rest.dropWhile (· ≠ '\x7d'))
      rw [List.append_assoc _ (rest.takeWhile _), happ, ← hsplit] at hiff
      rw [hiff, ← List.length_eq_zero_iff]
      omega
    have hat : defaultAt (encode (pre ++ ':' :: rest)) (encode pre).length =
        if (rest.takeWhile (· ≠ '\x7d')).length = rest.length then none
        else some ((encode (pre ++ [':'])).length,
          (encode (pre ++ [':'] ++ rest.takeWhile (· ≠ '\x7d'))).length,
          (encode (pre ++ [':'] ++ rest.takeWhile (· ≠ '\x7d'))).length + 1) := by
      unfold defaultAt
      rw [if_neg hbyte, if_pos hbyte', ← hstart]
      simp only
      rw [hsplit, skipWhile_encode notClosing_of_mem, ← hsplit]
      simp only [hend]
    rcases hrest : rest.dropWhile (· ≠ '\x7d') with _ | ⟨c, rest'⟩
    · rw [hrest, List.length_nil, Nat.add_zero] at hlen
      exact .inl ⟨if_pos hlen, hat.trans (if_pos hlen)⟩
    · -- the text after the default starts with the closing brace
      obtain rfl : c = '\x7d' := by
        have hne : rest.dropWhile (fun c => decide (c ≠ '\x7d')) ≠ [] := by
          rw [hrest]
          exact List.cons_ne_nil _ _
        have hc := List.head_dropWhile_not (fun c => decide (c ≠ '\x7d')) hne
        simpa only [hrest, List.head_cons, decide_eq_false_iff_not, not_not] using hc
      have hne : (rest.takeWhile (· ≠ '\x7d')).length ≠ rest.length := by
        rw [hrest, List.length_cons] at hlen
        omega
      refine .inr ⟨[':'], rest.takeWhile (· ≠ '\x7d'), rest', ?_, ?_, ?_⟩
      · rw [← hrest, happ]
        rfl
      · refine (if_neg hne).trans ?_
        simp
        omega
      · rw [hat, if_neg hne, length_encode_concat (c := '\x7d') (by decide)]
  · refine .inl ⟨?_, ?_⟩
    · unfold placeholderEnd
      split
      · exact absurd (hclosing.mpr ⟨_, rfl⟩) hbyte
      · exact absurd (hcolon.mpr ⟨_, rfl⟩) hbyte'
      · rfl
    · unfold defaultAt
      rw [if_neg hbyte, if_neg hbyte']

/-! ## The turns -/

/-- What the scanner has when this much was parsed. -/
def Parsed.scanned (q : Parsed) : Scanned :=
  ⟨q.rendered, q.rendered.length, q.stops, q.stops.length⟩

theorem scanned_push (q : Parsed) (c : Char) : q.scanned.push c = (q.push c).scanned := by
  have hlen : (q.rendered ++ [c]).length = q.rendered.length + 1 := by simp
  show (⟨q.rendered ++ [c], q.rendered.length + 1, q.stops, q.stops.length⟩ : Scanned) =
    ⟨q.rendered ++ [c], (q.rendered ++ [c]).length, q.stops, q.stops.length⟩
  rw [hlen]

theorem scanned_place (q : Parsed) {bytes : List UInt8} {start stop index : ℕ} {default : List Char}
    (h : slice bytes start stop = some default) :
    q.scanned.place bytes index start stop = some (q.place index default).scanned := by
  have htext : (if index = 0 then some [] else slice bytes start stop) =
      some (if index = 0 then [] else default) := by
    rw [h]
    split <;> rfl
  unfold Scanned.place
  rw [htext]
  simp [Parsed.place, Parsed.scanned]

/-- A turn at the front of what may be a placeholder. -/
theorem turn_open (q : Parsed) (pre tail : List Char) :
    turn (encode (pre ++ '$' :: '\x7b' :: tail)) q.scanned (encode pre).length =
      match parsePlaceholder tail with
      | some (index, default, len) =>
        some ((q.place index default).scanned,
          (encode (pre ++ '$' :: '\x7b' :: tail.take len)).length)
      | none => some ((q.push '$').scanned, (encode (pre ++ ['$'])).length) := by
  have hlen : (encode pre).length + 1 = (encode (pre ++ ['$'])).length :=
    (length_encode_concat (by decide) pre).symm
  have hlen₂ : (encode pre).length + 2 = (encode (pre ++ ['$'] ++ ['\x7b'])).length := by
    rw [length_encode_concat (by decide), length_encode_concat (by decide)]
  have hsplit : pre ++ '$' :: '\x7b' :: tail = pre ++ ['$'] ++ ['\x7b'] ++ tail := by simp
  have hdollar : (encode (pre ++ '$' :: '\x7b' :: tail))[(encode pre).length]? = some 0x24 :=
    (getElem?_encode_iff (d := '$') (by decide)).mpr ⟨_, rfl⟩
  have hbrace : (encode (pre ++ '$' :: '\x7b' :: tail))[(encode pre).length + 1]? = some 0x7B := by
    rw [hlen, show pre ++ '$' :: '\x7b' :: tail = pre ++ ['$'] ++ '\x7b' :: tail by simp]
    exact (getElem?_encode_iff (d := '\x7b') (by decide)).mpr ⟨_, rfl⟩
  unfold turn
  rw [if_pos ⟨hdollar, hbrace⟩, hlen₂, hlen, hsplit, parsePlaceholder_eq]
  generalize hfront : pre ++ ['$'] ++ ['\x7b'] = front
  simp only
  rw [skipWhile_encode isAsciiDigit_of_mem]
  have hsome := List.takeWhile_append_dropWhile (p := Char.isDigit) (l := tail)
  generalize tail.takeWhile Char.isDigit = digits at *
  generalize tail.dropWhile Char.isDigit = after at *
  subst hsome
  -- the scanner sees that there are no digits by the index that has not moved
  have hnone : (encode (front ++ digits)).length = (encode front).length ↔ digits = [] := by
    rw [← length_encode_le_iff front digits]
    exact ⟨Nat.le_of_eq, fun hle => hle.antisymm (by rw [encode_append, List.length_append]; omega)⟩
  have hassoc : front ++ (digits ++ after) = front ++ digits ++ after := by rw [List.append_assoc]
  -- no digits, a number that is too large, no end: in each case only the `$` is taken
  by_cases hdigits : digits = []
  · rw [if_pos (hnone.mpr hdigits), if_pos hdigits, scanned_push]
  rw [if_neg (mt hnone.mp hdigits), if_neg hdigits, slice_encode, Option.bind_eq_bind,
    Option.bind_some, hassoc]
  rcases parseU32 digits with _ | index
  · rw [scanned_push]
    rfl
  rcases defaultAt_encode (front ++ digits) after with ⟨hend, hat⟩ | ⟨sep, default, rest, rfl, hend, hat⟩
  · rw [hend, hat, scanned_push]
    rfl
  · rw [hat, Option.bind_some, hend]
    have hslice := slice_encode (front ++ digits ++ sep) default ('\x7d' :: rest)
    rw [List.append_assoc _ sep] at hslice
    simp only [Option.map_some]
    rw [scanned_place q hslice]
    -- what the turn takes is the placeholder up to its closing brace
    have htake : (digits ++ (sep ++ (default ++ '\x7d' :: rest))).take
        (digits.length + (sep.length + default.length + 1)) =
        digits ++ sep ++ default ++ ['\x7d'] := by
      have hshape : digits ++ (sep ++ (default ++ '\x7d' :: rest)) =
          digits ++ sep ++ default ++ ['\x7d'] ++ rest := by simp
      rw [hshape]
      exact List.take_left' (by simp [Nat.add_assoc])
    rw [htake]
    have hall : front ++ digits ++ sep ++ default ++ ['\x7d'] =
        pre ++ '$' :: '\x7b' :: (digits ++ sep ++ default ++ ['\x7d']) := by
      rw [← hfront]
      simp
    rw [← hall]
    rfl

/-- A turn at a character. -/
theorem turn_encode (q : Parsed) (pre : List Char) (c : Char) (rest : List Char) :
    turn (encode (pre ++ c :: rest)) q.scanned (encode pre).length =
      match placeholderAt (c :: rest) with
      | some (index, default, len) =>
        some ((q.place index default).scanned, (encode (pre ++ (c :: rest).take len)).length)
      | none => some ((q.push c).scanned, (encode (pre ++ [c])).length) := by
  by_cases hopen : ∃ tail, c :: rest = '$' :: '\x7b' :: tail
  · obtain ⟨tail, hopen⟩ := hopen
    obtain ⟨rfl, rfl⟩ := List.cons.inj hopen
    rw [turn_open]
    show _ = match (parsePlaceholder tail).map fun p => (p.1, p.2.1, p.2.2 + 2) with
      | some (index, default, len) => _
      | none => _
    rcases parsePlaceholder tail with _ | ⟨index, default, len⟩
    · rfl
    · rfl
  · have hplaceholder : placeholderAt (c :: rest) = none := by
      unfold placeholderAt
      split
      · exact absurd ⟨_, ‹_›⟩ hopen
      · rfl
    -- the two bytes of `${` can only be those two characters
    have hbytes : ¬((encode (pre ++ c :: rest))[(encode pre).length]? = some 0x24 ∧
        (encode (pre ++ c :: rest))[(encode pre).length + 1]? = some 0x7B) := by
      rintro ⟨hdollar, hbrace⟩
      obtain ⟨rest', hcons⟩ := (getElem?_encode_iff (d := '$') (by decide)).mp hdollar
      obtain ⟨rfl, rfl⟩ := List.cons.inj hcons
      rw [← length_encode_concat (c := '$') (by decide) pre,
        show pre ++ '$' :: rest = pre ++ ['$'] ++ rest by simp] at hbrace
      obtain ⟨tail, rfl⟩ := (getElem?_encode_iff (d := '\x7b') (by decide)).mp hbrace
      exact hopen ⟨tail, rfl⟩
    have hdecode : decodeChar ((encode (pre ++ c :: rest)).drop (encode pre).length) = some c := by
      rw [drop_encode, encode_cons, decodeChar_append]
    have hlen : (encode (pre ++ [c])).length = (encode pre).length + c.utf8Size := by
      rw [encode_append, List.length_append, encode_cons, encode_nil, List.append_nil,
        String.length_utf8EncodeChar]
    unfold turn
    rw [if_neg hbytes, hdecode, hplaceholder, hlen, Option.bind_eq_bind, Option.bind_some,
      scanned_push]
    rfl

/-! ## The loop -/

theorem scanBytes_eq (bytes : List UInt8) (p : Scanned) (i : ℕ) :
    scanBytes bytes p i =
      if i < bytes.length then (turn bytes p i).bind fun r => scanBytes bytes r.1 r.2
      else some p := by
  rw [scanBytes]
  split
  · split
    · next hnone => rw [hnone, Option.bind_none]
    · next hsome => rw [hsome, Option.bind_some]
  · rfl

/-- What is skipped is not read. -/
theorem scan_skip (k : ℕ) (q : Parsed) (input : List Char) :
    scan k q input = scan 0 q (input.drop k) := by
  induction input generalizing k with
  | nil => cases k <;> rfl
  | cons c input ih =>
    rcases k with _ | k
    · rfl
    · exact ih k

theorem pos_of_placeholderAt {input : List Char} {r : ℕ × List Char × ℕ}
    (h : placeholderAt input = some r) : 0 < r.2.2 := by
  unfold placeholderAt at h
  split at h
  · obtain ⟨p, -, rfl⟩ := Option.map_eq_some_iff.mp h
    exact Nat.succ_pos _
  · cases h

/-- The loop reads the rest of a text as `scan` does. -/
theorem scanBytes_encode (q : Parsed) (pre rest : List Char) :
    scanBytes (encode (pre ++ rest)) q.scanned (encode pre).length =
      some (scan 0 q rest).scanned := by
  -- a placeholder takes several characters at once
  induction hn : rest.length using Nat.strong_induction_on generalizing q pre rest with
  | _ n ih =>
    subst hn
    rcases rest with _ | ⟨c, rest⟩
    · rw [scanBytes_eq, List.append_nil, if_neg (lt_irrefl _)]
      rfl
    · have hlt : (encode pre).length < (encode (pre ++ c :: rest)).length := by
        by_contra hnot
        cases (length_encode_le_iff _ _).mp (Nat.not_lt.mp hnot)
      rw [scanBytes_eq, if_pos hlt, turn_encode]
      unfold scan
      rcases hplaceholder : placeholderAt (c :: rest) with _ | ⟨index, default, len⟩
      · have hsplit : pre ++ c :: rest = pre ++ [c] ++ rest := by simp
        simp only
        rw [Option.bind_some, hsplit]
        exact ih rest.length (Nat.lt_succ_self _) (q.push c) (pre ++ [c]) rest rfl
      · obtain ⟨len, rfl⟩ : ∃ m, len = m + 1 :=
          ⟨len - 1, (Nat.sub_add_cancel (pos_of_placeholderAt hplaceholder)).symm⟩
        have hsplit : pre ++ c :: rest = pre ++ (c :: rest).take (len + 1) ++ rest.drop len := by
          rw [List.append_assoc, List.take_succ_cons, List.cons_append, List.take_append_drop]
        simp only
        rw [Option.bind_some, scan_skip, Nat.add_sub_cancel, hsplit]
        refine ih (rest.drop len).length ?_ (q.place index default) _ _ rfl
        rw [List.length_drop, List.length_cons]
        omega

/-- The scanner of the bytes of a text never panics, and reads what `parseSnippetSuffix` reads of the
text. -/
theorem parseSnippetSuffixBytes_encode (input : List Char) :
    parseSnippetSuffixBytes (encode input) = some (parseSnippetSuffix input) := by
  have hscan := scanBytes_encode {} [] input
  rw [List.nil_append] at hscan
  unfold parseSnippetSuffixBytes parseSnippetSuffix
  show (scanBytes (encode input) (Parsed.scanned {}) (encode []).length).bind _ = _
  rw [hscan]
  rfl

end Termua.Snippet
