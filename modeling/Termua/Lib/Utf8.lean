import Mathlib

/-!
# Lossy UTF-8 decoding

`encode` is the UTF-8 encoding of a text. `decodeLossy` decodes any bytes, as Rust's
`String::from_utf8_lossy` documents it: each maximal part that starts like a character and does not
go on as one becomes a single U+FFFD. On the encoding of a text it gives the text back.
-/

namespace Utf8

/-- The UTF-8 encoding of a text. -/
def encode (text : List Char) : List UInt8 := text.flatMap String.utf8EncodeChar

/-- The bytes are the encoding of a text. -/
def Valid (bytes : List UInt8) : Prop := ∃ text, bytes = encode text

/-- The character that the bytes start with. -/
def decodeChar (bytes : List UInt8) : Option Char := bytes.toByteArray.utf8DecodeChar? 0

/-- The second byte of a character of three or four bytes may follow the first. -/
def continues (first second : UInt8) : Bool :=
  if first = 0xE0 then 0xA0 ≤ second ∧ second ≤ 0xBF
  else if 0xE1 ≤ first ∧ first ≤ 0xEC then 0x80 ≤ second ∧ second ≤ 0xBF
  else if first = 0xED then 0x80 ≤ second ∧ second ≤ 0x9F
  else if 0xEE ≤ first ∧ first ≤ 0xEF then 0x80 ≤ second ∧ second ≤ 0xBF
  else if first = 0xF0 then 0x90 ≤ second ∧ second ≤ 0xBF
  else if 0xF1 ≤ first ∧ first ≤ 0xF3 then 0x80 ≤ second ∧ second ≤ 0xBF
  else if first = 0xF4 then 0x80 ≤ second ∧ second ≤ 0x8F
  else false

/-- The length of the part that one replacement character stands for, where no character starts. -/
def invalidLength : List UInt8 → ℕ
  | first :: second :: third :: _ =>
    if !continues first second then 1
    else if first < 0xF0 then 2
    else if 0x80 ≤ third ∧ third ≤ 0xBF then 3
    else 2
  | [first, second] => if continues first second then 2 else 1
  | _ => 1

/-- `decodeLossy` with enough fuel for every byte to be read. -/
def decodeLossyFuel : ℕ → List UInt8 → List Char
  | 0, _ | _ + 1, [] => []
  | n + 1, b :: bytes =>
    match decodeChar (b :: bytes) with
    | some c => c :: decodeLossyFuel n ((b :: bytes).drop c.utf8Size)
    | none => '\uFFFD' :: decodeLossyFuel n ((b :: bytes).drop (invalidLength (b :: bytes)))

/-- `String::from_utf8_lossy`. -/
def decodeLossy (bytes : List UInt8) : List Char := decodeLossyFuel bytes.length bytes

variable {bytes : List UInt8} {c : Char} {text : List Char} {n : ℕ}

@[simp] theorem encode_nil : encode [] = [] := rfl

@[simp] theorem encode_cons : encode (c :: text) = String.utf8EncodeChar c ++ encode text := rfl

theorem encode_eq_nil {text : List Char} (h : encode text = []) : text = [] := by
  rcases text with _ | ⟨c, text⟩
  · rfl
  · have hc := List.flatMap_eq_nil_iff.mp h c List.mem_cons_self
    exact absurd hc String.utf8EncodeChar_ne_nil

theorem encode_append {text' : List Char} : encode (text ++ text') = encode text ++ encode text' :=
  List.flatMap_append

theorem encode_flatten {texts : List (List Char)} :
    encode texts.flatten = (texts.map encode).flatten := by
  induction texts with
  | nil => rfl
  | cons text texts ih => rw [List.flatten_cons, encode_append, ih]; rfl

/-- What follows a character's encoding does not matter to its decoding. -/
theorem decodeChar_append : decodeChar (String.utf8EncodeChar c ++ bytes) = some c := by
  unfold decodeChar
  rw [List.toByteArray_append]
  exact ByteArray.utf8DecodeChar?_utf8EncodeChar_append

theorem decodeLossyFuel_encode (h : (encode text).length ≤ n) :
    decodeLossyFuel n (encode text) = text := by
  induction text generalizing n with
  | nil => cases n <;> rfl
  | cons c text ih =>
    have hlength := String.length_utf8EncodeChar c
    have hpos := c.utf8Size_pos
    have hdecode : decodeChar (encode (c :: text)) = some c := decodeChar_append
    rw [encode_cons, List.length_append, hlength] at h
    obtain ⟨n, rfl⟩ : ∃ m, n = m + 1 := ⟨n - 1, by omega⟩
    obtain ⟨b, bytes, hbytes⟩ : ∃ b bytes, encode (c :: text) = b :: bytes :=
      List.exists_cons_of_ne_nil <| List.ne_nil_of_length_pos <| by
        rw [encode_cons, List.length_append, hlength]
        omega
    have hdrop : (b :: bytes).drop c.utf8Size = encode text := by
      rw [← hbytes, encode_cons, ← hlength, List.drop_left]
    rw [hbytes] at hdecode ⊢
    unfold decodeLossyFuel
    rw [hdecode]
    show c :: decodeLossyFuel n ((b :: bytes).drop c.utf8Size) = c :: text
    rw [hdrop, ih (by omega)]

/-- Decoding the encoding of a text gives the text. -/
theorem decodeLossy_encode : decodeLossy (encode text) = text := decodeLossyFuel_encode le_rfl

/-- The text that the bytes encode, if they are valid. -/
def decode (bytes : List UInt8) : Option (List Char) :=
  if encode (decodeLossy bytes) = bytes then some (decodeLossy bytes) else none

theorem decode_encode : decode (encode text) = some text := by
  unfold decode
  rw [decodeLossy_encode, if_pos rfl]

/-- The first place from `i` on whose byte fails the test. -/
def skipWhile (p : UInt8 → Bool) (bytes : List UInt8) (i : ℕ) : ℕ :=
  i + ((bytes.drop i).takeWhile p).length

theorem le_skipWhile (p : UInt8 → Bool) (bytes : List UInt8) (i : ℕ) : i ≤ skipWhile p bytes i :=
  Nat.le_add_right _ _

theorem lt_skipWhile {p : UInt8 → Bool} {i : ℕ} {b : UInt8} (hb : bytes[i]? = some b)
    (hp : p b = true) : i < skipWhile p bytes i := by
  obtain ⟨hlt, rfl⟩ := List.getElem?_eq_some_iff.mp hb
  unfold skipWhile
  rw [List.drop_eq_getElem_cons hlt, List.takeWhile_cons_of_pos hp]
  exact Nat.lt_add_of_pos_right (Nat.succ_pos _)

theorem drop_skipWhile (p : UInt8 → Bool) (bytes : List UInt8) (i : ℕ) :
    bytes.drop (skipWhile p bytes i) = (bytes.drop i).dropWhile p := by
  have happ := List.takeWhile_append_dropWhile (p := p) (l := bytes.drop i)
  have hdrop := congrArg (List.drop ((bytes.drop i).takeWhile p).length) happ
  rw [List.drop_left, List.drop_drop] at hdrop
  exact hdrop.symm

/-! ## ASCII in the encoding -/

theorem utf8EncodeChar_of_ascii (h : c.toNat < 128) :
    String.utf8EncodeChar c = [UInt8.ofNat c.toNat] := by
  unfold String.utf8EncodeChar
  exact if_pos (Nat.le_of_lt_succ h)

/-- The bytes of a character that is not ASCII are not ASCII. -/
theorem le_of_mem_utf8EncodeChar {b : UInt8} (h : 128 ≤ c.toNat)
    (hb : b ∈ String.utf8EncodeChar c) : 128 ≤ b.toNat := by
  have hc : c.val.toNat = c.toNat := rfl
  have hlt : c.toNat < 1114112 := by
    rcases c.valid with hlt | ⟨-, hlt⟩
    · exact hlt.trans (by decide)
    · exact hlt
  unfold String.utf8EncodeChar at hb
  simp only [hc] at hb
  split at hb
  · omega
  · split at hb
    · simp only [List.mem_cons, List.not_mem_nil, or_false] at hb
      rcases hb with rfl | rfl <;> rw [UInt8.toNat_ofNat'] <;> omega
    · split at hb
      · simp only [List.mem_cons, List.not_mem_nil, or_false] at hb
        rcases hb with rfl | rfl | rfl <;> rw [UInt8.toNat_ofNat'] <;> omega
      · simp only [List.mem_cons, List.not_mem_nil, or_false] at hb
        rcases hb with rfl | rfl | rfl | rfl <;> rw [UInt8.toNat_ofNat'] <;> omega

/-- A byte that is ASCII is a character. -/
theorem getElem?_encode_zero {d : Char} (hd : d.toNat < 128) :
    (encode text)[0]? = some (UInt8.ofNat d.toNat) ↔ text[0]? = some d := by
  rcases text with _ | ⟨c, text⟩
  · simp
  · rw [encode_cons, List.getElem?_cons_zero, Option.some.injEq]
    rcases Nat.lt_or_ge c.toNat 128 with hlt | hge
    · rw [utf8EncodeChar_of_ascii hlt, List.cons_append, List.getElem?_cons_zero, Option.some.injEq]
      constructor
      · intro heq
        have hnat := congrArg UInt8.toNat heq
        rw [UInt8.toNat_ofNat', UInt8.toNat_ofNat', Nat.mod_eq_of_lt (by omega),
          Nat.mod_eq_of_lt (by omega)] at hnat
        exact Char.toNat_inj.mp hnat
      · rintro rfl
        rfl
    · constructor
      · intro heq
        obtain ⟨b, bytes, hbytes⟩ := List.exists_cons_of_ne_nil (String.utf8EncodeChar_ne_nil (c := c))
        rw [hbytes, List.cons_append, List.getElem?_cons_zero, Option.some.injEq] at heq
        have hle := le_of_mem_utf8EncodeChar hge (hbytes ▸ List.mem_cons_self)
        rw [heq, UInt8.toNat_ofNat', Nat.mod_eq_of_lt (by omega)] at hle
        omega
      · rintro rfl
        omega

/-- A prefix of the bytes is the encoding of a prefix of the text, where the bytes of each character
agree on where it ends. -/
theorem takeWhile_encode {p : UInt8 → Bool} {q : Char → Bool}
    (hp : ∀ c, ∀ b ∈ String.utf8EncodeChar c, p b = q c) :
    (encode text).takeWhile p = encode (text.takeWhile q) := by
  induction text with
  | nil => rfl
  | cons c text ih =>
    rw [encode_cons]
    rcases hq : q c with _ | _
    · obtain ⟨b, bytes, hbytes⟩ := List.exists_cons_of_ne_nil (String.utf8EncodeChar_ne_nil (c := c))
      have hb : p b = false := (hp c b (hbytes ▸ List.mem_cons_self)).trans hq
      rw [List.takeWhile_cons_of_neg (by simp [hq]), hbytes, List.cons_append,
        List.takeWhile_cons_of_neg (by simp [hb]), encode_nil]
    · rw [List.takeWhile_cons_of_pos hq, encode_cons,
        List.takeWhile_append_of_pos fun b hb => (hp c b hb).trans hq, ih]

end Utf8
