import Mathlib
import Termua.Lib.Json
import Termua.Lib.Utf8

/-!
# The xterm mouse protocol

What a program inside a terminal reads from a mouse report. The button code has the button in its two
low bits, then shift, alt and control, a bit for a motion and one for the wheel. The normal encoding
has a byte for the code and for each position, the UTF-8 encoding a character, and the SGR encoding
decimal numbers and a final letter that marks a release.
-/

namespace MouseProtocol

inductive Button
  | left
  | middle
  | right
  deriving DecidableEq, Repr

inductive Kind
  | press (button : Button)
  | release (button : Option Button)
  | drag (button : Button)
  | motion
  | wheelUp
  | wheelDown
  deriving DecidableEq, Repr

structure Modifiers where
  shift : Bool
  alt : Bool
  control : Bool
  deriving DecidableEq, Repr

/-- What a report says; the column and the line are counted from zero. -/
structure Report where
  kind : Kind
  modifiers : Modifiers
  column : ℕ
  line : ℕ
  deriving DecidableEq, Repr

/-- The button in the low bits of a code, three for none. -/
def buttonOf (code : ℕ) : Option Button :=
  match code % 4 with
  | 0 => some .left
  | 1 => some .middle
  | 2 => some .right
  | _ => none

def kindOf (code : ℕ) : Option Kind :=
  match code / 32, buttonOf code with
  | 0, some button => some (.press button)
  | 0, none => some (.release none)
  | 1, some button => some (.drag button)
  | 1, none => some .motion
  | 2, some .left => some .wheelUp
  | 2, some .middle => some .wheelDown
  | _, _ => none

/-- The kind where the format marks a release apart. -/
def sgrKindOf (code : ℕ) (final : Char) : Option Kind :=
  if final = 'M' then kindOf code
  else if final = 'm' then
    match kindOf code with
    | some (.press button) => some (.release (some button))
    | _ => none
  else none

def modifiersOf (code : ℕ) : Modifiers where
  shift := code / 4 % 2 = 1
  alt := code / 8 % 2 = 1
  control := code / 16 % 2 = 1

/-- Positions are counted from one. -/
def position (n : ℕ) : Option ℕ := if n = 0 then none else some (n - 1)

/-- An SGR report. -/
def decodeSgr (bytes : List UInt8) : Option Report := do
  let text ← Json.expect ['\x1b', '[', '<'] (← Utf8.decode bytes)
  let (code, text) ← Json.readNat text
  let (x, text) ← Json.readNat (← Json.expect [';'] text)
  let (y, text) ← Json.readNat (← Json.expect [';'] text)
  match text with
  | [final] =>
    some ⟨← sgrKindOf code final, modifiersOf code, ← position x, ← position y⟩
  | _ => none

/-- A report whose numbers are these codes, less 32. -/
def decodeCodes (codes : List ℕ) : Option Report :=
  match codes with
  | [escape, bracket, m, code, x, y] =>
    if [escape, bracket, m] = [0x1B, 0x5B, 0x4D] ∧ 32 ≤ code ∧ 32 ≤ x ∧ 32 ≤ y then do
      some ⟨← kindOf (code - 32), modifiersOf (code - 32), ← position (x - 32), ← position (y - 32)⟩
    else none
  | _ => none

/-- A report in the normal encoding. -/
def decodeNormal (bytes : List UInt8) : Option Report := decodeCodes (bytes.map UInt8.toNat)

/-- A report in the UTF-8 encoding. -/
def decodeUtf8 (bytes : List UInt8) : Option Report := do
  decodeCodes ((← Utf8.decode bytes).map Char.toNat)

variable {code x y : ℕ} {final : Char} {kind : Kind}

theorem decodeSgr_encode (hfinal : final.isDigit = false) (hkind : sgrKindOf code final = some kind) :
    decodeSgr (Utf8.encode (['\x1b', '[', '<'] ++ (Nat.toDigits 10 code ++ ([';'] ++
        (Nat.toDigits 10 (x + 1) ++ ([';'] ++ (Nat.toDigits 10 (y + 1) ++ [final]))))))) =
      some ⟨kind, modifiersOf code, x, y⟩ := by
  have hsemi {rest : List Char} : ∀ d ∈ ([';'] ++ rest).head?, d.isDigit = false := by
    rintro d ⟨⟩
    rfl
  have hlast : ∀ d ∈ [final].head?, d.isDigit = false := by
    rintro d ⟨⟩
    exact hfinal
  unfold decodeSgr
  rw [Utf8.decode_encode]
  simp only [Option.bind_eq_bind, Option.bind_some, Json.expect_append,
    Json.readNat_toDigits hsemi, Json.readNat_toDigits hlast, hkind, position, Nat.add_sub_cancel,
    Nat.add_one_ne_zero, if_false]

theorem decodeCodes_eq (hkind : kindOf code = some kind) :
    decodeCodes [0x1B, 0x5B, 0x4D, 32 + code, 32 + 1 + x, 32 + 1 + y] =
      some ⟨kind, modifiersOf code, x, y⟩ := by
  have hposition (n : ℕ) : position (32 + 1 + n - 32) = some n := by
    unfold position
    rw [if_neg (by omega)]
    congr 1
    omega
  unfold decodeCodes
  dsimp only
  rw [if_pos ⟨rfl, by omega, by omega, by omega⟩]
  simp only [Nat.add_sub_cancel_left, hkind, hposition, Option.bind_eq_bind, Option.bind_some]

theorem lt_of_kindOf (hkind : kindOf code = some kind) : code < 96 := by
  unfold kindOf at hkind
  split at hkind
  all_goals first | omega | cases hkind

end MouseProtocol
