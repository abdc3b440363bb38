import Mathlib

/-!
# Numbers in byte lists

Words of 32 bits written with the most significant byte first, and read at an offset as a `DataView`
reads them: what was written behind some bytes is read at their length.
-/

namespace Bytes

/-- `u32::to_be_bytes`. -/
def toBeBytes (v : UInt32) : List UInt8 :=
  [UInt8.ofNat (v.toNat / 2 ^ 24), UInt8.ofNat (v.toNat / 2 ^ 16), UInt8.ofNat (v.toNat / 2 ^ 8),
    UInt8.ofNat v.toNat]

/-- `DataView.getUint32`, `none` where it throws. -/
def getUint32 (bytes : List UInt8) (offset : ℕ) : Option UInt32 :=
  match bytes.drop offset with
  | a :: b :: c :: d :: _ =>
    some (UInt32.ofNat (a.toNat * 2 ^ 24 + b.toNat * 2 ^ 16 + c.toNat * 2 ^ 8 + d.toNat))
  | _ => none

/-- Words one after the other. -/
def words (vs : List UInt32) : List UInt8 := vs.flatMap toBeBytes

variable {v : UInt32} {vs : List UInt32} {front rest : List UInt8}

@[simp] theorem length_toBeBytes : (toBeBytes v).length = 4 := rfl

theorem length_words : (words vs).length = 4 * vs.length := by
  induction vs with
  | nil => rfl
  | cons v vs ih =>
    rw [words, List.flatMap_cons, List.length_append, length_toBeBytes, List.length_cons]
    rw [words] at ih
    omega

/-- The bytes of a word are its digits to the base 256. -/
theorem ofNat_digits (v : UInt32) :
    UInt32.ofNat ((UInt8.ofNat (v.toNat / 2 ^ 24)).toNat * 2 ^ 24 +
      (UInt8.ofNat (v.toNat / 2 ^ 16)).toNat * 2 ^ 16 + (UInt8.ofNat (v.toNat / 2 ^ 8)).toNat * 2 ^ 8 +
        (UInt8.ofNat v.toNat).toNat) = v := by
  have hlt := v.toNat_lt
  simp only [UInt8.toNat_ofNat']
  have hdigits : v.toNat / 2 ^ 24 % 2 ^ 8 * 2 ^ 24 + v.toNat / 2 ^ 16 % 2 ^ 8 * 2 ^ 16 +
      v.toNat / 2 ^ 8 % 2 ^ 8 * 2 ^ 8 + v.toNat % 2 ^ 8 = v.toNat := by
    omega
  rw [hdigits, UInt32.ofNat_toNat]

/-- A word behind other bytes is read at their length. -/
theorem getUint32_append : getUint32 (front ++ (toBeBytes v ++ rest)) front.length = some v := by
  unfold getUint32
  rw [List.drop_left]
  exact congrArg some (ofNat_digits v)

/-- One of the words behind other bytes. -/
theorem getUint32_words {i : ℕ} (hi : i < vs.length) :
    getUint32 (front ++ (words vs ++ rest)) (front.length + 4 * i) = some (vs[i]) := by
  obtain ⟨before, v, after, rfl, rfl⟩ : ∃ before v after, vs = before ++ v :: after ∧
      before.length = i :=
    ⟨vs.take i, vs[i], vs.drop (i + 1), by simp, by simp [hi.le]⟩
  have hread := @getUint32_append v (front ++ words before) (words after ++ rest)
  rw [List.length_append, length_words] at hread
  have hwords : words (before ++ v :: after) = words before ++ (toBeBytes v ++ words after) := by
    simp only [words, List.flatMap_append, List.flatMap_cons]
  rw [hwords]
  simpa using hread

end Bytes
