import Mathlib.Data.Nat.Digits.Lemmas

/-!
# Little-endian byte strings

A natural number as a fixed number of bytes, least significant first, and the value of a byte
string as base-256 digits.
-/

namespace Verif

/-- The value of a byte string, its first byte the least significant. -/
def leValue (bytes : List UInt8) : Nat := Nat.ofDigits 256 (bytes.map UInt8.toNat)

/-- The low `width` bytes of a number; higher ones are dropped. -/
def leBytes : (width : Nat) → Nat → List UInt8
  | 0, _ => []
  | width + 1, n => UInt8.ofNat n :: leBytes width (n / 256)

@[simp] theorem leValue_nil : leValue [] = 0 := rfl

@[simp] theorem leValue_cons (b : UInt8) (bytes : List UInt8) :
    leValue (b :: bytes) = b.toNat + 256 * leValue bytes := by
  rw [leValue, List.map_cons, Nat.ofDigits_cons, leValue]

/-- An encoding has its declared width. -/
@[simp] theorem length_leBytes (width n : Nat) : (leBytes width n).length = width := by
  induction width generalizing n with
  | zero => rfl
  | succ width ih => rw [leBytes, List.length_cons, ih]

theorem leValue_replicate_zero (n : Nat) : leValue (List.replicate n 0) = 0 := by
  induction n with
  | zero => rfl
  | succ n ih => rw [List.replicate_succ, leValue_cons, ih]; rfl

/-- A byte string's value fits its width. -/
theorem leValue_lt (bytes : List UInt8) : leValue bytes < 256 ^ bytes.length := by
  have h := Nat.ofDigits_lt_base_pow_length (b := 256) (l := bytes.map UInt8.toNat)
    (by decide) (by simpa using fun b _ ↦ b.toNat_lt)
  rwa [List.length_map] at h

/-- Encoding then reading back keeps the number modulo the width. -/
theorem leValue_leBytes (width n : Nat) : leValue (leBytes width n) = n % 256 ^ width := by
  induction width generalizing n with
  | zero => rw [pow_zero, Nat.mod_one]; rfl
  | succ width ih =>
    have hbyte : (UInt8.ofNat n).toNat = n % 256 := UInt8.toNat_ofNat'
    rw [leBytes, leValue_cons, ih, hbyte, pow_succ', Nat.mod_mul]

/-- A number that fits its width is read back exactly. -/
theorem leValue_leBytes_of_lt {width n : Nat} (h : n < 256 ^ width) :
    leValue (leBytes width n) = n := by
  rw [leValue_leBytes, Nat.mod_eq_of_lt h]

/-- Reading then encoding at the same width gives the bytes back. -/
theorem leBytes_leValue (bytes : List UInt8) : leBytes bytes.length (leValue bytes) = bytes := by
  induction bytes with
  | nil => rfl
  | cons b bytes ih =>
    have hb : b.toNat < 256 := b.toNat_lt
    have hlow : UInt8.ofNat (b.toNat + 256 * leValue bytes) = b := by
      apply UInt8.toNat_inj.mp
      rw [UInt8.toNat_ofNat']
      omega
    have hhigh : (b.toNat + 256 * leValue bytes) / 256 = leValue bytes := by omega
    rw [List.length_cons, leBytes, leValue_cons, hlow, hhigh, ih]

end Verif
