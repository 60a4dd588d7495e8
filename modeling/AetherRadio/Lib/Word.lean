import Mathlib.Algebra.Group.Nat.Defs
import Mathlib.Order.Basic

/-!
# Words that saturate and counters that wrap

Saturating addition and subtraction, the arithmetic of two running counters of which only the
residues modulo `2 ^ 64` are kept, and a digit that carries into the next.
-/

namespace Verif

/-- Addition that stops at the largest word. -/
def satAdd (a b : UInt64) : UInt64 := UInt64.ofNat (min (a.toNat + b.toNat) (2 ^ 64 - 1))

/-- Addition that stops at the largest byte. -/
def satAdd8 (a b : UInt8) : UInt8 := UInt8.ofNat (min (a.toNat + b.toNat) (2 ^ 8 - 1))

/-- Addition that stops at the largest half word. -/
def satAdd16 (a b : UInt16) : UInt16 := UInt16.ofNat (min (a.toNat + b.toNat) (2 ^ 16 - 1))

/-- Subtraction that stops at zero. -/
def satSub (a b : UInt64) : UInt64 := UInt64.ofNat (a.toNat - b.toNat)

theorem toNat_satAdd (a b : UInt64) :
    (satAdd a b).toNat = min (a.toNat + b.toNat) (2 ^ 64 - 1) := by
  rw [satAdd, UInt64.toNat_ofNat']
  omega

/-- A sum that has stopped at the largest word stays there. -/
theorem toNat_satAdd_of_min {a : UInt64} {n : Nat} (h : a.toNat = min n (2 ^ 64 - 1)) (b : UInt64) :
    (satAdd a b).toNat = min (n + b.toNat) (2 ^ 64 - 1) := by
  rw [toNat_satAdd, h]
  omega

theorem toNat_satAdd8 (a b : UInt8) :
    (satAdd8 a b).toNat = min (a.toNat + b.toNat) (2 ^ 8 - 1) := by
  rw [satAdd8, UInt8.toNat_ofNat']
  omega

theorem toNat_satAdd16 (a b : UInt16) :
    (satAdd16 a b).toNat = min (a.toNat + b.toNat) (2 ^ 16 - 1) := by
  rw [satAdd16, UInt16.toNat_ofNat']
  omega

theorem toNat_satSub (a b : UInt64) : (satSub a b).toNat = a.toNat - b.toNat := by
  have ha := a.toNat_lt
  rw [satSub, UInt64.toNat_ofNat']
  omega

theorem le_satAdd (a b : UInt64) : a ≤ satAdd a b := by
  have ha := a.toNat_lt
  rw [UInt64.le_iff_toNat_le, toNat_satAdd]
  omega

/-- A saturating step back undoes a wrapping step exactly when it did not wrap. -/
theorem satSub_add_one_eq_iff (a : UInt64) : satSub (a + 1) 1 = a ↔ a.toNat ≠ 2 ^ 64 - 1 := by
  have ha := a.toNat_lt
  rw [← UInt64.toNat_inj, toNat_satSub, UInt64.toNat_add, UInt64.toNat_one]
  omega

/-- Adding what a sum has added is adding it again. -/
theorem satAdd_satSub (a b c : UInt64) :
    satAdd a (satAdd (satSub (satAdd a b) a) c) = satAdd (satAdd a b) c := by
  have ha := a.toNat_lt
  apply UInt64.toNat_inj.mp
  rw [toNat_satAdd, toNat_satAdd, toNat_satSub, toNat_satAdd, toNat_satAdd, toNat_satAdd]
  omega

/-- The larger of two words is read as the larger number. -/
theorem toNat_max (a b : UInt64) : (max a b).toNat = max a.toNat b.toNat := by
  have hdef : max a b = if a ≤ b then b else a := rfl
  rw [hdef]
  by_cases h : a ≤ b
  · have hle := UInt64.le_iff_toNat_le.mp h
    rw [if_pos h]
    omega
  · have hlt := UInt64.lt_iff_toNat_lt.mp (UInt64.not_le.mp h)
    rw [if_neg h]
    omega

/-- The difference of two words, taken from the larger. -/
theorem toNat_absDiff (a b : UInt64) :
    (max a b - min a b).toNat = ((a.toNat : Int) - b.toNat).natAbs := by
  have hmax : max a b = if a ≤ b then b else a := rfl
  have hmin : min a b = if a ≤ b then a else b := rfl
  rw [hmax, hmin]
  by_cases h : a ≤ b
  · have hle := UInt64.le_iff_toNat_le.mp h
    rw [if_pos h, if_pos h, UInt64.toNat_sub_of_le _ _ h]
    omega
  · have hlt := UInt64.lt_iff_toNat_lt.mp (UInt64.not_le.mp h)
    rw [if_neg h, if_neg h, UInt64.toNat_sub_of_le _ _ (UInt64.le_of_lt (UInt64.not_le.mp h))]
    omega

/-- One more on a wrapping counter. -/
theorem ofNat_add_one (n : Nat) : UInt64.ofNat n + 1 = UInt64.ofNat (n + 1) := by
  apply UInt64.toNat_inj.mp
  rw [UInt64.toNat_add, UInt64.toNat_ofNat', UInt64.toNat_ofNat', UInt64.toNat_one]
  omega

/-- The wrapping difference of two counters is their distance while that fits in a word. -/
theorem toNat_ofNat_sub {r w : Nat} (h : r ≤ w) (hd : w - r < 2 ^ 64) :
    (UInt64.ofNat w - UInt64.ofNat r).toNat = w - r := by
  rw [UInt64.toNat_sub, UInt64.toNat_ofNat', UInt64.toNat_ofNat']
  omega

/-- A counter reaches another after their wrapping difference. -/
theorem add_distance (r w : UInt64) : r + UInt64.ofNat (w - r).toNat = w := by
  have hr := r.toNat_lt
  have hw := w.toNat_lt
  apply UInt64.toNat_inj.mp
  rw [UInt64.toNat_add, UInt64.toNat_ofNat', UInt64.toNat_sub]
  omega

/-- And not before. -/
theorem add_ofNat_ne {r w : UInt64} {k : Nat} (h : k < (w - r).toNat) :
    r + UInt64.ofNat k ≠ w := by
  have hr := r.toNat_lt
  have hw := w.toNat_lt
  intro he
  have hn := congrArg UInt64.toNat he
  rw [UInt64.toNat_sub] at h
  rw [UInt64.toNat_add, UInt64.toNat_ofNat'] at hn
  omega

/-- Two counters less than `2 ^ 64` apart have equal words only when they are equal. -/
theorem ofNat_inj_of_near {r w : Nat} (h : r ≤ w) (hd : w - r < 2 ^ 64) :
    UInt64.ofNat r = UInt64.ofNat w ↔ r = w := by
  constructor
  · intro he
    have hn := congrArg UInt64.toNat he
    rw [UInt64.toNat_ofNat', UInt64.toNat_ofNat'] at hn
    omega
  · exact congrArg UInt64.ofNat

/-- One more on a digit that is not full. -/
theorem succ_of_not_full {n radix : Nat} (h : n % radix + 1 < radix) :
    (n + 1) % radix = n % radix + 1 ∧ (n + 1) / radix = n / radix := by
  have hdivision := Nat.div_add_mod n radix
  have hunique := (Nat.div_mod_unique (a := n + 1) (d := n / radix) (c := n % radix + 1)
    (by omega : 0 < radix)).mpr ⟨by omega, h⟩
  exact ⟨hunique.2, hunique.1⟩

/-- One more on a full digit carries. -/
theorem succ_of_full {n radix : Nat} (h : n % radix + 1 = radix) :
    (n + 1) % radix = 0 ∧ (n + 1) / radix = n / radix + 1 := by
  have hdivision := Nat.div_add_mod n radix
  have hnext : 0 + radix * (n / radix + 1) = n + 1 := by
    rw [Nat.mul_add, Nat.mul_one]
    omega
  have hunique := (Nat.div_mod_unique (by omega : 0 < radix)).mpr
    ⟨hnext, (by omega : 0 < radix)⟩
  exact ⟨hunique.2, hunique.1⟩

end Verif
