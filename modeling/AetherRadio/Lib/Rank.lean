import Mathlib.Algebra.Order.Floor.Semifield
import Mathlib.Data.Rat.Floor

/-!
# Ranks in sorted lists

How many elements of a sorted list are at most a value, and when the element at a share of the way
through the list, with its index rounded down, has that share of the list at or below it.
-/

namespace Verif

universe u

variable {α : Type u} [LE α]

/-- The elements of a sorted list ascend with their indices. -/
theorem getElem_le_getElem [Std.IsPreorder α] {xs : List α} (hsorted : xs.Pairwise (· ≤ ·))
    {i j : Nat} (hij : i ≤ j) (hi : i < xs.length) (hj : j < xs.length) : xs[i] ≤ xs[j] := by
  rcases Nat.eq_or_lt_of_le hij with rfl | hlt
  · exact Std.le_refl _
  · exact List.pairwise_iff_getElem.mp hsorted i j hi hj hlt

variable [DecidableLE α]

/-- At least the share `q` of the elements is at most `x`. -/
def Covers (q : ℚ) (xs : List α) (x : α) : Prop := q * xs.length ≤ xs.countP (· ≤ x)

instance (q : ℚ) (xs : List α) (x : α) : Decidable (Covers q xs x) :=
  inferInstanceAs (Decidable (_ ≤ _))

theorem covers_nil (q : ℚ) (x : α) : Covers q [] x := by
  simp [Covers]

/-- The order of the elements does not matter. -/
theorem Covers.of_perm {q : ℚ} {xs ys : List α} {x : α} (hperm : xs.Perm ys) :
    Covers q xs x ↔ Covers q ys x := by
  rw [Covers, Covers, hperm.length_eq, hperm.countP_eq]

/-- More elements are at most a larger value. -/
theorem Covers.mono [Std.IsPreorder α] {q : ℚ} {xs : List α} {x y : α} (h : Covers q xs x)
    (hle : x ≤ y) : Covers q xs y := by
  have hcount : xs.countP (· ≤ x) ≤ xs.countP (· ≤ y) := by
    apply List.countP_mono_left
    intro a _ ha
    rw [decide_eq_true_eq] at ha ⊢
    exact Std.le_trans ha hle
  exact le_trans h (Nat.cast_le.mpr hcount)

theorem covers_div_iff {num den : Nat} (hden : 0 < den) {xs : List α} {x : α} :
    Covers (num / den : ℚ) xs x ↔ num * xs.length ≤ den * xs.countP (· ≤ x) := by
  have hpos : (0 : ℚ) < den := by exact_mod_cast hden
  rw [Covers, div_mul_eq_mul_div, div_le_iff₀ hpos, mul_comm _ (den : ℚ)]
  exact_mod_cast Iff.rfl

/-- A fraction of an index, rounded down. -/
theorem floor_div_mul (num den m : Nat) : ⌊(num / den : ℚ) * m⌋₊ = num * m / den := by
  rw [div_mul_eq_mul_div, ← Nat.cast_mul]
  exact Nat.floor_div_eq_div _ _

/-- With all but one of `den` parts as the share, the rounding loses nothing for a multiple of `den`
elements, and for one more. -/
theorem pred_mul_mod_add_le_iff {den : Nat} (hden : 1 < den) (m : Nat) :
    (den - 1) * m % den + (den - 1) ≤ den ↔ (m + 1) % den ≤ 1 := by
  have hrest := Nat.mod_lt ((den - 1) * m) (Nat.zero_lt_of_lt hden)
  have hm := Nat.mod_lt m (Nat.zero_lt_of_lt hden)
  have htotal : ((den - 1) * m % den + m % den) % den = 0 := by
    rw [← Nat.add_mod, ← Nat.succ_mul, Nat.succ_eq_add_one, Nat.sub_add_cancel (by omega),
      Nat.mul_mod_right]
  rw [Nat.add_mod m 1, Nat.mod_eq_of_lt hden]
  generalize (den - 1) * m % den = a at *
  generalize m % den = b at *
  have hsum : a + b = 0 ∨ a + b = den := by
    rcases Nat.lt_or_ge (a + b) den with hlt | hge
    · rw [Nat.mod_eq_of_lt hlt] at htotal
      exact .inl htotal
    · rw [Nat.mod_eq_sub_mod hge, Nat.mod_eq_of_lt (by omega)] at htotal
      exact .inr (by omega)
  by_cases hlast : b + 1 = den
  · rw [hlast, Nat.mod_self]
    omega
  · rw [Nat.mod_eq_of_lt (by omega : b + 1 < den)]
    omega

variable [Std.IsPreorder α] {xs : List α}

/-- More elements than an index are at most `x` exactly when the one there is. -/
theorem lt_countP_le_iff (hsorted : xs.Pairwise (· ≤ ·)) {x : α} {i : Nat} (hi : i < xs.length) :
    i < xs.countP (· ≤ x) ↔ xs[i] ≤ x := by
  induction xs generalizing i with
  | nil => cases hi
  | cons a xs ih =>
    obtain ⟨hhead, htail⟩ := List.pairwise_cons.mp hsorted
    by_cases ha : a ≤ x
    · rw [List.countP_cons_of_pos (by simpa using ha)]
      cases i with
      | zero => simp [ha]
      | succ i =>
        rw [Nat.succ_lt_succ_iff, List.getElem_cons_succ]
        exact ih htail (Nat.lt_of_succ_lt_succ hi)
    · have habove (b : α) (hb : b ∈ a :: xs) : ¬ b ≤ x := by
        rcases List.mem_cons.mp hb with rfl | hb
        · exact ha
        · exact fun hle ↦ ha (Std.le_trans (hhead b hb) hle)
      have hnone : (a :: xs).countP (· ≤ x) = 0 := by
        apply List.countP_eq_zero.mpr
        intro b hb
        simpa using habove b hb
      rw [hnone]
      exact iff_of_false (Nat.not_lt_zero i) (habove _ (List.getElem_mem hi))

/-- The element at a share of the way covers the share exactly when the rounding has not lost it, or
when the next element is no larger. -/
theorem covers_floor_iff (hsorted : xs.Pairwise (· ≤ ·)) {num den m i : Nat} (hnum : num ≤ den)
    (hpos : 0 < num) (hlength : xs.length = m + 1) (hi : i < xs.length)
    (hfloor : num * m / den = i) :
    Covers (num / den : ℚ) xs xs[i] ↔
      num * m % den + num ≤ den ∨ ∃ h : i + 1 < xs.length, xs[i + 1] ≤ xs[i] := by
  have hden : 0 < den := Nat.lt_of_lt_of_le hpos hnum
  have hparts := Nat.div_add_mod (num * m) den
  have hrest := Nat.mod_lt (num * m) hden
  have hshare : num * xs.length = num * m + num := by rw [hlength, Nat.mul_succ]
  rw [covers_div_iff hden, hshare]
  rw [hfloor] at hparts
  by_cases hkept : num * m % den + num ≤ den
  · -- the element at `i` and those before it are enough
    have hrank : i < xs.countP (· ≤ xs[i]) := (lt_countP_le_iff hsorted hi).mpr (Std.le_refl _)
    have henough := Nat.mul_le_mul_left den hrank
    rw [Nat.mul_succ] at henough
    exact iff_of_true (by omega) (.inl hkept)
  · -- one more element is needed
    have hmore : i + 1 < xs.length := by
      by_contra hlast
      have hall := Nat.mul_le_mul_right (m + 1) hnum
      have hi' : den * (m + 1) ≤ den * (i + 1) := Nat.mul_le_mul_left den (by omega)
      rw [Nat.mul_succ den i] at hi'
      rw [Nat.mul_succ num m] at hall
      omega
    have hneeded : num * m + num ≤ den * xs.countP (· ≤ xs[i]) ↔
        i + 1 < xs.countP (· ≤ xs[i]) := by
      constructor
      · intro hcovered
        by_contra hfew
        have hle := Nat.mul_le_mul_left den (Nat.le_of_not_lt hfew)
        rw [Nat.mul_succ] at hle
        omega
      · intro hrank
        have hle := Nat.mul_le_mul_left den hrank
        rw [Nat.mul_succ, Nat.mul_succ] at hle
        omega
    rw [hneeded, lt_countP_le_iff hsorted hmore]
    constructor
    · exact fun hle ↦ .inr ⟨hmore, hle⟩
    · rintro (hkept' | ⟨_, hle⟩)
      · exact absurd hkept' hkept
      · exact hle

end Verif
