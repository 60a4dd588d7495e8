import Mathlib.Data.List.Basic

/-!
# The total of a table

A table of entries with a weight for each: what appending and replacing entries does to the total,
and that no entry weighs more than the table.
-/

namespace Verif.Ledger

universe u

variable {α : Type u} (weight : α → Nat)

/-- The weights of all entries together. -/
def total (l : List α) : Nat := l.foldr (fun a sum ↦ weight a + sum) 0

@[simp] theorem total_nil : total weight [] = 0 := rfl

@[simp] theorem total_cons (a : α) (l : List α) :
    total weight (a :: l) = weight a + total weight l := rfl

theorem total_concat (l : List α) (a : α) :
    total weight (l ++ [a]) = total weight l + weight a := by
  induction l with
  | nil => simp
  | cons b l ih =>
    rw [List.cons_append, total_cons, ih, total_cons]
    omega

/-- Replacing an entry replaces its weight. -/
theorem total_set {l : List α} {i : Nat} {a : α} (h : l[i]? = some a) (b : α) :
    total weight (l.set i b) + weight a = total weight l + weight b := by
  induction l generalizing i with
  | nil => cases h
  | cons c l ih =>
    cases i with
    | zero =>
      cases h
      rw [List.set_cons_zero, total_cons, total_cons]
      omega
    | succ i =>
      have hrest := ih (i := i) h
      rw [List.set_cons_succ, total_cons, total_cons]
      omega

theorem weight_le_total {l : List α} {i : Nat} {a : α} (h : l[i]? = some a) :
    weight a ≤ total weight l := by
  induction l generalizing i with
  | nil => cases h
  | cons c l ih =>
    rw [total_cons]
    cases i with
    | zero =>
      cases h
      omega
    | succ i =>
      have hrest := ih (i := i) h
      omega

theorem total_eq_zero {l : List α} (h : ∀ a ∈ l, weight a = 0) : total weight l = 0 := by
  induction l with
  | nil => rfl
  | cons c l ih =>
    rw [total_cons, h c List.mem_cons_self, ih fun a ha ↦ h a (List.mem_cons_of_mem c ha)]

end Verif.Ledger
