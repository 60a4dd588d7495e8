import Mathlib.Data.List.Basic

/-!
# Texts of lines

Texts as lists of characters: the lines of a text, the parts of a line before and after a mark, and
the decimal form of a natural number.
-/

namespace Verif.Text

universe u

variable {α : Type u} [BEq α] [LawfulBEq α]

/-- The lines of a text that starts with these. -/
theorem splitOn_lines_append {x : α} {ls : List (List α)} (h : ∀ l ∈ ls, x ∉ l) (rest : List α) :
    (ls.flatMap (· ++ [x]) ++ rest).splitOn x = ls ++ rest.splitOn x := by
  induction ls with
  | nil => rfl
  | cons l ls ih =>
    rw [List.flatMap_cons, List.append_assoc, List.append_assoc, List.singleton_append,
      List.splitOn_append_cons_self_of_not_mem (h l List.mem_cons_self),
      ih fun l' hl' ↦ h l' (List.mem_cons_of_mem l hl')]
    rfl

/-- The lines of a text that ends each of its lines. -/
theorem splitOn_lines {x : α} {ls : List (List α)} (h : ∀ l ∈ ls, x ∉ l) :
    (ls.flatMap (· ++ [x])).splitOn x = ls ++ [[]] := by
  have hlines := splitOn_lines_append h []
  rwa [List.append_nil] at hlines

/-- What stands before the first `x` of a list, and what after it. -/
def cut (x : α) : List α → Option (List α × List α)
  | [] => none
  | a :: as =>
    if a == x then some ([], as)
    else (cut x as).map fun parts ↦ (a :: parts.1, parts.2)

theorem cut_append_cons {x : α} {as : List α} (h : x ∉ as) (bs : List α) :
    cut x (as ++ x :: bs) = some (as, bs) := by
  induction as with
  | nil =>
    show (if x == x then _ else _) = _
    rw [if_pos (BEq.rfl)]
  | cons a as ih =>
    rw [List.mem_cons, not_or] at h
    show (if a == x then _ else (cut x (as ++ x :: bs)).map _) = _
    rw [if_neg fun heq ↦ h.1 (eq_of_beq heq).symm, ih h.2]
    rfl

/-- A prefix is taken off. -/
theorem dropPrefix?_append (as bs : List α) : (as ++ bs).dropPrefix? as = some bs :=
  List.dropPrefix?_append_of_beq bs BEq.rfl

/-- The number that a text of decimal digits stands for. -/
def readNat (cs : List Char) : Option Nat :=
  if cs ≠ [] ∧ cs.all Char.isDigit then some (Nat.ofDigitChars 10 cs 0) else none

/-- A number is read from its decimal form. -/
theorem readNat_repr (n : Nat) : readNat n.repr.toList = some n := by
  have htext : n.repr.toList = Nat.toDigits 10 n := by
    rw [Nat.repr_eq_ofList_toDigits, String.toList_ofList]
  have hdigits : (Nat.toDigits 10 n).all Char.isDigit := by
    rw [List.all_eq_true]
    intro c hc
    exact Nat.isDigit_of_mem_toDigits (by decide) (by decide) hc
  have hne : Nat.toDigits 10 n ≠ [] := List.ne_nil_of_length_pos Nat.length_toDigits_pos
  rw [htext, readNat, if_pos ⟨hne, hdigits⟩, Nat.ofDigitChars_toDigits (by decide) (by decide)]

/-- A decimal form has digits only. -/
theorem not_mem_repr {c : Char} (hc : c.isDigit = false) (n : Nat) : c ∉ n.repr.toList := by
  intro hmem
  rw [Nat.repr_eq_ofList_toDigits, String.toList_ofList] at hmem
  have hdigit := Nat.isDigit_of_mem_toDigits (by decide) (by decide) hmem
  rw [hc] at hdigit
  cases hdigit

end Verif.Text
