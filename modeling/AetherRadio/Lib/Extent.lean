import Mathlib.Data.List.Basic

/-!
# Ranges of a sequence

A range has a start and a length. Reading takes the elements of a range, writing replaces them; a
write shows in the reads of its own range and not in those apart from it.
-/

namespace Verif

universe u

/-- A range of positions. -/
structure Extent where
  start : Nat
  length : Nat
  deriving DecidableEq

namespace Extent

/-- The first position after the range. -/
def stop (e : Extent) : Nat := e.start + e.length

/-- One range lies before the other. -/
def Apart (e f : Extent) : Prop := e.stop ≤ f.start ∨ f.stop ≤ e.start

/-- One range lies inside the other. -/
def Within (e f : Extent) : Prop := f.start ≤ e.start ∧ e.stop ≤ f.stop

instance (e f : Extent) : Decidable (e.Apart f) := inferInstanceAs (Decidable (_ ∨ _))

instance (e f : Extent) : Decidable (e.Within f) := inferInstanceAs (Decidable (_ ∧ _))

theorem Apart.symm {e f : Extent} (h : e.Apart f) : f.Apart e := Or.symm h

/-- Parts of ranges that are apart are apart. -/
theorem Apart.mono {e f e' f' : Extent} (h : e.Apart f) (he : e'.Within e) (hf : f'.Within f) :
    e'.Apart f' := by
  unfold Apart Within stop at *
  omega

variable {α : Type u}

/-- The elements of a range. -/
def read (e : Extent) (xs : List α) : List α := (xs.drop e.start).take e.length

/-- The list with the elements from `start` on replaced. -/
def write (start : Nat) (ys xs : List α) : List α :=
  xs.take start ++ ys ++ xs.drop (start + ys.length)

theorem length_read {e : Extent} {xs : List α} (h : e.stop ≤ xs.length) :
    (e.read xs).length = e.length := by
  rw [read, List.length_take, List.length_drop]
  unfold stop at h
  omega

theorem length_write {start : Nat} {xs ys : List α} (h : start + ys.length ≤ xs.length) :
    (write start ys xs).length = xs.length := by
  rw [write, List.length_append, List.length_append, List.length_take, List.length_drop]
  omega

theorem getElem?_read (e : Extent) (xs : List α) (i : Nat) :
    (e.read xs)[i]? = if i < e.length then xs[e.start + i]? else none := by
  rw [read, List.getElem?_take, List.getElem?_drop]

/-- The written elements are in place and the others are as they were. -/
theorem getElem?_write {start : Nat} {xs ys : List α} (h : start + ys.length ≤ xs.length)
    (i : Nat) :
    (write start ys xs)[i]? = (if start ≤ i then ys[i - start]? else none).or xs[i]? := by
  have htake : (xs.take start).length = start := by
    rw [List.length_take]
    omega
  rw [write, List.append_assoc]
  by_cases hbefore : i < start
  · rw [if_neg (by omega), Option.none_or, List.getElem?_append_left (by omega),
      List.getElem?_take_of_lt hbefore]
  · rw [if_pos (by omega), List.getElem?_append_right (by omega), htake]
    by_cases hinside : i < start + ys.length
    · have hin : i - start < ys.length := by omega
      rw [List.getElem?_append_left hin, List.getElem?_eq_getElem hin, Option.some_or]
    · rw [List.getElem?_eq_none (l := ys) (by omega), Option.none_or,
        List.getElem?_append_right (by omega), List.getElem?_drop]
      congr 1
      omega

/-- A write does not show apart from where it is. -/
theorem read_write_apart {e : Extent} {start : Nat} {xs ys : List α}
    (h : start + ys.length ≤ xs.length) (hapart : e.Apart ⟨start, ys.length⟩) :
    e.read (write start ys xs) = e.read xs := by
  apply List.ext_getElem?
  intro i
  rw [getElem?_read, getElem?_read]
  by_cases hi : i < e.length
  · rw [if_pos hi, if_pos hi, getElem?_write h]
    unfold Apart stop at hapart
    dsimp only at hapart
    by_cases hle : start ≤ e.start + i
    · rw [if_pos hle, List.getElem?_eq_none (l := ys) (by omega), Option.none_or]
    · rw [if_neg hle, Option.none_or]
  · rw [if_neg hi, if_neg hi]

/-- A write is read back. -/
theorem read_write_self {start : Nat} {xs ys : List α} (h : start + ys.length ≤ xs.length) :
    (Extent.mk start ys.length).read (write start ys xs) = ys := by
  apply List.ext_getElem?
  intro i
  rw [getElem?_read, getElem?_write h]
  dsimp only
  by_cases hi : i < ys.length
  · rw [if_pos hi, if_pos (Nat.le_add_right _ _), Nat.add_sub_cancel_left,
      List.getElem?_eq_getElem hi, Option.some_or]
  · rw [if_neg hi, List.getElem?_eq_none (Nat.not_lt.mp hi)]

end Extent

end Verif
