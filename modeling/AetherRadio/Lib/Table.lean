import Mathlib.Logic.Function.Basic

/-!
# Key-value tables

A finite or infinite map read by key alone: a function to optional values, with the updates
of an entry. Nothing here depends on an order of the keys.
-/

namespace Verif

universe u v

/-- A map from keys to values; an absent key reads `none`. -/
def Table (κ : Type u) (ν : Type v) : Type (max u v) := κ → Option ν

namespace Table

variable {κ : Type u} {ν : Type v}

/-- The table without entries. -/
def empty : Table κ ν := fun _ ↦ none

/-- The value stored under a key. -/
def get? (t : Table κ ν) (k : κ) : Option ν := t k

/-- Tables with the same entries are the same. -/
theorem ext {t u : Table κ ν} (h : ∀ k, t.get? k = u.get? k) : t = u := funext h

variable [DecidableEq κ]

/-- Store a value, replacing the one under the same key. -/
def insert (t : Table κ ν) (k : κ) (v : ν) : Table κ ν := Function.update t k (some v)

/-- Remove the entry of a key. -/
def remove (t : Table κ ν) (k : κ) : Table κ ν := Function.update t k none

@[simp] theorem get?_insert_self (t : Table κ ν) (k : κ) (v : ν) :
    (t.insert k v).get? k = some v := Function.update_self ..

@[simp] theorem get?_insert_of_ne (t : Table κ ν) {k j : κ} (v : ν) (h : j ≠ k) :
    (t.insert k v).get? j = t.get? j := Function.update_of_ne h ..

@[simp] theorem get?_remove_self (t : Table κ ν) (k : κ) : (t.remove k).get? k = none :=
  Function.update_self ..

@[simp] theorem get?_remove_of_ne (t : Table κ ν) {k j : κ} (h : j ≠ k) :
    (t.remove k).get? j = t.get? j := Function.update_of_ne h ..

/-- The later of two stores under one key counts. -/
@[simp] theorem insert_insert (t : Table κ ν) (k : κ) (v w : ν) :
    (t.insert k v).insert k w = t.insert k w := Function.update_idem ..

/-- Storing what is already there changes nothing. -/
theorem insert_eq_self {t : Table κ ν} {k : κ} {v : ν} (h : t.get? k = some v) :
    t.insert k v = t := Function.update_eq_self_iff.mpr h.symm

end Table

end Verif
