import Mathlib.Data.List.DropRight

/-!
# The last event of a history

A history is a list of entries, oldest first. An entry may set the value of a key, or of many; what
a key holds is the value last set.
-/

namespace Verif

universe u v w

variable {ε : Type u} {κ : Type v} {β : Type w}

/-- The value an entry of the history last set for a key. -/
def lastOf (event : ε → κ → Option β) (t : List ε) (k : κ) : Option β :=
  t.reverse.findSome? (event · k)

variable {event : ε → κ → Option β} {t : List ε} {entry : ε} {k : κ}

@[simp] theorem lastOf_nil (event : ε → κ → Option β) (k : κ) : lastOf event [] k = none := rfl

theorem lastOf_concat (event : ε → κ → Option β) (t : List ε) (entry : ε) (k : κ) :
    lastOf event (t ++ [entry]) k = (event entry k).or (lastOf event t k) := by
  rw [lastOf, List.reverse_append, List.findSome?_append, List.reverse_singleton,
    List.findSome?_singleton]
  rfl

/-- An entry that does not set the key leaves its value. -/
theorem lastOf_skip (h : event entry k = none) :
    lastOf event (t ++ [entry]) k = lastOf event t k := by
  rw [lastOf_concat, h, Option.none_or]

/-- Of the newest entries of a history the oldest makes room for the next one. -/
theorem rtake_evict (t : List ε) (n : Nat) :
    (if (t.rtake (n + 1)).length ≥ n + 1 then (t.rtake (n + 1)).drop 1
      else t.rtake (n + 1)) = t.rtake n := by
  unfold List.rtake
  rw [List.length_drop, List.drop_drop]
  by_cases hfull : t.length ≥ n + 1
  · have hlength : t.length - (t.length - (n + 1)) ≥ n + 1 := by omega
    have hdrop : t.length - (n + 1) + 1 = t.length - n := by omega
    rw [if_pos hlength, hdrop]
  · have hlength : ¬ t.length - (t.length - (n + 1)) ≥ n + 1 := by omega
    have hdrop : t.length - (n + 1) = t.length - n := by omega
    rw [if_neg hlength, hdrop]

end Verif
