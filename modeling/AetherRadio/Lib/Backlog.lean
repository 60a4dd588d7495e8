import Mathlib.Algebra.Order.Monoid.Unbundled.MinMax
import Mathlib.Algebra.Order.Monoid.Unbundled.Pow
import Mathlib.Algebra.Order.Monoid.Defs
import Mathlib.Data.List.Basic

/-!
# The backlog of one server

Jobs arrive at times in ascending order, and a server takes them one after the other, each for the
same time: a job starts when it has arrived and the one before it is done. Of batches that come with
a period, every batch waits for as long as the ones before it have taken more than the period.
-/

namespace Verif.Backlog

universe u

variable {T : Type u} [AddCommMonoid T] [LinearOrder T]

/-- When the jobs start and arrive, given the clock, the time a job takes and the arrivals. -/
def schedule (d : T) : T → List T → List (T × T)
  | _, [] => []
  | clock, t :: ts => (max clock t, t) :: schedule d (max clock t + d) ts

/-- The clock when all jobs are done. -/
def clockAfter (d : T) : T → List T → T
  | clock, [] => clock
  | clock, t :: ts => clockAfter d (max clock t + d) ts

/-- The arrivals of `n` batches of `m` jobs with the period `p`. -/
def batches (p : T) (m n : Nat) : List T :=
  (List.range n).flatMap fun k ↦ List.replicate m (k • p)

omit [LinearOrder T] in
/-- One more batch. -/
theorem batches_succ (p : T) (m n : Nat) :
    batches p m (n + 1) = batches p m n ++ .replicate m (n • p) := by
  rw [batches, List.range_succ, List.flatMap_append, List.flatMap_singleton]
  rfl

variable {d : T}

theorem schedule_append (clock : T) (ts us : List T) :
    schedule d clock (ts ++ us) = schedule d clock ts ++ schedule d (clockAfter d clock ts) us := by
  induction ts generalizing clock with
  | nil => rfl
  | cons t ts ih => rw [List.cons_append, schedule, schedule, clockAfter, ih, List.cons_append]

theorem clockAfter_append (clock : T) (ts us : List T) :
    clockAfter d clock (ts ++ us) = clockAfter d (clockAfter d clock ts) us := by
  induction ts generalizing clock with
  | nil => rfl
  | cons t ts ih => rw [List.cons_append, clockAfter, clockAfter, ih]

variable [IsOrderedAddMonoid T] (hd : 0 ≤ d)
include hd

/-- The jobs of one batch start one after the other. -/
theorem batch (clock t : T) (m : Nat) :
    schedule d clock (.replicate (m + 1) t) =
      (List.range (m + 1)).map (fun j ↦ (max clock t + j • d, t)) ∧
      clockAfter d clock (.replicate (m + 1) t) = max clock t + (m + 1) • d := by
  induction m generalizing clock with
  | zero =>
    constructor
    · simp [schedule]
    · show max clock t + d = max clock t + (0 + 1) • d
      rw [Nat.zero_add, one_nsmul]
  | succ m ih =>
    have hlater : max (max clock t + d) t = max clock t + d :=
      max_eq_left (le_add_of_le_of_nonneg (le_max_right _ _) hd)
    obtain ⟨hjobs, hclock⟩ := ih (max clock t + d)
    rw [hlater] at hjobs hclock
    constructor
    · rw [List.replicate_succ, schedule, hjobs, List.range_succ_eq_map (n := m + 1), List.map_cons,
        List.map_map, zero_nsmul, add_zero]
      congr 1
      apply List.map_congr_left
      intro j _
      rw [Function.comp_apply, succ_nsmul', add_assoc]
    · rw [List.replicate_succ, clockAfter, hclock, succ_nsmul' d (m + 1), add_assoc]

variable (p : T) (m n : Nat)

/-- What a batch takes more than the period is passed on to the next one. -/
theorem max_clockAfter_batches :
    max (clockAfter d 0 (batches p (m + 1) n)) (n • p) = n • max p ((m + 1) • d) := by
  induction n with
  | zero => rw [zero_nsmul, zero_nsmul]; exact max_self 0
  | succ n ih =>
    obtain ⟨-, hclock⟩ := batch hd (clockAfter d 0 (batches p (m + 1) n)) (n • p) m
    rw [ih] at hclock
    rw [batches_succ, clockAfter_append, hclock, succ_nsmul p n, succ_nsmul (max _ _) n]
    apply le_antisymm
    · apply max_le
      · exact add_le_add le_rfl (le_max_right _ _)
      · exact add_le_add (nsmul_le_nsmul_right (le_max_left _ _) n) (le_max_left _ _)
    · rcases le_total p ((m + 1) • d) with hlong | hshort
      · rw [max_eq_right hlong]
        exact le_max_left _ _
      · rw [max_eq_left hshort]
        exact le_max_right _ _

/-- So every job of a batch starts after the jobs of its batch before it, and every batch after the
period or the service of a batch, whichever is longer. -/
theorem schedule_batches : schedule d 0 (batches p (m + 1) n) =
    (List.range n).flatMap fun k ↦
      (List.range (m + 1)).map fun j ↦ (k • max p ((m + 1) • d) + j • d, k • p) := by
  induction n with
  | zero => rfl
  | succ n ih =>
    obtain ⟨hbatch, -⟩ := batch hd (clockAfter d 0 (batches p (m + 1) n)) (n • p) m
    rw [max_clockAfter_batches hd] at hbatch
    rw [batches_succ, schedule_append, ih, hbatch, List.range_succ (n := n), List.flatMap_append,
      List.flatMap_singleton]

/-- The server is done with the last batch after its service. -/
theorem clockAfter_batches_succ : clockAfter d 0 (batches p (m + 1) (n + 1)) =
    n • max p ((m + 1) • d) + (m + 1) • d := by
  obtain ⟨-, hclock⟩ := batch hd (clockAfter d 0 (batches p (m + 1) n)) (n • p) m
  rw [max_clockAfter_batches hd] at hclock
  rw [batches_succ, clockAfter_append, hclock]

end Verif.Backlog
