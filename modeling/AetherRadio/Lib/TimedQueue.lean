import Mathlib.Data.List.Basic
import Mathlib.Data.List.Perm.Basic

/-!
# A queue whose elements become ready at a time

Elements are submitted with a due time and wait as pending until the clock shows that time or a
later one; from then on they are ready to be taken, in the order in which they became so. The clock
is set from outside and may also be set back. While it is not, and elements are submitted in the
order of their due times, the queue is determined by the clock and the elements it holds.
-/

namespace Verif.TimedQueue

universe u v

/-- Pending and ready elements with their due times. -/
structure Queue (T : Type u) (α : Type v) where
  now : T
  pending : List (T × α)
  ready : List (T × α)

/-- What can be asked of a queue. -/
inductive Op (T : Type u) (α : Type v) where
  | idle
  | setClock (now : T)
  | submit (due : T) (x : α)
  | take (n : Nat)

variable {T : Type u} {α : Type v}

/-- The submitted element with its due time, if there is one. -/
def Op.submitted : Op T α → List (T × α)
  | .submit due x => [(due, x)]
  | .idle | .setClock _ | .take _ => []

variable [LE T] [DecidableLE T]

namespace Queue

/-- What is due becomes ready. -/
def poll (q : Queue T α) : Queue T α :=
  { q with
    pending := q.pending.filter (¬ ·.1 ≤ q.now)
    ready := q.ready ++ q.pending.filter (·.1 ≤ q.now) }

/-- One operation, answered with what is taken. -/
def step (q : Queue T α) : Op T α → Queue T α × List (T × α)
  | .idle => (q, [])
  | .setClock now => ({ q with now }.poll, [])
  | .submit due x => ({ q with pending := q.pending ++ [(due, x)] }.poll, [])
  | .take n => ({ q.poll with ready := q.poll.ready.drop n }, q.poll.ready.take n)

/-- Polling loses nothing. -/
theorem poll_perm (q : Queue T α) :
    (q.poll.ready ++ q.poll.pending).Perm (q.ready ++ q.pending) := by
  rw [poll, List.append_assoc]
  apply List.Perm.append_left
  simpa only [decide_not] using
    List.filter_append_perm (fun p : T × α ↦ decide (p.1 ≤ q.now)) q.pending

/-- What is taken, ready and pending after an operation is what was ready, pending and
submitted. -/
theorem step_perm (q : Queue T α) (op : Op T α) :
    ((q.step op).2 ++ ((q.step op).1.ready ++ (q.step op).1.pending)).Perm
      (q.ready ++ q.pending ++ op.submitted) := by
  cases op with
  | idle => simp [step, Op.submitted]
  | setClock now => simpa [step, Op.submitted] using poll_perm { q with now }
  | submit due x =>
    simpa [step, Op.submitted] using poll_perm { q with pending := q.pending ++ [(due, x)] }
  | take n =>
    simp only [step, Op.submitted, List.append_nil]
    rw [← List.append_assoc, List.take_append_drop]
    exact q.poll_perm

/-- Nothing pending is due. -/
def Polled (q : Queue T α) : Prop := ∀ p ∈ q.pending, ¬ p.1 ≤ q.now

theorem polled_poll (q : Queue T α) : q.poll.Polled := by
  intro p hp
  have hkept := (List.mem_filter.mp hp).2
  rwa [decide_eq_true_eq] at hkept

/-- Every operation leaves it so. -/
theorem Polled.step {q : Queue T α} (h : q.Polled) (op : Op T α) : (q.step op).1.Polled := by
  cases op with
  | idle => exact h
  | setClock now => exact polled_poll { q with now }
  | submit due x => exact polled_poll { q with pending := q.pending ++ [(due, x)] }
  | take n => exact q.polled_poll

/-- What becomes ready or is taken was ready before, or was waiting and is due by now. -/
theorem due_of_mem {q : Queue T α} {op : Op T α} {p : T × α}
    (h : p ∈ (q.step op).2 ++ (q.step op).1.ready) :
    p ∈ q.ready ∨ p ∈ q.pending ++ op.submitted ∧ p.1 ≤ (q.step op).1.now := by
  have hpoll (q : Queue T α) (h : p ∈ q.poll.ready) :
      p ∈ q.ready ∨ p ∈ q.pending ∧ p.1 ≤ q.now := by
    rcases List.mem_append.mp h with hready | hdue
    · exact .inl hready
    · exact .inr (by simpa using hdue)
  cases op with
  | idle => exact .inl (by simpa [step] using h)
  | setClock now =>
    rw [Op.submitted, List.append_nil]
    exact hpoll { q with now } (by simpa [step] using h)
  | submit due x =>
    exact hpoll { q with pending := q.pending ++ [(due, x)] } (by simpa [step] using h)
  | take n =>
    rw [step, List.take_append_drop] at h
    rw [Op.submitted, List.append_nil]
    exact hpoll q h

end Queue

section InOrder

variable {now later : T} {waiting : List (T × α)}

/-- The queue that holds these elements at a time: those that are due are ready. -/
def holding (now : T) (waiting : List (T × α)) : Queue T α where
  now := now
  pending := waiting.filter (¬ ·.1 ≤ now)
  ready := waiting.filter (·.1 ≤ now)

/-- The elements left when `n` of those that are due are taken. -/
def left (now : T) (waiting : List (T × α)) (n : Nat) : List (T × α) :=
  (waiting.filter (·.1 ≤ now)).drop n ++ waiting.filter (¬ ·.1 ≤ now)

theorem length_holding (now : T) (waiting : List (T × α)) :
    (holding now waiting).pending.length + (holding now waiting).ready.length =
      waiting.length := by
  have hsplit := List.length_eq_length_filter_add (l := waiting)
    (fun p ↦ decide (p.1 ≤ now))
  simp only [holding, decide_not]
  omega

/-- A poll finds nothing new in it. -/
theorem poll_holding (now : T) (waiting : List (T × α)) :
    (holding now waiting).poll = holding now waiting := by
  simp [Queue.poll, holding, List.filter_filter]

/-- A submission is held. -/
theorem step_submit_holding (now due : T) (x : α) (waiting : List (T × α)) :
    (holding now waiting).step (.submit due x) = (holding now (waiting ++ [(due, x)]), []) := by
  simp [Queue.step, Queue.poll, holding, List.filter_append, List.filter_filter]

/-- What is taken is no longer held. -/
theorem step_take_holding (now : T) (waiting : List (T × α)) (n : Nat) :
    (holding now waiting).step (.take n) =
      (holding now (left now waiting n), (waiting.filter (·.1 ≤ now)).take n) := by
  have hdue : ((waiting.filter (·.1 ≤ now)).drop n).filter (·.1 ≤ now) =
      (waiting.filter (·.1 ≤ now)).drop n := by
    apply List.filter_eq_self.mpr
    intro p hp
    exact (List.mem_filter.mp (List.mem_of_mem_drop hp)).2
  have hnone : ((waiting.filter (·.1 ≤ now)).drop n).filter (¬ ·.1 ≤ now) = [] := by
    apply List.filter_eq_nil_iff.mpr
    intro p hp
    simpa using (List.mem_filter.mp (List.mem_of_mem_drop hp)).2
  have hready : (left now waiting n).filter (·.1 ≤ now) =
      (waiting.filter (·.1 ≤ now)).drop n := by
    rw [left, List.filter_append, hdue]
    simp [List.filter_filter]
  have hpending : (left now waiting n).filter (¬ ·.1 ≤ now) = waiting.filter (¬ ·.1 ≤ now) := by
    rw [left, List.filter_append, hnone]
    simp [List.filter_filter]
  rw [Queue.step, poll_holding]
  unfold holding
  rw [hready, hpending]

variable [Std.IsPreorder T]

/-- In the order of their due times the elements that are due come first. -/
theorem filter_append_filter (ordered : waiting.Pairwise (·.1 ≤ ·.1)) (now : T) :
    waiting.filter (·.1 ≤ now) ++ waiting.filter (¬ ·.1 ≤ now) = waiting := by
  induction waiting with
  | nil => rfl
  | cons p waiting ih =>
    obtain ⟨hfirst, hrest⟩ := List.pairwise_cons.mp ordered
    by_cases hdue : p.1 ≤ now
    · simpa [List.filter_cons, hdue] using ih hrest
    · have hlater : ∀ q ∈ waiting, ¬ q.1 ≤ now :=
        fun q hq hle ↦ hdue (Std.le_trans (hfirst q hq) hle)
      have hnone : waiting.filter (·.1 ≤ now) = [] := by
        apply List.filter_eq_nil_iff.mpr
        intro q hq
        simpa using hlater q hq
      have hall : waiting.filter (¬ ·.1 ≤ now) = waiting := by
        apply List.filter_eq_self.mpr
        intro q hq
        simpa using hlater q hq
      rw [List.filter_cons_of_neg (by simpa using hdue),
        List.filter_cons_of_pos (by simpa using hdue), hnone, hall, List.nil_append]

/-- What is due at a time is due later. -/
theorem filter_of_due {xs : List (T × α)} (hdue : ∀ p ∈ xs, p.1 ≤ now) (hlater : now ≤ later) :
    xs.filter (·.1 ≤ later) = xs := by
  apply List.filter_eq_self.mpr
  intro p hp
  rw [decide_eq_true_eq]
  exact Std.le_trans (hdue p hp) hlater

/-- Setting the clock forward makes no difference to what is held. -/
theorem step_setClock_holding (ordered : waiting.Pairwise (·.1 ≤ ·.1)) (hlater : now ≤ later) :
    (holding now waiting).step (.setClock later) = (holding later waiting, []) := by
  have hready : waiting.filter (·.1 ≤ now) ++
      (waiting.filter (¬ ·.1 ≤ now)).filter (·.1 ≤ later) = waiting.filter (·.1 ≤ later) := by
    have hdue : (waiting.filter (·.1 ≤ now)).filter (·.1 ≤ later) = waiting.filter (·.1 ≤ now) := by
      apply filter_of_due _ hlater
      intro p hp
      exact of_decide_eq_true (List.mem_filter.mp hp).2
    rw [← hdue, ← List.filter_append, filter_append_filter ordered]
  have hpending : (waiting.filter (¬ ·.1 ≤ now)).filter (¬ ·.1 ≤ later) =
      waiting.filter (¬ ·.1 ≤ later) := by
    rw [List.filter_filter]
    apply List.filter_congr
    intro p _
    by_cases hdue : p.1 ≤ later
    · simp [hdue]
    · have hearlier : ¬ p.1 ≤ now := fun hle ↦ hdue (Std.le_trans hle hlater)
      simp [hdue, hearlier]
  simp only [Queue.step, Queue.poll, holding, hready, hpending]

/-- What is taken comes before what is left. -/
theorem take_append_left (ordered : waiting.Pairwise (·.1 ≤ ·.1)) (now : T) (n : Nat) :
    (waiting.filter (·.1 ≤ now)).take n ++ left now waiting n = waiting := by
  rw [left, ← List.append_assoc, List.take_append_drop, filter_append_filter ordered]

end InOrder

section Runs

variable (ops : Nat → Op T α) (start : T)

/-- The queue before the operation of a position. -/
def queueAt : Nat → Queue T α
  | 0 => ⟨start, [], []⟩
  | n + 1 => ((queueAt n).step (ops n)).1

/-- What is taken by the operation of a position. -/
def takenAt (n : Nat) : List (T × α) := ((queueAt ops start n).step (ops n)).2

/-- Everything submitted is pending, ready or taken, once. -/
theorem conserves (n : Nat) : ((List.range n).flatMap (takenAt ops start) ++
    ((queueAt ops start n).ready ++ (queueAt ops start n).pending)).Perm
      ((List.range n).flatMap (ops · |>.submitted)) := by
  induction n with
  | zero => exact .refl _
  | succ n ih =>
    rw [List.range_succ, List.flatMap_append, List.flatMap_append, List.flatMap_singleton,
      List.flatMap_singleton, List.append_assoc]
    apply (((queueAt ops start n).step_perm (ops n)).append_left _).trans
    rw [← List.append_assoc]
    exact ih.append_right _

theorem polled (n : Nat) : (queueAt ops start n).Polled := by
  induction n with
  | zero => exact fun _ hp ↦ by cases hp
  | succ n ih => exact ih.step (ops n)

/-- What is ready was due at some time before, while it waited. -/
theorem ready_due {n : Nat} {p : T × α} (h : p ∈ (queueAt ops start n).ready) :
    ∃ j < n, p ∈ (queueAt ops start j).pending ++ (ops j).submitted ∧
      p.1 ≤ (queueAt ops start (j + 1)).now := by
  induction n with
  | zero => cases h
  | succ n ih =>
    rcases Queue.due_of_mem (List.mem_append_right _ h) with hready | hdue
    · obtain ⟨j, hj, hwaited⟩ := ih hready
      exact ⟨j, by omega, hwaited⟩
    · exact ⟨n, Nat.lt_succ_self n, hdue⟩

/-- What is taken was due at some time before, while it waited, or is due now. -/
theorem taken_due {n : Nat} {p : T × α} (h : p ∈ takenAt ops start n) :
    ∃ j ≤ n, p ∈ (queueAt ops start j).pending ++ (ops j).submitted ∧
      p.1 ≤ (queueAt ops start (j + 1)).now := by
  rcases Queue.due_of_mem (List.mem_append_left _ h) with hready | hdue
  · obtain ⟨j, hj, hwaited⟩ := ready_due ops start hready
    exact ⟨j, Nat.le_of_lt hj, hwaited⟩
  · exact ⟨n, Nat.le_refl _, hdue⟩

end Runs

end Verif.TimedQueue
