import Mathlib.Data.ENat.Basic

/-!
# Bounded first-in first-out queues

The abstract queue over any element type: an event enqueues an element below the capacity,
dequeues the oldest one, or discards everything. A path is a run of such events.
-/

namespace Verif.Fifo

universe u

variable {α : Type u}

/-- What can happen to a queue. -/
inductive Event (α : Type u) where
  | enq (x : α)
  | deq (x : α)
  | clear

/-- One event on a queue that holds at most `cap` elements. -/
inductive Step (cap : ℕ∞) : List α → Event α → List α → Prop where
  | enq {q : List α} (x : α) (room : (q.length : ℕ∞) < cap) : Step cap q (.enq x) (q ++ [x])
  | deq (x : α) (q : List α) : Step cap (x :: q) (.deq x) q
  | clear (q : List α) : Step cap q .clear []

/-- A run of events, extended at its end. -/
inductive Path (cap : ℕ∞) : List α → List (Event α) → List α → Prop where
  | nil (q : List α) : Path cap q [] q
  | snoc {q q' q'' : List α} {es : List (Event α)} {e : Event α} :
      Path cap q es q' → Step cap q' e q'' → Path cap q (es ++ [e]) q''

/-- The enqueued element of an event. -/
def Event.enq? : Event α → Option α
  | .enq x => some x
  | _ => none

/-- The dequeued element of an event. -/
def Event.deq? : Event α → Option α
  | .deq x => some x
  | _ => none

/-- The elements a run enqueued, oldest first. -/
def enqs (es : List (Event α)) : List α := es.filterMap Event.enq?

/-- The elements a run dequeued, oldest first. -/
def deqs (es : List (Event α)) : List α := es.filterMap Event.deq?

@[simp] theorem enqs_nil : enqs ([] : List (Event α)) = [] := rfl

@[simp] theorem deqs_nil : deqs ([] : List (Event α)) = [] := rfl

theorem enqs_append (es fs : List (Event α)) : enqs (es ++ fs) = enqs es ++ enqs fs :=
  List.filterMap_append

theorem deqs_append (es fs : List (Event α)) : deqs (es ++ fs) = deqs es ++ deqs fs :=
  List.filterMap_append

/-- Runs compose. -/
theorem Path.append {cap : ℕ∞} {q q' q'' : List α} {es fs : List (Event α)}
    (h : Path cap q es q') (h' : Path cap q' fs q'') : Path cap q (es ++ fs) q'' := by
  induction h' with
  | nil => simpa using h
  | snoc _ step ih =>
    rw [← List.append_assoc]
    exact .snoc ih step

/-- Without a discard, what came out followed by what is still queued is what was there
followed by what went in: nothing is lost, repeated or reordered. -/
theorem Path.conserves {cap : ℕ∞} {q q' : List α} {es : List (Event α)}
    (h : Path cap q es q') (hc : .clear ∉ es) : q ++ enqs es = deqs es ++ q' := by
  induction h with
  | nil => simp
  | snoc _ step ih =>
    have hfst := ih (fun hm ↦ hc (List.mem_append_left _ hm))
    rw [enqs_append, deqs_append, ← List.append_assoc, hfst]
    cases step with
    | enq x room => simp [enqs, deqs, Event.enq?, Event.deq?]
    | deq x q => simp [enqs, deqs, Event.enq?, Event.deq?]
    | clear => exact absurd (List.mem_append_right _ List.mem_cons_self) hc

end Verif.Fifo
