import Mathlib.Data.List.Basic
import Mathlib.Data.List.Perm.Basic

/-!
# A line that holds one element back

Elements are offered to the line or lost on the way. The line lets them through in order, but while
it holds nothing it takes an offered element out and lets it go again a fixed number of events
later. The elements may be of any type; run on their own positions, the line tells which element
comes out when.
-/

namespace Verif.HoldLine

universe u v

variable {α : Type u} {β : Type v}

/-- What can happen at the entrance. -/
inductive Event (α : Type u) where
  | lose
  | offer (x : α)

/-- The element held back and the number of events it is still held for. -/
structure Line (α : Type u) where
  held : Option α
  countdown : Nat

/-- The elements of an event renamed. -/
def Event.map (f : α → β) : Event α → Event β
  | .lose => .lose
  | .offer x => .offer (f x)

/-- The element offered, if there is one. -/
def Event.toList : Event α → List α
  | .lose => []
  | .offer x => [x]

namespace Line

/-- A line that holds nothing. -/
def empty : Line α := ⟨none, 0⟩

/-- The elements of a line renamed. -/
def map (f : α → β) (l : Line α) : Line β := ⟨l.held.map f, l.countdown⟩

/-- One event has passed the held element; answers with the element when its time is over. -/
def tick (l : Line α) : Line α × Option α :=
  match l.held with
  | none => (l, none)
  | some x => if l.countdown ≤ 1 then (⟨none, 0⟩, some x) else (⟨some x, l.countdown - 1⟩, none)

/-- One event, answered with what comes out. -/
def step (distance : Nat) (l : Line α) : Event α → Line α × List α
  | .lose => (l.tick.1, l.tick.2.toList)
  | .offer x =>
    if 0 < distance ∧ l.held = none then (⟨some x, distance⟩, [])
    else (l.tick.1, l.tick.2.toList ++ [x])

theorem tick_of_none {l : Line α} (h : l.held = none) : l.tick = (l, none) := by
  simp only [tick, h]

theorem tick_of_due {l : Line α} {x : α} (h : l.held = some x) (hdue : l.countdown ≤ 1) :
    l.tick = (⟨none, 0⟩, some x) := by
  simp only [tick, h, if_pos hdue]

theorem tick_of_not_due {l : Line α} {x : α} (h : l.held = some x) (hdue : ¬ l.countdown ≤ 1) :
    l.tick = (⟨some x, l.countdown - 1⟩, none) := by
  simp only [tick, h, if_neg hdue]

/-- A tick does not look at the elements. -/
theorem tick_map (f : α → β) (l : Line α) :
    (l.map f).tick = (l.tick.1.map f, l.tick.2.map f) := by
  obtain ⟨_ | x, countdown⟩ := l
  · rfl
  · by_cases hdue : countdown ≤ 1
    · rw [tick_of_due rfl hdue, tick_of_due rfl hdue]
      rfl
    · rw [tick_of_not_due rfl hdue, tick_of_not_due rfl hdue]
      rfl

/-- Nor does a step. -/
theorem step_map (distance : Nat) (f : α → β) (l : Line α) (e : Event α) :
    (l.map f).step distance (e.map f) =
      ((l.step distance e).1.map f, (l.step distance e).2.map f) := by
  cases e with
  | lose =>
    simp only [Event.map, step, tick_map, Prod.mk.injEq, true_and]
    cases l.tick.2 <;> rfl
  | offer x =>
    have hheld : (l.map f).held = none ↔ l.held = none := Option.map_eq_none_iff
    simp only [Event.map, step, tick_map, hheld]
    split
    · rfl
    · rw [List.map_append]
      cases l.tick.2 <;> rfl

/-- A tick lets the held element go or keeps it. -/
theorem tick_conserves (l : Line α) : l.tick.2.toList ++ l.tick.1.held.toList = l.held.toList := by
  cases hheld : l.held with
  | none => rw [tick_of_none hheld, hheld]; rfl
  | some x =>
    by_cases hdue : l.countdown ≤ 1
    · rw [tick_of_due hheld hdue]; rfl
    · rw [tick_of_not_due hheld hdue]; rfl

/-- What comes out and what is held then is what was held and what was offered. -/
theorem step_perm (distance : Nat) (l : Line α) (e : Event α) :
    ((l.step distance e).2 ++ (l.step distance e).1.held.toList).Perm
      (l.held.toList ++ e.toList) := by
  cases e with
  | lose =>
    rw [step, tick_conserves, Event.toList, List.append_nil]
  | offer x =>
    rw [step, Event.toList]
    split
    · next h =>
      rw [h.2]
      exact .refl _
    · rw [← l.tick_conserves, List.append_assoc, List.append_assoc]
      exact List.perm_append_comm.append_left _

end Line

section Positions

variable (distance : Nat) (lost : Nat → Bool)

/-- The event that offers or loses the element of a position. -/
def eventAt (n : Nat) : Event Nat := if lost n then .lose else .offer n

/-- The line before the event of a position. -/
def lineAt : Nat → Line Nat
  | 0 => .empty
  | n + 1 => ((lineAt n).step distance (eventAt lost n)).1

/-- The positions of what comes out at an event. -/
def outAt (n : Nat) : List Nat := ((lineAt distance lost n).step distance (eventAt lost n)).2

/-- What can happen at an event: what was held is let go or not, and the element itself is lost,
held or let through. -/
inductive StepAt (n : Nat) : Prop where
  | hold (kept : lost n = false) (far : 0 < distance)
      (before : (lineAt distance lost n).held = none)
      (line : lineAt distance lost (n + 1) = ⟨some n, distance⟩) (out : outAt distance lost n = [])
  | pass (before : (lineAt distance lost n).held = none)
      (free : lost n = true ∨ distance = 0)
      (line : lineAt distance lost (n + 1) = lineAt distance lost n)
      (out : outAt distance lost n = if lost n then [] else [n])
  | keep (i : Nat) (before : (lineAt distance lost n).held = some i)
      (early : 1 < (lineAt distance lost n).countdown)
      (line : lineAt distance lost (n + 1) = ⟨some i, (lineAt distance lost n).countdown - 1⟩)
      (out : outAt distance lost n = if lost n then [] else [n])
  | release (i : Nat) (before : (lineAt distance lost n).held = some i)
      (due : (lineAt distance lost n).countdown ≤ 1)
      (line : lineAt distance lost (n + 1) = ⟨none, 0⟩)
      (out : outAt distance lost n = if lost n then [i] else [i, n])

theorem stepAt (n : Nat) : StepAt distance lost n := by
  have hline : lineAt distance lost (n + 1) =
    ((lineAt distance lost n).step distance (eventAt lost n)).1 := rfl
  have hout : outAt distance lost n =
    ((lineAt distance lost n).step distance (eventAt lost n)).2 := rfl
  cases hheld : (lineAt distance lost n).held with
  | none =>
    cases hlost : lost n with
    | true =>
      rw [eventAt, hlost, if_pos rfl, Line.step, Line.tick_of_none hheld] at hline hout
      exact .pass hheld (.inl hlost) hline (by rw [hout, hlost]; rfl)
    | false =>
      rw [eventAt, hlost, if_neg (by decide), Line.step] at hline hout
      by_cases hfar : 0 < distance
      · rw [if_pos ⟨hfar, hheld⟩] at hline hout
        exact .hold hlost hfar hheld hline hout
      · rw [if_neg (fun h ↦ hfar h.1), Line.tick_of_none hheld] at hline hout
        exact .pass hheld (.inr (by omega)) hline (by rw [hout, hlost]; rfl)
  | some i =>
    have hstep : (lineAt distance lost n).step distance (eventAt lost n) =
        ((lineAt distance lost n).tick.1,
          (lineAt distance lost n).tick.2.toList ++ if lost n then [] else [n]) := by
      cases hlost : lost n with
      | true => rw [eventAt, hlost, if_pos rfl, if_pos rfl, List.append_nil, Line.step]
      | false =>
        rw [eventAt, hlost, if_neg (by decide), if_neg (by decide), Line.step, hheld,
          if_neg (by simp)]
    rw [hstep] at hline hout
    by_cases hdue : (lineAt distance lost n).countdown ≤ 1
    · rw [Line.tick_of_due hheld hdue] at hline hout
      refine .release i hheld hdue hline ?_
      rw [hout]
      split <;> rfl
    · rw [Line.tick_of_not_due hheld hdue] at hline hout
      exact .keep i hheld (by omega) hline hout

/-- What is held was held by its own event, and is let go `distance` events after it. -/
theorem held_spec {n i : Nat} (h : (lineAt distance lost n).held = some i) :
    i < n ∧ n + (lineAt distance lost n).countdown = i + distance + 1 ∧
      0 < (lineAt distance lost n).countdown ∧ lost i = false ∧ outAt distance lost i = [] := by
  induction n with
  | zero => cases h
  | succ n ih =>
    cases stepAt distance lost n with
    | hold kept far before line out =>
      rw [line] at h ⊢
      obtain rfl := Option.some.inj h
      exact ⟨by omega, by dsimp only; omega, far, kept, out⟩
    | pass before free line out =>
      rw [line, before] at h
      cases h
    | keep j before early line out =>
      rw [line] at h ⊢
      obtain rfl := Option.some.inj h
      obtain ⟨hlt, hsum, -, hlost, hout⟩ := ih before
      exact ⟨by omega, by dsimp only; omega, by dsimp only; omega, hlost, hout⟩
    | release j before due line out =>
      rw [line] at h
      cases h

/-- Nothing is lost on the line and nothing comes out twice. -/
theorem out_perm (n : Nat) :
    ((List.range n).flatMap (outAt distance lost) ++ (lineAt distance lost n).held.toList).Perm
      ((List.range n).filter (! lost ·)) := by
  induction n with
  | zero => exact .refl _
  | succ n ih =>
    have hevent : (eventAt lost n).toList = [n].filter (! lost ·) := by
      cases hlost : lost n <;> simp [eventAt, Event.toList, hlost]
    rw [List.range_succ, List.flatMap_append, List.filter_append, List.flatMap_singleton,
      List.append_assoc, ← hevent]
    apply ((Line.step_perm distance (lineAt distance lost n) (eventAt lost n)).append_left _).trans
    rw [← List.append_assoc]
    exact ih.append_right _

/-- What comes out at an event is its own element, or was held until then. -/
theorem mem_outAt {n i : Nat} (h : i ∈ outAt distance lost n) :
    i = n ∨ (lineAt distance lost n).held = some i ∧ (lineAt distance lost n).countdown ≤ 1 := by
  cases stepAt distance lost n with
  | hold kept far before line out =>
    rw [out] at h
    cases h
  | pass before free line out | keep j before early line out =>
    rw [out] at h
    split at h
    · cases h
    · exact .inl (List.mem_singleton.mp h)
  | release j before due line out =>
    rw [out] at h
    split at h
    · exact .inr ⟨(List.mem_singleton.mp h) ▸ before, due⟩
    · rcases List.mem_cons.mp h with rfl | hown
      · exact .inr ⟨before, due⟩
      · exact .inl (List.mem_singleton.mp hown)

/-- At most two elements come out at a time. -/
theorem length_outAt (n : Nat) : (outAt distance lost n).length ≤ 2 := by
  cases stepAt distance lost n with
  | hold kept far before line out => simp [out]
  | pass before free line out | keep i before early line out =>
    rw [out]
    split <;> simp
  | release i before due line out =>
    rw [out]
    split <;> simp

/-- The element comes out at its own event. -/
def passes (n : Nat) : Bool := n ∈ outAt distance lost n

theorem not_passes_of_nil {n : Nat} (h : outAt distance lost n = []) :
    passes distance lost n = false := by
  rw [passes, h, decide_eq_false List.not_mem_nil]

/-- What is held does not come out at its own event. -/
theorem not_passes_of_held {n i : Nat} (h : (lineAt distance lost n).held = some i) :
    passes distance lost i = false :=
  not_passes_of_nil distance lost (held_spec distance lost h).2.2.2.2

/-- An element that is not lost is held when nothing else is. -/
theorem passes_eq_false_iff {n : Nat} (hkept : lost n = false) :
    passes distance lost n = false ↔ 0 < distance ∧ (lineAt distance lost n).held = none := by
  have hthrough : n ∈ outAt distance lost n → passes distance lost n ≠ false := by
    intro hmem
    rw [passes, decide_eq_true hmem]
    decide
  cases stepAt distance lost n with
  | hold kept far before line out =>
    exact iff_of_true (not_passes_of_nil distance lost out) ⟨far, before⟩
  | pass before free line out =>
    rw [hkept] at out free
    refine iff_of_false (hthrough (by rw [out]; exact List.mem_singleton_self n)) ?_
    rintro ⟨far, -⟩
    rcases free with hlost | hzero
    · cases hlost
    · omega
  | keep i before early line out =>
    rw [hkept] at out
    refine iff_of_false (hthrough (by rw [out]; exact List.mem_singleton_self n)) ?_
    rw [before]
    rintro ⟨-, ⟨⟩⟩
  | release i before due line out =>
    rw [hkept] at out
    refine iff_of_false (hthrough (by rw [out]; simp)) ?_
    rw [before]
    rintro ⟨-, ⟨⟩⟩

/-- What is not held comes out in order. -/
theorem filter_passes (n : Nat) :
    ((List.range n).flatMap (outAt distance lost)).filter (passes distance lost) =
      (List.range n).filter (passes distance lost) := by
  induction n with
  | zero => rfl
  | succ n ih =>
    rw [List.range_succ, List.flatMap_append, List.filter_append, List.filter_append, ih,
      List.flatMap_singleton]
    congr 1
    have hown : outAt distance lost n = (if lost n then [] else [n]) →
        (outAt distance lost n).filter (passes distance lost) =
          [n].filter (passes distance lost) := by
      intro hout
      cases hlost : lost n with
      | false => rw [hout, hlost, if_neg (by decide)]
      | true =>
        rw [hlost, if_pos rfl] at hout
        rw [hout, List.filter_cons_of_neg (by rw [not_passes_of_nil distance lost hout]; decide)]
    cases stepAt distance lost n with
    | hold kept far before line out =>
      rw [out, List.filter_cons_of_neg (by rw [not_passes_of_nil distance lost out]; decide)]
    | pass before free line out | keep i before early line out => exact hown out
    | release i before due line out =>
      have hheld := not_passes_of_held distance lost before
      cases hlost : lost n with
      | false =>
        rw [out, hlost, if_neg (by decide),
          List.filter_cons_of_neg (by rw [hheld]; decide)]
      | true =>
        have hne : n ≠ i := Nat.ne_of_gt (held_spec distance lost before).1
        have hlostOut : passes distance lost n = false := by
          rw [passes, out, hlost, if_pos rfl, decide_eq_false (by simpa using hne)]
        rw [out, hlost, if_pos rfl, List.filter_cons_of_neg (by rw [hheld]; decide),
          List.filter_cons_of_neg (by rw [hlostOut]; decide)]

/-- While an element is held the ones behind it come out at their own events. -/
theorem outAt_between {n i j : Nat} (h : (lineAt distance lost n).held = some i) (hij : i < j)
    (hjn : j < n) : outAt distance lost j = if lost j then [] else [j] := by
  induction n with
  | zero => cases h
  | succ n ih =>
    cases stepAt distance lost n with
    | hold kept far before line out =>
      rw [line] at h
      obtain rfl := Option.some.inj h
      omega
    | pass before free line out =>
      rw [line, before] at h
      cases h
    | keep k before early line out =>
      rw [line] at h
      obtain rfl := Option.some.inj h
      by_cases hlast : j = n
      · rw [hlast]
        exact out
      · exact ih before (by omega)
    | release k before due line out =>
      rw [line] at h
      cases h

/-- An element that comes out at another event than its own was held until then, for `distance`
events, and comes out before that event's element. -/
theorem released {n i : Nat} (h : i ∈ outAt distance lost n) (hne : i ≠ n) :
    (lineAt distance lost n).held = some i ∧ n = i + distance ∧
      outAt distance lost n = if lost n then [i] else [i, n] := by
  obtain ⟨hheld, hdue⟩ := (mem_outAt distance lost h).resolve_left hne
  obtain ⟨-, hsum, hpos, -, -⟩ := held_spec distance lost hheld
  refine ⟨hheld, by omega, ?_⟩
  cases stepAt distance lost n with
  | hold kept far before line out | pass before free line out =>
    rw [before] at hheld
    cases hheld
  | keep k before early line out => omega
  | release k before due line out =>
    rw [before] at hheld
    obtain rfl := Option.some.inj hheld
    exact out

/-- The first element is held at once if it is not lost, and let go after `distance` events. -/
theorem first_held (hfar : 0 < distance) (hkept : lost 0 = false) {n : Nat} (hn : n < distance) :
    lineAt distance lost (n + 1) = ⟨some 0, distance - n⟩ := by
  induction n with
  | zero =>
    cases stepAt distance lost 0 with
    | hold kept far before line out => exact line
    | pass before free line out =>
      rw [hkept] at free
      rcases free with h | h
      · cases h
      · omega
    | keep i before early line out => cases before
    | release i before due line out => cases before
  | succ n ih =>
    have hline := ih (by omega)
    cases stepAt distance lost (n + 1) with
    | hold kept far before line out | pass before free line out =>
      rw [hline] at before
      cases before
    | keep i before early line out =>
      rw [hline] at before line
      obtain rfl := Option.some.inj before
      rw [line]
      congr 1
    | release i before due line out =>
      rw [hline] at due
      dsimp only at due
      omega

end Positions

end Verif.HoldLine
