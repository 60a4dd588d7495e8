import Mathlib.Data.List.Basic

/-!
# Runs of a deterministic machine

A machine answers each action with an output and a next state. A schedule is a list of
actions; its trace pairs every action with its answer. Invariants may speak about the trace
so far, so histories need not be stored in the state.
-/

namespace Verif

universe u v w x

/-- What holds of every element of a list and the elements before it. -/
theorem forall_prefix_cons {α : Type u} {P : List α → α → Prop} {a : α} {as : List α} :
    (∀ pre b, pre ++ [b] <+: a :: as → P pre b) ↔
      P [] a ∧ ∀ pre b, pre ++ [b] <+: as → P (a :: pre) b := by
  constructor
  · intro h
    refine ⟨h [] a (List.cons_prefix_cons.mpr ⟨rfl, List.nil_prefix⟩), fun pre b hpre ↦ ?_⟩
    exact h (a :: pre) b (List.cons_prefix_cons.mpr ⟨rfl, hpre⟩)
  · rintro ⟨hfirst, hrest⟩ pre b hpre
    cases pre with
    | nil =>
      rw [List.nil_append, List.cons_prefix_cons] at hpre
      rw [hpre.1]
      exact hfirst
    | cons c pre =>
      rw [List.cons_append, List.cons_prefix_cons] at hpre
      rw [hpre.1]
      exact hrest pre b hpre.2

/-- A deterministic machine with states `σ`, actions `α` and answers `ω`. -/
structure Machine (σ : Type u) (α : Type v) (ω : Type w) where
  step : σ → α → σ × ω

namespace Machine

variable {σ : Type u} {α : Type v} {ω : Type w} (m : Machine σ α ω)

/-- The state a schedule leads to. -/
def run (s : σ) : List α → σ
  | [] => s
  | a :: as => run (m.step s a).1 as

/-- Every action of a schedule beside the answer it got. -/
def trace (s : σ) : List α → List (α × ω)
  | [] => []
  | a :: as => (a, (m.step s a).2) :: trace (m.step s a).1 as

/-- Every action of the schedule is permitted by `G` in the state where it is taken. -/
def Permits (G : σ → α → Prop) (s : σ) : List α → Prop
  | [] => True
  | a :: as => G s a ∧ Permits G (m.step s a).1 as

instance decidablePermits {G : σ → α → Prop} [∀ s a, Decidable (G s a)] :
    ∀ (s : σ) (as : List α), Decidable (m.Permits G s as)
  | _, [] => isTrue True.intro
  | s, a :: as => @instDecidableAnd _ _ _ (decidablePermits (m.step s a).1 as)

@[simp] theorem run_nil (s : σ) : m.run s [] = s := rfl

@[simp] theorem run_cons (s : σ) (a : α) (as : List α) :
    m.run s (a :: as) = m.run (m.step s a).1 as := rfl

@[simp] theorem trace_nil (s : σ) : m.trace s [] = [] := rfl

@[simp] theorem trace_cons (s : σ) (a : α) (as : List α) :
    m.trace s (a :: as) = (a, (m.step s a).2) :: m.trace (m.step s a).1 as := rfl

/-- Running two schedules in turn is running their concatenation. -/
theorem run_append (s : σ) (as bs : List α) :
    m.run s (as ++ bs) = m.run (m.run s as) bs := by
  induction as generalizing s with
  | nil => rfl
  | cons a as ih => simp only [List.cons_append, run_cons, ih]

/-- So the traces are concatenated. -/
theorem trace_append (s : σ) (as bs : List α) :
    m.trace s (as ++ bs) = m.trace s as ++ m.trace (m.run s as) bs := by
  induction as generalizing s with
  | nil => rfl
  | cons a as ih => simp only [List.cons_append, trace_cons, run_cons, ih]

/-- Counting the actions of a trace is counting those of the schedule. -/
theorem countP_trace (p : α → Bool) (s : σ) (as : List α) :
    (m.trace s as).countP (fun entry ↦ p entry.1) = as.countP p := by
  induction as generalizing s with
  | nil => rfl
  | cons a as ih => rw [trace_cons, List.countP_cons, List.countP_cons, ih]

/-- A permitted concatenation is permitted piece by piece. -/
theorem permits_append (G : σ → α → Prop) (s : σ) (as bs : List α) :
    m.Permits G s (as ++ bs) ↔ m.Permits G s as ∧ m.Permits G (m.run s as) bs := by
  induction as generalizing s with
  | nil => simp [Permits]
  | cons a as ih => simp only [List.cons_append, Permits, ih, run_cons, and_assoc]

/-- A schedule is permitted when each of its actions is, in the state the ones before it lead
to. -/
theorem permits_iff {m : Machine σ α ω} {G : σ → α → Prop} {s : σ} {as : List α} :
    m.Permits G s as ↔ ∀ pre a, pre ++ [a] <+: as → G (m.run s pre) a := by
  induction as generalizing s with
  | nil => simp [Permits]
  | cons b as ih => rw [Permits, ih, forall_prefix_cons (P := fun pre a ↦ G (m.run s pre) a)]; rfl

/-- Without a guard every schedule is permitted. -/
theorem permits_true (s : σ) (as : List α) : m.Permits (fun _ _ ↦ True) s as := by
  induction as generalizing s with
  | nil => exact True.intro
  | cons a as ih => exact ⟨True.intro, ih _⟩

/-- A guard that looks at the action alone is a condition on the schedule. -/
theorem permits_of_forall {ok : α → Prop} {as : List α} (h : ∀ a ∈ as, ok a) (s : σ) :
    m.Permits (fun _ a ↦ ok a) s as := by
  induction as generalizing s with
  | nil => exact True.intro
  | cons a as ih =>
    exact ⟨h a List.mem_cons_self, ih (fun b hb ↦ h b (List.mem_cons_of_mem _ hb)) _⟩

/-- A weaker guard permits more. -/
theorem Permits.mono {m : Machine σ α ω} {G H : σ → α → Prop} (hGH : ∀ s a, G s a → H s a)
    {s : σ} {as : List α} (h : m.Permits G s as) : m.Permits H s as := by
  induction as generalizing s with
  | nil => exact True.intro
  | cons a as ih => exact ⟨hGH _ _ h.1, ih h.2⟩

private theorem run_invariant_from {G : σ → α → Prop} {P : List (α × ω) → σ → Prop}
    (preserves : ∀ t s a, P t s → G s a → P (t ++ [(a, (m.step s a).2)]) (m.step s a).1)
    (t : List (α × ω)) (s : σ) (as : List α) (start : P t s) (h : m.Permits G s as) :
    P (t ++ m.trace s as) (m.run s as) := by
  induction as generalizing s t with
  | nil => simpa using start
  | cons a as ih =>
    have hnext := ih (t ++ [(a, (m.step s a).2)]) (m.step s a).1 (preserves t s a start h.1) h.2
    simpa only [trace_cons, run_cons, List.append_assoc, List.singleton_append] using hnext

/-- What one permitted step preserves, a permitted run preserves. The invariant may look at
the trace so far. -/
theorem run_invariant {G : σ → α → Prop} {P : List (α × ω) → σ → Prop} {s : σ} {as : List α}
    (start : P [] s)
    (preserves : ∀ t s a, P t s → G s a → P (t ++ [(a, (m.step s a).2)]) (m.step s a).1)
    (h : m.Permits G s as) : P (m.trace s as) (m.run s as) := by
  simpa using m.run_invariant_from preserves [] s as start h

/-- The state-only form of `run_invariant`. -/
theorem run_preserves {G : σ → α → Prop} {P : σ → Prop} {s : σ} {as : List α} (start : P s)
    (preserves : ∀ s a, P s → G s a → P (m.step s a).1) (h : m.Permits G s as) :
    P (m.run s as) :=
  m.run_invariant (P := fun _ s ↦ P s) start (fun _ s a ↦ preserves s a) h

/-- What a function of state and action gives at each step of a schedule. -/
def collect {β : Type x} (f : σ → α → List β) (s : σ) : List α → List β
  | [] => []
  | a :: as => f s a ++ collect f (m.step s a).1 as

/-- When every step stores what comes in behind what is there and takes what goes out from its
front, what went out over a run followed by what is stored then is what was stored followed by what
came in. -/
theorem collect_conserves {β : Type x} {P : σ → Prop} {comes goes : σ → α → List β}
    {store : σ → List β} (preserves : ∀ s a, P s → P (m.step s a).1)
    (conserves : ∀ s a, P s → goes s a ++ store (m.step s a).1 = store s ++ comes s a) {s : σ}
    (start : P s) (as : List α) :
    m.collect goes s as ++ store (m.run s as) = store s ++ m.collect comes s as := by
  induction as generalizing s with
  | nil => exact (List.append_nil _).symm
  | cons a as ih =>
    rw [collect, collect, run_cons, List.append_assoc, ih (preserves s a start),
      ← List.append_assoc, conserves s a start, List.append_assoc]

/-- An answer in the trace was given by a step from some intermediate state. -/
theorem mem_trace {s : σ} {as : List α} {a : α} {o : ω} (h : (a, o) ∈ m.trace s as) :
    ∃ pre post, as = pre ++ a :: post ∧ o = (m.step (m.run s pre) a).2 := by
  induction as generalizing s with
  | nil => cases h
  | cons b as ih =>
    rcases List.mem_cons.mp h with heq | htail
    · cases heq
      exact ⟨[], as, rfl, rfl⟩
    · obtain ⟨pre, post, hsplit, ho⟩ := ih htail
      exact ⟨b :: pre, post, by rw [hsplit, List.cons_append], ho⟩

/-- Unwinding. Let `keep` select the actions of one observer, and let `R` relate the states of two
runs, the second of which is given the kept actions only. When an action that is not kept leaves
`R` as it is, and a kept one is answered alike on both sides, the observer cannot tell the runs
apart. -/
theorem trace_purge {G : σ → α → Prop} {R : σ → σ → Prop} {keep seen : α → Bool}
    (hseen : ∀ a, seen a = true → keep a = true)
    (skip : ∀ s s' a, R s s' → G s a → keep a = false → R (m.step s a).1 s')
    (alike : ∀ s s' a, R s s' → G s a → keep a = true → R (m.step s a).1 (m.step s' a).1 ∧
      (seen a = true → (m.step s a).2 = (m.step s' a).2))
    {s s' : σ} (start : R s s') {as : List α} (h : m.Permits G s as) :
    (m.trace s as).filter (fun entry ↦ seen entry.1) =
      (m.trace s' (as.filter keep)).filter (fun entry ↦ seen entry.1) := by
  induction as generalizing s s' with
  | nil => rfl
  | cons a as ih =>
    rw [trace_cons, List.filter_cons]
    cases hkeep : keep a with
    | false =>
      have hunseen : seen a = false := by
        rw [← Bool.not_eq_true]
        intro hs
        rw [hseen a hs] at hkeep
        cases hkeep
      rw [List.filter_cons_of_neg (by rw [hkeep]; decide)]
      simp only [hunseen, Bool.false_eq_true, if_false]
      exact ih (skip s s' a start h.1 hkeep) h.2
    | true =>
      obtain ⟨hnext, hanswer⟩ := alike s s' a start h.1 hkeep
      have hrest := ih hnext h.2
      rw [List.filter_cons_of_pos hkeep, trace_cons, List.filter_cons]
      by_cases hs : seen a = true
      · rw [if_pos hs, if_pos hs, hanswer hs, hrest]
      · rw [if_neg hs, if_neg hs, hrest]

end Machine

/-- A process: its state after the last action that returned, and whether an action has ended it. -/
structure Process (σ : Type u) where
  state : σ
  ended : Bool

namespace Process

variable {σ : Type u} {τ : Type v}

/-- A process that has not ended. -/
def start (s : σ) : Process σ := ⟨s, false⟩

/-- A view of the state. -/
def map (f : σ → τ) (p : Process σ) : Process τ := ⟨f p.state, p.ended⟩

end Process

namespace Machine

variable {σ : Type u} {α : Type v} {ω : Type w}

/-- The machine as a process. An action whose answer `ends` the process leaves no state behind, and
the actions after it are not taken. -/
def process (m : Machine σ α ω) (ends : ω → Bool) : Machine (Process σ) α (Option ω) where
  step p a :=
    if p.ended then (p, none)
    else
      let (next, answer) := m.step p.state a
      (if ends answer then ⟨p.state, true⟩ else ⟨next, false⟩, some answer)

section Process

variable {m : Machine σ α ω} {ends : ω → Bool}

theorem process_step_of_ended {p : Process σ} (h : p.ended = true) (a : α) :
    (m.process ends).step p a = (p, none) :=
  if_pos h

theorem process_step_of_ends {s : σ} {a : α} (h : ends (m.step s a).2 = true) :
    (m.process ends).step (.start s) a = (⟨s, true⟩, some (m.step s a).2) := by
  simp only [process, Process.start, Bool.false_eq_true, if_false, h, if_true]

theorem process_step_of_returns {s : σ} {a : α} (h : ends (m.step s a).2 = false) :
    (m.process ends).step (.start s) a = (.start (m.step s a).1, some (m.step s a).2) := by
  simp only [process, Process.start, Bool.false_eq_true, if_false, h]

/-- What an action of a process can do. -/
inductive ProcessStep (m : Machine σ α ω) (ends : ω → Bool) (p : Process σ) (a : α) : Prop where
  | idle (ended : p.ended = true) (eq : (m.process ends).step p a = (p, none))
  | ends (running : p = .start p.state) (now : ends (m.step p.state a).2 = true)
      (eq : (m.process ends).step p a = (⟨p.state, true⟩, some (m.step p.state a).2))
  | returns (running : p = .start p.state) (now : ends (m.step p.state a).2 = false)
      (eq : (m.process ends).step p a =
        (.start (m.step p.state a).1, some (m.step p.state a).2))

theorem process_step (m : Machine σ α ω) (ends : ω → Bool) (p : Process σ) (a : α) :
    ProcessStep m ends p a := by
  obtain ⟨s, ended⟩ := p
  cases ended with
  | true => exact .idle rfl (process_step_of_ended rfl a)
  | false =>
    cases h : ends (m.step s a).2 with
    | true => exact .ends rfl h (process_step_of_ends h)
    | false => exact .returns rfl h (process_step_of_returns h)

/-- What the actions that return preserve, a permitted run of a process preserves of its state, when
the history may also grow by the action that ends it and by those that are not taken. -/
theorem process_invariant {G : Process σ → α → Prop} {P : List (α × Option ω) → σ → Prop} {s : σ}
    {as : List α} (start : P [] s)
    (idle : ∀ t s a answer, P t s → (∀ o, answer = some o → ends o = true) →
      P (t ++ [(a, answer)]) s)
    (returns : ∀ t s a, P t s → G (.start s) a → ends (m.step s a).2 = false →
      P (t ++ [(a, some (m.step s a).2)]) (m.step s a).1)
    (h : (m.process ends).Permits G (.start s) as) :
    P ((m.process ends).trace (.start s) as) ((m.process ends).run (.start s) as).state := by
  apply (m.process ends).run_invariant (P := fun t p ↦ P t p.state) start _ h
  intro t p a hp hguard
  cases process_step m ends p a with
  | idle ended eq =>
    rw [eq]
    exact idle _ _ _ _ hp nofun
  | ends running now eq =>
    rw [eq]
    apply idle _ _ _ _ hp
    rintro o ⟨⟩
    exact now
  | returns running now eq =>
    rw [eq]
    rw [running] at hguard
    exact returns t p.state a hp hguard now

/-- The state-only form of `process_invariant`. -/
theorem process_preserves {G : Process σ → α → Prop} {P : σ → Prop} {s : σ} {as : List α}
    (start : P s)
    (returns : ∀ s a, P s → G (.start s) a → ends (m.step s a).2 = false → P (m.step s a).1)
    (h : (m.process ends).Permits G (.start s) as) :
    P ((m.process ends).run (.start s) as).state :=
  process_invariant (P := fun _ s ↦ P s) start (fun _ _ _ _ hp _ ↦ hp)
    (fun _ s a ↦ returns s a) h

end Process

end Machine

end Verif
