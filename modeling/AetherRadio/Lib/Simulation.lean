import AetherRadio.Lib.Fallible
import AetherRadio.Lib.Machine

/-!
# Machines built on machines

A machine that uses another takes none, one or several of its steps in each of its own. A run then
shows a run of the used machine, and what holds of all runs of that one can be read off here. A loop
that may fail goes along with a machine in the same way.
-/

namespace Verif.Machine

universe u v w x y z t

variable {σ : Type u} {α : Type v} {ω : Type w} {τ : Type x} {β : Type y} {ψ : Type z}

section Collect

variable (m : Machine σ α ω) {γ : Type t}

/-- What the answers give is what the trace gives. -/
theorem collect_answers (f : α → ω → List γ) (s : σ) (as : List α) :
    m.collect (fun s a ↦ f a (m.step s a).2) s as =
      (m.trace s as).flatMap (fun entry ↦ f entry.1 entry.2) := by
  induction as generalizing s with
  | nil => rfl
  | cons a as ih => rw [collect, trace_cons, List.flatMap_cons, ih]

/-- What every step gives has a property, so all of it has. -/
theorem forall_mem_collect {f : σ → α → List γ} {P : γ → Prop}
    (h : ∀ s a, ∀ c ∈ f s a, P c) (s : σ) (as : List α) : ∀ c ∈ m.collect f s as, P c := by
  induction as generalizing s with
  | nil =>
    intro c hc
    cases hc
  | cons a as ih =>
    intro c hc
    rcases List.mem_append.mp hc with hstep | hrest
    · exact h s a c hstep
    · exact ih _ c hrest

/-- What a schedule gives is given at one of its steps. -/
theorem exists_of_mem_collect {f : σ → α → List γ} {c : γ} {s : σ} {as : List α}
    (h : c ∈ m.collect f s as) : ∃ pre a post, as = pre ++ a :: post ∧ c ∈ f (m.run s pre) a := by
  induction as generalizing s with
  | nil => cases h
  | cons a as ih =>
    rcases List.mem_append.mp h with hstep | hrest
    · exact ⟨[], a, as, rfl, hstep⟩
    · obtain ⟨pre, b, post, hsplit, hc⟩ := ih hrest
      exact ⟨a :: pre, b, post, by rw [hsplit, List.cons_append], hc⟩

/-- A projection that respects concatenation can be taken step by step. -/
theorem project_collect {δ : Type*} {p : List γ → List δ} (nil : p [] = [])
    (append : ∀ xs ys, p (xs ++ ys) = p xs ++ p ys) (f : σ → α → List γ) (s : σ) (as : List α) :
    p (m.collect f s as) = m.collect (fun s a ↦ p (f s a)) s as := by
  induction as generalizing s with
  | nil => exact nil
  | cons a as ih => rw [collect, collect, append, ih]

end Collect

section Fallible

variable (m : Machine σ α ω) {ε : Type t}

/-- What is looked for in the actions of a trace is looked for in the schedule. -/
theorem findSome?_trace (f : α → Option ε) (s : σ) (as : List α) :
    (m.trace s as).findSome? (fun entry ↦ f entry.1) = as.findSome? f := by
  induction as generalizing s with
  | nil => rfl
  | cons a as ih => rw [trace_cons, List.findSome?_cons, List.findSome?_cons, ih]

/-- A loop that goes along with a machine, and fails on certain answers and no others, stops at the
first of these. -/
theorem endsIn_foldlM {f : τ → α → Except ε τ} {P : List α → τ → Prop}
    (refusal : α → ω → Option ε) {v : σ}
    (as : List α) (step : ∀ pre, ∀ a ∈ as, ∀ s, P pre s →
      EndsIn (f s a) (refusal a (m.step (m.run v pre) a).2) (P (pre ++ [a])))
    {pre : List α} {s : τ} (start : P pre s) :
    EndsIn (as.foldlM f s)
      ((m.trace (m.run v pre) as).findSome? fun entry ↦ refusal entry.1 entry.2)
      (P (pre ++ as)) := by
  induction as generalizing pre s with
  | nil =>
    rw [List.append_nil]
    exact ⟨s, rfl, start⟩
  | cons a as ih =>
    rw [List.foldlM_cons, trace_cons, List.findSome?_cons]
    have hstep := step pre a List.mem_cons_self s start
    cases hrefusal : refusal a (m.step (m.run v pre) a).2 with
    | some e =>
      rw [hrefusal] at hstep
      have hfail : f s a = .error e := hstep
      rw [hfail]
      rfl
    | none =>
      rw [hrefusal] at hstep
      obtain ⟨s', heq, hP⟩ := hstep
      have hrest := ih (fun pre b hb ↦ step pre b (List.mem_cons_of_mem a hb)) hP
      rw [run_append, List.append_assoc, List.singleton_append] at hrest
      rw [heq]
      exact hrest

end Fallible

section Alone

variable (m : Machine σ α ω)

/-- A process that is scheduled alone comes back with an answer when every step that does not give
one comes closer to it. -/
theorem exists_answer {ι : Type t} {r : ι → ι → Prop} (wf : WellFounded r) {P : σ → Prop}
    {D : ω → Prop} (distance : σ → ι) (a : α)
    (closer : ∀ s, P s → ¬ D (m.step s a).2 →
      P (m.step s a).1 ∧ r (distance (m.step s a).1) (distance s)) {s : σ} (start : P s) :
    ∃ k, P (m.run s (List.replicate k a)) ∧ D (m.step (m.run s (List.replicate k a)) a).2 ∧
      ∀ entry ∈ m.trace s (List.replicate k a), ¬ D entry.2 := by
  induction hd : distance s using wf.induction generalizing s with
  | h d ih =>
    by_cases hdone : D (m.step s a).2
    · exact ⟨0, start, hdone, fun entry hentry ↦ nomatch hentry⟩
    · obtain ⟨hnext, hcloser⟩ := closer s start hdone
      rw [hd] at hcloser
      obtain ⟨k, hP, hanswer, hsilent⟩ := ih _ hcloser hnext rfl
      refine ⟨k + 1, hP, hanswer, ?_⟩
      intro entry hentry
      rcases List.mem_cons.mp hentry with rfl | hrest
      · exact hdone
      · exact hsilent entry hrest

end Alone

/-- Each step of `m` takes the steps `calls` of the machine `n` that is a part of it. -/
structure Uses (m : Machine σ α ω) (n : Machine τ β ψ) where
  part : σ → τ
  calls : σ → α → List β
  step : ∀ s a, part (m.step s a).1 = n.run (part s) (calls s a)

namespace Uses

variable {m : Machine σ α ω} {n : Machine τ β ψ} (u : m.Uses n)

/-- The schedule of the used machine. -/
def schedule (s : σ) (as : List α) : List β := m.collect u.calls s as

/-- A run leaves the used machine where its schedule does. -/
theorem part_run (s : σ) (as : List α) :
    u.part (m.run s as) = n.run (u.part s) (u.schedule s as) := by
  induction as generalizing s with
  | nil => rfl
  | cons a as ih =>
    rw [schedule, collect, n.run_append, run_cons, ih, u.step]
    rfl

/-- The trace of the used machine, step by step. -/
theorem trace_schedule (s : σ) (as : List α) :
    n.trace (u.part s) (u.schedule s as) =
      m.collect (fun s a ↦ n.trace (u.part s) (u.calls s a)) s as := by
  induction as generalizing s with
  | nil => rfl
  | cons a as ih =>
    have hrest := ih (m.step s a).1
    rw [u.step] at hrest
    rw [schedule, collect, n.trace_append, collect, ← hrest]
    rfl

end Uses

end Verif.Machine

namespace Verif

universe u v w

/-- A loop whose steps fail on certain elements and no others stops at the first of these. -/
theorem EndsIn.foldlM {ε : Type u} {σ : Type v} {α : Type w} {f : σ → α → Except ε σ}
    {P : List α → σ → Prop} {refusal : α → Option ε}
    (step : ∀ pre a s, P pre s → EndsIn (f s a) (refusal a) (P (pre ++ [a]))) (as : List α)
    {pre : List α} {s : σ} (start : P pre s) :
    EndsIn (as.foldlM f s) (as.findSome? refusal) (P (pre ++ as)) := by
  let silent : Machine Unit α Unit := ⟨fun _ _ ↦ ((), ())⟩
  have hloop := silent.endsIn_foldlM (fun a _ ↦ refusal a) (v := ()) as
    (fun pre a _ ↦ step pre a) start
  rwa [silent.findSome?_trace] at hloop

end Verif
