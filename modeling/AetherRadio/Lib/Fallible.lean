import Mathlib.Data.List.Basic

/-!
# Fallible computations and their loops

Inversion of a sequenced `Except` computation that succeeded, the lifting of an operation that
answers with a state and a result, and the rules for loops that stop at the first failure.
-/

namespace Verif

universe u v w x

variable {ε : Type u} {ε' : Type v}

/-- A sequence succeeds exactly when both parts do. -/
theorem bind_eq_ok {α β : Type w} {x : Except ε α} {f : α → Except ε β} {b : β} :
    (x >>= f) = .ok b ↔ ∃ a, x = .ok a ∧ f a = .ok b := by
  cases x with
  | error e => exact ⟨nofun, nofun⟩
  | ok a => exact ⟨fun h ↦ ⟨a, rfl, h⟩, fun ⟨_, ha, hb⟩ ↦ by cases ha; exact hb⟩

/-- Give up on an operation's error, translated by `f`. -/
def orFail {σ α : Type w} (f : ε → ε') : σ × Except ε α → Except ε' (σ × α)
  | (s, .ok a) => .ok (s, a)
  | (_, .error e) => .error (f e)

/-- It succeeds exactly when the operation does. -/
theorem orFail_eq_ok {σ α : Type w} {f : ε → ε'} {r : σ × Except ε α} {s : σ} {a : α} :
    orFail f r = .ok (s, a) ↔ r = (s, .ok a) := by
  obtain ⟨s', _ | a'⟩ := r <;> simp [orFail]

/-- A computation that fails with the error there is, or ends in `P` when there is none. -/
def EndsIn {α : Type w} (x : Except ε α) (refusal : Option ε) (P : α → Prop) : Prop :=
  match refusal with
  | some e => x = .error e
  | none => ∃ a, x = .ok a ∧ P a

/-- What is known of the results may be used of the one it ends in. -/
theorem EndsIn.of_ok {α : Type w} {x : Except ε α} {refusal : Option ε} {P Q : α → Prop}
    (h : EndsIn x refusal P) (himp : ∀ a, x = .ok a → P a → Q a) : EndsIn x refusal Q := by
  cases refusal with
  | some e => exact h
  | none =>
    obtain ⟨a, ha, hP⟩ := h
    exact ⟨a, ha, himp a ha hP⟩

theorem EndsIn.mono {α : Type w} {x : Except ε α} {refusal : Option ε} {P Q : α → Prop}
    (h : EndsIn x refusal P) (himp : ∀ a, P a → Q a) : EndsIn x refusal Q :=
  h.of_ok fun a _ ↦ himp a

/-- A sequence fails with the first error. -/
theorem EndsIn.bind {α β : Type w} {x : Except ε α} {f : α → Except ε β} {r r' : Option ε}
    {P : α → Prop} {Q : β → Prop} (h : EndsIn x r P) (hf : ∀ a, P a → EndsIn (f a) r' Q) :
    EndsIn (x >>= f) (r.or r') Q := by
  cases r with
  | some e =>
    have hx : x = .error e := h
    rw [hx]
    rfl
  | none =>
    obtain ⟨a, hx, hP⟩ := h
    rw [hx]
    exact hf a hP

variable {σ : Type w} {α : Type x}

/-- What every successful step keeps, a successful loop keeps. The invariant may look at the
elements so far, and a step at the whole list. -/
theorem foldlM_invariant {f : σ → α → Except ε σ} {P : List α → σ → Prop} {s s' : σ}
    {as : List α} (h : as.foldlM f s = .ok s') (start : P [] s)
    (step : ∀ pre a post s₁ s₂, as = pre ++ a :: post → P pre s₁ → f s₁ a = .ok s₂ →
      P (pre ++ [a]) s₂) : P as s' := by
  have hfrom : ∀ (pre rest : List α) (s₁ : σ), as = pre ++ rest → P pre s₁ →
      rest.foldlM f s₁ = .ok s' → P as s' := by
    intro pre rest
    induction rest generalizing pre with
    | nil =>
      intro s₁ has hP hrun
      cases hrun
      rwa [has, List.append_nil]
    | cons a rest ih =>
      intro s₁ has hP hrun
      rw [List.foldlM_cons, bind_eq_ok] at hrun
      obtain ⟨s₂, hstep, hrest⟩ := hrun
      exact ih (pre ++ [a]) s₂ (by rw [has, List.append_assoc, List.singleton_append])
        (step pre a rest s₁ s₂ has hP hstep) hrest
  exact hfrom [] as s (List.nil_append as).symm start h

end Verif
