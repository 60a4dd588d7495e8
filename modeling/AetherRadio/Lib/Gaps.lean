import Mathlib.Data.List.Induction

/-!
# Gaps in numbered streams

A list interleaves several streams whose elements are numbered in ascending order. Comparing each
element with the number that should follow on its stream finds exactly the elements whose
predecessor is missing from the list.
-/

namespace Verif

universe u v

variable {α : Type u} {κ : Type v} (key : α → κ) (num : α → Nat)

/-- On every stream the numbers go up. -/
def Ascending (as : List α) : Prop := as.Pairwise fun a b ↦ key a = key b → num a < num b

variable [DecidableEq κ]

/-- The number that should follow on a stream: one more than the last, or zero at the start. -/
def nextNumber (k : κ) (as : List α) : Nat :=
  as.foldl (fun n a ↦ if key a = k then num a + 1 else n) 0

/-- The element is not a first one and the list lacks its predecessor. -/
def OpensGap (as : List α) (a : α) : Prop :=
  0 < num a ∧ ∀ b ∈ as, key b = key a → num b + 1 ≠ num a

instance (as : List α) (a : α) : Decidable (OpensGap key num as a) :=
  inferInstanceAs (Decidable (_ ∧ _))

/-- How many elements lack their predecessor. -/
def gaps (as : List α) : Nat := as.countP fun a ↦ OpensGap key num as a

variable {key num}

theorem nextNumber_append_singleton (k : κ) (as : List α) (a : α) :
    nextNumber key num k (as ++ [a]) =
      if key a = k then num a + 1 else nextNumber key num k as := by
  simp only [nextNumber, List.foldl_append, List.foldl_cons, List.foldl_nil]

/-- The next number follows the last element of the stream. -/
theorem nextNumber_spec (key : α → κ) (num : α → Nat) (k : κ) (as : List α) :
    nextNumber key num k as = 0 ∨
      ∃ b ∈ as, key b = k ∧ num b + 1 = nextNumber key num k as := by
  induction as using List.reverseRecOn with
  | nil => exact .inl rfl
  | append_singleton as a ih =>
    rw [nextNumber_append_singleton]
    split
    · next hkey => exact .inr ⟨a, by simp, hkey, rfl⟩
    · obtain hzero | ⟨b, hb, hlast⟩ := ih
      · exact .inl hzero
      · exact .inr ⟨b, List.mem_append_left _ hb, hlast⟩

/-- Every element of a stream comes before the next number. -/
theorem lt_nextNumber {as : List α} (h : Ascending key num as) {b : α} (hb : b ∈ as) :
    num b < nextNumber key num (key b) as := by
  induction as using List.reverseRecOn with
  | nil => cases hb
  | append_singleton as a ih =>
    obtain ⟨has, -, hcross⟩ := List.pairwise_append.mp h
    rw [nextNumber_append_singleton]
    rcases List.mem_append.mp hb with hold | hnew
    · have hlt := ih has hold
      split
      · next hkey => exact Nat.lt_succ_of_lt (hcross b hold a (List.mem_singleton_self a) hkey.symm)
      · exact hlt
    · rw [List.mem_singleton.mp hnew, if_pos rfl]
      exact Nat.lt_succ_self _

/-- An element in ascending order is not before the next number. -/
theorem nextNumber_le {as : List α} {a : α} (h : Ascending key num (as ++ [a])) :
    nextNumber key num (key a) as ≤ num a := by
  obtain ⟨-, -, hcross⟩ := List.pairwise_append.mp h
  obtain hzero | ⟨b, hb, hkey, hlast⟩ := nextNumber_spec key num (key a) as
  · rw [hzero]
    exact Nat.zero_le _
  · rw [← hlast]
    exact hcross b hb a (List.mem_singleton_self a) hkey

/-- It carries another number than the next one exactly when its predecessor is missing. -/
theorem ne_nextNumber_iff {as : List α} {a : α} (h : Ascending key num (as ++ [a])) :
    num a ≠ nextNumber key num (key a) as ↔ OpensGap key num as a := by
  have hle := nextNumber_le h
  constructor
  · intro hne
    refine ⟨by omega, fun b hb hkey ↦ ?_⟩
    have hlt := lt_nextNumber (List.pairwise_append.mp h).1 hb
    rw [hkey] at hlt
    omega
  · rintro ⟨hpos, hmissing⟩ heq
    obtain hzero | ⟨b, hb, hkey, hlast⟩ := nextNumber_spec key num (key a) as
    · omega
    · exact hmissing b hb hkey (hlast.trans heq.symm)

omit [DecidableEq κ] in
/-- An element that is no predecessor makes no difference to whether another one opens a gap. -/
theorem opensGap_concat_iff {as : List α} {a b : α} (h : key a = key b → num a + 1 ≠ num b) :
    OpensGap key num (as ++ [a]) b ↔ OpensGap key num as b := by
  refine and_congr_right fun _ ↦ ⟨fun hall c hc ↦ hall c (List.mem_append_left _ hc), ?_⟩
  intro hall c hc hkey
  rcases List.mem_append.mp hc with hold | hnew
  · exact hall c hold hkey
  · rw [List.mem_singleton.mp hnew] at hkey ⊢
    exact h hkey

/-- One more element in ascending order is one more gap if its predecessor is missing. -/
theorem gaps_append_singleton {as : List α} {a : α} (h : Ascending key num (as ++ [a])) :
    gaps key num (as ++ [a]) = gaps key num as + if OpensGap key num as a then 1 else 0 := by
  obtain ⟨has, -, hcross⟩ := List.pairwise_append.mp h
  have hsame : ∀ b ∈ as, OpensGap key num (as ++ [a]) b ↔ OpensGap key num as b := by
    intro b hb
    apply opensGap_concat_iff
    intro hkey
    -- the new element comes after everything on its stream
    have hafter := hcross b hb a (List.mem_singleton_self a) hkey.symm
    omega
  have hlast : OpensGap key num (as ++ [a]) a ↔ OpensGap key num as a := by
    apply opensGap_concat_iff
    intro _
    omega
  have hcount : as.countP (fun b ↦ OpensGap key num (as ++ [a]) b) =
      as.countP fun b ↦ OpensGap key num as b :=
    List.countP_congr fun b hb ↦ by simp only [decide_eq_true_eq, hsame b hb]
  simp only [gaps, List.countP_append, List.countP_singleton, hcount, hlast, decide_eq_true_eq]

/-- A list that has every predecessor has no gaps. -/
theorem gaps_eq_zero {as : List α}
    (h : ∀ a ∈ as, 0 < num a → ∃ b ∈ as, key b = key a ∧ num b + 1 = num a) :
    gaps key num as = 0 := by
  refine List.countP_eq_zero.mpr fun a ha hgap ↦ ?_
  obtain ⟨hpos, hmissing⟩ := of_decide_eq_true hgap
  obtain ⟨b, hb, hkey, hnum⟩ := h a ha hpos
  exact hmissing b hb hkey hnum

section Breaks

variable {ν : Type u} (next : ν → ν) (start : ν)

/-- The number that should follow some others. -/
def following (ns : List ν) : ν := (ns.getLast?.map next).getD start

variable [DecidableEq ν]

/-- How many numbers are not the ones that should follow. -/
def breaks : (start : ν) → List ν → Nat
  | _, [] => 0
  | start, n :: ns => (if n = start then 0 else 1) + breaks (next n) ns

omit [DecidableEq ν] in
@[simp] theorem following_concat (ns : List ν) (n : ν) :
    following next start (ns ++ [n]) = next n := by simp [following]

theorem breaks_concat (ns : List ν) (n : ν) : breaks next start (ns ++ [n]) =
    breaks next start ns + if n = following next start ns then 0 else 1 := by
  induction ns generalizing start with
  | nil => exact Nat.add_comm _ _
  | cons m ns ih =>
    have hfollowing : following next start (m :: ns) = following next (next m) ns := by
      cases hlast : ns.getLast? <;> simp [following, List.getLast?_cons, hlast]
    rw [List.cons_append, breaks, breaks, ih, hfollowing, Nat.add_assoc]

end Breaks

end Verif
