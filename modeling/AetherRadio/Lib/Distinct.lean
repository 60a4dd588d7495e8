import Mathlib.Data.List.Nodup
import Mathlib.Data.List.Perm.Subperm

/-!
# The distinct elements of a list

`List.eraseDups` keeps each element where it comes up first. When those of its elements with a given
property stand at the front of the list, they are its longest front of distinct such elements.
-/

namespace Verif

universe u

variable {α : Type u} [BEq α] [LawfulBEq α] {l : List α} {k : Nat} {p : α → Bool}

theorem nodup_eraseDups (l : List α) : l.eraseDups.Nodup := by
  match l with
  | [] => exact .nil
  | a :: as =>
    rw [List.eraseDups_cons]
    have hshort : (as.filter fun b ↦ !b == a).length < (a :: as).length :=
      Nat.lt_succ_of_le (List.length_filter_le _ as)
    refine List.nodup_cons.mpr ⟨?_, nodup_eraseDups (as.filter fun b ↦ !b == a)⟩
    simp
termination_by l.length
decreasing_by exact hshort

/-- A list without repetitions keeps all its elements. -/
theorem eraseDups_of_nodup {l : List α} (h : l.Nodup) : l.eraseDups = l := by
  induction l with
  | nil => rfl
  | cons a as ih =>
    obtain ⟨hfresh, hnodup⟩ := List.nodup_cons.mp h
    have hkept : (as.filter fun b ↦ !b == a) = as := by
      apply List.filter_eq_self.mpr
      intro b hb
      have hne : b ≠ a := fun heq ↦ hfresh (heq ▸ hb)
      simp [hne]
    rw [List.eraseDups_cons, hkept, ih hnodup]

/-- A front without repetitions, all of whose elements have a property and which has all elements
with it, is what is kept of these. -/
theorem filter_eraseDups_eq_take (hnodup : (l.take k).Nodup) (hfront : ∀ x ∈ l.take k, p x)
    (hall : ∀ x ∈ l, p x → x ∈ l.take k) : l.eraseDups.filter p = l.take k := by
  have hrest : ((l.drop k).removeAll (l.take k)).eraseDups.filter p = [] := by
    apply List.filter_eq_nil_iff.mpr
    intro x hx hp
    obtain ⟨hdrop, hnot⟩ := List.mem_filter.mp (List.mem_eraseDups.mp hx)
    have hmem := hall x (List.mem_of_mem_drop hdrop) hp
    simp [hmem] at hnot
  calc l.eraseDups.filter p = (l.take k ++ l.drop k).eraseDups.filter p := by
        rw [List.take_append_drop]
    _ = (l.take k).filter p := by
      rw [List.eraseDups_append, List.filter_append, hrest, List.append_nil,
        eraseDups_of_nodup hnodup]
    _ = l.take k := List.filter_eq_self.mpr hfront

/-- Such a front is no longer than what is kept. -/
theorem le_length_filter_eraseDups (hnodup : (l.take k).Nodup) (hfront : ∀ x ∈ l.take k, p x)
    (hk : k ≤ l.length) : k ≤ (l.eraseDups.filter p).length := by
  have hsub : l.take k ⊆ l.eraseDups.filter p := by
    intro x hx
    exact List.mem_filter.mpr ⟨List.mem_eraseDups.mpr (List.mem_of_mem_take hx), hfront x hx⟩
  have hle := (hnodup.subperm hsub).length_le
  rwa [List.length_take_of_le hk] at hle

/-- A front without repetitions that has all elements is what is kept. -/
theorem eraseDups_eq_take (hnodup : (l.take k).Nodup) (hall : ∀ x ∈ l, x ∈ l.take k) :
    l.eraseDups = l.take k := by
  have heq := filter_eraseDups_eq_take (p := fun _ ↦ true) hnodup (fun _ _ ↦ rfl)
    fun x hx _ ↦ hall x hx
  rwa [List.filter_true] at heq

omit [BEq α] [LawfulBEq α] in
/-- The elements with a property stand in front when none of them lies behind one without it. -/
theorem filter_prefix_iff {l : List α} :
    l.filter p <+: l ↔ l.Pairwise fun a b ↦ p b → p a := by
  induction l with
  | nil => simp
  | cons a as ih =>
    rw [List.pairwise_cons]
    by_cases ha : p a
    · rw [List.filter_cons_of_pos ha, List.prefix_cons_inj, ih]
      simp [ha]
    · rw [List.filter_cons_of_neg ha]
      constructor
      · intro hfront
        have hnil : as.filter p = [] := by
          rcases List.prefix_cons_iff.mp hfront with hnil | ⟨t, heq, -⟩
          · exact hnil
          · have hmem : a ∈ as.filter p := heq ▸ List.mem_cons_self
            exact absurd (List.mem_filter.mp hmem).2 ha
        have hnone := List.filter_eq_nil_iff.mp hnil
        refine ⟨fun b hb hp ↦ absurd hp (hnone b hb), ih.mp ?_⟩
        rw [hnil]
        exact List.nil_prefix
      · rintro ⟨hnone, -⟩
        have hnil : as.filter p = [] :=
          List.filter_eq_nil_iff.mpr fun b hb hp ↦ ha (hnone b hb hp)
        rw [hnil]
        exact List.nil_prefix

omit [BEq α] [LawfulBEq α] in
/-- Nothing comes up again within a front without repetitions. -/
theorem getElem_notMem_take {front : List α} (hfront : front <+: l) (hnodup : front.Nodup)
    (hlt : k < l.length) (hk : k < front.length) : l[k] ∉ l.take k := by
  have htake : l.take (k + 1) <+: front := by
    rw [List.prefix_iff_eq_take.mp hfront]
    exact List.take_prefix_take_left hk
  have hdistinct := hnodup.sublist htake.sublist
  rw [List.take_succ_eq_append_getElem hlt] at hdistinct
  intro hmem
  exact (List.nodup_append.mp hdistinct).2.2 _ hmem _ (List.mem_singleton_self _) rfl

end Verif
