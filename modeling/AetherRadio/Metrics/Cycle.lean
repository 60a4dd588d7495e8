import AetherRadio.Metrics.Severity

/-!
# Cycle of health states

The documented cycle comes back to normal through recovery. An evaluation knows the state before it
and no more, so a failed link that only warns for a while is forgotten.
-/

namespace AetherRadio

/-- The link is down. -/
def HealthState.Down (state : HealthState) : Prop := state = .failed ∨ state = .degraded

/-- The states that follow a state through snapshots of these levels. -/
def HealthState.follow (state : HealthState) : List HealthState → List HealthState
  | [] => []
  | level :: levels => state.after level :: follow (state.after level) levels

namespace HealthState

variable {state level : HealthState} {levels levels' : List HealthState}

private theorem after_of_ne_normal (hlevel : level ≠ .normal) : state.after level = level :=
  if_neg hlevel

/-- A state that a clean snapshot does not lead to is the level of the snapshot. -/
theorem eq_after {x : HealthState} (h : state.after level = x) (hnormal : x ≠ .normal)
    (hrecovery : x ≠ .recovery) : level = x := by
  by_cases hlevel : level = .normal
  · rw [after, if_pos hlevel] at h
    by_cases hdown : state = .failed ∨ state = .degraded
    · rw [if_pos hdown] at h
      exact absurd h.symm hrecovery
    · rw [if_neg hdown] at h
      exact absurd h.symm hnormal
  · rw [after_of_ne_normal hlevel] at h
    exact h

/-- A link is normal after a clean snapshot when it was not down before. -/
private theorem after_eq_normal : state.after level = .normal ↔ level = .normal ∧ ¬ state.Down := by
  unfold after Down
  by_cases hlevel : level = .normal
  · by_cases hdown : state = .failed ∨ state = .degraded
    · simp [hlevel, hdown]
    · simp [hlevel, hdown]
  · simp [hlevel]

/-- Through levels that are not clean the states are the levels. -/
private theorem follow_append (hlevels : .normal ∉ levels) :
    state.follow (levels ++ levels') = levels ++ (levels.getLast?.getD state).follow levels' := by
  induction levels generalizing state with
  | nil => rfl
  | cons level levels ih =>
    have hlevel : level ≠ .normal := fun h ↦ hlevels (h ▸ List.mem_cons_self)
    rw [List.cons_append, follow, after_of_ne_normal hlevel,
      ih (fun h ↦ hlevels (List.mem_cons_of_mem _ h)), List.getLast?_cons, List.cons_append]
    rfl

/-- And states that are neither clean nor recovering come from such levels. -/
private theorem follow_stretch {mid rest : List HealthState} (hnormal : .normal ∉ mid)
    (hrecovery : .recovery ∉ mid) (h : state.follow levels = mid ++ rest) :
    ∃ levels', levels = mid ++ levels' ∧ rest = (mid.getLast?.getD state).follow levels' := by
  induction mid generalizing state levels with
  | nil => exact ⟨levels, rfl, h.symm⟩
  | cons x mid ih =>
    cases levels with
    | nil => cases h
    | cons level levels =>
      rw [follow, List.cons_append, List.cons.injEq] at h
      have hlevel : level = x :=
        eq_after h.1 (fun he ↦ hnormal (he ▸ List.mem_cons_self))
          (fun he ↦ hrecovery (he ▸ List.mem_cons_self))
      obtain ⟨levels', hlevels, hrest⟩ := ih (fun hm ↦ hnormal (List.mem_cons_of_mem _ hm))
        (fun hm ↦ hrecovery (List.mem_cons_of_mem _ hm)) h.2
      refine ⟨levels', ?_, ?_⟩
      · rw [hlevel, hlevels, List.cons_append]
      · rw [hrest, h.1, List.getLast?_cons]
        rfl

/-- Where a state is visited some level has led to it. -/
private theorem follow_split {pre tail : List HealthState} {x : HealthState}
    (h : state.follow levels = pre ++ x :: tail) :
    ∃ pre' level levels', ∃ before : HealthState, levels = pre' ++ level :: levels' ∧
      before.after level = x ∧ tail = x.follow levels' := by
  induction pre generalizing state levels with
  | nil =>
    cases levels with
    | nil => cases h
    | cons level levels =>
      rw [follow, List.nil_append, List.cons.injEq] at h
      exact ⟨[], level, levels, state, rfl, h.1, by rw [← h.2, h.1]⟩
  | cons y pre ih =>
    cases levels with
    | nil => cases h
    | cons level levels =>
      rw [follow, List.cons_append, List.cons.injEq] at h
      obtain ⟨pre', level', levels', before, hlevels, hafter, htail⟩ := ih h.2
      exact ⟨level :: pre', level', levels', before, by rw [hlevels, List.cons_append],
        hafter, htail⟩

/-- The other way round, the states after some levels. -/
private theorem exists_follow_append (state : HealthState) (levels levels' : List HealthState) :
    ∃ pre, ∃ before : HealthState,
      state.follow (levels ++ levels') = pre ++ before.follow levels' := by
  induction levels generalizing state with
  | nil => exact ⟨[], state, rfl⟩
  | cons level levels ih =>
    obtain ⟨pre, before, h⟩ := ih (state.after level)
    exact ⟨state.after level :: pre, before, by rw [List.cons_append, follow, h, List.cons_append]⟩

end HealthState

/-- Between a visit to a state that is down and the next to normal there is recovery. -/
def RecoversFirst (states : List HealthState) : Prop :=
  ∀ pre down mid post, states = pre ++ down :: (mid ++ .normal :: post) → down.Down →
    .normal ∉ mid → .recovery ∈ mid

/-- Once down, a link is down up to its next clean snapshot: the last level before that one is not
a warning. -/
def DownUntilClean (levels : List HealthState) : Prop :=
  ∀ pre down mid post, levels = pre ++ down :: (mid ++ .normal :: post) → down.Down →
    .normal ∉ mid → mid.getLast? ≠ some .warning

private theorem HealthState.Down.ne {down : HealthState} (hdown : down.Down) :
    down ≠ .normal ∧ down ≠ .recovery ∧ down ≠ .warning := by
  rcases hdown with h | h <;> rw [h] <;> decide

/-- A state that is neither clean nor recovering nor down is a warning. -/
private theorem HealthState.eq_warning {state : HealthState} (hnormal : state ≠ .normal)
    (hrecovery : state ≠ .recovery) (hup : ¬ state.Down) : state = .warning := by
  cases state with
  | normal => exact absurd rfl hnormal
  | warning => rfl
  | degraded => exact absurd (.inr rfl) hup
  | failed => exact absurd (.inl rfl) hup
  | recovery => exact absurd rfl hrecovery

/-- The states recover first exactly when the levels stay down until clean. -/
private theorem HealthState.recoversFirst_follow {levels : List HealthState}
    (hlevels : .recovery ∉ levels)
    (state : HealthState) : RecoversFirst (state.follow levels) ↔ DownUntilClean levels := by
  constructor
  · intro hrecovers pre down mid post hsplit hdown hmid hwarning
    have hrecovery : .recovery ∉ mid := by
      intro hmem
      apply hlevels
      rw [hsplit]
      simp [hmem]
    have hstretch : .normal ∉ down :: mid := by
      simp [hmid, hdown.ne.1.symm]
    obtain ⟨before, previous, hbefore⟩ :=
      exists_follow_append state pre ((down :: mid) ++ .normal :: post)
    have hlast : (down :: mid).getLast?.getD previous = .warning := by
      rw [List.getLast?_cons, hwarning]
      rfl
    rw [follow_append hstretch, hlast] at hbefore
    apply hrecovery
    apply hrecovers before down mid (HealthState.normal.follow post) _ hdown hmid
    rw [hsplit]
    exact hbefore
  · intro hclean pre down mid post hsplit hdown hmid
    by_cases hrecovery : HealthState.recovery ∈ mid
    · exact hrecovery
    -- Without recovery the stretch is one of levels, and a warning must end it.
    obtain ⟨pre', level, levels', before, hlevels', hafter, htail⟩ := follow_split hsplit
    obtain ⟨rest, hrest, hnormal⟩ := follow_stretch hmid hrecovery htail.symm
    cases rest with
    | nil => cases hnormal
    | cons clean rest =>
      rw [follow, List.cons.injEq] at hnormal
      obtain ⟨hcleanLevel, hup⟩ := after_eq_normal.mp hnormal.1.symm
      have hlevel := eq_after hafter hdown.ne.1 hdown.ne.2.1
      rw [hrest, hcleanLevel, hlevel] at hlevels'
      have hwarning := hclean pre' down mid rest hlevels' hdown hmid
      exfalso
      cases hmid' : mid.getLast? with
      | none =>
        rw [hmid'] at hup
        exact hup hdown
      | some last =>
        rw [hmid'] at hup hwarning
        have hmem := List.mem_of_getLast? hmid'
        apply hwarning
        rw [HealthState.eq_warning (fun he ↦ hmid (he ▸ hmem)) (fun he ↦ hrecovery (he ▸ hmem)) hup]

namespace HealthManagerOf

variable {L : Type} [LossRate L]

/-- The states after each of a sequence of evaluations. -/
def visited (self : HealthManagerOf L) : List LayeredMetricsSnapshot → List HealthState
  | [] => []
  | snap :: snaps => (self.evaluate snap).1.state :: visited (self.evaluate snap).1 snaps

private theorem visited_eq_follow (self : HealthManagerOf L) (snaps : List LayeredMetricsSnapshot) :
    self.visited snaps = self.state.follow (snaps.map self.thresholds.level) := by
  induction snaps generalizing self with
  | nil => rfl
  | cons snap snaps ih =>
    rw [visited, ih, List.map_cons, HealthState.follow, state_evaluate, thresholds_evaluate,
      next_eq_after]

/-- Recovery is not skipped in exactly the runs whose snapshots, once down, are down until clean. -/
theorem recovers_first_iff (thresholds : HealthThresholdsOf L)
    (snaps : List LayeredMetricsSnapshot) :
    RecoversFirst ((new thresholds).visited snaps) ↔
      DownUntilClean (snaps.map thresholds.level) := by
  rw [visited_eq_follow]
  apply HealthState.recoversFirst_follow
  intro hmem
  obtain ⟨snap, -, hlevel⟩ := List.mem_map.mp hmem
  exact thresholds.level_ne_recovery snap hlevel

/-- A gap, then a latency over its limit, then nothing: failed, warning, normal. -/
theorem recovery_skipped :
    let snaps := [MetricsEngine.new.recordSequenceGap.layered,
      (MetricsEngine.new.recordLatencySample 60000).layered, MetricsEngine.new.layered]
    (new exactDefault).visited snaps = [.failed, .warning, .normal] ∧
      ¬ RecoversFirst ((new exactDefault).visited snaps) := by
  intro snaps
  have hvisited : (new exactDefault).visited snaps = [.failed, .warning, .normal] := by
    decide +kernel
  refine ⟨hvisited, ?_⟩
  intro hrecovers
  have hmem := hrecovers [] .failed [.warning] [] hvisited (.inl rfl) (by decide)
  exact absurd hmem (by decide)

end HealthManagerOf

end AetherRadio
