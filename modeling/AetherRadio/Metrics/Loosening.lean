import AetherRadio.Metrics.Severity

/-!
# Looser thresholds

How the severity moves with the thresholds. The evaluation multiplies two of them without a check:
a build that checks for overflow stops there, a build that does not goes on with the wrapped
product.
-/

namespace AetherRadio

/-- Multiplication that answers nothing when it overflows, as a checked build panics. -/
def checkedMul (a b : UInt64) : Option UInt64 :=
  if a.toNat * b.toNat < 2 ^ 64 then some (a * b) else none

namespace HealthManagerOf

variable {L : Type} [LossRate L]

/-- The state `evaluate` moves to in a build that checks for overflow. A product is only made when
the comparisons before it have not decided. -/
def nextChecked (self : HealthManagerOf L) (snap : LayeredMetricsSnapshot) :
    Option HealthState :=
  if snap.transport.gapCount > self.thresholds.maxSeqGapPerWindow.toNat then some .failed
  else
    match checkedMul self.thresholds.maxSymbolDeadlineMissPerWindow 4 with
    | none => none
    | some maxMisses =>
      if snap.radio.deadlineMiss > maxMisses.toNat ∨
          LossRate.exceedsTenfold snap.transport.drop snap.transport.rxPackets
            self.thresholds.maxLossRate then
        some .failed
      else if self.thresholds.Warned snap then
        match checkedMul self.thresholds.maxLatencyP99Ns 2 with
        | none => none
        | some maxLatency =>
          if snap.latency > maxLatency ∨
              snap.radio.deadlineMiss >
                self.thresholds.maxSymbolDeadlineMissPerWindow.toNat then
            some .degraded
          else some .warning
      else if self.state = .failed ∨ self.state = .degraded then some .recovery
      else some .normal

end HealthManagerOf

/-- Every product that an evaluation of the snapshot gets to fits in a word. -/
structure HealthThresholdsOf.Fits {L : Type} [LossRate L] (thresholds : HealthThresholdsOf L)
    (snap : LayeredMetricsSnapshot) : Prop where
  misses : snap.transport.gapCount ≤ thresholds.maxSeqGapPerWindow.toNat →
    thresholds.maxSymbolDeadlineMissPerWindow.toNat * 4 < 2 ^ 64
  latency : ¬ thresholds.Failing snap → thresholds.Warned snap →
    thresholds.maxLatencyP99Ns.toNat * 2 < 2 ^ 64

namespace HealthManagerOf

variable {L : Type} [LossRate L]

/-- A checked evaluation goes through exactly when the products fit, and then moves to the same
state. -/
theorem nextChecked_eq_some {self : HealthManagerOf L} {snap : LayeredMetricsSnapshot}
    {state : HealthState} :
    self.nextChecked snap = some state ↔
      self.thresholds.Fits snap ∧ self.next snap = state := by
  unfold nextChecked checkedMul
  by_cases hgap : snap.transport.gapCount > self.thresholds.maxSeqGapPerWindow.toNat
  · have hfailing : self.thresholds.Failing snap := .inl hgap
    have fits : self.thresholds.Fits snap :=
      ⟨fun hle ↦ absurd hgap (Nat.not_lt.mpr hle), fun h ↦ absurd hfailing h⟩
    rw [if_pos hgap, next, if_pos hfailing, Option.some.injEq, and_iff_right fits]
  rw [if_neg hgap]
  by_cases hmisses : self.thresholds.maxSymbolDeadlineMissPerWindow.toNat * 4 < 2 ^ 64
  swap
  · have hfour : ¬ self.thresholds.maxSymbolDeadlineMissPerWindow.toNat *
        (4 : UInt64).toNat < 2 ^ 64 := hmisses
    rw [if_neg hfour]
    exact iff_of_false (fun h ↦ by cases h) fun h ↦ hmisses (h.1.misses (Nat.not_lt.mp hgap))
  have hfour : self.thresholds.maxSymbolDeadlineMissPerWindow.toNat *
      (4 : UInt64).toNat < 2 ^ 64 := hmisses
  -- From here on the first product is the wrapped one.
  have hfailing : self.thresholds.Failing snap ↔
      snap.radio.deadlineMiss > (self.thresholds.maxSymbolDeadlineMissPerWindow * 4).toNat ∨
        LossRate.exceedsTenfold snap.transport.drop snap.transport.rxPackets
          self.thresholds.maxLossRate := or_iff_right hgap
  rw [if_pos hfour]
  simp only [← hfailing, next]
  by_cases hfails : self.thresholds.Failing snap
  · have fits : self.thresholds.Fits snap := ⟨fun _ ↦ hmisses, fun h ↦ absurd hfails h⟩
    rw [if_pos hfails, if_pos hfails, Option.some.injEq, and_iff_right fits]
  rw [if_neg hfails, if_neg hfails]
  by_cases hwarned : self.thresholds.Warned snap
  swap
  · have fits : self.thresholds.Fits snap := ⟨fun _ ↦ hmisses, fun _ h ↦ absurd h hwarned⟩
    rw [if_neg hwarned, if_neg hwarned, and_iff_right fits, ← apply_ite some,
      Option.some.injEq]
  rw [if_pos hwarned, if_pos hwarned]
  by_cases hlatency : self.thresholds.maxLatencyP99Ns.toNat * 2 < 2 ^ 64
  · have htwo : self.thresholds.maxLatencyP99Ns.toNat * (2 : UInt64).toNat < 2 ^ 64 := hlatency
    have fits : self.thresholds.Fits snap := ⟨fun _ ↦ hmisses, fun _ _ ↦ hlatency⟩
    rw [if_pos htwo, and_iff_right fits]
    simp only [HealthThresholdsOf.Degrading, ← apply_ite some, Option.some.injEq]
    exact Iff.rfl
  · have htwo : ¬ self.thresholds.maxLatencyP99Ns.toNat * (2 : UInt64).toNat < 2 ^ 64 := hlatency
    rw [if_neg htwo]
    exact iff_of_false (fun h ↦ by cases h) fun h ↦ hlatency (h.1.latency hfails hwarned)

private theorem isSome_nextChecked (self : HealthManagerOf L) (snap : LayeredMetricsSnapshot) :
    (self.nextChecked snap).isSome ↔ self.thresholds.Fits snap := by
  rw [Option.isSome_iff_exists]
  constructor
  · rintro ⟨state, hstate⟩
    exact (nextChecked_eq_some.mp hstate).1
  · intro fits
    exact ⟨self.next snap, nextChecked_eq_some.mpr ⟨fits, rfl⟩⟩

end HealthManagerOf

/-- Every limit is at least that of another policy. -/
structure Loosens (thresholds looser : HealthThresholdsOf LossLimit) : Prop where
  loss : thresholds.maxLossRate.Le looser.maxLossRate
  gaps : thresholds.maxSeqGapPerWindow ≤ looser.maxSeqGapPerWindow
  latency : thresholds.maxLatencyP99Ns ≤ looser.maxLatencyP99Ns
  jitter : thresholds.maxJitterNs ≤ looser.maxJitterNs
  misses : thresholds.maxSymbolDeadlineMissPerWindow ≤ looser.maxSymbolDeadlineMissPerWindow
  stall : thresholds.maxGpuStallNs ≤ looser.maxGpuStallNs

namespace Loosens

variable {thresholds looser : HealthThresholdsOf LossLimit} {snap : LayeredMetricsSnapshot}

theorem warned (loose : Loosens thresholds looser) (h : looser.Warned snap) :
    thresholds.Warned snap := by
  rcases h with hgap | hmiss | hlatency | hstall | hloss
  · exact .inl hgap
  · exact .inr (.inl (Nat.lt_of_le_of_lt (UInt64.le_iff_toNat_le.mp loose.misses) hmiss))
  · exact .inr (.inr (.inl (UInt64.lt_of_le_of_lt loose.latency hlatency)))
  · exact .inr (.inr (.inr (.inl (UInt64.lt_of_le_of_lt loose.stall hstall))))
  · exact .inr (.inr (.inr (.inr (LossLimit.exceededBy_mono loose.loss le_rfl hloss))))

/-- A product of a limit that fits is no more than that of a looser one that fits. -/
theorem toNat_mul_le {a b : UInt64} (hle : a ≤ b) (k : UInt64)
    (hfits : b.toNat * k.toNat < 2 ^ 64) : (a * k).toNat ≤ (b * k).toNat := by
  have hmul : a.toNat * k.toNat ≤ b.toNat * k.toNat :=
    Nat.mul_le_mul_right _ (UInt64.le_iff_toNat_le.mp hle)
  rw [UInt64.toNat_mul, UInt64.toNat_mul, Nat.mod_eq_of_lt hfits,
    Nat.mod_eq_of_lt (Nat.lt_of_le_of_lt hmul hfits)]
  exact hmul

theorem failing (loose : Loosens thresholds looser) (fits : looser.Fits snap)
    (h : looser.Failing snap) : thresholds.Failing snap := by
  have hgaps := UInt64.le_iff_toNat_le.mp loose.gaps
  by_cases hgap : snap.transport.gapCount ≤ looser.maxSeqGapPerWindow.toNat
  · rcases h with hexceeded | hmiss | hloss
    · exact absurd hgap (Nat.not_le.mpr hexceeded)
    · exact .inr (.inl (Nat.lt_of_le_of_lt (toNat_mul_le loose.misses 4 (fits.misses hgap)) hmiss))
    · exact .inr (.inr
        (LossLimit.exceededBy_mono (LossLimit.tenfold_le loose.loss) le_rfl hloss))
  · exact .inl (Nat.lt_of_le_of_lt hgaps (Nat.not_le.mp hgap))

theorem degrading (loose : Loosens thresholds looser)
    (hfits : looser.maxLatencyP99Ns.toNat * 2 < 2 ^ 64) (h : looser.Degrading snap) :
    thresholds.Degrading snap := by
  rcases h with hlatency | hmiss
  · apply Or.inl
    rw [gt_iff_lt, UInt64.lt_iff_toNat_lt] at hlatency ⊢
    exact Nat.lt_of_le_of_lt (toNat_mul_le loose.latency 2 hfits) hlatency
  · exact .inr (Nat.lt_of_le_of_lt (UInt64.le_iff_toNat_le.mp loose.misses) hmiss)

/-- A looser policy judges no more severely when its products fit. -/
theorem severity_level_le (loose : Loosens thresholds looser) (fits : looser.Fits snap) :
    (looser.level snap).severity ≤ (thresholds.level snap).severity := by
  apply HealthThresholdsOf.severity_level_le
  · exact loose.failing fits
  · exact loose.warned
  · intro hfailing hwarned
    exact loose.degrading (fits.latency (fun h ↦ hfailing (loose.failing fits h)) hwarned)

end Loosens

namespace HealthManagerOf

/-- Evaluating with looser thresholds reaches no severer state, and neither evaluation
overflows. -/
def LooseningHelps (self : HealthManagerOf LossLimit) (looser : HealthThresholdsOf LossLimit)
    (snap : LayeredMetricsSnapshot) : Prop :=
  let loosened : HealthManagerOf LossLimit := { self with thresholds := looser }
  (self.nextChecked snap).isSome ∧ (loosened.nextChecked snap).isSome ∧
    (loosened.evaluate snap).1.state.severity ≤ (self.evaluate snap).1.state.severity

/-- Loosening helps exactly when the products that the two evaluations get to fit. -/
theorem loosening_helps_iff (self : HealthManagerOf LossLimit)
    (looser : HealthThresholdsOf LossLimit) (snap : LayeredMetricsSnapshot)
    (loose : Loosens self.thresholds looser) :
    self.LooseningHelps looser snap ↔ self.thresholds.Fits snap ∧ looser.Fits snap := by
  simp only [LooseningHelps, isSome_nextChecked, state_evaluate, severity_next]
  constructor
  · rintro ⟨hfits, hfitsLooser, -⟩
    exact ⟨hfits, hfitsLooser⟩
  · rintro ⟨hfits, hfitsLooser⟩
    exact ⟨hfits, hfitsLooser, loose.severity_level_le hfitsLooser⟩

/-- A latency over the limit, and a limit moved above it. -/
theorem loosening_helps_iff_default :
    let looser : HealthThresholdsOf LossLimit := { exactDefault with maxLatencyP99Ns := 100000 }
    ((new exactDefault).evaluate slowSnapshot).1.state = .warning ∧
      (new exactDefault).LooseningHelps looser slowSnapshot := by
  intro looser
  refine ⟨by decide +kernel, (loosening_helps_iff (new exactDefault) looser slowSnapshot
    ⟨LossLimit.le_refl _, by decide, by decide, by decide, by decide, by decide⟩).mpr ?_⟩
  exact ⟨⟨by decide +kernel, by decide +kernel⟩, ⟨by decide +kernel, by decide +kernel⟩⟩

/-- Allowing one deadline miss more, `2 ^ 62` of them, takes a link with one miss from normal to
failed. -/
theorem loosening_fails :
    let thresholds : HealthThresholdsOf LossLimit :=
      { exactDefault with maxSymbolDeadlineMissPerWindow := 4611686018427387903 }
    let looser : HealthThresholdsOf LossLimit :=
      { exactDefault with maxSymbolDeadlineMissPerWindow := 4611686018427387904 }
    let snap := MetricsEngine.new.recordDeadlineMiss.layered
    Loosens thresholds looser ∧ ((new thresholds).evaluate snap).1.state = .normal ∧
      ((new looser).evaluate snap).1.state = .failed ∧ (new looser).nextChecked snap = none ∧
      ¬ (new thresholds).LooseningHelps looser snap := by
  intro thresholds looser snap
  have hoverflow : (new looser).nextChecked snap = none := by decide +kernel
  refine ⟨⟨LossLimit.le_refl _, by decide, by decide, by decide, by decide, by decide⟩,
    by decide +kernel, by decide +kernel, hoverflow, ?_⟩
  rintro ⟨-, hsome, -⟩
  have hnone : ((new looser).nextChecked snap).isSome := hsome
  rw [hoverflow] at hnone
  cases hnone

end HealthManagerOf

end AetherRadio
