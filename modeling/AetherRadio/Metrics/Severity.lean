import AetherRadio.Metrics.Judge
import Mathlib.Algebra.Order.Field.Basic
import Mathlib.Tactic.Linarith

/-!
# Severity of a judgement

How severe the state is that an evaluation reaches: which limits of a policy can raise it, and how
it moves with the metrics and with the limits. Loss rates are read exactly.
-/

namespace AetherRadio

open HealthState

/-- Severity of a state. A recovering link is a clean one. -/
def HealthState.severity : HealthState → Nat
  | .normal | .recovery => 0
  | .warning => 1
  | .degraded => 2
  | .failed => 3

/-- The state before a snapshot does not count for the severity after it. -/
private theorem HealthState.severity_after (state level : HealthState) :
    (state.after level).severity = level.severity := by
  unfold HealthState.after
  by_cases hlevel : level = .normal
  · rw [if_pos hlevel, hlevel]
    split <;> rfl
  · rw [if_neg hlevel]

/-- A state that calls for attention: not a clean link, nor a recovering one. -/
def HealthState.Alerted (state : HealthState) : Prop :=
  state = .warning ∨ state = .degraded ∨ state = .failed

private theorem HealthState.alerted_after {level : HealthState} (hlevel : level ≠ .recovery)
    (state : HealthState) : (state.after level).Alerted ↔ level ≠ .normal := by
  unfold HealthState.after HealthState.Alerted
  cases level with
  | normal => by_cases hbad : state = .failed ∨ state = .degraded <;> simp [hbad]
  | recovery => exact absurd rfl hlevel
  | warning => simp
  | degraded => simp
  | failed => simp

namespace HealthManagerOf

variable {L : Type} [LossRate L]

theorem severity_next (self : HealthManagerOf L) (snap : LayeredMetricsSnapshot) :
    (self.next snap).severity = (self.thresholds.level snap).severity := by
  rw [next_eq_after, HealthState.severity_after]

end HealthManagerOf

namespace HealthThresholdsOf

variable {L : Type} [LossRate L] {t t' : HealthThresholdsOf L} {a b : LayeredMetricsSnapshot}

/-- A level is as severe as another when its conditions follow from those of the other. -/
theorem severity_level_le (failing : t.Failing a → t'.Failing b) (warned : t.Warned a → t'.Warned b)
    (degrading : ¬ t'.Failing b → t.Warned a → t.Degrading a → t'.Degrading b) :
    (t.level a).severity ≤ (t'.level b).severity := by
  unfold level
  by_cases hfailing : t'.Failing b
  · rw [if_pos hfailing]
    split
    · exact Nat.le_refl _
    · split
      · split <;> decide
      · decide
  · rw [if_neg hfailing, if_neg (mt failing hfailing)]
    by_cases hwarned : t'.Warned b
    · rw [if_pos hwarned]
      by_cases hdegrading : t'.Degrading b
      · rw [if_pos hdegrading]
        split
        · split <;> decide
        · decide
      · rw [if_neg hdegrading]
        by_cases hwarnedA : t.Warned a
        · rw [if_pos hwarnedA, if_neg (mt (degrading hfailing hwarnedA) hdegrading)]
        · rw [if_neg hwarnedA]
          decide
    · rw [if_neg hwarned, if_neg (mt warned hwarned)]

end HealthThresholdsOf

/-! ### Loss rates and their limits -/

private theorem exactLossRate_nonneg (drop rx : Nat) : 0 ≤ exactLossRate drop rx :=
  div_nonneg (Nat.cast_nonneg _) (Nat.cast_nonneg _)

/-- The loss rate grows with the drops and shrinks with the packets received. -/
private theorem exactLossRate_le {drop drop' rx rx' : Nat} (hdrop : drop ≤ drop') (hrx : rx' ≤ rx) :
    exactLossRate drop rx ≤ exactLossRate drop' rx' := by
  unfold exactLossRate
  apply div_le_div₀
  · exact Nat.cast_nonneg _
  · exact Nat.cast_le.mpr hdrop
  · apply Nat.cast_pos.mpr
    omega
  · apply Nat.cast_le.mpr
    omega

namespace LossLimit

/-- A limit is at least as loose as another. -/
def Le : LossLimit → LossLimit → Prop
  | .finite rate, .finite rate' => rate ≤ rate'
  | .negInfinity, .finite _ | .negInfinity, .infinity | .finite _, .infinity => True
  | limit, limit' => limit = limit'

theorem le_refl (limit : LossLimit) : limit.Le limit := by
  cases limit with
  | finite rate =>
    show rate ≤ rate
    exact le_rfl
  | infinity => rfl
  | negInfinity => rfl
  | nan => rfl

/-- What exceeds a limit exceeds a tighter one, and so does any greater loss. -/
theorem exceededBy_mono {limit limit' : LossLimit} {loss loss' : ℚ} (hlimit : limit'.Le limit)
    (hloss : loss ≤ loss') (h : limit.exceededBy loss) : limit'.exceededBy loss' := by
  cases limit with
  | finite rate =>
    have hrate := of_decide_eq_true h
    cases limit' with
    | finite rate' => exact decide_eq_true (lt_of_le_of_lt hlimit (lt_of_lt_of_le hrate hloss))
    | negInfinity => rfl
    | infinity => cases hlimit
    | nan => cases hlimit
  | infinity => cases h
  | negInfinity =>
    cases limit' with
    | negInfinity => rfl
    | finite rate' => cases hlimit
    | infinity => cases hlimit
    | nan => cases hlimit
  | nan => cases h

theorem tenfold_le {limit limit' : LossLimit} (h : limit'.Le limit) :
    limit'.tenfold.Le limit.tenfold := by
  cases limit' with
  | finite rate' =>
    cases limit with
    | finite rate => exact mul_le_mul_of_nonneg_right h (by norm_num)
    | infinity => trivial
    | negInfinity => cases h
    | nan => cases h
  | infinity => cases limit <;> first | exact h | cases h
  | negInfinity => cases limit <;> exact h
  | nan => cases limit <;> first | exact h | cases h

/-- A loss above ten times a limit is above the limit. -/
private theorem exceededBy_of_tenfold {limit : LossLimit} {loss : ℚ} (hloss : 0 ≤ loss)
    (h : limit.tenfold.exceededBy loss) : limit.exceededBy loss := by
  cases limit with
  | finite rate =>
    have hrate : rate * 10 < loss := of_decide_eq_true h
    apply decide_eq_true
    show rate < loss
    linarith
  | infinity => cases h
  | negInfinity => rfl
  | nan => cases h

end LossLimit

/-! ### The limits of a policy -/

/-- The limits of a policy. -/
inductive HealthLimit where
  | lossRate
  | seqGap
  | latencyP99
  | jitter
  | symbolDeadlineMiss
  | gpuStall
  deriving DecidableEq, Repr

/-- A snapshot exceeds a limit. -/
def HealthLimit.ExceededBy {L : Type} [LossRate L] (thresholds : HealthThresholdsOf L)
    (snap : LayeredMetricsSnapshot) : HealthLimit → Prop
  | .lossRate =>
    LossRate.exceeds snap.transport.drop snap.transport.rxPackets thresholds.maxLossRate
  | .seqGap => snap.transport.gapCount > thresholds.maxSeqGapPerWindow.toNat
  | .latencyP99 =>
    snap.transport.latencyLastNs > thresholds.maxLatencyP99Ns ∨
      snap.transport.latencyMaxNs > thresholds.maxLatencyP99Ns
  | .jitter => snap.transport.jitterNs > thresholds.maxJitterNs
  | .symbolDeadlineMiss =>
    snap.radio.deadlineMiss > thresholds.maxSymbolDeadlineMissPerWindow.toNat
  | .gpuStall => snap.memory.ringStallNs > thresholds.maxGpuStallNs

/-- The two products of thresholds fit in a word. -/
structure HealthThresholdsOf.ProductsFit {L : Type} (thresholds : HealthThresholdsOf L) : Prop where
  misses : thresholds.maxSymbolDeadlineMissPerWindow.toNat * 4 < 2 ^ 64
  latency : thresholds.maxLatencyP99Ns.toNat * 2 < 2 ^ 64

/-- The larger latency is above a limit when one of the two is. -/
theorem LayeredMetricsSnapshot.lt_latency (snap : LayeredMetricsSnapshot) (limit : UInt64) :
    snap.latency > limit ↔
      snap.transport.latencyLastNs > limit ∨ snap.transport.latencyMaxNs > limit := by
  have hmax := Verif.toNat_max snap.transport.latencyLastNs snap.transport.latencyMaxNs
  simp only [latency, gt_iff_lt, UInt64.lt_iff_toNat_lt, hmax]
  omega

namespace HealthThresholdsOf

/-- A warning is given for a gap, or for any limit exceeded but that on the jitter. -/
theorem warned_iff {L : Type} [LossRate L] (thresholds : HealthThresholdsOf L)
    (snap : LayeredMetricsSnapshot) :
    thresholds.Warned snap ↔
      snap.transport.gapCount > 0 ∨ ∃ limit, limit ≠ HealthLimit.jitter ∧
        limit.ExceededBy thresholds snap := by
  constructor
  · rintro (hgap | hmiss | hlatency | hstall | hloss)
    · exact .inl hgap
    · exact .inr ⟨.symbolDeadlineMiss, by decide, hmiss⟩
    · exact .inr ⟨.latencyP99, by decide, (snap.lt_latency _).mp hlatency⟩
    · exact .inr ⟨.gpuStall, by decide, hstall⟩
    · exact .inr ⟨.lossRate, by decide, hloss⟩
  · rintro (hgap | ⟨limit, hne, hexceeded⟩)
    · exact .inl hgap
    · cases limit with
      | lossRate => exact .inr (.inr (.inr (.inr hexceeded)))
      | seqGap => exact .inl (Nat.zero_lt_of_lt hexceeded)
      | latencyP99 => exact .inr (.inr (.inl ((snap.lt_latency _).mpr hexceeded)))
      | jitter => exact absurd rfl hne
      | symbolDeadlineMiss => exact .inr (.inl hexceeded)
      | gpuStall => exact .inr (.inr (.inr (.inl hexceeded)))

/-- What fails the link is at least a warning, when the products fit. -/
private theorem warned_of_failing {thresholds : HealthThresholdsOf LossLimit}
    (fits : thresholds.ProductsFit) {snap : LayeredMetricsSnapshot}
    (hfailing : thresholds.Failing snap) : thresholds.Warned snap := by
  rcases hfailing with hgap | hmiss | hloss
  · exact .inl (Nat.zero_lt_of_lt hgap)
  · have hfits := fits.misses
    rw [UInt64.toNat_mul] at hmiss
    have hfour : (4 : UInt64).toNat = 4 := rfl
    rw [hfour, Nat.mod_eq_of_lt hfits] at hmiss
    apply Or.inr
    apply Or.inl
    omega
  · exact .inr (.inr (.inr (.inr
      (LossLimit.exceededBy_of_tenfold (exactLossRate_nonneg _ _) hloss))))

/-- A level other than normal. -/
private theorem level_ne_normal {L : Type} [LossRate L] (thresholds : HealthThresholdsOf L)
    (snap : LayeredMetricsSnapshot) :
    thresholds.level snap ≠ .normal ↔ thresholds.Failing snap ∨ thresholds.Warned snap := by
  unfold level
  by_cases hfailing : thresholds.Failing snap
  · simp [hfailing]
  · by_cases hwarned : thresholds.Warned snap
    · simp only [hfailing, hwarned, if_true, if_false, or_true, iff_true]
      split <;> decide
    · simp [hfailing, hwarned]

end HealthThresholdsOf

namespace HealthManagerOf

/-- An evaluation raises the state for every limit that the snapshot exceeds. -/
def LimitsEnforced {L : Type} [LossRate L] (self : HealthManagerOf L)
    (snap : LayeredMetricsSnapshot) : Prop :=
  ∀ limit : HealthLimit, limit.ExceededBy self.thresholds snap →
    (self.evaluate snap).1.state.Alerted

private theorem alerted_evaluate {L : Type} [LossRate L] (self : HealthManagerOf L)
    (snap : LayeredMetricsSnapshot) :
    (self.evaluate snap).1.state.Alerted ↔
      self.thresholds.Failing snap ∨ self.thresholds.Warned snap := by
  rw [state_evaluate, next_eq_after,
    HealthState.alerted_after (self.thresholds.level_ne_recovery snap),
    HealthThresholdsOf.level_ne_normal]

/-- Every limit is enforced exactly when the jitter is within its limit, or something else raises
the state. The limit on the jitter is never looked at. -/
theorem limits_enforced_iff (self : HealthManagerOf LossLimit) (snap : LayeredMetricsSnapshot)
    (fits : self.thresholds.ProductsFit) :
    self.LimitsEnforced snap ↔
      snap.transport.jitterNs ≤ self.thresholds.maxJitterNs ∨ snap.transport.gapCount > 0 ∨
        ∃ limit, limit ≠ HealthLimit.jitter ∧ limit.ExceededBy self.thresholds snap := by
  have halerted : (self.evaluate snap).1.state.Alerted ↔ self.thresholds.Warned snap :=
    (self.alerted_evaluate snap).trans
      (or_iff_right_of_imp (HealthThresholdsOf.warned_of_failing fits))
  rw [← HealthThresholdsOf.warned_iff, ← halerted]
  constructor
  · intro henforced
    by_cases hjitter : snap.transport.jitterNs ≤ self.thresholds.maxJitterNs
    · exact .inl hjitter
    · exact .inr (henforced .jitter (UInt64.not_le.mp hjitter))
  · rintro (hjitter | hstate) limit hexceeded
    · by_cases hlimit : limit = .jitter
      · rw [hlimit] at hexceeded
        exact absurd hexceeded (UInt64.not_lt.mpr hjitter)
      · rw [halerted, HealthThresholdsOf.warned_iff]
        exact .inr ⟨limit, hlimit, hexceeded⟩
    · exact hstate

end HealthManagerOf

/-- The default thresholds, their loss limit read exactly. -/
def exactDefault : HealthThresholdsOf LossLimit where
  maxLossRate := .finite (1 / 1000)
  maxSeqGapPerWindow := 0
  maxLatencyP99Ns := 50000
  maxJitterNs := 5000
  maxSymbolDeadlineMissPerWindow := 8
  maxGpuStallNs := 100000

/-- One latency sample, of 60000 ns. -/
def slowSnapshot : LayeredMetricsSnapshot := (MetricsEngine.new.recordLatencySample 60000).layered

/-- Two latency samples, 1000 and 40000 ns. -/
def jitterySnapshot : LayeredMetricsSnapshot :=
  ((MetricsEngine.new.recordLatencySample 1000).recordLatencySample 40000).layered

namespace HealthManagerOf

theorem limits_enforced_iff_default :
    HealthLimit.latencyP99.ExceededBy exactDefault slowSnapshot ∧
      (new exactDefault).LimitsEnforced slowSnapshot := by
  have hslow : HealthLimit.latencyP99.ExceededBy exactDefault slowSnapshot := by
    apply Or.inl
    show (60000 : UInt64) > 50000
    decide
  exact ⟨hslow, (limits_enforced_iff (new exactDefault) slowSnapshot ⟨by decide, by decide⟩).mpr
    (.inr (.inr ⟨.latencyP99, by decide, hslow⟩))⟩

/-- A jitter of 39000 ns under a limit of 5000 leaves the link normal. -/
theorem jitter_not_enforced :
    exactDefault.ProductsFit ∧ HealthLimit.jitter.ExceededBy exactDefault jitterySnapshot ∧
      ((new exactDefault).evaluate jitterySnapshot).1.state = .normal ∧
      ¬ (new exactDefault).LimitsEnforced jitterySnapshot := by
  have hjitter : HealthLimit.jitter.ExceededBy exactDefault jitterySnapshot := by
    show (39000 : UInt64) > 5000
    decide
  have hstate : ((new exactDefault).evaluate jitterySnapshot).1.state = .normal := by
    decide +kernel
  refine ⟨⟨by decide, by decide⟩, hjitter, hstate, ?_⟩
  intro henforced
  have halerted := henforced .jitter hjitter
  rw [hstate] at halerted
  rcases halerted with h | h | h <;> cases h

end HealthManagerOf

/-! ### Worse metrics -/

/-- A snapshot with no metric better than in another. -/
structure Worsens (a b : LayeredMetricsSnapshot) : Prop where
  gaps : a.transport.gapCount ≤ b.transport.gapCount
  misses : a.radio.deadlineMiss ≤ b.radio.deadlineMiss
  drops : a.transport.drop ≤ b.transport.drop
  last : a.transport.latencyLastNs ≤ b.transport.latencyLastNs
  most : a.transport.latencyMaxNs ≤ b.transport.latencyMaxNs
  stall : a.memory.ringStallNs ≤ b.memory.ringStallNs
  rx : b.transport.rxPackets ≤ a.transport.rxPackets

namespace Worsens

variable {a b : LayeredMetricsSnapshot}

theorem latency (worse : Worsens a b) : a.latency ≤ b.latency := by
  have hlast := UInt64.le_iff_toNat_le.mp worse.last
  have hmost := UInt64.le_iff_toNat_le.mp worse.most
  rw [UInt64.le_iff_toNat_le, LayeredMetricsSnapshot.latency, LayeredMetricsSnapshot.latency,
    Verif.toNat_max, Verif.toNat_max]
  omega

theorem loss (worse : Worsens a b) :
    exactLossRate a.transport.drop a.transport.rxPackets ≤
      exactLossRate b.transport.drop b.transport.rxPackets :=
  exactLossRate_le worse.drops worse.rx

/-- The conditions of the evaluation keep holding. -/
theorem failing (worse : Worsens a b) {thresholds : HealthThresholdsOf LossLimit}
    (h : thresholds.Failing a) : thresholds.Failing b := by
  rcases h with hgap | hmiss | hloss
  · exact .inl (Nat.lt_of_lt_of_le hgap worse.gaps)
  · exact .inr (.inl (Nat.lt_of_lt_of_le hmiss worse.misses))
  · exact .inr (.inr (LossLimit.exceededBy_mono (LossLimit.le_refl _) worse.loss hloss))

theorem warned (worse : Worsens a b) {thresholds : HealthThresholdsOf LossLimit}
    (h : thresholds.Warned a) : thresholds.Warned b := by
  rcases h with hgap | hmiss | hlatency | hstall | hloss
  · exact .inl (Nat.lt_of_lt_of_le hgap worse.gaps)
  · exact .inr (.inl (Nat.lt_of_lt_of_le hmiss worse.misses))
  · exact .inr (.inr (.inl (UInt64.lt_of_lt_of_le hlatency worse.latency)))
  · exact .inr (.inr (.inr (.inl (UInt64.lt_of_lt_of_le hstall worse.stall))))
  · exact .inr (.inr (.inr (.inr
      (LossLimit.exceededBy_mono (LossLimit.le_refl _) worse.loss hloss))))

theorem degrading (worse : Worsens a b) {thresholds : HealthThresholdsOf LossLimit}
    (h : thresholds.Degrading a) : thresholds.Degrading b := by
  rcases h with hlatency | hmiss
  · exact .inl (UInt64.lt_of_lt_of_le hlatency worse.latency)
  · exact .inr (Nat.lt_of_lt_of_le hmiss worse.misses)

end Worsens

namespace HealthManagerOf

/-- Health never improves when the metrics worsen. -/
theorem severity_mono (self : HealthManagerOf LossLimit) (a b : LayeredMetricsSnapshot)
    (worse : Worsens a b) :
    (self.evaluate a).1.state.severity ≤ (self.evaluate b).1.state.severity := by
  rw [state_evaluate, state_evaluate, severity_next, severity_next]
  apply HealthThresholdsOf.severity_level_le
  · exact worse.failing
  · exact worse.warned
  · exact fun _ _ ↦ worse.degrading

/-- One gap more. -/
theorem severity_mono_gap :
    Worsens MetricsEngine.new.layered MetricsEngine.new.recordSequenceGap.layered ∧
      ((new exactDefault).evaluate MetricsEngine.new.layered).1.state.severity ≤
        ((new exactDefault).evaluate
          MetricsEngine.new.recordSequenceGap.layered).1.state.severity := by
  have worse : Worsens MetricsEngine.new.layered MetricsEngine.new.recordSequenceGap.layered := by
    constructor <;> decide
  exact ⟨worse, severity_mono (new exactDefault) _ _ worse⟩

end HealthManagerOf

end AetherRadio
