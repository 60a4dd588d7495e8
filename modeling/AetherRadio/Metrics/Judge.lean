import AetherRadio.Metrics.Health
import Mathlib.Algebra.Order.Field.Rat

/-!
# Judging a snapshot

`HealthManager::evaluate` with the comparisons of its loss rate left open. The source makes them on
floating point numbers; read exactly they are comparisons of rationals. A snapshot alone decides a
level, and the state adds only whether a clean link recovers.
-/

namespace AetherRadio

/-- How a loss rate, of so many drops among so many received packets, compares with a limit and
with ten times the limit. -/
class LossRate (L : Type) where
  exceeds : Nat → Nat → L → Bool
  exceedsTenfold : Nat → Nat → L → Bool

/-- The comparisons the source makes. -/
instance : LossRate Float where
  exceeds drop rx limit := decide (lossRate drop rx > limit)
  exceedsTenfold drop rx limit := decide (lossRate drop rx > limit * 10.0)

/-- A limit on the loss rate with its value taken exactly. -/
inductive LossLimit where
  | finite (rate : ℚ)
  | infinity
  | negInfinity
  | nan
  deriving DecidableEq

namespace LossLimit

/-- The limit times ten. -/
def tenfold : LossLimit → LossLimit
  | .finite rate => .finite (rate * 10)
  | limit => limit

/-- A loss is above the limit. Nothing compares with what is not a number. -/
def exceededBy (loss : ℚ) : LossLimit → Bool
  | .finite rate => decide (loss > rate)
  | .infinity => false
  | .negInfinity => true
  | .nan => false

end LossLimit

/-- The loss rate, exactly. -/
def exactLossRate (drop rx : Nat) : ℚ := (drop : ℚ) / (max rx 1 : Nat)

/-- The comparisons read exactly. -/
instance : LossRate LossLimit where
  exceeds drop rx limit := limit.exceededBy (exactLossRate drop rx)
  exceedsTenfold drop rx limit := limit.tenfold.exceededBy (exactLossRate drop rx)

/-- The thresholds of a health policy with a limit on the loss rate from `L`. -/
structure HealthThresholdsOf (L : Type) where
  maxLossRate : L
  maxSeqGapPerWindow : UInt64
  maxLatencyP99Ns : UInt64
  maxJitterNs : UInt64
  maxSymbolDeadlineMissPerWindow : UInt64
  maxGpuStallNs : UInt64

/-- The larger of the two latencies that `evaluate` looks at. -/
def LayeredMetricsSnapshot.latency (snap : LayeredMetricsSnapshot) : UInt64 :=
  max snap.transport.latencyLastNs snap.transport.latencyMaxNs

namespace HealthThresholdsOf

variable {L : Type} [LossRate L] (thresholds : HealthThresholdsOf L)
  (snap : LayeredMetricsSnapshot)

/-- The condition under which the link has failed. The product wraps. -/
def Failing : Prop :=
  snap.transport.gapCount > thresholds.maxSeqGapPerWindow.toNat ∨
    snap.radio.deadlineMiss > (thresholds.maxSymbolDeadlineMissPerWindow * 4).toNat ∨
    LossRate.exceedsTenfold snap.transport.drop snap.transport.rxPackets thresholds.maxLossRate

/-- The condition for a warning at least. -/
def Warned : Prop :=
  snap.transport.gapCount > 0 ∨
    snap.radio.deadlineMiss > thresholds.maxSymbolDeadlineMissPerWindow.toNat ∨
    snap.latency > thresholds.maxLatencyP99Ns ∨
    snap.memory.ringStallNs > thresholds.maxGpuStallNs ∨
    LossRate.exceeds snap.transport.drop snap.transport.rxPackets thresholds.maxLossRate

/-- The condition that makes a warning a degraded link. The product wraps. -/
def Degrading : Prop :=
  snap.latency > thresholds.maxLatencyP99Ns * 2 ∨
    snap.radio.deadlineMiss > thresholds.maxSymbolDeadlineMissPerWindow.toNat

instance : Decidable (thresholds.Failing snap) := inferInstanceAs (Decidable (_ ∨ _ ∨ _))

instance : Decidable (thresholds.Warned snap) :=
  inferInstanceAs (Decidable (_ ∨ _ ∨ _ ∨ _ ∨ _))

instance : Decidable (thresholds.Degrading snap) := inferInstanceAs (Decidable (_ ∨ _))

/-- What the snapshot alone says of the link. -/
def level : HealthState :=
  if thresholds.Failing snap then .failed
  else if thresholds.Warned snap then
    if thresholds.Degrading snap then .degraded else .warning
  else .normal

end HealthThresholdsOf

/-- The manager over such thresholds. -/
structure HealthManagerOf (L : Type) where
  thresholds : HealthThresholdsOf L
  state : HealthState
  transitions : Nat

namespace HealthManagerOf

variable {L : Type} [LossRate L]

/-- A manager that judges the link normal. -/
def new (thresholds : HealthThresholdsOf L) : HealthManagerOf L :=
  { thresholds, state := .normal, transitions := 0 }

/-- The state `evaluate` moves to. -/
def next (self : HealthManagerOf L) (snap : LayeredMetricsSnapshot) : HealthState :=
  if self.thresholds.Failing snap then .failed
  else if self.thresholds.Warned snap then
    if self.thresholds.Degrading snap then .degraded else .warning
  else if self.state = .failed ∨ self.state = .degraded then .recovery
  else .normal

/-- `evaluate`, its log aside. -/
def evaluate (self : HealthManagerOf L) (snap : LayeredMetricsSnapshot) :
    HealthManagerOf L × Option HealthState :=
  let next := self.next snap
  if next ≠ self.state then
    ({ self with state := next, transitions := self.transitions + 1 }, some self.state)
  else if self.state = .recovery ∧ next = .normal then
    ({ self with state := .normal, transitions := self.transitions + 1 }, some self.state)
  else (self, none)

/-- The state after an evaluation. -/
@[simp] theorem state_evaluate (self : HealthManagerOf L) (snap : LayeredMetricsSnapshot) :
    (self.evaluate snap).1.state = self.next snap := by
  by_cases hnext : self.next snap = self.state
  · by_cases hclean : self.state = .recovery ∧ self.next snap = .normal
    · rw [hnext, hclean.1] at hclean
      cases hclean.2
    · simp only [evaluate, hnext, ne_eq, not_true_eq_false, if_false]
      rw [hnext] at hclean
      rw [if_neg hclean]
  · simp only [evaluate, ne_eq, hnext, not_false_eq_true, if_true]

/-- An evaluation keeps the thresholds. -/
@[simp] theorem thresholds_evaluate (self : HealthManagerOf L) (snap : LayeredMetricsSnapshot) :
    (self.evaluate snap).1.thresholds = self.thresholds := by
  simp only [evaluate]
  split
  · rfl
  · split <;> rfl

end HealthManagerOf

/-- The state after a snapshot of some level. -/
def HealthState.after (state level : HealthState) : HealthState :=
  if level = .normal then
    if state = .failed ∨ state = .degraded then .recovery else .normal
  else level

/-- The state matters to an evaluation only on a clean snapshot. -/
theorem HealthManagerOf.next_eq_after {L : Type} [LossRate L] (self : HealthManagerOf L)
    (snap : LayeredMetricsSnapshot) :
    self.next snap = self.state.after (self.thresholds.level snap) := by
  unfold next HealthThresholdsOf.level HealthState.after
  by_cases hfailing : self.thresholds.Failing snap
  · simp [hfailing]
  · by_cases hwarned : self.thresholds.Warned snap
    · by_cases hdegrading : self.thresholds.Degrading snap
      · simp [hfailing, hwarned, hdegrading]
      · simp [hfailing, hwarned, hdegrading]
    · simp [hfailing, hwarned]

/-- No snapshot says that the link recovers. -/
theorem HealthThresholdsOf.level_ne_recovery {L : Type} [LossRate L]
    (thresholds : HealthThresholdsOf L) (snap : LayeredMetricsSnapshot) :
    thresholds.level snap ≠ .recovery := by
  unfold level
  split
  · intro h
    cases h
  · split
    · split <;> intro h <;> cases h
    · intro h
      cases h

/-- The thresholds as floating point numbers have them. -/
def HealthThresholds.toOf (self : HealthThresholds) : HealthThresholdsOf Float where
  maxLossRate := self.maxLossRate
  maxSeqGapPerWindow := self.maxSeqGapPerWindow
  maxLatencyP99Ns := self.maxLatencyP99Ns
  maxJitterNs := self.maxJitterNs
  maxSymbolDeadlineMissPerWindow := self.maxSymbolDeadlineMissPerWindow
  maxGpuStallNs := self.maxGpuStallNs

/-- The manager of the source is one of these. -/
def HealthManager.toOf (self : HealthManager) : HealthManagerOf Float where
  thresholds := self.thresholds.toOf
  state := self.state
  transitions := self.transitions

private theorem HealthManager.next_toOf (self : HealthManager) (snap : LayeredMetricsSnapshot) :
    self.toOf.next snap = self.next snap := by
  simp only [HealthManagerOf.next, HealthManager.next, HealthThresholdsOf.Failing,
    HealthThresholdsOf.Warned, HealthThresholdsOf.Degrading, LossRate.exceeds,
    LossRate.exceedsTenfold, decide_eq_true_eq]
  rfl

/-- And so are its evaluations. -/
theorem HealthManager.evaluate_toOf (self : HealthManager) (snap : LayeredMetricsSnapshot)
    (events : Option (List LogEvent)) :
    self.toOf.evaluate snap =
      ((self.evaluate snap events).1.toOf, (self.evaluate snap events).2.2) := by
  unfold HealthManagerOf.evaluate HealthManager.evaluate
  rw [self.next_toOf]
  by_cases hnext : self.next snap ≠ self.state
  · have hstate : self.next snap ≠ self.toOf.state := hnext
    simp only [if_pos hstate, if_pos hnext]
    rfl
  · have hstate : ¬ self.next snap ≠ self.toOf.state := hnext
    simp only [if_neg hstate, if_neg hnext]
    by_cases hclean : self.state = .recovery ∧ self.next snap = .normal
    · have htoOf : self.toOf.state = .recovery ∧ self.next snap = .normal := hclean
      simp only [if_pos htoOf, if_pos hclean]
      rfl
    · have htoOf : ¬ (self.toOf.state = .recovery ∧ self.next snap = .normal) := hclean
      simp only [if_neg htoOf, if_neg hclean]

end AetherRadio
