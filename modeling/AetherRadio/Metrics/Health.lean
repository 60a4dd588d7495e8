import AetherRadio.Metrics.Engine
import Mathlib.Data.List.Induction

/-!
# Health manager

`crates/metrics-engine/src/health.rs`: the manager compares the counters of a snapshot with its
thresholds. The counters are those of the whole life of an engine; nothing resets them.
-/

namespace AetherRadio

open Verif

/-- Health of the link, as judged by the last evaluation.
From `crates/metrics-engine/src/health.rs:12–18`. -/
inductive HealthState where
  | normal
  | warning
  | degraded
  | failed
  | recovery
  deriving DecidableEq, Repr

/-- `as_str`. From `crates/metrics-engine/src/health.rs:21–29`. -/
def HealthState.asStr : HealthState → String
  | .normal => "NORMAL"
  | .warning => "WARNING"
  | .degraded => "DEGRADED"
  | .failed => "FAILED"
  | .recovery => "RECOVERY"

/-- The thresholds of a health policy. From `crates/metrics-engine/src/health.rs:33–41`. -/
structure HealthThresholds where
  maxLossRate : Float
  maxSeqGapPerWindow : UInt64
  maxLatencyP99Ns : UInt64
  maxJitterNs : UInt64
  maxSymbolDeadlineMissPerWindow : UInt64
  maxGpuStallNs : UInt64
  windowMs : UInt64

/-- The default thresholds. From `crates/metrics-engine/src/health.rs:44–54`. -/
def HealthThresholds.default : HealthThresholds where
  maxLossRate := 0.001
  maxSeqGapPerWindow := 0
  maxLatencyP99Ns := 50000
  maxJitterNs := 5000
  maxSymbolDeadlineMissPerWindow := 8
  maxGpuStallNs := 100000
  windowMs := 1000

/-- An event as logged, without its time. From `crates/metrics-engine/src/events.rs:29–42`. -/
structure LogEvent where
  event : String
  component : String
  detail : String
  deriving DecidableEq, Repr

/-- The manager and the state it is in. From `crates/metrics-engine/src/health.rs:84–88`. -/
structure HealthManager where
  thresholds : HealthThresholds
  state : HealthState
  transitions : Nat

/-- The loss rate of so many drops and received packets. -/
def lossRate (drop rx : Nat) : Float :=
  (UInt64.ofNat drop).toFloat / (UInt64.ofNat (max rx 1)).toFloat

namespace HealthManager

/-- A manager that judges the link normal. From `crates/metrics-engine/src/health.rs:91–97`. -/
def new (thresholds : HealthThresholds) : HealthManager :=
  { thresholds, state := .normal, transitions := 0 }

/-- The state `evaluate` moves to. The products wrap. -/
def next (self : HealthManager) (snap : LayeredMetricsSnapshot) : HealthState :=
  let thresholds := self.thresholds
  let loss := lossRate snap.transport.drop snap.transport.rxPackets
  let latency := max snap.transport.latencyLastNs snap.transport.latencyMaxNs
  if snap.transport.gapCount > thresholds.maxSeqGapPerWindow.toNat ∨
      snap.radio.deadlineMiss > (thresholds.maxSymbolDeadlineMissPerWindow * 4).toNat ∨
      loss > thresholds.maxLossRate * 10.0 then
    .failed
  else if snap.transport.gapCount > 0 ∨
      snap.radio.deadlineMiss > thresholds.maxSymbolDeadlineMissPerWindow.toNat ∨
      latency > thresholds.maxLatencyP99Ns ∨
      snap.memory.ringStallNs > thresholds.maxGpuStallNs ∨
      loss > thresholds.maxLossRate then
    if latency > thresholds.maxLatencyP99Ns * 2 ∨
        snap.radio.deadlineMiss > thresholds.maxSymbolDeadlineMissPerWindow.toNat then
      .degraded
    else .warning
  else if self.state = .failed ∨ self.state = .degraded then .recovery
  else .normal

/-- `evaluate` answers with the state it leaves, if it leaves one, and logs the change.
From `crates/metrics-engine/src/health.rs:108–165`. -/
def evaluate (self : HealthManager) (snap : LayeredMetricsSnapshot)
    (events : Option (List LogEvent)) :
    HealthManager × Option (List LogEvent) × Option HealthState :=
  let next := self.next snap
  if next ≠ self.state then
    let change : LogEvent :=
      { event := "HEALTH_CHANGED"
        component := "health"
        detail := self.state.asStr ++ " -> " ++ next.asStr }
    ({ self with state := next, transitions := self.transitions + 1 },
      events.map (· ++ [change]), some self.state)
  else if self.state = .recovery ∧ next = .normal then
    ({ self with state := .normal, transitions := self.transitions + 1 }, events,
      some self.state)
  else (self, events, none)

/-- The state after an evaluation. -/
theorem evaluate_state (self : HealthManager) (snap : LayeredMetricsSnapshot)
    (events : Option (List LogEvent)) :
    (self.evaluate snap events).1.state = self.next snap ∧
      (self.evaluate snap events).1.thresholds = self.thresholds := by
  by_cases hnext : self.next snap = self.state
  · by_cases hclean : self.state = .recovery ∧ self.next snap = .normal
    · rw [hnext, hclean.1] at hclean
      cases hclean.2
    · simp only [evaluate, hnext, ne_eq, not_true_eq_false, if_false]
      rw [hnext] at hclean
      rw [if_neg hclean]
      exact ⟨rfl, rfl⟩
  · simp only [evaluate, ne_eq, hnext, not_false_eq_true, if_true]
    exact ⟨trivial, trivial⟩

end HealthManager

/-- The recording methods of the engine. From `crates/metrics-engine/src/layers.rs:90–103`. -/
inductive MetricsOp where
  | recordRx
  | recordTx
  | recordDrop
  | recordSequenceGap
  | recordLatePacket
  | recordLatencySample (latencyNs : UInt64)
  | recordDeadlineMiss
  | recordError
  | recordBufferFull
  | setMemoryBuffers (hostUsed gpuUsed : Nat)
  | recordRxBytes (bytes : Nat)
  | recordTxBytes (bytes : Nat)
  | recordSymbol
  | recordKernelNs (ns : UInt64)
  | setLinkUp (up : Bool)
  | setRingOccupancy (occupancy : Nat)
  deriving DecidableEq

namespace MetricsEngine

/-- One recording. -/
def apply (self : MetricsEngine) : MetricsOp → MetricsEngine
  | .recordRx => self.recordRx
  | .recordTx => self.recordTx
  | .recordDrop => self.recordDrop
  | .recordSequenceGap => self.recordSequenceGap
  | .recordLatePacket => self.recordLatePacket
  | .recordLatencySample latencyNs => self.recordLatencySample latencyNs
  | .recordDeadlineMiss => self.recordDeadlineMiss
  | .recordError => self.recordError
  | .recordBufferFull => self.recordBufferFull
  | .setMemoryBuffers hostUsed gpuUsed => self.setMemoryBuffers hostUsed gpuUsed
  | .recordRxBytes bytes => self.recordRxBytes bytes
  | .recordTxBytes bytes => self.recordTxBytes bytes
  | .recordSymbol => self.recordSymbol
  | .recordKernelNs ns => self.recordKernelNs ns
  | .setLinkUp up => self.setLinkUp up
  | .setRingOccupancy occupancy => self.setRingOccupancy occupancy

/-- The engine after a history of recordings. -/
def recorded (ops : List MetricsOp) : MetricsEngine := ops.foldl apply new

private theorem recorded_concat (ops : List MetricsOp) (op : MetricsOp) :
    recorded (ops ++ [op]) = (recorded ops).apply op := by
  rw [recorded, List.foldl_append]
  rfl

end MetricsEngine

/-- The recordings that count a received packet. -/
def MetricsOp.isRx : MetricsOp → Bool
  | .recordRx | .recordRxBytes _ => true
  | _ => false

/-- What the engine holds of a history. -/
structure Recorded (ops : List MetricsOp) (engine : MetricsEngine) : Prop where
  gaps : engine.layered.transport.gapCount = ops.count .recordSequenceGap
  drops : engine.layered.transport.drop = ops.count .recordDrop
  rx : engine.layered.transport.rxPackets = ops.countP MetricsOp.isRx
  misses : engine.layered.radio.deadlineMiss = ops.count .recordDeadlineMiss
  stall : engine.layered.memory.ringStallNs = 0
  unsampled : engine.layered.transport.latencySamples = 0 →
    engine.layered.transport.latencyMaxNs = 0
  last : engine.layered.transport.latencyLastNs ≤ engine.layered.transport.latencyMaxNs
  latency : ∀ limit, engine.layered.transport.latencyMaxNs ≤ limit ↔
    ∀ ns, .recordLatencySample ns ∈ ops → ns ≤ limit

/-- A recording that leaves the latencies alone. -/
private theorem Recorded.other {ops : List MetricsOp} {engine engine' : MetricsEngine}
    (h : Recorded ops engine) {op : MetricsOp} (isOther : ∀ ns, op ≠ .recordLatencySample ns)
    (gaps : engine'.layered.transport.gapCount =
      engine.layered.transport.gapCount + [op].count .recordSequenceGap)
    (drops : engine'.layered.transport.drop =
      engine.layered.transport.drop + [op].count .recordDrop)
    (rx : engine'.layered.transport.rxPackets =
      engine.layered.transport.rxPackets + [op].countP MetricsOp.isRx)
    (misses : engine'.layered.radio.deadlineMiss =
      engine.layered.radio.deadlineMiss + [op].count .recordDeadlineMiss)
    (stall : engine'.layered.memory.ringStallNs = engine.layered.memory.ringStallNs)
    (samples : engine'.layered.transport.latencySamples =
      engine.layered.transport.latencySamples)
    (last : engine'.layered.transport.latencyLastNs = engine.layered.transport.latencyLastNs)
    (max : engine'.layered.transport.latencyMaxNs = engine.layered.transport.latencyMaxNs) :
    Recorded (ops ++ [op]) engine' := by
  constructor
  · rw [gaps, h.gaps, List.count_append]
  · rw [drops, h.drops, List.count_append]
  · rw [rx, h.rx, List.countP_append]
  · rw [misses, h.misses, List.count_append]
  · rw [stall, h.stall]
  · rw [samples, max]
    exact h.unsampled
  · rw [last, max]
    exact h.last
  · intro limit
    rw [max, h.latency]
    constructor
    · intro hall ns hns
      rcases List.mem_append.mp hns with hold | hnew
      · exact hall ns hold
      · exact absurd (List.mem_singleton.mp hnew).symm (isOther ns)
    · intro hall ns hns
      exact hall ns (List.mem_append_left _ hns)

/-- A latency sample. -/
private theorem Recorded.sample {ops : List MetricsOp} {engine : MetricsEngine}
    (h : Recorded ops engine) (latencyNs : UInt64) :
    Recorded (ops ++ [.recordLatencySample latencyNs]) (engine.recordLatencySample latencyNs) := by
  have hmax : (engine.recordLatencySample latencyNs).layered.transport.latencyMaxNs.toNat =
      max engine.layered.transport.latencyMaxNs.toNat latencyNs.toNat := by
    by_cases hsamples : engine.layered.transport.latencySamples = 0
    · have hzero := h.unsampled hsamples
      show (if _ = 0 then latencyNs else _).toNat = _
      rw [if_pos hsamples, hzero, UInt64.toNat_zero]
      omega
    · show (if _ = 0 then latencyNs else _).toNat = _
      rw [if_neg hsamples, toNat_max]
  constructor
  · rw [List.count_append]
    exact h.gaps
  · rw [List.count_append]
    exact h.drops
  · rw [List.countP_append]
    exact h.rx
  · rw [List.count_append]
    exact h.misses
  · exact h.stall
  · intro hsamples
    cases hsamples
  · rw [UInt64.le_iff_toNat_le, hmax]
    exact Nat.le_max_right _ _
  · intro limit
    rw [UInt64.le_iff_toNat_le, hmax, Nat.max_le, ← UInt64.le_iff_toNat_le,
      ← UInt64.le_iff_toNat_le, h.latency]
    constructor
    · rintro ⟨hall, hnew⟩ ns hns
      rcases List.mem_append.mp hns with hold | hlast
      · exact hall ns hold
      · cases List.mem_singleton.mp hlast
        exact hnew
    · intro hall
      refine ⟨fun ns hns ↦ hall ns (List.mem_append_left _ hns), ?_⟩
      exact hall latencyNs (List.mem_append_right _ (List.mem_singleton_self _))

/-- Every recording adds to the history. -/
theorem Recorded.apply {ops : List MetricsOp} {engine : MetricsEngine} (h : Recorded ops engine)
    (op : MetricsOp) : Recorded (ops ++ [op]) (engine.apply op) := by
  cases op with
  | recordLatencySample latencyNs => exact h.sample latencyNs
  | _ => exact h.other (by intro ns hns; cases hns) rfl rfl rfl rfl rfl rfl rfl rfl

private theorem recorded_spec (ops : List MetricsOp) : Recorded ops (.recorded ops) := by
  induction ops using List.reverseRecOn with
  | nil =>
    constructor
    · rfl
    · rfl
    · rfl
    · rfl
    · rfl
    · intro _
      rfl
    · exact UInt64.le_refl _
    · intro limit
      simp only [List.not_mem_nil, false_implies, implies_true, iff_true]
      exact UInt64.zero_le
  | append_singleton ops op ih =>
    rw [MetricsEngine.recorded_concat]
    exact ih.apply op

/-- The loss of a history is within its threshold, and within ten times of it. -/
structure LossWithin (thresholds : HealthThresholds) (ops : List MetricsOp) : Prop where
  once : ¬ lossRate (ops.count .recordDrop) (ops.countP MetricsOp.isRx) > thresholds.maxLossRate
  tenfold : ¬ lossRate (ops.count .recordDrop) (ops.countP MetricsOp.isRx) >
    thresholds.maxLossRate * 10.0

/-- The rest of a history is within the thresholds. -/
structure EventsWithin (thresholds : HealthThresholds) (ops : List MetricsOp) : Prop where
  gaps : ops.count .recordSequenceGap = 0
  misses : ops.count .recordDeadlineMiss ≤ thresholds.maxSymbolDeadlineMissPerWindow.toNat
  missesFourfold : ops.count .recordDeadlineMiss ≤
    (thresholds.maxSymbolDeadlineMissPerWindow * 4).toNat
  latency : ∀ ns, .recordLatencySample ns ∈ ops → ns ≤ thresholds.maxLatencyP99Ns

/-- A recording that is no fault. -/
def MetricsOp.Good (thresholds : HealthThresholds) : MetricsOp → Prop
  | .recordRx | .recordTx | .recordSymbol | .recordKernelNs _ => True
  | .recordLatencySample latencyNs => latencyNs ≤ thresholds.maxLatencyP99Ns
  | _ => False

/-- A window of good recordings adds no fault. -/
theorem eventsWithin_append {thresholds : HealthThresholds} {ops window : List MetricsOp}
    (h : ∀ op ∈ window, op.Good thresholds) :
    EventsWithin thresholds (ops ++ window) ↔ EventsWithin thresholds ops := by
  have hgaps : window.count .recordSequenceGap = 0 := List.count_eq_zero.mpr (h _)
  have hmisses : window.count .recordDeadlineMiss = 0 := List.count_eq_zero.mpr (h _)
  constructor
  · intro hwithin
    obtain ⟨gaps, misses, missesFourfold, latency⟩ := hwithin
    rw [List.count_append, hgaps] at gaps
    rw [List.count_append, hmisses] at misses missesFourfold
    exact ⟨gaps, misses, missesFourfold, fun ns hns ↦ latency ns (List.mem_append_left _ hns)⟩
  · intro hwithin
    constructor
    · rw [List.count_append, hgaps]
      exact hwithin.gaps
    · rw [List.count_append, hmisses]
      exact hwithin.misses
    · rw [List.count_append, hmisses]
      exact hwithin.missesFourfold
    · intro ns hns
      rcases List.mem_append.mp hns with hold | hnew
      · exact hwithin.latency ns hold
      · exact h _ hnew

namespace HealthManager

variable {self : HealthManager} {ops : List MetricsOp}

/-- A history within the thresholds is judged normal, or recovered from. -/
theorem next_of_within (hevents : EventsWithin self.thresholds ops)
    (hloss : LossWithin self.thresholds ops) :
    self.next (MetricsEngine.recorded ops).layered =
      if self.state = .failed ∨ self.state = .degraded then .recovery else .normal := by
  have hspec := recorded_spec ops
  have hgaps := hspec.gaps.trans hevents.gaps
  have hlatency : max (MetricsEngine.recorded ops).layered.transport.latencyLastNs
      (MetricsEngine.recorded ops).layered.transport.latencyMaxNs ≤
        self.thresholds.maxLatencyP99Ns := by
    have hmax := UInt64.le_iff_toNat_le.mp ((hspec.latency _).mpr hevents.latency)
    have hlast := UInt64.le_iff_toNat_le.mp hspec.last
    rw [UInt64.le_iff_toNat_le, toNat_max]
    omega
  rw [next, if_neg, if_neg]
  · rw [hgaps, hspec.misses, hspec.stall, hspec.drops, hspec.rx]
    rintro (hgap | hmiss | hlate | hstall | hlost)
    · exact Nat.lt_irrefl 0 hgap
    · exact Nat.not_lt.mpr hevents.misses hmiss
    · exact UInt64.not_lt.mpr hlatency hlate
    · exact UInt64.not_lt_zero hstall
    · exact hloss.once hlost
  · rw [hgaps, hspec.misses, hspec.drops, hspec.rx]
    rintro (hgap | hmiss | hlost)
    · exact Nat.not_lt_zero _ hgap
    · exact Nat.not_lt.mpr hevents.missesFourfold hmiss
    · exact hloss.tenfold hlost

/-- No other history is. -/
theorem within_of_next (h : self.next (MetricsEngine.recorded ops).layered = .normal ∨
      self.next (MetricsEngine.recorded ops).layered = .recovery) :
    EventsWithin self.thresholds ops ∧ LossWithin self.thresholds ops := by
  have hspec := recorded_spec ops
  rw [next] at h
  split at h
  · rcases h with h | h <;> cases h
  next hfailed =>
    split at h
    · split at h <;> rcases h with h | h <;> cases h
    next hwarned =>
      rw [hspec.gaps, hspec.misses, hspec.drops, hspec.rx] at hfailed hwarned
      simp only [not_or] at hfailed hwarned
      obtain ⟨-, hfourfold, htenfold⟩ := hfailed
      obtain ⟨hgaps, hmisses, hlatency, -, honce⟩ := hwarned
      refine ⟨⟨by omega, Nat.not_lt.mp hmisses, Nat.not_lt.mp hfourfold, ?_⟩, ⟨honce, htenfold⟩⟩
      apply (hspec.latency _).mp
      rw [UInt64.le_iff_toNat_le]
      have hmax := UInt64.le_iff_toNat_le.mp (UInt64.not_lt.mp hlatency)
      rw [toNat_max] at hmax
      omega

/-- Health is judged per window: whatever the history, an evaluation after a window of good
recordings leaves the manager normal or recovering, recovering when it had failed or was degraded,
and one more such window leaves it normal. -/
def JudgedPerWindow (self : HealthManager) (history window second : List MetricsOp) : Prop :=
  let first := (self.evaluate (MetricsEngine.recorded history).layered none).1
  let next := (first.evaluate (MetricsEngine.recorded (history ++ window)).layered none).1
  let last := (next.evaluate (MetricsEngine.recorded (history ++ window ++ second)).layered none).1
  (next.state = .normal ∨ next.state = .recovery) ∧
    (first.state = .failed ∨ first.state = .degraded → next.state = .recovery) ∧
    last.state = .normal

/-- A window of two good recordings. -/
def quietWindow : List MetricsOp := [.recordRx, .recordLatencySample 10]

private theorem quietWindow_good : ∀ op ∈ quietWindow, op.Good (new .default).thresholds := by
  intro op hop
  simp only [quietWindow, List.mem_cons, List.not_mem_nil, or_false] at hop
  rcases hop with rfl | rfl
  · exact trivial
  · show (10 : UInt64) ≤ 50000
    decide

/-- For all thresholds, every history and every two windows of good recordings, health is judged per
window exactly when no fault of the whole history is over a threshold, in the first window or later:
it has no gap, no more deadline misses than the threshold and than its fourfold modulo `2 ^ 64`, no
sample above the threshold, and a loss within the threshold and its tenfold at both evaluations. -/
theorem judged_per_window_iff (self : HealthManager) (history window second : List MetricsOp)
    (hwindow : ∀ op ∈ window, op.Good self.thresholds)
    (hsecond : ∀ op ∈ second, op.Good self.thresholds) :
    self.JudgedPerWindow history window second ↔
      EventsWithin self.thresholds history ∧
      LossWithin self.thresholds (history ++ window) ∧
      LossWithin self.thresholds (history ++ window ++ second) := by
  have hfirst := self.evaluate_state (MetricsEngine.recorded history).layered none
  rw [JudgedPerWindow]
  generalize (self.evaluate (MetricsEngine.recorded history).layered none).1 = first at hfirst ⊢
  obtain ⟨hnextState, hnextThresholds⟩ :=
    first.evaluate_state (MetricsEngine.recorded (history ++ window)).layered none
  generalize (first.evaluate (MetricsEngine.recorded (history ++ window)).layered none).1 = next
    at hnextState hnextThresholds ⊢
  obtain ⟨hlastState, -⟩ :=
    next.evaluate_state (MetricsEngine.recorded (history ++ window ++ second)).layered none
  rw [hfirst.2] at hnextThresholds
  rw [hlastState]
  constructor
  · rintro ⟨hclean, -, hnormal⟩
    rw [hnextState] at hclean
    obtain ⟨hevents, hloss⟩ := within_of_next hclean
    obtain ⟨-, hlossLast⟩ := within_of_next (.inl hnormal)
    rw [hfirst.2] at hevents hloss
    rw [hnextThresholds] at hlossLast
    exact ⟨(eventsWithin_append hwindow).mp hevents, hloss, hlossLast⟩
  · rintro ⟨hevents, hloss, hlossLast⟩
    have heventsWindow := (eventsWithin_append hwindow).mpr hevents
    have heventsLast := (eventsWithin_append hsecond).mpr heventsWindow
    rw [← hfirst.2] at heventsWindow hloss
    rw [← hnextThresholds] at heventsLast hlossLast
    rw [next_of_within heventsWindow hloss] at hnextState
    rw [next_of_within heventsLast hlossLast]
    by_cases hfailed : first.state = .failed ∨ first.state = .degraded
    · rw [if_pos hfailed] at hnextState
      refine ⟨.inr hnextState, fun _ ↦ hnextState, ?_⟩
      rw [hnextState]
      rfl
    · rw [if_neg hfailed] at hnextState
      refine ⟨.inl hnextState, fun h ↦ absurd h hfailed, ?_⟩
      rw [hnextState]
      rfl

theorem judged_per_window_iff_gap :
    ¬ (new .default).JudgedPerWindow [.recordRx, .recordSequenceGap] quietWindow quietWindow := by
  intro hjudged
  have hwithin := (judged_per_window_iff _ _ _ _ quietWindow_good quietWindow_good).mp hjudged
  exact absurd hwithin.1.gaps (by decide)

/-- One gap in the past, and after a window of good recordings the manager has failed again. -/
theorem failed_after_good_window :
    let history : List MetricsOp := [.recordRx, .recordSequenceGap]
    let first := ((new .default).evaluate (MetricsEngine.recorded history).layered none).1
    let next := (first.evaluate (MetricsEngine.recorded (history ++ quietWindow)).layered none).1
    (∀ op ∈ quietWindow, op.Good (new .default).thresholds) ∧ next.state = .failed ∧
      ¬ (new .default).JudgedPerWindow history quietWindow quietWindow := by
  intro history first next
  have hfirst := (new .default).evaluate_state (MetricsEngine.recorded history).layered none
  have hnext : next.state = .failed := by
    apply (first.evaluate_state
      (MetricsEngine.recorded (history ++ quietWindow)).layered none).1.trans
    rw [HealthManager.next]
    apply if_pos
    apply Or.inl
    rw [hfirst.2]
    decide
  refine ⟨quietWindow_good, hnext, ?_⟩
  rintro ⟨hclean, -, -⟩
  have hstate : next.state = .normal ∨ next.state = .recovery := hclean
  rw [hnext] at hstate
  rcases hstate with h | h <;> cases h

end HealthManager

end AetherRadio
