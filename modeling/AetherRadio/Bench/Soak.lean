import AetherRadio.Bench.Percentiles
import AetherRadio.Metrics.Health

/-!
# Soak runs

`SoakRunner` of `crates/benchmark/src/soak.rs`: the bench is run for a number of rounds, one health
manager judges the metrics of every round, and gates are put on the sums. The files are read anew in
every round; here they enter as parsed.
-/

namespace AetherRadio

open Verif PipelineBench

/-- The profile as parsed, without its file names and the pause between two rounds.
From `crates/benchmark/src/soak.rs:11–38`. -/
structure SoakProfile where
  symbolCountOverride : Option UInt64
  streamsOverride : Option UInt32
  maxSequenceGaps : UInt64
  maxDeadlineMissRatio : Float
  minPackets : UInt64
  rounds : UInt32
  requireHealthNormal : Bool

/-- A gate; the source keeps a text with its numbers. From `crates/benchmark/src/soak.rs:61–65`. -/
structure SoakGate where
  name : String
  passed : Bool
  deriving DecidableEq

/-- The health after a round, and the numbers of the round.
From `crates/benchmark/src/soak.rs:68–74`. -/
structure SoakRoundHealth where
  round : Nat
  health : String
  packets : Nat
  sequenceGaps : Nat
  recoveryActions : Nat
  deriving DecidableEq

/-- What a soak run reports, without the time it took. From `crates/benchmark/src/soak.rs:77–95`. -/
structure SoakReport where
  passed : Bool
  gates : List SoakGate
  bench : BenchReport
  health : String
  recoveryActions : Nat
  rounds : Nat
  roundHealth : List SoakRoundHealth

/-- How a soak run fails. From `crates/benchmark/src/soak.rs:98–107`. -/
inductive SoakError where
  | bench (cause : PipelineBenchError)
  | failed (report : SoakReport)

/-- A report without counts. -/
def PipelineBench.BenchReport.default : BenchReport where
  latencies := []
  slotMiss := 0
  symbolMiss := 0
  packets := 0
  bytes := 0
  sequenceGaps := 0
  latePackets := 0
  simDurationNs := 0
  recoveryActions := 0
  ringOccupancyPeak := 0

/-- The aggregate with one more round: sums that saturate, the highest peak and the latest
latencies. From `crates/benchmark/src/soak.rs:188–210`. -/
def PipelineBench.BenchReport.add (self bench : BenchReport) : BenchReport where
  latencies := bench.latencies
  slotMiss := satCount self.slotMiss bench.slotMiss
  symbolMiss := satCount self.symbolMiss bench.symbolMiss
  packets := satCount self.packets bench.packets
  bytes := satCount self.bytes bench.bytes
  sequenceGaps := satCount self.sequenceGaps bench.sequenceGaps
  latePackets := satCount self.latePackets bench.latePackets
  simDurationNs := satAdd self.simDurationNs bench.simDurationNs
  recoveryActions := satCount self.recoveryActions bench.recoveryActions
  ringOccupancyPeak := max self.ringOccupancyPeak bench.ringOccupancyPeak

/-- The variables of a soak run. From `crates/benchmark/src/soak.rs:132–136`. -/
structure SoakState where
  manager : HealthManager
  aggregate : BenchReport
  roundHealth : List SoakRoundHealth
  lastHealth : HealthState

namespace SoakRunner

variable (p : SoakProfile)

/-- The bench of a round, with what the profile overrides.
From `crates/benchmark/src/soak.rs:145–150`. -/
def override (cfg : BenchConfig) : BenchConfig :=
  { cfg with
    profile := { cfg.profile with
      symbolCount := p.symbolCountOverride.getD cfg.profile.symbolCount
      streams := p.streamsOverride.getD cfg.profile.streams } }

/-- `p.rounds.max(1)`. From `crates/benchmark/src/soak.rs:129`. -/
def rounds : Nat := max p.rounds.toNat 1

/-- `1..=rounds`. -/
def roundNumbers : List Nat := (List.range (rounds p)).map (· + 1)

/-- What a round does with the result of its bench. From `crates/benchmark/src/soak.rs:178–210`. -/
def closeRound (s : SoakState) (round : Nat) (r : BenchResult) : SoakState :=
  let (manager, _) := s.manager.evaluate r.metrics.layered none
  let entry : SoakRoundHealth :=
    { round
      health := manager.state.asStr
      packets := r.report.packets
      sequenceGaps := r.report.sequenceGaps
      recoveryActions := r.report.recoveryActions }
  { manager
    aggregate := s.aggregate.add r.report
    roundHealth := s.roundHealth ++ [entry]
    lastHealth := manager.state }

/-- One round. From `crates/benchmark/src/soak.rs:139–211`. -/
def runRound (cfg : BenchConfig) (s : SoakState) (round : Nat) : Except SoakError SoakState := do
  let r ← (PipelineBench.run (override p cfg)).mapError .bench
  pure (closeRound s round r)

/-- The share of the packets that missed the budget, or everything when there are none.
From `crates/benchmark/src/soak.rs:213–217`. -/
def missRatio (aggregate : BenchReport) : Float :=
  if aggregate.packets = 0 then 1.0
  else (UInt64.ofNat aggregate.symbolMiss).toFloat / (UInt64.ofNat aggregate.packets).toFloat

/-- The gates of a run. From `crates/benchmark/src/soak.rs:219–254`. -/
def gates (s : SoakState) : List SoakGate :=
  [⟨"min_packets", s.aggregate.packets ≥ p.minPackets.toNat⟩,
    ⟨"max_sequence_gaps", s.aggregate.sequenceGaps ≤ p.maxSequenceGaps.toNat⟩,
    ⟨"max_deadline_miss_ratio", missRatio s.aggregate ≤ p.maxDeadlineMissRatio⟩,
    ⟨"rounds_completed", s.roundHealth.length = rounds p⟩] ++
  if p.requireHealthNormal then
    [⟨"health_normal_each_round", s.roundHealth.all (·.health = HealthState.normal.asStr)⟩]
  else []

/-- The report of a run whose rounds have ended. From `crates/benchmark/src/soak.rs:256–272`. -/
def report (s : SoakState) : SoakReport where
  passed := (gates p s).all (·.passed)
  gates := gates p s
  bench := s.aggregate
  health := s.lastHealth.asStr
  recoveryActions := s.aggregate.recoveryActions
  rounds := rounds p
  roundHealth := s.roundHealth

/-- The state before the first round. -/
def start (thresholds : HealthThresholds) : SoakState where
  manager := .new thresholds
  aggregate := .default
  roundHealth := []
  lastHealth := .normal

/-- `SoakRunner::run`; `cfgs` are the files as they are in each round.
From `crates/benchmark/src/soak.rs:127–288`. -/
def run (thresholds : HealthThresholds) (cfgs : Nat → BenchConfig) :
    Except SoakError SoakReport := do
  let s ← (roundNumbers p).foldlM
    (fun s round ↦ runRound p (cfgs round) s round) (start thresholds)
  let report := report p s
  if report.passed then pure report else .error (.failed report)

variable {p} {thresholds : HealthThresholds}

/-- The health that metrics are judged to be in, after a health. -/
def judge (thresholds : HealthThresholds) (state : HealthState) (r : BenchResult) : HealthState :=
  ({ HealthManager.new thresholds with state } : HealthManager).next r.metrics.layered

/-- The health after the benches. -/
def judged (thresholds : HealthThresholds) (rs : List BenchResult) : HealthState :=
  rs.foldl (judge thresholds) .normal

/-- Metrics that a manager judges normal when it has seen no others. -/
def Clean (thresholds : HealthThresholds) (r : BenchResult) : Prop :=
  judge thresholds .normal r = .normal

/-- Three degrees of ill health that the health before has no part in, and two of good health. -/
private theorem degrees (verdict : HealthState → HealthState) {failed ill late : Prop}
    (h : ∀ state, ∃ (_ : Decidable failed) (_ : Decidable ill) (_ : Decidable late),
      verdict state = if failed then .failed else if ill then
        if late then .degraded else .warning
        else if state = .failed ∨ state = .degraded then .recovery else .normal)
    (state : HealthState) : verdict .normal ≠ .recovery ∧ verdict state =
      if verdict .normal = .normal then
        if state = .failed ∨ state = .degraded then .recovery else .normal
      else verdict .normal := by
  obtain ⟨_, _, _, hstate⟩ := h state
  obtain ⟨_, _, _, hnormal⟩ := h .normal
  rw [hstate, hnormal]
  by_cases hfailed : failed
  · simp [hfailed]
  · by_cases hill : ill
    · by_cases hlate : late <;> simp [hfailed, hill, hlate]
    · simp [hfailed, hill]

/-- The health before a round matters for clean metrics only. -/
theorem judge_spec (thresholds : HealthThresholds) (state : HealthState) (r : BenchResult) :
    judge thresholds .normal r ≠ .recovery ∧ judge thresholds state r =
      if judge thresholds .normal r = .normal then
        if state = .failed ∨ state = .degraded then .recovery else .normal
      else judge thresholds .normal r := by
  apply degrees (judge thresholds · r)
  intro state
  refine ⟨?_, ?_, ?_, ?_⟩
  rotate_left 3
  · dsimp only [judge, HealthManager.next]
    rfl

private theorem judged_concat (rs : List BenchResult) (r : BenchResult) :
    judged thresholds (rs ++ [r]) = judge thresholds (judged thresholds rs) r := by
  rw [judged, List.foldl_append]
  rfl

/-- Clean metrics keep the health normal. -/
private theorem judged_of_clean {rs : List BenchResult} (h : ∀ r ∈ rs, Clean thresholds r) :
    judged thresholds rs = .normal := by
  induction rs using List.reverseRecOn with
  | nil => rfl
  | append_singleton rs r ih =>
    rw [judged_concat, ih fun r' hr' ↦ h r' (List.mem_append_left [r] hr')]
    exact h r (List.mem_append_right rs (List.mem_singleton_self r))

/-- No other metrics are judged normal, whatever came before. -/
private theorem clean_of_judge {state : HealthState} {r : BenchResult}
    (h : judge thresholds state r = .normal) : Clean thresholds r := by
  by_cases hclean : judge thresholds .normal r = .normal
  · exact hclean
  · rw [(judge_spec thresholds state r).2, if_neg hclean] at h
    exact absurd h hclean

/-- Clean metrics are judged recovered after a failure or a degradation, and no others are. -/
theorem judge_recovery_iff (state : HealthState) (r : BenchResult) :
    judge thresholds state r = .recovery ↔
      Clean thresholds r ∧ (state = .failed ∨ state = .degraded) := by
  obtain ⟨hnever, heq⟩ := judge_spec thresholds state r
  rw [heq]
  constructor
  · intro h
    split at h
    next hclean =>
      split at h
      next hill => exact ⟨hclean, hill⟩
      · cases h
    · exact absurd h hnever
  · rintro ⟨hclean, hill⟩
    exact (if_pos hclean).trans (if_pos hill)

/-- Every health is normal exactly when all metrics are clean. -/
theorem judged_normal_iff (rs : List BenchResult) :
    (∀ k < rs.length, judged thresholds (rs.take (k + 1)) = .normal) ↔
      ∀ r ∈ rs, Clean thresholds r := by
  constructor
  · intro h r hr
    obtain ⟨k, hk, rfl⟩ := List.mem_iff_getElem.mp hr
    have hnormal := h k hk
    rw [List.take_succ_eq_append_getElem hk, judged_concat] at hnormal
    exact clean_of_judge hnormal
  · intro h k _
    apply judged_of_clean
    intro r hr
    exact h r (List.mem_of_mem_take hr)

/-- What is noted of round `k + 1`. -/
def noted (thresholds : HealthThresholds) (rs : List BenchResult) (k : Nat) (r : BenchResult) :
    SoakRoundHealth where
  round := k + 1
  health := (judged thresholds (rs.take (k + 1))).asStr
  packets := r.report.packets
  sequenceGaps := r.report.sequenceGaps
  recoveryActions := r.report.recoveryActions

/-- The state after the rounds with these results. -/
structure After (thr : HealthThresholds) (rs : List BenchResult) (s : SoakState) : Prop where
  thresholds : s.manager.thresholds = thr
  state : s.manager.state = judged thr rs
  last : s.lastHealth = judged thr rs
  aggregate : s.aggregate = rs.foldl (fun a r ↦ a.add r.report) .default
  noted : s.roundHealth = rs.mapIdx (noted thr rs)

theorem after_start : After thresholds [] (start thresholds) :=
  ⟨rfl, rfl, rfl, rfl, rfl⟩

/-- A round adds its result. -/
theorem After.closeRound {rs : List BenchResult} {s : SoakState} (h : After thresholds rs s)
    (r : BenchResult) :
    After thresholds (rs ++ [r]) (closeRound s (rs.length + 1) r) := by
  have hevaluated := s.manager.evaluate_state r.metrics.layered none
  have hstate : (s.manager.evaluate r.metrics.layered none).1.state =
      judged thresholds (rs ++ [r]) := by
    rw [judged_concat, ← h.state, ← h.thresholds]
    exact hevaluated.1
  constructor
  · exact hevaluated.2.trans h.thresholds
  · exact hstate
  · exact hstate
  · rw [List.foldl_append, ← h.aggregate]
    rfl
  · have hold : rs.mapIdx (SoakRunner.noted thresholds (rs ++ [r])) =
        rs.mapIdx (SoakRunner.noted thresholds rs) := by
      apply List.mapIdx_eq_mapIdx_iff.mpr
      intro k hk
      rw [SoakRunner.noted, SoakRunner.noted, List.take_append_of_le_length hk]
    have hnew : SoakRunner.noted thresholds (rs ++ [r]) rs.length r =
        { round := rs.length + 1
          health := (s.manager.evaluate r.metrics.layered none).1.state.asStr
          packets := r.report.packets
          sequenceGaps := r.report.sequenceGaps
          recoveryActions := r.report.recoveryActions } := by
      rw [SoakRunner.noted, List.take_of_length_le (by simp), hstate]
    rw [List.mapIdx_concat, hold, hnew, ← h.noted]
    rfl

/-- The bench of a round ends so. -/
def Ran (p : SoakProfile) (cfgs : Nat → BenchConfig) (round : Nat) (r : BenchResult) : Prop :=
  PipelineBench.run (override p (cfgs round)) = .ok r

/-- The error of the bench of a round. -/
def failure (p : SoakProfile) (cfgs : Nat → BenchConfig) (round : Nat) : Option SoakError :=
  match PipelineBench.run (override p (cfgs round)) with
  | .ok _ => none
  | .error e => some (.bench e)

/-- A round ends when its bench does. -/
private theorem runRound_ends (p : SoakProfile) (cfgs : Nat → BenchConfig) {rs : List BenchResult}
    {s : SoakState} (h : After thresholds rs s) :
    EndsIn (runRound p (cfgs (rs.length + 1)) s (rs.length + 1)) (failure p cfgs (rs.length + 1))
      fun s' ↦ ∃ r, Ran p cfgs (rs.length + 1) r ∧ After thresholds (rs ++ [r]) s' := by
  rw [runRound, failure]
  cases hrun : PipelineBench.run (override p (cfgs (rs.length + 1))) with
  | error e => rfl
  | ok r => exact ⟨_, rfl, r, hrun, h.closeRound r⟩

/-- The first rounds end when their benches do. -/
private theorem rounds_end (p : SoakProfile) (thresholds : HealthThresholds)
    (cfgs : Nat → BenchConfig) (n : Nat) :
    EndsIn (((List.range n).map (· + 1)).foldlM (fun s round ↦ runRound p (cfgs round) s round)
        (start thresholds))
      (((List.range n).map (· + 1)).findSome? (failure p cfgs))
      fun s ↦ ∃ rs, List.Forall₂ (Ran p cfgs) ((List.range n).map (· + 1)) rs ∧
        After thresholds rs s := by
  induction n with
  | zero => exact ⟨_, rfl, [], .nil, after_start⟩
  | succ n ih =>
    rw [List.range_succ, List.map_append, List.foldlM_append, List.findSome?_append]
    apply ih.bind
    rintro s ⟨rs, hran, hafter⟩
    have hlength : rs.length = n := by
      have hlengths := hran.length_eq
      rw [List.length_map, List.length_range] at hlengths
      exact hlengths.symm
    have hround := runRound_ends p cfgs hafter
    rw [hlength] at hround
    rw [List.map_singleton, List.foldlM_cons, List.findSome?_singleton]
    simp only [List.foldlM_nil, bind_pure]
    apply hround.mono
    rintro s' ⟨r, hr, hnext⟩
    exact ⟨rs ++ [r], List.rel_append hran (.cons hr .nil), hnext⟩

/-! ## The sums -/

/-- A counter that is added up stops at the largest word. -/
private theorem counter_foldl {f : BenchReport → Nat} (hdefault : f .default = 0)
    (hadd : ∀ a b : BenchReport, f (a.add b) = satCount (f a) (f b)) (rs : List BenchResult) :
    f (rs.foldl (fun a r ↦ a.add r.report) .default) =
      min (rs.map (f ·.report)).sum (2 ^ 64 - 1) := by
  induction rs using List.reverseRecOn with
  | nil =>
    rw [List.foldl_nil, hdefault]
    rfl
  | append_singleton rs r ih =>
    rw [List.foldl_append, List.foldl_cons, List.foldl_nil, hadd, ih, List.map_append,
      List.sum_append, List.map_singleton, List.sum_singleton, satCount]
    omega

/-- What a report says of the benches of its rounds. -/
structure Reports (p : SoakProfile) (thresholds : HealthThresholds) (rs : List BenchResult)
    (report : SoakReport) : Prop where
  counters : ∀ f ∈ [BenchReport.packets, BenchReport.bytes, BenchReport.sequenceGaps,
      BenchReport.latePackets, BenchReport.symbolMiss, BenchReport.slotMiss,
      BenchReport.recoveryActions],
    f report.bench = min (rs.map (f ·.report)).sum (2 ^ 64 - 1)
  duration : report.bench.simDurationNs.toNat =
    min (rs.map (·.report.simDurationNs.toNat)).sum (2 ^ 64 - 1)
  peak : ∀ n, report.bench.ringOccupancyPeak ≤ n ↔ ∀ r ∈ rs, r.report.ringOccupancyPeak ≤ n
  latest : ∀ r ∈ rs.getLast?, report.bench.latencies = r.report.latencies
  recoveryActions : report.recoveryActions = report.bench.recoveryActions
  noted : report.roundHealth = rs.mapIdx (noted thresholds rs)
  recovered : ∀ k (hk : k < rs.length), judged thresholds (rs.take (k + 1)) = .recovery ↔
    Clean thresholds rs[k] ∧
      (judged thresholds (rs.take k) = .failed ∨ judged thresholds (rs.take k) = .degraded)
  health : report.health = (judged thresholds rs).asStr
  passed : report.passed ↔
    p.minPackets.toNat ≤ (rs.map (·.report.packets)).sum ∧
      ((rs.map (·.report.sequenceGaps)).sum ≤ p.maxSequenceGaps.toNat ∨
        p.maxSequenceGaps.toNat = 2 ^ 64 - 1) ∧
      missRatio report.bench ≤ p.maxDeadlineMissRatio ∧
      (p.requireHealthNormal → ∀ r ∈ rs, Clean thresholds r)

/-- The texts of the states differ. -/
theorem asStr_eq_normal {state : HealthState} :
    state.asStr = HealthState.normal.asStr ↔ state = .normal := by
  cases state <;> decide

/-- The health of all rounds was normal. -/
theorem all_normal_iff (rs : List BenchResult) :
    (rs.mapIdx (noted thresholds rs)).all (·.health = HealthState.normal.asStr) ↔
      ∀ r ∈ rs, Clean thresholds r := by
  rw [← judged_normal_iff, List.all_eq_true]
  constructor
  · intro h k hk
    have hround := h _ (List.mem_mapIdx.mpr ⟨k, hk, rfl⟩)
    exact asStr_eq_normal.mp (of_decide_eq_true hround)
  · intro h entry hentry
    obtain ⟨k, hk, rfl⟩ := List.mem_mapIdx.mp hentry
    exact decide_eq_true (asStr_eq_normal.mpr (h k hk))

private theorem duration_foldl (rs : List BenchResult) :
    (rs.foldl (fun a r ↦ a.add r.report) BenchReport.default).simDurationNs.toNat =
      min (rs.map (·.report.simDurationNs.toNat)).sum (2 ^ 64 - 1) := by
  induction rs using List.reverseRecOn with
  | nil => rfl
  | append_singleton rs r ih =>
    rw [List.foldl_append, List.map_append, List.sum_append, List.map_singleton,
      List.sum_singleton]
    exact toNat_satAdd_of_min ih _

private theorem peak_foldl (rs : List BenchResult) (n : Nat) :
    (rs.foldl (fun a r ↦ a.add r.report) BenchReport.default).ringOccupancyPeak ≤ n ↔
      ∀ r ∈ rs, r.report.ringOccupancyPeak ≤ n := by
  induction rs using List.reverseRecOn with
  | nil =>
    simp only [List.not_mem_nil, false_implies, implies_true, iff_true]
    exact Nat.zero_le n
  | append_singleton rs r ih =>
    rw [List.foldl_append, List.forall_mem_append, List.forall_mem_singleton, ← ih]
    exact Nat.max_le

/-- A counter after some rounds. -/
theorem counter_of_after {rs : List BenchResult} {s : SoakState} (h : After thresholds rs s)
    {f : BenchReport → Nat} (hdefault : f .default = 0)
    (hadd : ∀ a b : BenchReport, f (a.add b) = satCount (f a) (f b)) :
    f s.aggregate = min (rs.map (f ·.report)).sum (2 ^ 64 - 1) := by
  rw [h.aggregate]
  exact counter_foldl hdefault hadd rs

/-- The gate on the health is there only where it is required. -/
theorem healthGate_pass_iff {rs : List BenchResult} {s : SoakState} (h : After thresholds rs s) :
    (if p.requireHealthNormal then
      [(⟨"health_normal_each_round",
        s.roundHealth.all (·.health = HealthState.normal.asStr)⟩ : SoakGate)]
      else []).all (·.passed) ↔ (p.requireHealthNormal → ∀ r ∈ rs, Clean thresholds r) := by
  by_cases hrequired : p.requireHealthNormal = true
  · rw [if_pos hrequired, List.all_cons, List.all_nil, Bool.and_true, h.noted,
      all_normal_iff rs]
    exact ⟨fun hclean _ ↦ hclean, fun hclean ↦ hclean hrequired⟩
  · rw [if_neg hrequired]
    exact ⟨fun _ hcontra ↦ absurd hcontra hrequired, fun _ ↦ rfl⟩

/-- The gates after all rounds. -/
theorem gates_pass_iff {rs : List BenchResult} {s : SoakState} (h : After thresholds rs s)
    (hlength : rs.length = rounds p) : (gates p s).all (·.passed) ↔
      p.minPackets.toNat ≤ (rs.map (·.report.packets)).sum ∧
        ((rs.map (·.report.sequenceGaps)).sum ≤ p.maxSequenceGaps.toNat ∨
          p.maxSequenceGaps.toNat = 2 ^ 64 - 1) ∧
        missRatio s.aggregate ≤ p.maxDeadlineMissRatio ∧
        (p.requireHealthNormal → ∀ r ∈ rs, Clean thresholds r) := by
  have hpackets := counter_of_after h (f := BenchReport.packets) rfl fun _ _ ↦ rfl
  have hgaps := counter_of_after h (f := BenchReport.sequenceGaps) rfl fun _ _ ↦ rfl
  have hcompleted : s.roundHealth.length = rounds p := by
    rw [h.noted, List.length_mapIdx, hlength]
  have hmin := p.minPackets.toNat_lt
  have hmax := p.maxSequenceGaps.toNat_lt
  rw [gates, List.all_append, Bool.and_eq_true, healthGate_pass_iff h]
  simp only [List.all_cons, List.all_nil, Bool.and_true, Bool.and_eq_true, decide_eq_true_eq,
    hpackets, hgaps, hcompleted, and_true, and_assoc]
  apply and_congr
  · show p.minPackets.toNat ≤ _ ↔ _
    omega
  · apply and_congr
    · omega
    · exact Iff.rfl

/-- The report after all rounds. -/
private theorem reports_of_after {rs : List BenchResult} {s : SoakState} (h : After thresholds rs s)
    (hlength : rs.length = rounds p) : Reports p thresholds rs (report p s) := by
  constructor
  · intro f hf
    simp only [List.mem_cons, List.not_mem_nil, or_false] at hf
    rcases hf with rfl | rfl | rfl | rfl | rfl | rfl | rfl <;>
      exact counter_of_after h rfl fun _ _ ↦ rfl
  · show s.aggregate.simDurationNs.toNat = _
    rw [h.aggregate]
    exact duration_foldl rs
  · intro n
    show s.aggregate.ringOccupancyPeak ≤ n ↔ _
    rw [h.aggregate]
    exact peak_foldl rs n
  · intro r hr
    show s.aggregate.latencies = _
    obtain ⟨pre, rfl⟩ := List.getLast?_eq_some_iff.mp hr
    rw [h.aggregate, List.foldl_append]
    rfl
  · rfl
  · exact h.noted
  · intro k hk
    rw [List.take_succ_eq_append_getElem hk, judged_concat]
    exact judge_recovery_iff _ _
  · show s.lastHealth.asStr = _
    rw [h.last]
  · exact gates_pass_iff h hlength

/-- A soak run fails with the first bench that does; otherwise its report adds up the benches of all
rounds, and says that they passed exactly when the sums and the metrics of each round do. The files
of the report and the events are taken to be written. -/
theorem run_reports (p : SoakProfile) (thresholds : HealthThresholds)
    (cfgs : Nat → BenchConfig) :
    match (roundNumbers p).findSome? (failure p cfgs) with
    | some e => run p thresholds cfgs = .error e
    | none => ∃ rs report, List.Forall₂ (Ran p cfgs) (roundNumbers p) rs ∧
        Reports p thresholds rs report ∧
        run p thresholds cfgs = if report.passed then .ok report else .error (.failed report) := by
  have hrounds := rounds_end p thresholds cfgs (rounds p)
  change EndsIn ((roundNumbers p).foldlM _ _) ((roundNumbers p).findSome? _) _ at hrounds
  cases hfailure : (roundNumbers p).findSome? (failure p cfgs) with
  | some e =>
    rw [hfailure] at hrounds
    have hloop : (roundNumbers p).foldlM (fun s round ↦ runRound p (cfgs round) s round)
        (start thresholds) = .error e := hrounds
    rw [run, hloop]
    rfl
  | none =>
    rw [hfailure] at hrounds
    obtain ⟨s, hloop, rs, hran, hafter⟩ := hrounds
    have hlength : rs.length = rounds p := by
      have hlengths := hran.length_eq
      rw [List.length_map, List.length_range] at hlengths
      exact hlengths.symm
    refine ⟨rs, report p s, hran, reports_of_after hafter hlength, ?_⟩
    rw [run, hloop]
    rfl

end SoakRunner

end AetherRadio
