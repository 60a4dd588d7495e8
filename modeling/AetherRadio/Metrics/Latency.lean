import AetherRadio.Metrics.Engine
import Mathlib.Data.List.Induction

/-!
# Latency statistics

What `record_latency_sample` has made of a sequence of samples on a fresh engine, against the
definitions of the statistics. The jitter takes a last sample of zero for none.
-/

namespace AetherRadio

open Verif

/-- A fresh engine after so many samples. -/
def MetricsEngine.sampled (samples : List UInt64) : MetricsEngine :=
  samples.foldl MetricsEngine.recordLatencySample MetricsEngine.new

private theorem MetricsEngine.sampled_concat (samples : List UInt64) (latencyNs : UInt64) :
    sampled (samples ++ [latencyNs]) = (sampled samples).recordLatencySample latencyNs := by
  rw [sampled, List.foldl_append]
  rfl

/-- The sum of the samples. -/
def latencyTotal (samples : List UInt64) : Nat :=
  samples.foldl (fun total latencyNs ↦ total + latencyNs.toNat) 0

private theorem latencyTotal_concat (samples : List UInt64) (latencyNs : UInt64) :
    latencyTotal (samples ++ [latencyNs]) = latencyTotal samples + latencyNs.toNat := by
  rw [latencyTotal, List.foldl_append]
  rfl

/-- The last sample that is positive; zero when none is. -/
def lastPositive (samples : List UInt64) : UInt64 := (samples.reverse.find? (· ≠ 0)).getD 0

private theorem lastPositive_concat (samples : List UInt64) (latencyNs : UInt64) :
    lastPositive (samples ++ [latencyNs]) =
      if latencyNs ≠ 0 then latencyNs else lastPositive samples := by
  unfold lastPositive
  rw [List.reverse_append, List.reverse_singleton, List.singleton_append, List.find?_cons]
  by_cases hzero : latencyNs = 0
  · simp [hzero]
  · simp [hzero]

/-- The statistics of a sequence of samples, by their definitions. -/
structure LatencyStatistics (samples : List UInt64) (t : TransportLayerMetrics) : Prop where
  count : t.latencySamples = samples.length
  least : t.latencyMinNs ∈ samples ∧ ∀ latencyNs ∈ samples, t.latencyMinNs ≤ latencyNs
  most : t.latencyMaxNs ∈ samples ∧ ∀ latencyNs ∈ samples, latencyNs ≤ t.latencyMaxNs
  last : samples.getLast? = some t.latencyLastNs
  total : t.latencySumNs.toNat = min (latencyTotal samples) (2 ^ 64 - 1)
  jitter : ∀ earlier previous latest, samples = earlier ++ [previous, latest] →
    t.jitterNs.toNat = ((latest.toNat : Int) - previous.toNat).natAbs

/-- What the engine holds of the samples, none of them included. -/
structure Sampled (samples : List UInt64) (t : TransportLayerMetrics) : Prop where
  count : t.latencySamples = samples.length
  least : samples ≠ [] →
    t.latencyMinNs ∈ samples ∧ ∀ latencyNs ∈ samples, t.latencyMinNs ≤ latencyNs
  most : samples ≠ [] →
    t.latencyMaxNs ∈ samples ∧ ∀ latencyNs ∈ samples, latencyNs ≤ t.latencyMaxNs
  last : samples.getLast?.getD 0 = t.latencyLastNs
  total : t.latencySumNs.toNat = min (latencyTotal samples) (2 ^ 64 - 1)
  latest : t.latencyLastNs ≠ 0 → lastPositive samples = t.latencyLastNs
  stale : t.latencyLastNs = 0 → t.jitterNs = lastPositive samples

private theorem sampled_new : Sampled [] MetricsEngine.new.layered.transport where
  count := rfl
  least := fun hne ↦ absurd rfl hne
  most := fun hne ↦ absurd rfl hne
  last := rfl
  total := rfl
  latest := fun hlast ↦ absurd rfl hlast
  stale := fun _ ↦ rfl

namespace Sampled

variable {samples : List UInt64} {engine : MetricsEngine}

/-- The least sample so far. -/
private theorem least_concat (start : Sampled samples engine.layered.transport)
    (latencyNs : UInt64) :
    (engine.recordLatencySample latencyNs).layered.transport.latencyMinNs ∈
        samples ++ [latencyNs] ∧
      ∀ x ∈ samples ++ [latencyNs],
        (engine.recordLatencySample latencyNs).layered.transport.latencyMinNs ≤ x := by
  show (if _ = 0 then latencyNs else min _ latencyNs) ∈ _ ∧
    ∀ x ∈ _, (if _ = 0 then latencyNs else min _ latencyNs) ≤ x
  rw [start.count]
  cases samples with
  | nil => simp
  | cons first rest =>
    have hleast := start.least (List.cons_ne_nil _ _)
    rw [List.length_cons, if_neg (Nat.succ_ne_zero _)]
    constructor
    · rcases Std.min_eq_or (a := engine.layered.transport.latencyMinNs) (b := latencyNs) with h | h
      · rw [h]
        exact List.mem_append_left _ hleast.1
      · rw [h]
        exact List.mem_append_right _ (List.mem_singleton_self _)
    · intro x hx
      rcases List.mem_append.mp hx with hold | hnew
      · exact Std.le_trans Std.min_le_left (hleast.2 x hold)
      · rw [List.mem_singleton.mp hnew]
        exact Std.min_le_right

/-- The greatest. -/
private theorem most_concat (start : Sampled samples engine.layered.transport)
    (latencyNs : UInt64) :
    (engine.recordLatencySample latencyNs).layered.transport.latencyMaxNs ∈
        samples ++ [latencyNs] ∧
      ∀ x ∈ samples ++ [latencyNs],
        x ≤ (engine.recordLatencySample latencyNs).layered.transport.latencyMaxNs := by
  show (if _ = 0 then latencyNs else max _ latencyNs) ∈ _ ∧
    ∀ x ∈ _, x ≤ (if _ = 0 then latencyNs else max _ latencyNs)
  rw [start.count]
  cases samples with
  | nil => simp
  | cons first rest =>
    have hmost := start.most (List.cons_ne_nil _ _)
    rw [List.length_cons, if_neg (Nat.succ_ne_zero _)]
    have hmax := toNat_max engine.layered.transport.latencyMaxNs latencyNs
    constructor
    · rcases UInt64.le_total engine.layered.transport.latencyMaxNs latencyNs with h | h
      · have hle := UInt64.le_iff_toNat_le.mp h
        rw [UInt64.toNat_inj.mp (hmax.trans (Nat.max_eq_right hle))]
        exact List.mem_append_right _ (List.mem_singleton_self _)
      · have hle := UInt64.le_iff_toNat_le.mp h
        rw [UInt64.toNat_inj.mp (hmax.trans (Nat.max_eq_left hle))]
        exact List.mem_append_left _ hmost.1
    · intro x hx
      rw [UInt64.le_iff_toNat_le, hmax]
      rcases List.mem_append.mp hx with hold | hnew
      · have hle := UInt64.le_iff_toNat_le.mp (hmost.2 x hold)
        omega
      · rw [List.mem_singleton.mp hnew]
        omega

/-- The jitter after one more sample. -/
theorem jitter_concat (start : Sampled samples engine.layered.transport) (latencyNs : UInt64) :
    (engine.recordLatencySample latencyNs).layered.transport.jitterNs =
      if engine.layered.transport.latencyLastNs = 0 then lastPositive samples
      else max latencyNs engine.layered.transport.latencyLastNs -
        min latencyNs engine.layered.transport.latencyLastNs := by
  show (if engine.layered.transport.latencySamples ≠ 0 ∧
    engine.layered.transport.latencyLastNs > 0 then _ else engine.layered.transport.jitterNs) = _
  by_cases hzero : engine.layered.transport.latencyLastNs = 0
  · rw [if_pos hzero, if_neg (by simp [hzero]), start.stale hzero]
  · have hcount : engine.layered.transport.latencySamples ≠ 0 := by
      rw [start.count]
      intro hlength
      have hlast := start.last
      rw [List.length_eq_zero_iff.mp hlength] at hlast
      exact hzero hlast.symm
    rw [if_neg hzero, if_pos ⟨hcount, UInt64.pos_iff_ne_zero.mpr hzero⟩]

/-- One more sample. -/
theorem sample (start : Sampled samples engine.layered.transport) (latencyNs : UInt64) :
    Sampled (samples ++ [latencyNs])
      (engine.recordLatencySample latencyNs).layered.transport where
  count := by
    rw [List.length_append, ← start.count]
    rfl
  least := fun _ ↦ start.least_concat latencyNs
  most := fun _ ↦ start.most_concat latencyNs
  last := by
    rw [List.getLast?_concat]
    rfl
  total := by
    rw [latencyTotal_concat]
    exact toNat_satAdd_of_min start.total latencyNs
  latest := by
    intro hlast
    have hpositive : latencyNs ≠ 0 := hlast
    rw [lastPositive_concat, if_pos hpositive]
    rfl
  stale := by
    intro hlast
    have hzero : latencyNs = 0 := hlast
    rw [start.jitter_concat, lastPositive_concat, hzero, if_neg (not_not_intro rfl)]
    by_cases hprevious : engine.layered.transport.latencyLastNs = 0
    · rw [if_pos hprevious]
    · -- From a positive sample down to zero the jitter is that sample.
      rw [if_neg hprevious, start.latest hprevious]
      apply UInt64.toNat_inj.mp
      rw [toNat_absDiff, UInt64.toNat_zero]
      omega

end Sampled

/-- A fresh engine after any samples. -/
theorem sampled_sampled (samples : List UInt64) :
    Sampled samples (MetricsEngine.sampled samples).layered.transport := by
  induction samples using List.reverseRecOn with
  | nil => exact sampled_new
  | append_singleton samples latencyNs ih =>
    rw [MetricsEngine.sampled_concat]
    exact ih.sample latencyNs

/-- Each jitter is taken against a positive sample, or comes out as if it were: after a sample of
zero the engine keeps the jitter it had, which is the last positive sample. -/
def JitterMeasured (samples : List UInt64) : Prop :=
  ∀ earlier previous latest, samples = earlier ++ [previous, latest] →
    previous ≠ 0 ∨ latest = lastPositive earlier

/-- The jitter of a sequence of two samples or more. -/
theorem jitter_sampled (earlier : List UInt64) (previous latest : UInt64) :
    (MetricsEngine.sampled (earlier ++ [previous, latest])).layered.transport.jitterNs.toNat =
        ((latest.toNat : Int) - previous.toNat).natAbs ↔
      previous ≠ 0 ∨ latest = lastPositive earlier := by
  have hsplit : earlier ++ [previous, latest] = (earlier ++ [previous]) ++ [latest] := by simp
  have hlast : (MetricsEngine.sampled (earlier ++ [previous])).layered.transport.latencyLastNs =
      previous := by
    rw [MetricsEngine.sampled_concat]
    rfl
  rw [hsplit, MetricsEngine.sampled_concat,
    (sampled_sampled (earlier ++ [previous])).jitter_concat, hlast]
  by_cases hprevious : previous = 0
  · rw [if_pos hprevious, lastPositive_concat, if_neg (not_not_intro hprevious)]
    have hdistance : ((latest.toNat : Int) - previous.toNat).natAbs = latest.toNat := by
      rw [hprevious, UInt64.toNat_zero]
      omega
    rw [hdistance, UInt64.toNat_inj, or_iff_right (not_not_intro hprevious)]
    exact eq_comm
  · rw [if_neg hprevious, toNat_absDiff]
    exact iff_of_true rfl (.inl hprevious)

/-- On every non-empty sequence of samples the statistics equal their definitions exactly when the
jitter was measured. -/
theorem latency_statistics_iff (first : UInt64) (rest : List UInt64) :
    LatencyStatistics (first :: rest)
        (MetricsEngine.sampled (first :: rest)).layered.transport ↔
      JitterMeasured (first :: rest) := by
  have hne := List.cons_ne_nil first rest
  have hsampled := sampled_sampled (first :: rest)
  constructor
  · intro hstatistics earlier previous latest hsplit
    have hjitter := hstatistics.jitter earlier previous latest hsplit
    rw [hsplit] at hjitter
    exact (jitter_sampled earlier previous latest).mp hjitter
  · intro hmeasured
    constructor
    · exact hsampled.count
    · exact hsampled.least hne
    · exact hsampled.most hne
    · have hlast := hsampled.last
      rw [List.getLast?_eq_some_getLast hne] at hlast ⊢
      rw [← hlast, Option.getD_some]
    · exact hsampled.total
    · intro earlier previous latest hsplit
      rw [hsplit]
      exact (jitter_sampled earlier previous latest).mpr (hmeasured earlier previous latest hsplit)

/-- Zero, then five: the jitter stays at zero. -/
theorem latency_statistics_zero_five :
    ¬ LatencyStatistics [0, 5] (MetricsEngine.sampled [0, 5]).layered.transport := by
  intro hstatistics
  exact absurd (hstatistics.jitter [] 0 5 rfl) (by decide)

end AetherRadio
