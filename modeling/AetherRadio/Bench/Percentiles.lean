import AetherRadio.Bench.Run
import AetherRadio.Lib.Rank

/-!
# Latency percentiles

`LatencyStats` in `crates/benchmark/src/lib.rs` and the latency gate of `AcceptanceRunner` in
`crates/benchmark/src/acceptance.rs`. A percentile is the sample at its share of the way, with the
index read as an exact rational and rounded down.
-/

namespace AetherRadio

open Verif

/-- The percentiles of the latencies. From `crates/benchmark/src/lib.rs:19–25`. -/
structure LatencyStats where
  minNs : UInt64
  p50Ns : UInt64
  p99Ns : UInt64
  p999Ns : UInt64
  maxNs : UInt64
  deriving DecidableEq

namespace LatencyStats

/-- The index of a percentile among `n` samples. -/
def pctIndex (p : ℚ) (n : Nat) : Nat := min ⌊p * ((n - 1 : Nat) : ℚ)⌋₊ (n - 1)

private theorem pctIndex_lt {sorted : List UInt64} (hne : sorted ≠ []) (p : ℚ) :
    pctIndex p sorted.length < sorted.length := by
  have hpos := List.length_pos_iff.mpr hne
  unfold pctIndex
  omega

/-- `pct`. From `crates/benchmark/src/lib.rs:57–73`. -/
def pct (sorted : List UInt64) (hne : sorted ≠ []) (p : ℚ) : UInt64 :=
  sorted.get ⟨pctIndex p sorted.length, pctIndex_lt hne p⟩

/-- `from_sorted_ns`. From `crates/benchmark/src/lib.rs:57–73`. -/
def fromSortedNs (sorted : List UInt64) : LatencyStats :=
  if hne : sorted = [] then { minNs := 0, p50Ns := 0, p99Ns := 0, p999Ns := 0, maxNs := 0 }
  else
    { minNs := sorted.head hne
      p50Ns := pct sorted hne 0.50
      p99Ns := pct sorted hne 0.99
      p999Ns := pct sorted hne 0.999
      maxNs := sorted.getLast hne }

/-- The values, from the minimum to the maximum. -/
def values (self : LatencyStats) : List UInt64 :=
  [self.minNs, self.p50Ns, self.p99Ns, self.p999Ns, self.maxNs]

end LatencyStats

/-- The percentiles of a report. -/
def PipelineBench.BenchReport.latency (self : PipelineBench.BenchReport) : LatencyStats :=
  .fromSortedNs self.latencies

/-- The verdict of a gate. From `crates/benchmark/src/acceptance.rs:49–53`. -/
structure GateResult where
  name : String
  passed : Bool
  detail : String

/-- The latency gate of `AcceptanceRunner`. -/
def p99Gate (latency : LatencyStats) (maxP99LatencyNs : UInt64) : GateResult where
  name := "max_p99_latency_ns"
  passed := latency.p99Ns ≤ maxP99LatencyNs
  detail := s!"{latency.p99Ns} <= {maxP99LatencyNs}"

namespace LatencyStats

variable {sorted : List UInt64}

private theorem pctIndex_div {num den m : Nat} (hle : num ≤ den) :
    pctIndex (num / den) (m + 1) = num * m / den := by
  have hfloor : num * m / den ≤ m := Nat.div_le_of_le_mul (Nat.mul_le_mul_right m hle)
  rw [pctIndex, Nat.add_sub_cancel, floor_div_mul]
  exact Nat.min_eq_left hfloor

private theorem pctIndex_mono {p q : ℚ} (h : p ≤ q) (n : Nat) : pctIndex p n ≤ pctIndex q n := by
  have hnonneg : (0 : ℚ) ≤ ((n - 1 : Nat) : ℚ) := Nat.cast_nonneg _
  have hfloor := Nat.floor_le_floor (mul_le_mul_of_nonneg_right h hnonneg)
  unfold pctIndex
  omega

private theorem fromSortedNs_eq (hne : sorted ≠ []) : fromSortedNs sorted =
    { minNs := sorted.head hne
      p50Ns := pct sorted hne 0.50
      p99Ns := pct sorted hne 0.99
      p999Ns := pct sorted hne 0.999
      maxNs := sorted.getLast hne } := dif_neg hne

/-- Every value is one of the samples. -/
private theorem mem_of_mem_values (hne : sorted ≠ []) {v : UInt64}
    (hv : v ∈ (fromSortedNs sorted).values) : v ∈ sorted := by
  rw [fromSortedNs_eq hne] at hv
  simp only [values, List.mem_cons, List.not_mem_nil, or_false] at hv
  rcases hv with rfl | rfl | rfl | rfl | rfl
  · exact List.head_mem hne
  · exact List.get_mem ..
  · exact List.get_mem ..
  · exact List.get_mem ..
  · exact List.getLast_mem hne

private theorem pct_mono (hsorted : sorted.Pairwise (· ≤ ·)) (hne : sorted ≠ []) {p q : ℚ}
    (h : p ≤ q) :
    pct sorted hne p ≤ pct sorted hne q :=
  getElem_le_getElem hsorted (pctIndex_mono h _) (pctIndex_lt hne p) (pctIndex_lt hne q)

/-- The values ascend. -/
private theorem values_ascend (hsorted : sorted.Pairwise (· ≤ ·)) (hne : sorted ≠ []) :
    (fromSortedNs sorted).values.IsChain (· ≤ ·) := by
  have hpos := List.length_pos_iff.mpr hne
  have hmin : sorted.head hne ≤ pct sorted hne 0.50 := by
    rw [List.head_eq_getElem]
    exact getElem_le_getElem hsorted (Nat.zero_le _) hpos (pctIndex_lt hne _)
  have hmax : pct sorted hne 0.999 ≤ sorted.getLast hne := by
    rw [List.getLast_eq_getElem]
    apply getElem_le_getElem hsorted _ (pctIndex_lt hne _)
    exact Nat.min_le_right _ _
  have hmiddle : pct sorted hne 0.50 ≤ pct sorted hne 0.99 := pct_mono hsorted hne (by norm_num)
  have hupper : pct sorted hne 0.99 ≤ pct sorted hne 0.999 := pct_mono hsorted hne (by norm_num)
  rw [fromSortedNs_eq hne]
  simp [values, hmin, hmiddle, hupper, hmax]

/-- The sample at an index is repeated at the next one. -/
def Repeats (sorted : List UInt64) (i : Nat) : Prop := sorted[i + 1]? = sorted[i]?

instance (sorted : List UInt64) (i : Nat) : Decidable (Repeats sorted i) :=
  inferInstanceAs (Decidable (_ = _))

/-- A percentile covers its share exactly when the rounding has not lost it, or when the sample is
repeated. -/
theorem covers_pct_iff (hsorted : sorted.Pairwise (· ≤ ·)) (hne : sorted ≠ []) {num den : Nat}
    (hpos : 0 < num) (hle : num ≤ den) :
    Covers (num / den : ℚ) sorted (pct sorted hne (num / den)) ↔
      num * (sorted.length - 1) % den + num ≤ den ∨
        Repeats sorted (num * (sorted.length - 1) / den) := by
  obtain ⟨m, hm⟩ := Nat.exists_eq_succ_of_ne_zero (Nat.ne_of_gt (List.length_pos_iff.mpr hne))
  have hindex : pctIndex (num / den) sorted.length = num * m / den := by
    rw [hm, Nat.succ_eq_add_one, pctIndex_div hle]
  have hi : num * m / den < sorted.length := by
    rw [← hindex]
    exact pctIndex_lt hne _
  have hpct : pct sorted hne (num / den) = sorted[num * m / den] := by
    simp only [pct, List.get_eq_getElem, hindex]
  have hm' : sorted.length - 1 = m := by omega
  rw [hpct, covers_floor_iff hsorted hle hpos hm hi rfl, hm']
  apply or_congr_right
  rw [Repeats, List.getElem?_eq_getElem hi]
  constructor
  · rintro ⟨hnext, hsame⟩
    have hascends := getElem_le_getElem hsorted (Nat.le_succ _) hi hnext
    rw [List.getElem?_eq_getElem hnext, UInt64.le_antisymm hsame hascends]
  · intro hsame
    obtain ⟨hnext, heq⟩ := List.getElem?_eq_some_iff.mp hsame
    exact ⟨hnext, by rw [heq]; exact UInt64.le_refl _⟩

/-- The median covers half of the samples, whatever their number. -/
private theorem covers_p50 (hsorted : sorted.Pairwise (· ≤ ·)) (hne : sorted ≠ []) :
    Covers 0.50 sorted (fromSortedNs sorted).p50Ns := by
  have hshare : (0.50 : ℚ) = ((50 : Nat) : ℚ) / ((100 : Nat) : ℚ) := by norm_num
  rw [fromSortedNs_eq hne, hshare, covers_pct_iff hsorted hne (by decide) (by decide)]
  omega

/-- Of `den` parts all but one are covered for a multiple of `den` samples and for one more; for
other numbers of samples only when the sample is repeated. -/
theorem covers_pct_pred_iff (hsorted : sorted.Pairwise (· ≤ ·)) (hne : sorted ≠ []) {den : Nat}
    (hden : 1 < den) :
    Covers ((den - 1 : Nat) / den : ℚ) sorted (pct sorted hne ((den - 1 : Nat) / den)) ↔
      sorted.length % den ≤ 1 ∨ Repeats sorted ((den - 1) * (sorted.length - 1) / den) := by
  have hlength : sorted.length - 1 + 1 = sorted.length :=
    Nat.sub_add_cancel (List.length_pos_iff.mpr hne)
  rw [covers_pct_iff hsorted hne (by omega) (Nat.sub_le den 1), pred_mul_mod_add_le_iff hden,
    hlength]

private theorem covers_p99_iff (hsorted : sorted.Pairwise (· ≤ ·)) (hne : sorted ≠ []) :
    Covers 0.99 sorted (fromSortedNs sorted).p99Ns ↔
      sorted.length % 100 ≤ 1 ∨ Repeats sorted (99 * (sorted.length - 1) / 100) := by
  have hshare : (0.99 : ℚ) = ((100 - 1 : Nat) : ℚ) / ((100 : Nat) : ℚ) := by norm_num
  rw [fromSortedNs_eq hne, hshare]
  exact covers_pct_pred_iff hsorted hne (by decide)

private theorem covers_p999_iff (hsorted : sorted.Pairwise (· ≤ ·)) (hne : sorted ≠ []) :
    Covers 0.999 sorted (fromSortedNs sorted).p999Ns ↔
      sorted.length % 1000 ≤ 1 ∨ Repeats sorted (999 * (sorted.length - 1) / 1000) := by
  have hshare : (0.999 : ℚ) = ((1000 - 1 : Nat) : ℚ) / ((1000 : Nat) : ℚ) := by norm_num
  rw [fromSortedNs_eq hne, hshare]
  exact covers_pct_pred_iff hsorted hne (by decide)

end LatencyStats

/-- The gate keeps what its name says exactly when the percentile covers its share. -/
theorem p99Gate_covers_iff {latency : LatencyStats} {samples : List UInt64} :
    (∀ limit, (p99Gate latency limit).passed = true → Covers 0.99 samples limit) ↔
      Covers 0.99 samples latency.p99Ns := by
  constructor
  · intro h
    apply h latency.p99Ns
    exact decide_eq_true (UInt64.le_refl _)
  · intro hcovers limit hpassed
    exact hcovers.mono (of_decide_eq_true hpassed)

/-- For every list of sorted samples: each reported value is one of them, the values ascend, each
percentile has its share of the samples at or below it, and a limit the gate lets through holds for
99 percent of the samples, if and only if there are a multiple of 100 of them or one more, or the
99th percentile is repeated, and the same for 1000 and the 999th per mille. -/
theorem percentiles_cover_iff (sorted : List UInt64) (hne : sorted ≠ [])
    (hsorted : sorted.Pairwise (· ≤ ·)) :
    ((∀ v ∈ (LatencyStats.fromSortedNs sorted).values, v ∈ sorted) ∧
      (LatencyStats.fromSortedNs sorted).values.IsChain (· ≤ ·) ∧
      Covers 0.50 sorted (LatencyStats.fromSortedNs sorted).p50Ns ∧
      Covers 0.99 sorted (LatencyStats.fromSortedNs sorted).p99Ns ∧
      Covers 0.999 sorted (LatencyStats.fromSortedNs sorted).p999Ns ∧
      ∀ limit, (p99Gate (LatencyStats.fromSortedNs sorted) limit).passed = true →
        Covers 0.99 sorted limit) ↔
    (sorted.length % 100 ≤ 1 ∨
      LatencyStats.Repeats sorted (99 * (sorted.length - 1) / 100)) ∧
    (sorted.length % 1000 ≤ 1 ∨
      LatencyStats.Repeats sorted (999 * (sorted.length - 1) / 1000)) := by
  rw [p99Gate_covers_iff, ← LatencyStats.covers_p99_iff hsorted hne,
    ← LatencyStats.covers_p999_iff hsorted hne]
  constructor
  · rintro ⟨-, -, -, hp99, hp999, -⟩
    exact ⟨hp99, hp999⟩
  · rintro ⟨hp99, hp999⟩
    refine ⟨?_, ?_, ?_, hp99, hp999, hp99⟩
    · exact fun v hv ↦ LatencyStats.mem_of_mem_values hne hv
    · exact LatencyStats.values_ascend hsorted hne
    · exact LatencyStats.covers_p50 hsorted hne

theorem percentiles_cover_repeated :
    ((∀ v ∈ (LatencyStats.fromSortedNs [5, 5]).values, v ∈ [5, 5]) ∧
      (LatencyStats.fromSortedNs [5, 5]).values.IsChain (· ≤ ·) ∧
      Covers 0.50 [5, 5] (LatencyStats.fromSortedNs [5, 5]).p50Ns ∧
      Covers 0.99 [5, 5] (LatencyStats.fromSortedNs [5, 5]).p99Ns ∧
      Covers 0.999 [5, 5] (LatencyStats.fromSortedNs [5, 5]).p999Ns ∧
      ∀ limit, (p99Gate (LatencyStats.fromSortedNs [5, 5]) limit).passed = true →
        Covers 0.99 ([5, 5] : List UInt64) limit) ↔
    (2 % 100 ≤ 1 ∨ LatencyStats.Repeats [5, 5] (99 * (2 - 1) / 100)) ∧
    (2 % 1000 ≤ 1 ∨ LatencyStats.Repeats [5, 5] (999 * (2 - 1) / 1000)) :=
  percentiles_cover_iff [5, 5] (by decide) (by decide)

/-- Of two samples the smaller one is reported as 99th percentile. The gate lets a limit of 1
through that half of the samples exceed. -/
theorem percentile_below_share :
    (LatencyStats.fromSortedNs [1, 2]).p99Ns = 1 ∧
      ¬ Covers 0.99 [1, 2] (LatencyStats.fromSortedNs [1, 2]).p99Ns ∧
      (p99Gate (LatencyStats.fromSortedNs [1, 2]) 1).passed = true ∧
      ¬ Covers 0.99 ([1, 2] : List UInt64) 1 := by
  decide +kernel

namespace PipelineBench

/-- The gate of a run: a limit it lets through holds for 99 percent of the delivered packets under
the same condition. -/
theorem run_p99_gate_iff {cfg : BenchConfig} {r : BenchResult} (hrun : run cfg = .ok r) :
    (∀ limit, (p99Gate r.report.latency limit).passed = true →
      Covers 0.99 r.final.latencies limit) ↔
    r.final.latencies.length % 100 ≤ 1 ∨
      LatencyStats.Repeats r.report.latencies (99 * (r.final.latencies.length - 1) / 100) := by
  obtain ⟨-, -, s₀, s, -, -, rfl⟩ := (run_eq_ok cfg).mp hrun
  let samples := s.latencies.insertionSort (· ≤ ·)
  have hperm : samples.Perm s.latencies := s.latencies.perm_insertionSort (· ≤ ·)
  have hsorted : samples.Pairwise (· ≤ ·) := s.latencies.pairwise_insertionSort (· ≤ ·)
  change (∀ limit, (p99Gate (.fromSortedNs samples) limit).passed = true →
    Covers 0.99 s.latencies limit) ↔ s.latencies.length % 100 ≤ 1 ∨
      LatencyStats.Repeats samples (99 * (s.latencies.length - 1) / 100)
  by_cases hne : samples = []
  · have hnil : s.latencies = [] := by
      rw [hne] at hperm
      exact hperm.nil_eq.symm
    rw [hnil]
    exact iff_of_true (fun limit _ ↦ covers_nil _ limit) (.inl (by decide))
  · simp only [← Covers.of_perm hperm, ← hperm.length_eq]
    rw [p99Gate_covers_iff, LatencyStats.covers_p99_iff hsorted hne]

end PipelineBench

end AetherRadio
