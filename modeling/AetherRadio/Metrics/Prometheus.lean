import AetherRadio.Lib.Text
import AetherRadio.Metrics.Health

/-!
# Text exposition

`crates/metrics-engine/src/prometheus.rs`: the metrics of a snapshot as a text of lines, and what a
reader of such texts gets from it. The link speed, a float, enters as the text it is displayed as.
-/

namespace AetherRadio

open Verif Verif.Text

/-- Which of the macros `gauge!` and `counter!` a metric is given to. -/
inductive MetricKind where
  | gauge
  | counter
  deriving DecidableEq

/-- The kind as the exposition has it. -/
def MetricKind.asStr : MetricKind → String
  | .gauge => "gauge"
  | .counter => "counter"

/-- The text that `f64` displays: it has no line break. -/
structure RealText where
  text : String
  oneLine : '\n' ∉ text.toList

/-- The value of a metric. -/
inductive MetricValue where
  | nat (n : Nat)
  | real (text : RealText)

/-- `Display`. -/
def MetricValue.display : MetricValue → String
  | .nat n => n.repr
  | .real r => r.text

/-- A metric as its macro gets it. -/
structure Metric where
  kind : MetricKind
  name : String
  help : String
  value : MetricValue

/-- `gauge!` and `counter!`: what they push to the text. -/
def Metric.render (job : String) (m : Metric) : String :=
  "# HELP " ++ m.name ++ " " ++ m.help ++ "\n" ++
    ("# TYPE " ++ m.name ++ " " ++ m.kind.asStr ++ "\n") ++
    (m.name ++ String.singleton '{' ++ "job=\"" ++ job ++ "\"" ++ String.singleton '}' ++ " " ++
      m.value.display ++ "\n")

/-- A character that `sanitize_label` keeps. -/
def labelChar (c : Char) : Bool :=
  ('a' ≤ c && c ≤ 'z') || ('A' ≤ c && c ≤ 'Z') || ('0' ≤ c && c ≤ '9') || c == '_' || c == '-'

/-- `sanitize_label`. From `crates/metrics-engine/src/prometheus.rs:129–139`. -/
def sanitizeLabel (s : String) : String := s.map fun c ↦ if labelChar c then c else '_'

/-- The code of a health state. -/
def HealthState.code : HealthState → Nat
  | .normal => 0
  | .warning => 1
  | .degraded => 2
  | .failed => 3
  | .recovery => 4

/-- The metrics of a snapshot, in the order of the source. -/
def snapshotMetrics (snap : LayeredMetricsSnapshot) (linkSpeedGbps : RealText) : List Metric :=
  [⟨.gauge, "aether_link_up", "Physical link up (1) or down (0)",
      .nat (if snap.physical.linkUp then 1 else 0)⟩,
    ⟨.gauge, "aether_link_speed_gbps", "Configured or modelled link speed", .real linkSpeedGbps⟩,
    ⟨.counter, "aether_transport_rx_packets", "Transport RX packets",
      .nat snap.transport.rxPackets⟩,
    ⟨.counter, "aether_transport_tx_packets", "Transport TX packets",
      .nat snap.transport.txPackets⟩,
    ⟨.counter, "aether_transport_rx_bytes", "Transport RX bytes", .nat snap.transport.rxBytes⟩,
    ⟨.counter, "aether_transport_gap_count", "Sequence gap count", .nat snap.transport.gapCount⟩,
    ⟨.counter, "aether_transport_late_packets", "Late packet count",
      .nat snap.transport.latePacket⟩,
    ⟨.counter, "aether_transport_drop", "Dropped packets", .nat snap.transport.drop⟩,
    ⟨.gauge, "aether_transport_latency_last_ns", "Last e2e latency sample",
      .nat snap.transport.latencyLastNs.toNat⟩,
    ⟨.gauge, "aether_transport_latency_max_ns", "Max e2e latency sample",
      .nat snap.transport.latencyMaxNs.toNat⟩,
    ⟨.gauge, "aether_transport_jitter_ns", "Last inter-sample jitter",
      .nat snap.transport.jitterNs.toNat⟩,
    ⟨.counter, "aether_radio_deadline_miss", "Radio deadline misses",
      .nat snap.radio.deadlineMiss⟩,
    ⟨.counter, "aether_radio_symbol_received", "Symbols received",
      .nat snap.radio.symbolReceived⟩,
    ⟨.gauge, "aether_memory_ring_occupancy", "GPU/host ring occupancy",
      .nat snap.memory.ringOccupancy⟩,
    ⟨.gauge, "aether_compute_kernel_latency_ns", "Last kernel latency",
      .nat snap.compute.kernelLatencyNs.toNat⟩,
    ⟨.counter, "aether_compute_kernel_executions", "Kernel execution count",
      .nat snap.compute.kernelExecutions⟩]

/-- The metric of the health. -/
def healthMetric (health : HealthState) : Metric :=
  ⟨.gauge, "aether_health_state",
    "Health state code NORMAL=0 WARNING=1 DEGRADED=2 FAILED=3 RECOVERY=4", .nat health.code⟩

/-- All metrics of an exposition. -/
def exposedMetrics (snap : LayeredMetricsSnapshot) (linkSpeedGbps : RealText)
    (health : Option HealthState) : List Metric :=
  snapshotMetrics snap linkSpeedGbps ++ health.toList.map healthMetric

/-- `render_prometheus_text`. From `crates/metrics-engine/src/prometheus.rs:7–127`. -/
def renderPrometheusText (snap : LayeredMetricsSnapshot) (linkSpeedGbps : RealText)
    (health : Option HealthState) (job : String) : String :=
  String.join ((exposedMetrics snap linkSpeedGbps health).map (Metric.render (sanitizeLabel job)))

/-! ## Reading an exposition -/

/-- A sample that has been read, with the kind declared for its name. -/
structure Sample where
  name : List Char
  kind : Option (List Char)
  job : List Char
  value : List Char ⊕ Nat
  deriving DecidableEq

/-- A value is read as a number, if it is one. -/
def readValue (value : List Char) : List Char ⊕ Nat :=
  match readNat value with
  | some n => .inr n
  | none => .inl value

/-- The name, the label and the value of a line. -/
def readSample (line : List Char) : Option (List Char × List Char × List Char) := do
  let (name, rest) ← cut '{' line
  let label ← rest.dropPrefix? "job=\"".toList
  let (job, rest) ← cut '"' label
  let value ← rest.dropPrefix? ['}', ' ']
  pure (name, job, value)

/-- Line after line: types are remembered, other comments and empty lines are skipped. -/
def readLines (types : List (List Char × List Char)) : List (List Char) → Option (List Sample)
  | [] => some []
  | line :: lines =>
    match line.dropPrefix? "# TYPE ".toList with
    | some declared =>
      match cut ' ' declared with
      | some (name, kind) => readLines ((name, kind) :: types) lines
      | none => none
    | none =>
      if line = [] ∨ line.head? = some '#' then readLines types lines
      else
        match readSample line with
        | none => none
        | some (name, job, value) =>
          (readLines types lines).map
            (⟨name, types.lookup name, job, readValue value⟩ :: ·)

/-- What is read from a text. -/
def scrape (text : String) : Option (List Sample) := readLines [] (text.toList.splitOn '\n')

/-! ## What is rendered is read -/

private theorem ne_of_labelChar {c d : Char} (h : labelChar c) (hd : labelChar d = false) :
    c ≠ d := by
  rintro rfl
  rw [hd] at h
  cases h

/-- A name is one of label characters, and a help is one line. -/
structure Metric.Plain (m : Metric) : Prop where
  name : m.name.toList.all labelChar
  nonempty : m.name.toList ≠ []
  help : '\n' ∉ m.help.toList

private theorem Metric.Plain.not_mem {m : Metric} (h : m.Plain) {d : Char}
    (hd : labelChar d = false) :
    d ∉ m.name.toList := by
  intro hmem
  exact ne_of_labelChar (List.all_eq_true.mp h.name d hmem) hd rfl

private theorem plain_exposedMetrics (snap : LayeredMetricsSnapshot) (linkSpeedGbps : RealText)
    (health : Option HealthState) :
    ∀ m ∈ exposedMetrics snap linkSpeedGbps health, m.Plain := by
  intro m hm
  rcases List.mem_append.mp hm with hm | hm
  · simp only [snapshotMetrics, List.mem_cons, List.not_mem_nil, or_false] at hm
    rcases hm with rfl | rfl | rfl | rfl | rfl | rfl | rfl | rfl | rfl | rfl | rfl | rfl | rfl |
      rfl | rfl | rfl <;>
      constructor <;> dsimp only <;> decide
  · obtain ⟨state, -, rfl⟩ := List.mem_map.mp hm
    constructor <;> dsimp only [healthMetric] <;> decide

private theorem not_mem_display (value : MetricValue) : '\n' ∉ value.display.toList := by
  cases value with
  | nat n => exact not_mem_repr (by decide) n
  | real r => exact r.oneLine

private theorem labelChar_of_mem_sanitizeLabel {s : String} {c : Char}
    (h : c ∈ (sanitizeLabel s).toList) : labelChar c := by
  rw [sanitizeLabel, String.toList_map] at h
  obtain ⟨d, -, rfl⟩ := List.mem_map.mp h
  split
  · next hkept => exact hkept
  · decide

private theorem not_mem_sanitizeLabel (s : String) {d : Char} (hd : labelChar d = false) :
    d ∉ (sanitizeLabel s).toList := by
  intro hmem
  exact ne_of_labelChar (labelChar_of_mem_sanitizeLabel hmem) hd rfl

/-- The lines that a metric is rendered to. -/
def Metric.lines (job : List Char) (m : Metric) : List (List Char) :=
  [['#', ' ', 'H', 'E', 'L', 'P', ' '] ++ (m.name.toList ++ ' ' :: m.help.toList),
    "# TYPE ".toList ++ (m.name.toList ++ ' ' :: m.kind.asStr.toList),
    m.name.toList ++ '{' :: ("job=\"".toList ++
      (job ++ '"' :: (['}', ' '] ++ m.value.display.toList)))]

private theorem toList_render (job : String) (m : Metric) :
    (m.render job).toList = (m.lines job.toList).flatMap (· ++ ['\n']) := by
  simp [Metric.render, Metric.lines, String.toList_append]

/-- A natural number is read as itself, and a float as what its text is. -/
def MetricValue.read : MetricValue → List Char ⊕ Nat
  | .nat n => .inr n
  | .real r => readValue r.text.toList

private theorem readValue_display (value : MetricValue) :
    readValue value.display.toList = value.read := by
  cases value with
  | nat n =>
    show (match readNat n.repr.toList with | some n => Sum.inr n | none => _) = _
    rw [readNat_repr]
    rfl
  | real r => rfl

/-- The sample of a metric. -/
def Metric.sample (job : List Char) (m : Metric) : Sample where
  name := m.name.toList
  kind := some m.kind.asStr.toList
  job
  value := m.value.read

variable {job : List Char} {m : Metric} {types : List (List Char × List Char)}
  {lines : List (List Char)}

private theorem readLines_help (rest : List Char) :
    readLines types ((['#', ' ', 'H', 'E', 'L', 'P', ' '] ++ rest) :: lines) =
      readLines types lines := rfl

private theorem readLines_type (h : m.Plain) :
    readLines types (("# TYPE ".toList ++ (m.name.toList ++ ' ' :: m.kind.asStr.toList)) ::
        lines) =
      readLines ((m.name.toList, m.kind.asStr.toList) :: types) lines := by
  rw [readLines, dropPrefix?_append]
  dsimp only
  rw [cut_append_cons (h.not_mem (by decide))]

private theorem readSample_line (h : m.Plain) (hjob : '"' ∉ job) :
    readSample (m.name.toList ++ '{' :: ("job=\"".toList ++
      (job ++ '"' :: (['}', ' '] ++ m.value.display.toList)))) =
        some (m.name.toList, job, m.value.display.toList) := by
  rw [readSample, cut_append_cons (h.not_mem (by decide))]
  dsimp only [Option.bind_eq_bind, Option.bind_some]
  rw [dropPrefix?_append]
  dsimp only [Option.bind_some]
  rw [cut_append_cons hjob]
  dsimp only [Option.bind_some]
  rw [dropPrefix?_append]
  rfl

/-- A line that starts with a label character is a sample. -/
private theorem readLines_sample {c : Char} {cs : List Char} (hc : labelChar c)
    {name job value : List Char} (h : readSample (c :: cs) = some (name, job, value)) :
    readLines types ((c :: cs) :: lines) =
      (readLines types lines).map (⟨name, types.lookup name, job, readValue value⟩ :: ·) := by
  have hmark : c ≠ '#' := ne_of_labelChar hc (by decide)
  have hnone : (c :: cs).dropPrefix? "# TYPE ".toList = none := by
    show (if c == '#' then _ else none) = none
    rw [if_neg fun heq ↦ hmark (eq_of_beq heq)]
  have hcomment : ¬ ((c :: cs) = [] ∨ (c :: cs).head? = some '#') := by
    rintro (hnil | hhead)
    · cases hnil
    · exact hmark (Option.some.inj hhead)
  rw [readLines, hnone]
  dsimp only
  rw [if_neg hcomment, h]

private theorem readLines_metric (h : m.Plain) (hjob : '"' ∉ job) :
    readLines types (m.lines job ++ lines) =
      (readLines ((m.name.toList, m.kind.asStr.toList) :: types) lines).map
        (m.sample job :: ·) := by
  have hsample := readSample_line h hjob
  obtain ⟨c, cs, hname⟩ := List.exists_cons_of_ne_nil h.nonempty
  have hc : labelChar c := by
    apply List.all_eq_true.mp h.name
    rw [hname]
    exact List.mem_cons_self
  show readLines types (_ :: _ :: _ :: lines) = _
  rw [readLines_help, readLines_type h]
  rw [hname, List.cons_append] at hsample ⊢
  rw [readLines_sample hc hsample, List.lookup_cons_self, Metric.sample, hname,
    readValue_display]

private theorem readLines_metrics {ms : List Metric} (hplain : ∀ m ∈ ms, m.Plain)
    (hjob : '"' ∉ job) :
    readLines types (ms.flatMap (Metric.lines job) ++ [[]]) =
      some (ms.map (Metric.sample job)) := by
  induction ms generalizing types with
  | nil => rfl
  | cons m ms ih =>
    rw [List.flatMap_cons, List.append_assoc,
      readLines_metric (hplain m List.mem_cons_self) hjob,
      ih fun m' hm' ↦ hplain m' (List.mem_cons_of_mem m hm')]
    rfl

/-- No line of a metric is broken. -/
private theorem not_mem_lines (h : m.Plain) (hjob : '\n' ∉ job) :
    ∀ line ∈ m.lines job, '\n' ∉ line := by
  have hname : '\n' ∉ m.name.toList := h.not_mem (by decide)
  have hvalue := not_mem_display m.value
  have hkind : '\n' ∉ m.kind.asStr.toList := by cases m.kind <;> decide
  intro line hline
  simp only [Metric.lines, List.mem_cons, List.not_mem_nil, or_false] at hline
  rcases hline with rfl | rfl | rfl
  · simp [hname, h.help]
  · simp [hname, hkind]
  · simp [hname, hjob, hvalue]

/-- What is read from a rendered text are the metrics that were rendered, in their order, each with
its kind and its value and under the sanitised job, whatever characters the job has; and no name is
there twice. -/
theorem scrape_render (snap : LayeredMetricsSnapshot) (linkSpeedGbps : RealText)
    (health : Option HealthState) (job : String) :
    scrape (renderPrometheusText snap linkSpeedGbps health job) =
      some ((exposedMetrics snap linkSpeedGbps health).map
        (Metric.sample (sanitizeLabel job).toList)) ∧
    ((exposedMetrics snap linkSpeedGbps health).map (·.name)).Nodup := by
  have hplain := plain_exposedMetrics snap linkSpeedGbps health
  constructor
  · have htext : (renderPrometheusText snap linkSpeedGbps health job).toList =
        ((exposedMetrics snap linkSpeedGbps health).flatMap
          (Metric.lines (sanitizeLabel job).toList)).flatMap (· ++ ['\n']) := by
      rw [renderPrometheusText, String.toList_join, List.flatMap_map, List.flatMap_assoc]
      simp only [toList_render]
    rw [scrape, htext, splitOn_lines]
    · exact readLines_metrics hplain (not_mem_sanitizeLabel job (by decide))
    · intro line hline
      obtain ⟨m, hm, hmem⟩ := List.mem_flatMap.mp hline
      exact not_mem_lines (hplain m hm) (not_mem_sanitizeLabel job (by decide)) line hmem
  · -- The names do not depend on the snapshot.
    cases health with
    | none =>
      change ((exposedMetrics MetricsEngine.new.layered ⟨"", by decide⟩ none).map (·.name)).Nodup
      decide
    | some state =>
      change ((exposedMetrics MetricsEngine.new.layered ⟨"", by decide⟩
        (some .normal)).map (·.name)).Nodup
      decide

end AetherRadio
