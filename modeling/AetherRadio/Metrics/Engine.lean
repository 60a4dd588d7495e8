import AetherRadio.Lib.Word
import Mathlib.Logic.Function.Iterate

/-!
# Metrics engine

`crates/metrics-engine/src/{lib,layers}.rs`: the five layers of counters and the recording methods.
Counters are naturals; those the source saturates stop at `2 ^ 64 - 1`. The link speed and the
values that nothing records or reads are left out.
-/

namespace AetherRadio

open Verif

/-- A counter that stops at the largest word. -/
def satCount (n k : Nat) : Nat := min (n + k) (2 ^ 64 - 1)

/-- Below it, the counter counts. -/
theorem satCount_of_lt {n k : Nat} (h : n + k < 2 ^ 64) : satCount n k = n + k := by
  unfold satCount
  omega

/-- Layer 1, physical. From `crates/metrics-engine/src/layers.rs:7–14`. -/
structure PhysicalMetrics where
  linkUp : Bool
  crcError : Nat
  deriving DecidableEq, Repr

/-- Layer 2, transport. From `crates/metrics-engine/src/layers.rs:18–34`. -/
structure TransportLayerMetrics where
  txPackets : Nat
  rxPackets : Nat
  txBytes : Nat
  rxBytes : Nat
  gapCount : Nat
  latePacket : Nat
  drop : Nat
  latencyMinNs : UInt64
  latencyMaxNs : UInt64
  latencyLastNs : UInt64
  latencySumNs : UInt64
  latencySamples : Nat
  jitterNs : UInt64
  deriving DecidableEq, Repr

/-- Layer 3, radio. From `crates/metrics-engine/src/layers.rs:46–56`. -/
structure RadioLayerMetrics where
  slotReceived : Nat
  slotProcessed : Nat
  slotDeadlineMiss : Nat
  symbolReceived : Nat
  deadlineMiss : Nat
  deriving DecidableEq, Repr

/-- Layer 4, memory. From `crates/metrics-engine/src/layers.rs:60–68`. -/
structure MemoryLayerMetrics where
  hostBufferUsed : Nat
  gpuBufferUsed : Nat
  bufferFull : Nat
  overflow : Nat
  ringOccupancy : Nat
  ringStallNs : UInt64
  deriving DecidableEq, Repr

/-- Layer 5, compute. From `crates/metrics-engine/src/layers.rs:72–77`. -/
structure ComputeLayerMetrics where
  kernelLatencyNs : UInt64
  kernelExecutions : Nat
  deriving DecidableEq, Repr

/-- The five layers. From `crates/metrics-engine/src/layers.rs:81–87`. -/
structure LayeredMetricsSnapshot where
  physical : PhysicalMetrics
  transport : TransportLayerMetrics
  radio : RadioLayerMetrics
  memory : MemoryLayerMetrics
  compute : ComputeLayerMetrics
  deriving DecidableEq, Repr

/-- In-process metrics engine. From `crates/metrics-engine/src/lib.rs:59–62`. -/
structure MetricsEngine where
  layered : LayeredMetricsSnapshot
  lastLatencyNs : UInt64
  deriving DecidableEq, Repr

namespace MetricsEngine

/-- All counters at zero. From `crates/metrics-engine/src/lib.rs:65–67`. -/
def new : MetricsEngine :=
  { layered :=
      { physical := ⟨false, 0⟩
        transport := ⟨0, 0, 0, 0, 0, 0, 0, 0, 0, 0, 0, 0, 0⟩
        radio := ⟨0, 0, 0, 0, 0⟩
        memory := ⟨0, 0, 0, 0, 0, 0⟩
        compute := ⟨0, 0⟩ }
    lastLatencyNs := 0 }

/-- Update the transport layer. -/
def onTransport (self : MetricsEngine) (f : TransportLayerMetrics → TransportLayerMetrics) :
    MetricsEngine := { self with layered.transport := f self.layered.transport }

/-- Update the radio layer. -/
def onRadio (self : MetricsEngine) (f : RadioLayerMetrics → RadioLayerMetrics) : MetricsEngine :=
  { self with layered.radio := f self.layered.radio }

/-- Update the memory layer. -/
def onMemory (self : MetricsEngine) (f : MemoryLayerMetrics → MemoryLayerMetrics) :
    MetricsEngine := { self with layered.memory := f self.layered.memory }

/-- `record_rx`. From `crates/metrics-engine/src/lib.rs:69–71`. -/
def recordRx (self : MetricsEngine) : MetricsEngine :=
  self.onTransport fun t ↦ { t with rxPackets := t.rxPackets + 1 }

/-- `record_tx`. From `crates/metrics-engine/src/lib.rs:73–75`. -/
def recordTx (self : MetricsEngine) : MetricsEngine :=
  self.onTransport fun t ↦ { t with txPackets := t.txPackets + 1 }

/-- `record_drop`. From `crates/metrics-engine/src/lib.rs:76–78,170–172`. -/
def recordDrop (self : MetricsEngine) : MetricsEngine :=
  self.onTransport fun t ↦ { t with drop := t.drop + 1 }

/-- `record_sequence_gap`. From `crates/metrics-engine/src/lib.rs:81–83,163–165`. -/
def recordSequenceGap (self : MetricsEngine) : MetricsEngine :=
  self.onTransport fun t ↦ { t with gapCount := t.gapCount + 1 }

/-- `record_late_packet`. From `crates/metrics-engine/src/lib.rs:85–87,167–169`. -/
def recordLatePacket (self : MetricsEngine) : MetricsEngine :=
  self.onTransport fun t ↦ { t with latePacket := t.latePacket + 1 }

/-- `record_deadline_miss`. From `crates/metrics-engine/src/lib.rs:92–95,193–196`. -/
def recordDeadlineMiss (self : MetricsEngine) : MetricsEngine :=
  self.onRadio fun r ↦
    { r with deadlineMiss := r.deadlineMiss + 1, slotDeadlineMiss := r.slotDeadlineMiss + 1 }

/-- `record_error`. From `crates/metrics-engine/src/lib.rs:98–100`. -/
def recordError (self : MetricsEngine) : MetricsEngine :=
  { self with layered.physical.crcError := self.layered.physical.crcError + 1 }

/-- `record_buffer_full`. From `crates/metrics-engine/src/lib.rs:106–109`. -/
def recordBufferFull (self : MetricsEngine) : MetricsEngine :=
  self.onMemory fun m ↦
    { m with bufferFull := satCount m.bufferFull 1, overflow := satCount m.overflow 1 }

/-- `set_memory_buffers`. From `crates/metrics-engine/src/lib.rs:111–114`. -/
def setMemoryBuffers (self : MetricsEngine) (hostUsed gpuUsed : Nat) : MetricsEngine :=
  self.onMemory fun m ↦ { m with hostBufferUsed := hostUsed, gpuBufferUsed := gpuUsed }

/-- `record_rx_bytes` counts the packet as well. From `crates/metrics-engine/src/lib.rs:153–156`. -/
def recordRxBytes (self : MetricsEngine) (bytes : Nat) : MetricsEngine :=
  self.onTransport fun t ↦
    { t with rxPackets := t.rxPackets + 1, rxBytes := satCount t.rxBytes bytes }

/-- `record_tx_bytes` counts the packet as well. From `crates/metrics-engine/src/lib.rs:158–161`. -/
def recordTxBytes (self : MetricsEngine) (bytes : Nat) : MetricsEngine :=
  self.onTransport fun t ↦
    { t with txPackets := t.txPackets + 1, txBytes := satCount t.txBytes bytes }

/-- `record_latency_sample`: the jitter is taken against the last sample when that is positive.
From `crates/metrics-engine/src/lib.rs:175–192`. -/
def recordLatencySample (self : MetricsEngine) (latencyNs : UInt64) : MetricsEngine :=
  { self.onTransport fun t ↦
      { t with
        latencyMinNs := if t.latencySamples = 0 then latencyNs else min t.latencyMinNs latencyNs
        latencyMaxNs := if t.latencySamples = 0 then latencyNs else max t.latencyMaxNs latencyNs
        jitterNs :=
          if t.latencySamples ≠ 0 ∧ t.latencyLastNs > 0 then
            max latencyNs t.latencyLastNs - min latencyNs t.latencyLastNs
          else t.jitterNs
        latencyLastNs := latencyNs
        latencySumNs := satAdd t.latencySumNs latencyNs
        latencySamples := t.latencySamples + 1 } with
    lastLatencyNs := latencyNs }

/-- `record_latency_ns`. From `crates/metrics-engine/src/lib.rs:89–91`. -/
def recordLatencyNs (self : MetricsEngine) (latencyNs : UInt64) : MetricsEngine :=
  self.recordLatencySample latencyNs

/-- `record_symbol`. From `crates/metrics-engine/src/lib.rs:199–203`. -/
def recordSymbol (self : MetricsEngine) : MetricsEngine :=
  self.onRadio fun r ↦
    { r with
      symbolReceived := r.symbolReceived + 1
      slotReceived := r.slotReceived + 1
      slotProcessed := r.slotProcessed + 1 }

/-- `record_kernel_ns`. From `crates/metrics-engine/src/lib.rs:205–208`. -/
def recordKernelNs (self : MetricsEngine) (ns : UInt64) : MetricsEngine :=
  { self with
    layered.compute :=
      { kernelLatencyNs := ns
        kernelExecutions := self.layered.compute.kernelExecutions + 1 } }

/-- `set_link_up`. From `crates/metrics-engine/src/lib.rs:210–213`. -/
def setLinkUp (self : MetricsEngine) (up : Bool) : MetricsEngine :=
  { self with layered.physical.linkUp := up }

/-- `set_ring_occupancy`. From `crates/metrics-engine/src/lib.rs:101–103,214–216`. -/
def setRingOccupancy (self : MetricsEngine) (occupancy : Nat) : MetricsEngine :=
  self.onMemory fun m ↦ { m with ringOccupancy := occupancy }

/-- Numerator and denominator of the `loss_rate` that `HealthManager::evaluate` divides. -/
def lossRate (self : MetricsEngine) : Nat × Nat :=
  (self.layered.transport.drop, max self.layered.transport.rxPackets 1)

/-- The packet counters of an engine. -/
structure Tally where
  rx : Nat
  tx : Nat
  gaps : Nat
  late : Nat
  drop : Nat
  samples : Nat
  symbols : Nat
  misses : Nat
  full : Nat

/-- The packet counters. -/
def tally (self : MetricsEngine) : Tally :=
  { rx := self.layered.transport.rxPackets
    tx := self.layered.transport.txPackets
    gaps := self.layered.transport.gapCount
    late := self.layered.transport.latePacket
    drop := self.layered.transport.drop
    samples := self.layered.transport.latencySamples
    symbols := self.layered.radio.symbolReceived
    misses := self.layered.radio.deadlineMiss
    full := self.layered.memory.bufferFull }

@[simp] theorem tally_recordDrop (self : MetricsEngine) :
    self.recordDrop.tally = { self.tally with drop := self.tally.drop + 1 } := rfl

/-- Recording drops in a loop adds them up. -/
theorem tally_iterate_recordDrop (self : MetricsEngine) (n : Nat) :
    (recordDrop^[n] self).tally = { self.tally with drop := self.tally.drop + n } := by
  induction n generalizing self with
  | zero => rfl
  | succ n ih =>
    rw [Function.iterate_succ_apply, ih, tally_recordDrop]
    simp only [Nat.add_assoc, Nat.add_comm 1]

end MetricsEngine

end AetherRadio
