import AetherRadio.Lib.Fallible
import AetherRadio.Metrics.Engine
import AetherRadio.Metrics.Recovery
import AetherRadio.Metrics.Trace
import AetherRadio.Sim.Fault
import AetherRadio.Sim.Fpga
import AetherRadio.Sim.GpuRing
import AetherRadio.Sim.Nic
import AetherRadio.Transport.Engine
import Mathlib.Data.List.Sort

/-!
# End-to-end pipeline bench

`crates/benchmark/src/pipeline.rs` with the simulation GPU: the packets of all streams go through
the fault injector, the checked receive path, the card and the GPU ring, one after the other. The
configurations enter as parsed; the event log and the floating-point throughput are left out. The
history field of the state records what the delivery loop was given.
-/

namespace AetherRadio

open Verif

/-- The link model as parsed: the serialization delay of a number of bytes, and the latency.
From `crates/ethernet-model/src/lib.rs:8–16`. -/
structure EthernetModelConfig where
  serializeDelayNs : Nat → UInt64
  latencyNs : UInt64

/-- `wire_delay_ns`. From `crates/ethernet-model/src/lib.rs:34–36`. -/
def EthernetModelConfig.wireDelayNs (self : EthernetModelConfig) : UInt64 := self.latencyNs

/-- The profile as parsed, without its file names. From `crates/benchmark/src/pipeline.rs:24–49`. -/
structure BenchProfile where
  symbolCount : UInt64
  streams : UInt32
  latencyBudgetNs : UInt64
  includeEthernetDelay : Bool
  includeNicDma : Bool
  includeGpuKernel : Bool
  gpuBackend : String

/-- Everything a run reads. From `crates/benchmark/src/pipeline.rs:115–152`. -/
structure BenchConfig where
  profile : BenchProfile
  timing : RadioTimingConfig
  tone : UInt64 → Nat → IQSample
  eth : EthernetModelConfig
  deadline : TransportDeadlineConfig
  nic : NicDmaConfig
  gpuRing : GpuRingConfig
  fault : FaultInjectionConfig
  traceEnabled : Bool
  traceCapacity : Nat
  recoveryPolicy : Option RecoveryPolicy

/-- The component error a run gives up with; the source keeps its text. -/
inductive RuntimeError where
  | transport (error : TransportError)
  | nic (error : Cx5Error)
  | gpu (error : GpuError)
  deriving DecidableEq, Repr

/-- How a run fails. `capacityOverflow` is the panic of the latency buffer's allocation, or of the
product before it in a checked build. From `crates/benchmark/src/pipeline.rs:77–84`. -/
inductive PipelineBenchError where
  | config (message : String)
  | runtime (cause : RuntimeError)
  | capacityOverflow
  deriving DecidableEq, Repr

/-- The variables of a run; `delivered` is history.
From `crates/benchmark/src/pipeline.rs:199–208`. -/
structure BenchState where
  nowNs : UInt64
  metrics : MetricsEngine
  transport : SimTransportEngine
  nic : Cx5Nic
  ring : GpuRingBuffer
  tracer : TraceEngine
  recovery : Option RecoveryExecutor
  latencies : List UInt64
  bytes : Nat
  packets : Nat
  symbolMiss : Nat
  ringPeak : Nat
  delivered : List Packet

namespace BenchState

/-- Stamp the current time. -/
def stamp (self : BenchState) (tid : UInt64) (stage : TraceStage) : BenchState :=
  { self with tracer := self.tracer.stamp tid stage self.nowNs }

/-- Apply the policy, if there is one. From `crates/benchmark/src/pipeline.rs:246–248`. -/
def applyRecovery (self : BenchState) (faultClass : String) : BenchState :=
  { self with recovery := self.recovery.map fun ex ↦ (ex.apply faultClass).1 }

end BenchState

namespace BenchConfig

/-- `p.streams.max(1)`. From `crates/benchmark/src/pipeline.rs:117`. -/
def streamCount (cfg : BenchConfig) : Nat := max cfg.profile.streams.toNat 1

/-- The delay on the wire. From `crates/benchmark/src/pipeline.rs:230–235`. -/
def wireNs (cfg : BenchConfig) (packet : Packet) : UInt64 :=
  if cfg.profile.includeEthernetDelay then
    satAdd (cfg.eth.serializeDelayNs packet.payload.length) cfg.eth.wireDelayNs
  else 0

/-- The clock when a packet reaches the receiver.
From `crates/benchmark/src/pipeline.rs:236–239`. -/
def arriveNs (cfg : BenchConfig) (nowNs : UInt64) (packet : Packet) : UInt64 :=
  satAdd (satAdd (max nowNs packet.timestamp.val) (cfg.wireNs packet)) cfg.fault.extraLatencyNs

end BenchConfig

namespace PipelineBench

variable (cfg : BenchConfig)

/-- A packet leaves the FPGA and crosses the wire; answers with its trace id.
From `crates/benchmark/src/pipeline.rs:226–240`. -/
def depart (s : BenchState) (packet : Packet) : BenchState × UInt64 :=
  let (tracer, tid) :=
    s.tracer.start packet.streamId.val packet.sequence.val .fpgaTx packet.timestamp.val
  let nowNs := cfg.arriveNs s.nowNs packet
  let s := { s with tracer, nowNs }.stamp tid .wireDepart
  ({ s with transport := { s.transport with nowNs } }, tid)

/-- The checked receive path with recovery after a gap; answers whether the packet got through.
From `crates/benchmark/src/pipeline.rs:242–276`. -/
def ingestOrRecover (s : BenchState) (packet : Packet) :
    Except PipelineBenchError (BenchState × Bool) :=
  match s.transport.ingest packet with
  | (transport, .ok ()) => .ok ({ s with transport }, true)
  | (transport, .error (.sequenceGap _ got)) =>
    let s := { s with transport }.applyRecovery "sequence_gap"
    let transport := s.transport.recoverSequence packet.streamId got
    let s := { s with transport, metrics := s.metrics.recordSequenceGap }
    match s.transport.ingest packet with
    | (transport, .ok ()) => .ok ({ s with transport }, true)
    | (_, .error e) => .error (.runtime (.transport e))
  | (transport, .error (.latePacket _ _)) =>
    let s := { s with transport }.applyRecovery "late_packet"
    .ok ({ s with metrics := s.metrics.recordDeadlineMiss.recordLatePacket }, false)
  | (_, .error e) => .error (.runtime (.transport e))

/-- The packet goes into the card; with DMA the clock waits for its completion.
From `crates/benchmark/src/pipeline.rs:285–294`. -/
def submitRx (s : BenchState) (pkt : Packet) : Except PipelineBenchError BenchState :=
  let nic := s.nic.advanceTime s.nowNs
  if cfg.profile.includeNicDma then do
    let (nic, _) ← orFail (.runtime ∘ .nic) (nic.submitRx pkt)
    let nowNs := satAdd s.nowNs nic.cfg.dmaLatencyNs
    pure { s with nowNs, nic := nic.advanceTime nowNs }
  else do
    let (nic, _) ← orFail (.runtime ∘ .nic) (nic.submitRxReadyAt pkt s.nowNs)
    pure { s with nic }

/-- The card's part, with its stamps. From `crates/benchmark/src/pipeline.rs:285–296`. -/
def submit (s : BenchState) (tid : UInt64) (pkt : Packet) :
    Except PipelineBenchError BenchState := do
  let s ← submitRx cfg s pkt
  pure ((s.stamp tid .cx5Rx).stamp tid .dmaDone)

/-- One life cycle of a ring slot, or a full ring; answers with the kernel's latency.
From `crates/benchmark/src/pipeline.rs:347–375`. -/
def gpuKernel (s : BenchState) (payload : List UInt8) :
    Except PipelineBenchError (BenchState × UInt64) :=
  match s.ring.beginReceive s.nowNs with
  | (ring, .ok idx) => do
    let ringPeak := max s.ringPeak ring.occupied
    let s := { s with ringPeak, metrics := s.metrics.setRingOccupancy ringPeak }
    let (ring, _) ← orFail (.runtime ∘ .gpu) (ring.completeReceive idx payload)
    let (ring, idx, doneAt) ← orFail (.runtime ∘ .gpu) (ring.beginProcess s.nowNs)
    let (ring, latency) ← orFail (.runtime ∘ .gpu) (ring.completeProcess idx doneAt)
    let (ring, _) ← orFail (.runtime ∘ .gpu) (ring.release idx)
    pure ({ s with ring, metrics := s.metrics.recordKernelNs latency }, latency)
  | (ring, .error .ringFull) =>
    let s := { s with ring, metrics := s.metrics.recordBufferFull }
    .ok (s.applyRecovery "buffer_overflow", 0)
  | (_, .error e) => .error (.runtime (.gpu e))

/-- The GPU stage; answers with its latency. From `crates/benchmark/src/pipeline.rs:303–380`. -/
def gpuStage (s : BenchState) (payload : List UInt8) :
    Except PipelineBenchError (BenchState × UInt64) :=
  if cfg.profile.includeGpuKernel then gpuKernel s payload else .ok (s, 0)

/-- The miss counters of a packet over the latency budget.
From `crates/benchmark/src/pipeline.rs:398–407`. -/
def checkBudget (s : BenchState) (e2e : UInt64) : BenchState :=
  if e2e > cfg.profile.latencyBudgetNs then
    { s with symbolMiss := s.symbolMiss + 1, metrics := s.metrics.recordDeadlineMiss }
  else s

/-- The clock and the measurements after the GPU stage.
From `crates/benchmark/src/pipeline.rs:381–410`. -/
def measure (tid : UInt64) (delivered : Packet) (s : BenchState) (gpuLatency : UInt64) :
    BenchState :=
  let len := delivered.payload.length
  let nowNs := satAdd s.nowNs (satAdd gpuLatency cfg.fault.kernelDelayNs)
  let s := { s with nowNs }.stamp tid .cudaDone
  let e2e := satSub nowNs delivered.timestamp.val
  let metrics := ((s.metrics.recordLatencyNs e2e).recordSymbol).setMemoryBuffers (s.bytes + len)
    (s.ring.slotCount * s.ring.slotBytes)
  let s := checkBudget cfg { s with metrics, latencies := s.latencies ++ [e2e] } e2e
  { s with
    bytes := s.bytes + len
    packets := s.packets + 1
    metrics := s.metrics.recordTx }

/-- The delivery loop's body. From `crates/benchmark/src/pipeline.rs:298–411`. -/
def deliver (tid : UInt64) (s : BenchState) (delivered : Packet) :
    Except PipelineBenchError BenchState := do
  let s := { s with
    metrics := s.metrics.recordRx.recordRxBytes delivered.payload.length
    delivered := s.delivered ++ [delivered] }
  let s := (s.stamp tid .hostReady).stamp tid .gpuEnqueue
  let (s, gpuLatency) ← gpuStage cfg s delivered.payload
  pure (measure cfg tid delivered s gpuLatency)

/-- From the inbox through the card to the delivery loop.
From `crates/benchmark/src/pipeline.rs:278–411`. -/
def forward (s : BenchState) (tid : UInt64) : Except PipelineBenchError BenchState := do
  let (transport, received) ← orFail (.runtime ∘ .transport) s.transport.receive
  let s := { s with transport }
  match received with
  | none => pure s
  | some pkt =>
    let s ← submit cfg s tid pkt
    let (nic, burst) := s.nic.rxBurst 32
    burst.foldlM (deliver cfg tid) { s with nic }

/-- `process_one`. From `crates/benchmark/src/pipeline.rs:211–413`. -/
def processOne (s : BenchState) (packet : Packet) : Except PipelineBenchError BenchState := do
  let (s, tid) := depart cfg s packet
  let (s, through) ← ingestOrRecover s packet
  if through then forward cfg s tid else pure s

/-- One symbol of every stream. From `crates/benchmark/src/pipeline.rs:416–436`. -/
def fpgaLoop : List FpgaEmulator → FaultInjector → BenchState →
    Except PipelineBenchError (List FpgaEmulator × FaultInjector × BenchState)
  | [], injector, s => pure ([], injector, s)
  | fpga :: fpgas, injector, s => do
    let (fpga, emitted) := fpga.emitSymbol cfg.tone
    let (injector, out) := injector.push emitted
    let s ← out.foldlM (processOne cfg) s
    let (fpgas, injector, s) ← fpgaLoop fpgas injector s
    pure (fpga :: fpgas, injector, s)

/-- All symbols. From `crates/benchmark/src/pipeline.rs:415–437`. -/
def symbolLoop : Nat → List FpgaEmulator → FaultInjector → BenchState →
    Except PipelineBenchError (List FpgaEmulator × FaultInjector × BenchState)
  | 0, fpgas, injector, s => pure (fpgas, injector, s)
  | n + 1, fpgas, injector, s => do
    let (fpgas, injector, s) ← fpgaLoop cfg fpgas injector s
    symbolLoop n fpgas injector s

/-- The loop over what the injector still holds. From `crates/benchmark/src/pipeline.rs:438–455`. -/
def flushLoop (injector : FaultInjector) (s : BenchState) :
    Except PipelineBenchError (FaultInjector × BenchState) :=
  match _hflush : injector.flush with
  | (injector', some packet) => do
    let s ← processOne cfg s packet
    flushLoop injector' s
  | (injector', none) => pure (injector', s)
termination_by injector.held.toList.length
decreasing_by
  obtain ⟨hinjector, hheld⟩ := Prod.mk.inj _hflush
  rw [← hinjector, hheld]
  exact Nat.zero_lt_one

/-- Create and start every stream. From `crates/benchmark/src/pipeline.rs:180–195`. -/
def setupStreams : List UInt32 → SimTransportEngine →
    Except PipelineBenchError SimTransportEngine
  | [], transport => pure transport
  | s :: streams, transport => do
    let (transport, _) ← orFail (.runtime ∘ .transport) (transport.createStream
      { streamId := ⟨s⟩
        carrier := ((s - 1) % 4).toUInt16
        antenna := ((s - 1) / 4).toUInt16
        qos := 0
        deadlineNs := cfg.profile.latencyBudgetNs })
    let (transport, _) ← orFail (.runtime ∘ .transport) (transport.startStream ⟨s⟩)
    setupStreams streams transport

/-- The stream numbers `1..=stream_count`. -/
def streamIds : List UInt32 := (List.range cfg.streamCount).map fun n ↦ UInt32.ofNat (n + 1)

/-- The state before the first packet. From `crates/benchmark/src/pipeline.rs:176–208`. -/
def start : Except PipelineBenchError BenchState := do
  let transport ← setupStreams cfg (streamIds cfg) (SimTransportEngine.new cfg.deadline).linkUp.1
  let ring := GpuRingBuffer.new cfg.gpuRing
  let metrics := (MetricsEngine.new.setLinkUp true).setMemoryBuffers 0
    (ring.slotCount * ring.slotBytes)
  pure {
    nowNs := 0
    metrics
    transport
    nic := .new cfg.nic
    ring
    tracer := .fromConfig cfg.traceEnabled cfg.traceCapacity
    recovery := cfg.recoveryPolicy.map .new
    latencies := []
    bytes := 0
    packets := 0
    symbolMiss := 0
    ringPeak := 0
    delivered := [] }

/-- The report, with the sorted samples its latency statistics are computed from.
From `crates/benchmark/src/lib.rs:35–38,41–54`. -/
structure BenchReport where
  latencies : List UInt64
  slotMiss : Nat
  symbolMiss : Nat
  packets : Nat
  bytes : Nat
  sequenceGaps : Nat
  latePackets : Nat
  simDurationNs : UInt64
  recoveryActions : Nat
  ringOccupancyPeak : Nat

/-- What a run ends with. The source returns the report and the metrics.
From `crates/benchmark/src/pipeline.rs:494`. -/
structure BenchResult where
  report : BenchReport
  metrics : MetricsEngine
  injector : FaultInjector
  final : BenchState

/-- The report and the metrics at the end of the loops.
From `crates/benchmark/src/pipeline.rs:456–494`. -/
def finish (injector : FaultInjector) (s : BenchState) : BenchResult :=
  { report :=
      { latencies := s.latencies.insertionSort (· ≤ ·)
        slotMiss := 0
        symbolMiss := s.symbolMiss
        packets := s.packets
        bytes := s.bytes
        sequenceGaps := s.transport.sequenceGaps
        latePackets := s.transport.latePackets
        simDurationNs := s.nowNs
        recoveryActions := (s.recovery.map (·.applied.length)).getD 0
        ringOccupancyPeak := s.ringPeak }
    metrics := MetricsEngine.recordDrop^[injector.dropped] s.metrics
    injector
    final := s }

/-- The loops of a run. -/
def loops (s : BenchState) : Except PipelineBenchError BenchResult := do
  let fpgas := (streamIds cfg).map fun s ↦ FpgaEmulator.new cfg.timing ⟨s⟩
  let (_, injector, s) ←
    symbolLoop cfg cfg.profile.symbolCount.toNat fpgas (.new cfg.fault) s
  let (injector, s) ← flushLoop cfg injector s
  pure (finish injector s)

/-- `PipelineBench::run`. From `crates/benchmark/src/pipeline.rs:115–495`. -/
def run : Except PipelineBenchError BenchResult :=
  if cfg.profile.gpuBackend.toLower = "cuda" then
    .error (.config "gpu_backend=cuda requires benchmark/cli `--features cuda`")
  else do
    let s ← start cfg
    if cfg.profile.symbolCount.toNat * cfg.streamCount * 8 ≥ 2 ^ 63 then .error .capacityOverflow
    else loops cfg s

end PipelineBench

end AetherRadio
