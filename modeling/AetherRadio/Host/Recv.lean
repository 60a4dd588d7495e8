import AetherRadio.Bench.Pipeline

/-!
# Host receiver

`run_host_recv` of `crates/cli/src/main.rs` with the simulation GPU: packets that arrive in bursts
go through the checked receive path, the card and the GPU ring until enough are accepted or the
time is over. The bursts polled within the time are the input; the event log is left out.
-/

namespace AetherRadio

open Verif

/-- What the receiver is started with, as parsed. From `crates/cli/src/main.rs:927–1009`. -/
structure HostConfig where
  streamId : StreamId
  symbols : UInt64
  deadline : TransportDeadlineConfig
  nic : NicDmaConfig
  gpuRing : GpuRingConfig
  recoveryPolicy : Option RecoveryPolicy

/-- The variables of the receiver. From `crates/cli/src/main.rs:927–961,1016–1017`. -/
structure HostState where
  nowNs : UInt64
  metrics : MetricsEngine
  transport : SimTransportEngine
  nic : Cx5Nic
  ring : GpuRingBuffer
  recovery : Option RecoveryExecutor
  accepted : Nat

/-- Apply the policy, if there is one. From `crates/cli/src/main.rs:1036–1038`. -/
def HostState.applyRecovery (self : HostState) (faultClass : String) : HostState :=
  { self with recovery := self.recovery.map fun ex ↦ (ex.apply faultClass).1 }

/-- What the receiver prints at the end; it fails when `timedOut`.
From `crates/cli/src/main.rs:1141–1154`. -/
structure HostResult where
  accepted : Nat
  sequenceGaps : Nat
  latePackets : Nat
  metrics : MetricsEngine
  timedOut : Bool

namespace HostRecv

variable (cfg : HostConfig)

/-- The state before the first burst. From `crates/cli/src/main.rs:927–961,1016–1017`. -/
def start : Except RuntimeError HostState := do
  let (transport, _) ← orFail .transport (SimTransportEngine.new cfg.deadline).linkUp
  let (transport, _) ← orFail .transport (transport.createStream
    { streamId := cfg.streamId, carrier := 0, antenna := 0, qos := 0, deadlineNs := 50_000_000 })
  let (transport, _) ← orFail .transport (transport.startStream cfg.streamId)
  let ring := GpuRingBuffer.new cfg.gpuRing
  pure {
    nowNs := 0
    metrics := (MetricsEngine.new.setLinkUp true).setMemoryBuffers 0
      (ring.slotCount * ring.slotBytes)
    transport
    nic := .new cfg.nic
    ring
    recovery := cfg.recoveryPolicy.map .new
    accepted := 0 }

/-- The receive time of a packet: a millisecond after its timestamp.
From `crates/cli/src/main.rs:1032`. -/
def receiveNs (pkt : Packet) : UInt64 := satAdd pkt.timestamp.val 1_000_000

/-- The checked receive path with recovery after a gap; answers whether the packet got through.
Packets that are refused for any reason are skipped. From `crates/cli/src/main.rs:1032–1065`. -/
def ingestOrRecover (s : HostState) (pkt : Packet) : HostState × Bool :=
  match s.transport.ingest pkt with
  | (transport, .ok ()) => ({ s with transport }, true)
  | (transport, .error (.sequenceGap _ got)) =>
    let s := { s with transport }.applyRecovery "sequence_gap"
    let transport := s.transport.recoverSequence cfg.streamId got
    let s := { s with metrics := s.metrics.recordSequenceGap }
    match transport.ingest pkt with
    | (transport, .ok ()) => ({ s with transport }, true)
    | (transport, .error _) => ({ s with transport }, false)
  | (transport, .error (.latePacket _ _)) =>
    let s := { s with transport }.applyRecovery "late_packet"
    ({ s with metrics := s.metrics.recordDeadlineMiss.recordLatePacket }, false)
  | (transport, .error _) => ({ s with transport }, false)

/-- Up to the packet that `receive` returns. From `crates/cli/src/main.rs:1032–1066`. -/
def receiveOne (s : HostState) (pkt : Packet) :
    HostState × Except TransportError (Option Packet) :=
  match ingestOrRecover cfg { s with transport.nowNs := receiveNs pkt } pkt with
  | (s, false) => (s, .ok none)
  | (s, true) =>
    let (transport, received) := s.transport.receive
    ({ s with transport }, received)

/-- One life cycle of a ring slot, or a full ring. From `crates/cli/src/main.rs:1101–1118`. -/
def gpuKernel (s : HostState) (payload : List UInt8) : Except RuntimeError HostState :=
  match s.ring.beginReceive s.nowNs with
  | (ring, .ok idx) => do
    let s := { s with metrics := s.metrics.setRingOccupancy ring.occupied }
    let (ring, _) ← orFail .gpu (ring.completeReceive idx payload)
    let (ring, idx, doneAt) ← orFail .gpu (ring.beginProcess s.nowNs)
    let (ring, lat) ← orFail .gpu (ring.completeProcess idx doneAt)
    let (ring, _) ← orFail .gpu (ring.release idx)
    pure { s with ring, metrics := s.metrics.recordKernelNs lat, nowNs := satAdd s.nowNs lat }
  | (ring, .error .ringFull) =>
    .ok ({ s with ring, metrics := s.metrics.recordBufferFull }.applyRecovery "buffer_overflow")
  | (_, .error e) => .error (.gpu e)

/-- The delivery of one packet. From `crates/cli/src/main.rs:1072–1130`. -/
def deliver (s : HostState) (delivered : Packet) : Except RuntimeError HostState := do
  let metrics := s.metrics.recordRx.recordRxBytes delivered.payload.length
  let s ← gpuKernel { s with metrics } delivered.payload
  let e2e := satSub s.nowNs delivered.timestamp.val
  pure { s with
    metrics := (s.metrics.recordLatencySample e2e).recordTx
    accepted := s.accepted + 1 }

/-- The loop over a card burst ends early once enough packets are accepted.
From `crates/cli/src/main.rs:1071–1134`. -/
def deliverLoop : List Packet → HostState → Except RuntimeError HostState
  | [], s => pure s
  | delivered :: burst, s => do
    let s ← deliver s delivered
    if s.accepted ≥ cfg.symbols.toNat then pure s else deliverLoop burst s

/-- A received packet goes through the card. From `crates/cli/src/main.rs:1067–1134`. -/
def forward (s : HostState) (ingested : Packet) : Except RuntimeError HostState := do
  let (nic, _) ← orFail .nic ((s.nic.advanceTime s.nowNs).submitRx ingested)
  let nowNs := satAdd s.nowNs nic.cfg.dmaLatencyNs
  let (nic, burst) := (nic.advanceTime nowNs).rxBurst 32
  deliverLoop cfg burst { s with nowNs, nic }

/-- The loop body for one packet. From `crates/cli/src/main.rs:1031–1136`. -/
def processPacket (s : HostState) (pkt : Packet) : Except RuntimeError HostState := do
  let (s, received) ← orFail .transport (receiveOne cfg s pkt)
  match received with
  | none => pure s
  | some ingested => forward cfg s ingested

/-- A burst is always processed to its end; further bursts are taken until enough packets are
accepted. From `crates/cli/src/main.rs:1021–1138`. -/
def recvLoop : List (List Packet) → HostState → Except RuntimeError HostState
  | [], s => pure s
  | burst :: bursts, s =>
    if s.accepted < cfg.symbols.toNat then do
      let s ← burst.foldlM (processPacket cfg) s
      recvLoop bursts s
    else pure s

/-- `run_host_recv`. From `crates/cli/src/main.rs:901–1156`. -/
def run (bursts : List (List Packet)) : Except RuntimeError HostResult := do
  let s ← start cfg
  let s ← recvLoop cfg bursts s
  pure {
    accepted := s.accepted
    sequenceGaps := s.transport.sequenceGaps
    latePackets := s.transport.latePackets
    metrics := s.metrics
    timedOut := s.accepted < cfg.symbols.toNat }

end HostRecv

end AetherRadio
