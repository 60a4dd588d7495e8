import AetherRadio.Bench.Conservation

/-!
# The traces of a run

All packets share one clock, and it does not run backwards while a packet is on its way. The stamps
of a packet's trace and its latency sample are read off that clock.
-/

namespace AetherRadio

open Verif

/-- The part of a run's state that the clock and the traces are read from. -/
structure Timeline where
  nowNs : UInt64
  checker : TimestampChecker
  nicCfg : NicDmaConfig
  ring : GpuRingBuffer
  tracer : TraceEngine
  latencies : List UInt64
  delivered : List Packet
  latePackets : Nat

/-- The timeline of a state. -/
def BenchState.timeline (self : BenchState) : Timeline :=
  { nowNs := self.nowNs
    checker := self.transport.ts
    nicCfg := self.nic.cfg
    ring := self.ring
    tracer := self.tracer
    latencies := self.latencies
    delivered := self.delivered
    latePackets := self.transport.latePackets }

namespace TraceEngine

/-- Start the trace of a packet. -/
def startPacket (self : TraceEngine) (packet : Packet) : TraceEngine × UInt64 :=
  self.start packet.streamId.val packet.sequence.val .fpgaTx packet.timestamp.val

/-- Start the trace of a packet and stamp its further stages. -/
def record (self : TraceEngine) (packet : Packet) (stages : List StageStamp) : TraceEngine :=
  (self.startPacket packet).1.stamps (self.startPacket packet).2 stages

end TraceEngine

namespace BenchConfig

/-- The clock when the card has received a packet. -/
def receivedNs (cfg : BenchConfig) (arriveNs : UInt64) : UInt64 :=
  if cfg.profile.includeNicDma then satAdd arriveNs cfg.nic.dmaLatencyNs else arriveNs

/-- The GPU runs a kernel on every packet. -/
def RunsKernel (cfg : BenchConfig) : Prop :=
  cfg.profile.includeGpuKernel = true ∧ 0 < cfg.gpuRing.slotCount

instance (cfg : BenchConfig) : Decidable cfg.RunsKernel := inferInstanceAs (Decidable (_ ∧ _))

/-- The latency of the GPU stage. -/
def kernelNs (cfg : BenchConfig) (nowNs : UInt64) : UInt64 :=
  if cfg.RunsKernel then satSub (satAdd nowNs cfg.gpuRing.kernelDelayNs) nowNs else 0

/-- The clock when a packet that has been received is done. -/
def doneNs (cfg : BenchConfig) (nowNs : UInt64) : UInt64 :=
  satAdd nowNs (satAdd (cfg.kernelNs nowNs) cfg.fault.kernelDelayNs)

/-- The stages of a packet that has arrived, up to its delivery. -/
def deliveredStages (cfg : BenchConfig) (arriveNs : UInt64) : List StageStamp :=
  let receivedNs := cfg.receivedNs arriveNs
  [⟨.cx5Rx, receivedNs⟩, ⟨.dmaDone, receivedNs⟩, ⟨.hostReady, receivedNs⟩,
    ⟨.gpuEnqueue, receivedNs⟩, ⟨.cudaDone, cfg.doneNs receivedNs⟩]

/-- The delays on a packet's way: the wire, the extra latency, the DMA when included, and the GPU
latency with the kernel delay that the faults add. -/
def delayNs (cfg : BenchConfig) (packet : Packet) : Nat :=
  (cfg.wireNs packet).toNat + cfg.fault.extraLatencyNs.toNat +
    (if cfg.profile.includeNicDma then cfg.nic.dmaLatencyNs.toNat else 0) +
    (if cfg.RunsKernel then cfg.gpuRing.kernelDelayNs.toNat else 0) +
    cfg.fault.kernelDelayNs.toNat

variable (cfg : BenchConfig) (nowNs : UInt64) (packet : Packet)

private theorem timestamp_le_arriveNs : packet.timestamp.val ≤ cfg.arriveNs nowNs packet := by
  have hmax : packet.timestamp.val ≤ max nowNs packet.timestamp.val := by
    rw [UInt64.le_iff_toNat_le, toNat_max]
    exact Nat.le_max_right ..
  exact UInt64.le_trans hmax (UInt64.le_trans (le_satAdd ..) (le_satAdd ..))

private theorem le_receivedNs : nowNs ≤ cfg.receivedNs nowNs := by
  unfold receivedNs
  by_cases hdma : cfg.profile.includeNicDma = true
  · rw [if_pos hdma]
    exact le_satAdd ..
  · rw [if_neg hdma]
    exact UInt64.le_refl _

variable {nowNs} {n : Nat}

private theorem toNat_receivedNs (h : nowNs.toNat = min n (2 ^ 64 - 1)) :
    (cfg.receivedNs nowNs).toNat =
      min (n + if cfg.profile.includeNicDma then cfg.nic.dmaLatencyNs.toNat else 0)
        (2 ^ 64 - 1) := by
  unfold receivedNs
  by_cases hdma : cfg.profile.includeNicDma = true
  · rw [if_pos hdma, if_pos hdma]
    exact toNat_satAdd_of_min h _
  · rw [if_neg hdma, if_neg hdma]
    exact h

private theorem toNat_doneNs (h : nowNs.toNat = min n (2 ^ 64 - 1)) :
    (cfg.doneNs nowNs).toNat =
      min (n + (if cfg.RunsKernel then cfg.gpuRing.kernelDelayNs.toNat else 0) +
        cfg.fault.kernelDelayNs.toNat) (2 ^ 64 - 1) := by
  unfold doneNs kernelNs
  by_cases hkernel : cfg.RunsKernel
  · rw [if_pos hkernel, if_pos hkernel, satAdd_satSub]
    exact toNat_satAdd_of_min (toNat_satAdd_of_min h _) _
  · rw [if_neg hkernel, if_neg hkernel, toNat_satAdd_of_min h, toNat_satAdd]
    have hfault := cfg.fault.kernelDelayNs.toNat_lt
    rw [UInt64.toNat_zero]
    omega

variable (nowNs)

/-- A delivered packet is done once all its delays have passed since it could leave, unless the
clock has come to its end. -/
theorem toNat_deliveredNs :
    (cfg.doneNs (cfg.receivedNs (cfg.arriveNs nowNs packet))).toNat =
      min (max nowNs.toNat packet.timestamp.val.toNat + cfg.delayNs packet) (2 ^ 64 - 1) := by
  have hsent : (max nowNs packet.timestamp.val).toNat =
      min (max nowNs.toNat packet.timestamp.val.toNat) (2 ^ 64 - 1) := by
    have hnow := nowNs.toNat_lt
    have htimestamp := packet.timestamp.val.toNat_lt
    rw [toNat_max]
    omega
  have harrive := toNat_satAdd_of_min (toNat_satAdd_of_min hsent (cfg.wireNs packet))
    cfg.fault.extraLatencyNs
  have hreceived := cfg.toNat_receivedNs harrive
  have hdone := cfg.toNat_doneNs hreceived
  simpa only [arriveNs, delayNs, Nat.add_assoc] using hdone

end BenchConfig

/-- The ring between two packets. -/
structure GpuRingBuffer.Waits (cfg : GpuRingConfig) (ring : GpuRingBuffer) : Prop where
  idle : ring.Idle
  slotCount : ring.slotCount = cfg.slotCount
  kernelDelayNs : ring.kernelDelayNs = cfg.kernelDelayNs

namespace GpuRingBuffer

theorem waits_new (cfg : GpuRingConfig) : (new cfg).Waits cfg where
  idle := idle_new cfg
  slotCount := List.length_replicate
  kernelDelayNs := rfl

/-- One life cycle of a slot takes the kernel delay, and the ring waits again. -/
theorem Waits.cycle {cfg : GpuRingConfig} {ring ring₁ ring₂ ring₃ ring₄ ring₅ : GpuRingBuffer}
    (h : ring.Waits cfg) {idx idx' : Nat} {nowNs doneAt latency : UInt64} {data : List UInt8}
    (hbegin : ring.beginReceive nowNs = (ring₁, .ok idx))
    (hreceive : ring₁.completeReceive idx data = (ring₂, .ok ()))
    (hprocess : ring₂.beginProcess nowNs = (ring₃, .ok (idx', doneAt)))
    (hcomplete : ring₃.completeProcess idx' doneAt = (ring₄, .ok latency))
    (hrelease : ring₄.release idx' = (ring₅, .ok ())) :
    latency = satSub (satAdd nowNs cfg.kernelDelayNs) nowNs ∧ 0 < cfg.slotCount ∧
      ring₅.Waits cfg := by
  obtain ⟨hlatency, hslots, hidle, hcount, hdelay⟩ :=
    h.idle.cycle hbegin hreceive hprocess hcomplete hrelease
  rw [h.slotCount] at hslots hcount
  rw [h.kernelDelayNs] at hlatency hdelay
  exact ⟨hlatency, hslots, hidle, hcount, hdelay⟩

/-- Only a ring without slots is full when it waits. -/
theorem Waits.full {cfg : GpuRingConfig} {ring ring' : GpuRingBuffer} (h : ring.Waits cfg)
    {nowNs : UInt64} (hfull : ring.beginReceive nowNs = (ring', .error .ringFull)) :
    ring'.Waits cfg ∧ ¬ 0 < cfg.slotCount := by
  obtain ⟨heq, -, hslots⟩ := h.idle.beginReceive_error hfull
  rw [heq, ← h.slotCount, hslots]
  exact ⟨h, Nat.lt_irrefl 0⟩

end GpuRingBuffer

namespace Timeline

variable (cfg : BenchConfig) (self : Timeline) (tid : UInt64) (packet : Packet)

/-- A packet has crossed the wire. -/
def depart : Timeline :=
  { self with
    nowNs := cfg.arriveNs self.nowNs packet
    tracer := self.tracer.record packet [⟨.wireDepart, cfg.arriveNs self.nowNs packet⟩] }

/-- The card has received a packet. -/
def submit : Timeline :=
  { self with
    nowNs := cfg.receivedNs self.nowNs
    tracer := self.tracer.stamps tid
      [⟨.cx5Rx, cfg.receivedNs self.nowNs⟩, ⟨.dmaDone, cfg.receivedNs self.nowNs⟩] }

/-- The GPU is done with a packet, and the sample is taken. -/
def measure (gpuLatency : UInt64) : Timeline :=
  let doneNs := satAdd self.nowNs (satAdd gpuLatency cfg.fault.kernelDelayNs)
  { self with
    nowNs := doneNs
    tracer := self.tracer.stamps tid [⟨.cudaDone, doneNs⟩]
    latencies := self.latencies ++ [satSub doneNs packet.timestamp.val] }

/-- A packet goes from the card to the GPU and through it. -/
def deliver (ring : GpuRingBuffer) : Timeline :=
  { self with
    ring
    tracer := self.tracer.stamps tid [⟨.hostReady, self.nowNs⟩, ⟨.gpuEnqueue, self.nowNs⟩]
    delivered := self.delivered ++ [packet] }.measure cfg tid packet (cfg.kernelNs self.nowNs)

end Timeline

namespace PipelineBench

variable {cfg : BenchConfig} {s s' : BenchState} {packet : Packet} {tid : UInt64}

/-- The receive path does not touch the timeline, except that it counts the late packets. -/
theorem IngestStep.timeline {through : Bool} (h : IngestStep s s' packet through) :
    s'.timeline = { s.timeline with
      latePackets := s.transport.latePackets + (!through).toNat } := by
  cases h with
  | late _ heq => rw [heq]; rfl
  | inOrder _ _ heq => rw [heq]; rfl
  | recovered _ _ heq => rw [heq]; rfl

/-- The card moves the clock to the end of the DMA. -/
private theorem submitRx_timeline (hnic : s.nic.cfg = cfg.nic)
    (h : submitRx cfg s packet = .ok s') :
    s'.timeline = { s.timeline with nowNs := cfg.receivedNs s.nowNs } := by
  unfold submitRx at h
  dsimp only at h
  by_cases hdma : cfg.profile.includeNicDma = true
  · rw [if_pos hdma, bind_eq_ok] at h
    obtain ⟨⟨nic, _⟩, hsubmit, hs'⟩ := h
    have hcfg : nic.cfg = s.nic.cfg := by
      have hkept := (s.nic.advanceTime s.nowNs).submitRx_cfg packet
      rwa [orFail_eq_ok.mp hsubmit] at hkept
    cases hs'
    rw [BenchConfig.receivedNs, if_pos hdma, ← hnic, ← hcfg]
    exact congrArg (fun nicCfg ↦ { s.timeline with
      nowNs := satAdd s.nowNs nic.cfg.dmaLatencyNs, nicCfg }) hcfg
  · rw [if_neg hdma, bind_eq_ok] at h
    obtain ⟨⟨nic, _⟩, hsubmit, hs'⟩ := h
    have hcfg : nic.cfg = s.nic.cfg := by
      have hkept := (s.nic.advanceTime s.nowNs).submitRxReadyAt_cfg packet s.nowNs
      rwa [orFail_eq_ok.mp hsubmit] at hkept
    cases hs'
    rw [BenchConfig.receivedNs, if_neg hdma]
    exact congrArg (fun nicCfg ↦ { s.timeline with nicCfg }) hcfg

/-- The card's part of the way is stamped with the clock after it. -/
theorem submit_timeline (h : submit cfg s tid packet = .ok s') (hnic : s.nic.cfg = cfg.nic) :
    s'.timeline = s.timeline.submit cfg tid := by
  rw [submit, bind_eq_ok] at h
  obtain ⟨s₁, hsubmit, hs'⟩ := h
  have hs₁ := submitRx_timeline hnic hsubmit
  cases hs'
  show ({ s₁.timeline with
    tracer := s₁.timeline.tracer.stamps tid
      [⟨.cx5Rx, s₁.timeline.nowNs⟩, ⟨.dmaDone, s₁.timeline.nowNs⟩] } : Timeline) = _
  rw [hs₁]
  rfl

/-- The GPU stage answers with the kernel's latency and leaves the ring as it found it. -/
theorem gpuStage_timeline {payload : List UInt8} {latency : UInt64}
    (h : gpuStage cfg s payload = .ok (s', latency)) (hring : s.ring.Waits cfg.gpuRing) :
    latency = cfg.kernelNs s.nowNs ∧
      ∃ ring, ring.Waits cfg.gpuRing ∧ s'.timeline = { s.timeline with ring } := by
  unfold gpuStage at h
  by_cases hgpu : cfg.profile.includeGpuKernel = true
  · rw [if_pos hgpu] at h
    unfold gpuKernel at h
    split at h
    · next ring idx hreceive =>
      simp only [bind_eq_ok] at h
      obtain ⟨⟨ring₁, _⟩, hcomplete, ⟨ring₂, idx₂, doneAt⟩, hbegin, ⟨ring₃, lat⟩, hprocessed,
        ⟨ring₄, _⟩, hrelease, hs'⟩ := h
      obtain ⟨hlatency, hslots, hwaits⟩ := hring.cycle hreceive (orFail_eq_ok.mp hcomplete)
        (orFail_eq_ok.mp hbegin) (orFail_eq_ok.mp hprocessed) (orFail_eq_ok.mp hrelease)
      cases hs'
      have hruns : cfg.RunsKernel := ⟨hgpu, hslots⟩
      exact ⟨hlatency.trans (if_pos hruns).symm, ring₄, hwaits, rfl⟩
    · next ring hreceive =>
      cases h
      obtain ⟨hwaits, hslots⟩ := hring.full hreceive
      have hruns : ¬ cfg.RunsKernel := fun hruns ↦ hslots hruns.2
      exact ⟨(if_neg hruns).symm, ring, hwaits, rfl⟩
    · cases h
  · rw [if_neg hgpu] at h
    cases h
    have hruns : ¬ cfg.RunsKernel := by
      intro hruns
      exact hgpu hruns.1
    exact ⟨(if_neg hruns).symm, s.ring, hring, rfl⟩

/-- The measurements move the clock to the end of the kernel and take the sample there. -/
private theorem measure_timeline (s : BenchState) (gpuLatency : UInt64) :
    (measure cfg tid packet s gpuLatency).timeline =
      s.timeline.measure cfg tid packet gpuLatency := by
  unfold measure checkBudget
  dsimp only
  split <;> rfl

/-- The delivery of one packet. -/
private theorem deliver_timeline (h : deliver cfg tid s packet = .ok s')
    (hring : s.ring.Waits cfg.gpuRing) :
    ∃ ring, ring.Waits cfg.gpuRing ∧ s'.timeline = s.timeline.deliver cfg tid packet ring := by
  rw [deliver, bind_eq_ok] at h
  obtain ⟨⟨s₁, gpuLatency⟩, hgpu, hs'⟩ := h
  obtain ⟨hlatency, ring, hwaits, hs₁⟩ := gpuStage_timeline hgpu hring
  cases hs'
  refine ⟨ring, hwaits, ?_⟩
  rw [measure_timeline, hlatency, hs₁]
  rfl

/-- The packet in the inbox goes through the card to the delivery. -/
private theorem forward_timeline (h : forward cfg s tid = .ok s')
    (hinbox : s.transport.inbox = [packet])
    (hidle : s.nic.Idle) (hnic : s.nic.cfg = cfg.nic) (hring : s.ring.Waits cfg.gpuRing) :
    ∃ ring, ring.Waits cfg.gpuRing ∧
      s'.timeline = (s.timeline.submit cfg tid).deliver cfg tid packet ring := by
  obtain ⟨s₁, hsubmit, hdeliver⟩ := forward_eq_ok h hinbox hidle
  have hs₁ := submit_timeline hsubmit hnic
  have hring₁ : s₁.ring = s.ring := congrArg (·.ring) hs₁
  obtain ⟨ring, hwaits, hs'⟩ := deliver_timeline hdeliver (hring₁.symm ▸ hring)
  refine ⟨ring, hwaits, ?_⟩
  rw [hs']
  exact congrArg (·.deliver cfg tid packet ring) hs₁

/-- What one packet does to the timeline. -/
inductive Journey (cfg : BenchConfig) (packet : Packet) (t t' : Timeline) : Prop where
  | late (time : t.checker.Late packet (cfg.arriveNs t.nowNs packet))
      (eq : t' = { t.depart cfg packet with latePackets := t.latePackets + 1 })
  | delivered (ring : GpuRingBuffer) (waits : ring.Waits cfg.gpuRing)
      (time : ¬ t.checker.Late packet (cfg.arriveNs t.nowNs packet))
      (eq : t' = ((t.depart cfg packet).submit cfg (t.tracer.startPacket packet).2).deliver cfg
        (t.tracer.startPacket packet).2 packet ring)

/-- `process_one` takes a packet on its journey. -/
theorem processOne_journey (h : processOne cfg s packet = .ok s') (hquiet : Quiet s)
    (hnic : s.nic.cfg = cfg.nic) (hring : s.ring.Waits cfg.gpuRing) :
    Journey cfg packet s.timeline s'.timeline := by
  rw [processOne] at h
  simp only [bind_eq_ok] at h
  obtain ⟨⟨s₁, through⟩, hingest, h⟩ := h
  have hstep := ingestOrRecover_step hingest
  have hs₁ := hstep.timeline
  cases through with
  | false =>
    cases h
    cases hstep with
    | late time eq => exact .late time hs₁
  | true =>
    have htime : ¬ s.transport.ts.Late packet (cfg.arriveNs s.nowNs packet) := by
      cases hstep with
      | inOrder time => exact time
      | recovered time => exact time
    obtain ⟨hinbox, hidle⟩ := hstep.alone hquiet.inbox hquiet.nic
    have hcfg : s₁.nic.cfg = cfg.nic := by
      rw [hstep.queued.2]
      exact hnic
    have hring₁ : s₁.ring = s.ring := congrArg (·.ring) hs₁
    obtain ⟨ring, hwaits, hs'⟩ := forward_timeline h hinbox hidle hcfg (hring₁.symm ▸ hring)
    refine .delivered ring hwaits htime ?_
    rw [hs', hs₁]
    rfl

/-- A packet, its trace, and its latency sample if it was delivered. -/
structure PacketRecord where
  packet : Packet
  trace : PacketTrace
  sample : Option UInt64

/-- The trace of a packet and its latency sample tell the same story. -/
structure Told (cfg : BenchConfig) (record : PacketRecord) : Prop where
  streamId : record.trace.streamId = record.packet.streamId.val
  sequence : record.trace.sequence = record.packet.sequence.val
  ascending : (record.trace.stages.map (·.timeNs)).Pairwise (· ≤ ·)
  departed : ∃ departNs rest,
    record.trace.stages =
      ⟨.fpgaTx, record.packet.timestamp.val⟩ :: ⟨.wireDepart, departNs⟩ :: rest ∧
    (record.sample = none ↔
      (TimestampChecker.fromConfig cfg.deadline).Late record.packet departNs) ∧
    (record.sample = none → rest = [])
  delivered : ∀ e2e, record.sample = some e2e → ∃ front doneNs,
    record.trace.stages = front ++ [⟨.cudaDone, doneNs⟩] ∧
    doneNs.toNat = record.packet.timestamp.val.toNat + e2e.toNat ∧
    (cfg.delayNs record.packet ≤ e2e.toNat ∨
      doneNs.toNat = 2 ^ 64 - 1 ∧
        2 ^ 64 ≤ record.packet.timestamp.val.toNat + cfg.delayNs record.packet)

variable (cfg packet) (traceId nowNs : UInt64)

/-- The record of a packet that was late. -/
def lateRecord : PacketRecord :=
  { packet
    trace := ⟨traceId, packet.streamId.val, packet.sequence.val,
      [⟨.fpgaTx, packet.timestamp.val⟩, ⟨.wireDepart, cfg.arriveNs nowNs packet⟩]⟩
    sample := none }

/-- The record of a packet that was delivered. -/
def deliveredRecord : PacketRecord :=
  { packet
    trace := ⟨traceId, packet.streamId.val, packet.sequence.val,
      ⟨.fpgaTx, packet.timestamp.val⟩ :: ⟨.wireDepart, cfg.arriveNs nowNs packet⟩ ::
        cfg.deliveredStages (cfg.arriveNs nowNs packet)⟩
    sample := some
      (satSub (cfg.doneNs (cfg.receivedNs (cfg.arriveNs nowNs packet))) packet.timestamp.val) }

variable {cfg packet nowNs}

private theorem told_late
    (h : (TimestampChecker.fromConfig cfg.deadline).Late packet (cfg.arriveNs nowNs packet)) :
    Told cfg (lateRecord cfg packet traceId nowNs) := by
  constructor
  · rfl
  · rfl
  · apply List.isChain_iff_pairwise.mp
    simpa [lateRecord] using cfg.timestamp_le_arriveNs nowNs packet
  · exact ⟨_, [], rfl, iff_of_true rfl h, fun _ ↦ rfl⟩
  · intro e2e he2e
    cases he2e

private theorem told_delivered
    (h : ¬ (TimestampChecker.fromConfig cfg.deadline).Late packet (cfg.arriveNs nowNs packet)) :
    Told cfg (deliveredRecord cfg packet traceId nowNs) := by
  have harrive := cfg.timestamp_le_arriveNs nowNs packet
  have hreceived := cfg.le_receivedNs (cfg.arriveNs nowNs packet)
  have hdone : cfg.receivedNs (cfg.arriveNs nowNs packet) ≤
      cfg.doneNs (cfg.receivedNs (cfg.arriveNs nowNs packet)) := le_satAdd ..
  constructor
  · rfl
  · rfl
  · apply List.isChain_iff_pairwise.mp
    simp [deliveredRecord, BenchConfig.deliveredStages, harrive, hreceived, hdone]
  · refine ⟨_, _, rfl, iff_of_false ?_ h, ?_⟩
    · intro hnone
      cases hnone
    · intro hnone
      cases hnone
  · intro e2e he2e
    cases he2e
    have hclock := cfg.toNat_deliveredNs nowNs packet
    have hlt := packet.timestamp.val.toNat_lt
    refine ⟨⟨.fpgaTx, packet.timestamp.val⟩ :: ⟨.wireDepart, cfg.arriveNs nowNs packet⟩ ::
      (cfg.deliveredStages (cfg.arriveNs nowNs packet)).dropLast, _, rfl, ?_, ?_⟩
    · rw [toNat_satSub]
      dsimp only [deliveredRecord]
      omega
    · rw [toNat_satSub]
      dsimp only [deliveredRecord]
      omega

/-- The timeline after a run, and a record of every packet it has processed. -/
structure Recorded (cfg : BenchConfig) (records : List PacketRecord) (t : Timeline) : Prop where
  checker : t.checker = .fromConfig cfg.deadline
  nicCfg : t.nicCfg = cfg.nic
  ring : t.ring.Waits cfg.gpuRing
  capacity : t.tracer.capacity = max cfg.traceCapacity 1
  keeps : t.tracer.Keeps (records.map (·.trace))
  latencies : t.latencies = records.filterMap (·.sample)
  delivered : t.delivered = (records.filter (·.sample.isSome)).map (·.packet)
  latePackets : t.latePackets = records.countP (·.sample.isNone)
  told : ∀ record ∈ records, Told cfg record

private theorem start_recorded (h : start cfg = .ok s) (htrace : cfg.traceEnabled = true) :
    Recorded cfg [] s.timeline := by
  rw [start, bind_eq_ok] at h
  obtain ⟨t, hsetup, hs⟩ := h
  obtain ⟨heq, -⟩ := setupStreams_step hsetup
  cases hs
  constructor
  · exact congrArg (·.ts) heq
  · rfl
  · exact GpuRingBuffer.waits_new cfg.gpuRing
  · rfl
  · dsimp only [BenchState.timeline]
    rw [htrace]
    exact TraceEngine.keeps_fromConfig cfg.traceCapacity
  · rfl
  · rfl
  · exact congrArg (·.latePackets) heq
  · intro record hrecord
    cases hrecord

/-- A timeline that has moved on by one record. -/
theorem Recorded.add {records : List PacketRecord} {t t' : Timeline} (h : Recorded cfg records t)
    (hroom : records.length + 1 < 2 ^ 64) {record : PacketRecord} (told : Told cfg record)
    (stages : List StageStamp) (checker : t'.checker = t.checker) (nicCfg : t'.nicCfg = t.nicCfg)
    (ring : t'.ring.Waits cfg.gpuRing)
    (tracer : t'.tracer = t.tracer.record record.packet stages)
    (trace : record.trace =
      ⟨t.tracer.nextId, record.packet.streamId.val, record.packet.sequence.val,
        ⟨.fpgaTx, record.packet.timestamp.val⟩ :: stages⟩)
    (latencies : t'.latencies = t.latencies ++ [record].filterMap (·.sample))
    (delivered : t'.delivered =
      t.delivered ++ ([record].filter (·.sample.isSome)).map (·.packet))
    (latePackets : t'.latePackets = t.latePackets + [record].countP (·.sample.isNone)) :
    Recorded cfg (records ++ [record]) t' := by
  have hlength : (records.map (·.trace)).length + 1 < 2 ^ 64 := by rwa [List.length_map]
  obtain ⟨hcapacity, hkeeps⟩ := h.keeps.start_stamps hlength record.packet.streamId.val
    record.packet.sequence.val .fpgaTx record.packet.timestamp.val stages
  constructor
  · exact checker.trans h.checker
  · exact nicCfg.trans h.nicCfg
  · exact ring
  · rw [tracer]
    exact hcapacity.trans h.capacity
  · rw [tracer, List.map_append, List.map_singleton, trace]
    exact hkeeps
  · rw [latencies, List.filterMap_append, h.latencies]
  · rw [delivered, List.filter_append, List.map_append, h.delivered]
  · rw [latePackets, List.countP_append, h.latePackets]
  · intro r hr
    rcases List.mem_append.mp hr with hold | hnew
    · exact h.told r hold
    · rw [List.mem_singleton.mp hnew]
      exact told

/-- Every packet adds its record. -/
theorem Recorded.step {records : List PacketRecord} {t t' : Timeline}
    (h : Recorded cfg records t) (hroom : records.length + 1 < 2 ^ 64)
    (hjourney : Journey cfg packet t t') :
    ∃ record, record.packet = packet ∧ Recorded cfg (records ++ [record]) t' := by
  cases hjourney with
  | late time eq =>
    rw [h.checker] at time
    subst eq
    refine ⟨lateRecord cfg packet t.tracer.nextId t.nowNs, rfl, ?_⟩
    apply h.add hroom (told_late _ time) [⟨.wireDepart, cfg.arriveNs t.nowNs packet⟩]
    · rfl
    · rfl
    · exact h.ring
    · rfl
    · rfl
    · exact (List.append_nil _).symm
    · exact (List.append_nil _).symm
    · rfl
  | delivered ring waits time eq =>
    rw [h.checker] at time
    subst eq
    refine ⟨deliveredRecord cfg packet t.tracer.nextId t.nowNs, rfl, ?_⟩
    apply h.add hroom (told_delivered _ time) (⟨.wireDepart, cfg.arriveNs t.nowNs packet⟩ ::
      cfg.deliveredStages (cfg.arriveNs t.nowNs packet))
    · rfl
    · rfl
    · exact waits
    · rfl
    · rfl
    · rfl
    · rfl
    · rfl

/-- Every packet of a run has its record. -/
theorem recorded_of_run {s₀ : BenchState} (hstart : start cfg = .ok s₀)
    (htrace : cfg.traceEnabled = true)
    (hsize : cfg.profile.symbolCount.toNat * cfg.streamCount * 8 < 2 ^ 63)
    (hrun : (offered cfg).foldlM (processOne cfg) s₀ = .ok s) :
    ∃ records, records.map (·.packet) = offered cfg ∧ Recorded cfg records s.timeline := by
  have hoffered := length_offered cfg
  refine (foldlM_invariant (P := fun seen s ↦ Quiet s ∧ ∃ records : List PacketRecord,
    records.map (·.packet) = seen ∧ Recorded cfg records s.timeline) hrun
    ⟨(start_balanced hstart).1, [], rfl, start_recorded hstart htrace⟩ ?_).2
  rintro pre packet post s₁ s₂ hsplit ⟨hquiet, records, hpackets, hrecorded⟩ hprocess
  have hlength := congrArg List.length hsplit
  have hcount := congrArg List.length hpackets
  rw [List.length_append] at hlength
  rw [List.length_map] at hcount
  obtain ⟨record, hpacket, hnext⟩ := hrecorded.step (by omega)
    (processOne_journey hprocess hquiet hrecorded.nicCfg hrecorded.ring)
  refine ⟨hquiet.step hprocess, records ++ [record], ?_, hnext⟩
  rw [List.map_append, hpackets, List.map_singleton, hpacket]

/-- For every run with tracing that succeeds there is a record of every packet offered to the
receive path. The newest traces of the records are resident, the samples are the run's latencies,
and the packets with a sample are the delivered ones. Every record's stamps ascend; a packet without
a sample was late when it had crossed the wire, and its trace ends there; the trace of a packet with
a sample ends when it was done, the sample after it was sent, and the sample covers all the delays
on the way unless the clock has come to its end. -/
theorem traces_tell_latencies (cfg : BenchConfig) (r : BenchResult) (hrun : run cfg = .ok r)
    (htrace : cfg.traceEnabled = true) :
    ∃ records : List PacketRecord,
      records.map (·.packet) = offered cfg ∧
      r.final.tracer.traces = (records.map (·.trace)).rtake (max cfg.traceCapacity 1) ∧
      r.final.latencies = records.filterMap (·.sample) ∧
      r.final.delivered = (records.filter (·.sample.isSome)).map (·.packet) ∧
      r.report.latePackets = records.countP (·.sample.isNone) ∧
      ∀ record ∈ records, Told cfg record := by
  obtain ⟨-, hsize, s₀, s, hstart, hfold, rfl⟩ := (run_eq_ok cfg).mp hrun
  obtain ⟨records, hpackets, hrecorded⟩ := recorded_of_run hstart htrace hsize hfold
  refine ⟨records, hpackets, ?_, hrecorded.latencies, hrecorded.delivered, hrecorded.latePackets,
    hrecorded.told⟩
  have htraces := hrecorded.keeps.traces
  rwa [hrecorded.capacity] at htraces

/-- The lossy bench with tracing. -/
def tracedBench : BenchConfig := { lossyBench with traceEnabled := true, traceCapacity := 2 }

/-- The traced run delivers two packets and keeps two of its three traces. -/
theorem traces_tell_latencies_lossy : ∃ r, run tracedBench = .ok r ∧
    (r.final.latencies.length = 2 ∧ r.final.tracer.traces.length = 2) ∧
    ∃ records : List PacketRecord,
      r.final.tracer.traces = (records.map (·.trace)).rtake 2 ∧
      r.final.latencies = records.filterMap (·.sample) ∧
      ∀ record ∈ records, Told tracedBench record := by
  obtain ⟨r, hrun, hr⟩ := exists_run tracedBench
    (fun r ↦ decide (r.final.latencies.length = 2 ∧ r.final.tracer.traces.length = 2))
    lossyBench_gpuBackend (by decide) (by rfl)
  obtain ⟨records, -, htraces, hlatencies, -, -, htold⟩ :=
    traces_tell_latencies tracedBench r hrun rfl
  exact ⟨r, hrun, of_decide_eq_true hr, records, htraces, hlatencies, htold⟩

end PipelineBench

end AetherRadio
