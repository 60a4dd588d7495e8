import AetherRadio.Bench.Pipeline
import AetherRadio.Transport.Ingest

/-!
# What one packet does to a bench run

`process_one` stage by stage. When the inbox and the card are idle before the packet, they are
idle after it, and the packet has either been counted as late or has gone all the way through.
-/

namespace AetherRadio

open Verif

namespace BenchState

/-- How many recovery actions were applied, when there is a policy. -/
def applied (self : BenchState) : Option Nat := self.recovery.map (·.applied.length)

@[simp] theorem applied_applyRecovery (self : BenchState) (faultClass : String) :
    (self.applyRecovery faultClass).applied = self.applied.map (· + 1) := by
  unfold applied applyRecovery
  cases self.recovery with
  | none => rfl
  | some ex => simp [RecoveryExecutor.apply]

end BenchState

namespace PipelineBench

variable {cfg : BenchConfig} {s s' : BenchState} {packet : Packet}

/-- How the receive path can end when it does not fail. -/
inductive IngestStep (s s' : BenchState) (packet : Packet) : Bool → Prop where
  | late (time : s.transport.ts.Late packet s.transport.nowNs)
      (eq : s' = { s.applyRecovery "late_packet" with
        transport := { s.transport with latePackets := s.transport.latePackets + 1 }
        metrics := s.metrics.recordDeadlineMiss.recordLatePacket }) : IngestStep s s' packet false
  | inOrder (time : ¬ s.transport.ts.Late packet s.transport.nowNs)
      (seq : packet.sequence.val = s.transport.seq.expected packet.streamId)
      (eq : s' = { s with
        transport := { s.transport with
          seq := s.transport.seq.afterAccept packet
          inbox := s.transport.inbox ++ [packet] } }) : IngestStep s s' packet true
  | recovered (time : ¬ s.transport.ts.Late packet s.transport.nowNs)
      (seq : packet.sequence.val ≠ s.transport.seq.expected packet.streamId)
      (eq : s' = { s.applyRecovery "sequence_gap" with
        transport := { s.transport with
          seq := s.transport.seq.afterAccept packet
          inbox := s.transport.inbox ++ [packet]
          sequenceGaps := s.transport.sequenceGaps + 1
          link := .running }
        metrics := s.metrics.recordSequenceGap }) : IngestStep s s' packet true

/-- The receive path with recovery takes one of these steps. -/
theorem ingestOrRecover_step {through : Bool}
    (h : ingestOrRecover s packet = .ok (s', through)) : IngestStep s s' packet through := by
  unfold ingestOrRecover at h
  cases s.transport.ingest_exit packet with
  | refused e hrefusal hadmission heq =>
    rw [heq] at h
    cases hrefusal <;> cases h
  | late hadmission htime heq =>
    rw [heq] at h
    cases h
    exact .late htime rfl
  | accepted hadmission htime hseq heq =>
    rw [heq] at h
    cases h
    exact .inOrder htime hseq rfl
  | gap hadmission htime hseq heq =>
    have hrecover := SimTransportEngine.ingest_recover (congrArg Prod.snd heq)
    rw [heq] at h hrecover
    dsimp only [BenchState.applyRecovery] at h
    rw [hrecover] at h
    cases h
    exact .recovered htime hseq rfl

/-- A packet that gets through joins the inbox, and the card is not touched. -/
theorem IngestStep.queued (h : IngestStep s s' packet true) :
    s'.transport.inbox = s.transport.inbox ++ [packet] ∧ s'.nic = s.nic := by
  cases h with
  | inOrder _ _ heq => rw [heq]; exact ⟨rfl, rfl⟩
  | recovered _ _ heq => rw [heq]; exact ⟨rfl, rfl⟩

/-- With nothing in flight before it, it is alone in the inbox and the card is idle. -/
theorem IngestStep.alone (h : IngestStep s s' packet true) (hinbox : s.transport.inbox = [])
    (hidle : s.nic.Idle) : s'.transport.inbox = [packet] ∧ s'.nic.Idle := by
  obtain ⟨hqueued, hnic⟩ := h.queued
  rw [hinbox, List.nil_append] at hqueued
  exact ⟨hqueued, hnic ▸ hidle⟩

/-- The card's part takes time, and is traced. -/
theorem submit_frame {tid : UInt64} (h : submit cfg s tid packet = .ok s') :
    s' = { s with nowNs := s'.nowNs, nic := s'.nic, tracer := s'.tracer } := by
  rw [submit, bind_eq_ok] at h
  obtain ⟨s₁, hsubmit, hstamp⟩ := h
  cases hstamp
  unfold submitRx at hsubmit
  dsimp only at hsubmit
  split at hsubmit
  · rw [bind_eq_ok] at hsubmit
    obtain ⟨_, -, hs₁⟩ := hsubmit
    cases hs₁
    rfl
  · rw [bind_eq_ok] at hsubmit
    obtain ⟨_, -, hs₁⟩ := hsubmit
    cases hs₁
    rfl

/-- A packet that an idle card takes is all the next burst returns. -/
theorem submit_step {tid : UInt64} (hidle : s.nic.Idle) (h : submit cfg s tid packet = .ok s') :
    (s'.nic.rxBurst 32).2 = [packet] ∧ (s'.nic.rxBurst 32).1.Idle := by
  rw [submit, bind_eq_ok] at h
  obtain ⟨s₁, hsubmit, hstamp⟩ := h
  cases hstamp
  unfold submitRx at hsubmit
  dsimp only at hsubmit
  split at hsubmit
  · rw [bind_eq_ok] at hsubmit
    obtain ⟨⟨nic, _⟩, hnic, hs₁⟩ := hsubmit
    cases hs₁
    exact hidle.submitRx_burst (orFail_eq_ok.mp hnic) (by decide : 0 < 32)
  · rw [bind_eq_ok] at hsubmit
    obtain ⟨⟨nic, _⟩, hnic, hs₁⟩ := hsubmit
    cases hs₁
    exact hidle.submitRxReadyAt_burst (orFail_eq_ok.mp hnic) (by decide : 0 < 32)

/-- What the GPU stage may change: the ring, its measurements, and on a full ring the counter and
the recovery log. -/
structure GpuStep (s s' : BenchState) (full : Bool) : Prop where
  transport : s'.transport = s.transport
  nic : s'.nic = s.nic
  delivered : s'.delivered = s.delivered
  packets : s'.packets = s.packets
  symbolMiss : s'.symbolMiss = s.symbolMiss
  tally : s'.metrics.tally =
    { s.metrics.tally with
      full := if full then satCount s.metrics.tally.full 1 else s.metrics.tally.full }
  applied : s'.applied = s.applied.map (· + full.toNat)

private theorem applied_map_zero (s : BenchState) : s.applied = s.applied.map (· + 0) := by
  cases s.applied <;> rfl

/-- The GPU stage takes one such step. -/
theorem gpuStage_step {payload : List UInt8} {latency : UInt64}
    (h : gpuStage cfg s payload = .ok (s', latency)) : ∃ full, GpuStep s s' full := by
  unfold gpuStage at h
  split at h
  · unfold gpuKernel at h
    split at h
    · next ring idx hreceive =>
      simp only [bind_eq_ok] at h
      obtain ⟨⟨ring₁, _⟩, -, ⟨ring₂, idx₂, doneAt⟩, -, ⟨ring₃, lat⟩, -, ⟨ring₄, _⟩, -, hs'⟩ := h
      cases hs'
      exact ⟨false, rfl, rfl, rfl, rfl, rfl, rfl, applied_map_zero s⟩
    · next ring hreceive =>
      cases h
      exact ⟨true, rfl, rfl, rfl, rfl, rfl, rfl, BenchState.applied_applyRecovery ..⟩
    · cases h
  · cases h
    exact ⟨false, rfl, rfl, rfl, rfl, rfl, rfl, applied_map_zero s⟩

/-- What the measurements after the GPU stage change. -/
structure MeasureStep (s s' : BenchState) (miss : Bool) : Prop where
  transport : s'.transport = s.transport
  nic : s'.nic = s.nic
  delivered : s'.delivered = s.delivered
  packets : s'.packets = s.packets + 1
  symbolMiss : s'.symbolMiss = s.symbolMiss + miss.toNat
  tally : s'.metrics.tally =
    { s.metrics.tally with
      tx := s.metrics.tally.tx + 1
      samples := s.metrics.tally.samples + 1
      symbols := s.metrics.tally.symbols + 1
      misses := s.metrics.tally.misses + miss.toNat }
  applied : s'.applied = s.applied

private theorem measure_step (cfg : BenchConfig) (tid : UInt64) (delivered : Packet)
    (s : BenchState) (gpuLatency : UInt64) :
    ∃ miss, MeasureStep s (measure cfg tid delivered s gpuLatency) miss := by
  unfold measure checkBudget
  dsimp only
  split
  · exact ⟨true, rfl, rfl, rfl, rfl, rfl, rfl, rfl⟩
  · exact ⟨false, rfl, rfl, rfl, rfl, rfl, rfl, rfl⟩

/-- What the delivery of one packet changes. -/
structure DeliverStep (s s' : BenchState) (delivered : Packet) (miss full : Bool) : Prop where
  transport : s'.transport = s.transport
  nic : s'.nic = s.nic
  delivered : s'.delivered = s.delivered ++ [delivered]
  packets : s'.packets = s.packets + 1
  symbolMiss : s'.symbolMiss = s.symbolMiss + miss.toNat
  tally : s'.metrics.tally =
    { s.metrics.tally with
      rx := s.metrics.tally.rx + 2
      tx := s.metrics.tally.tx + 1
      samples := s.metrics.tally.samples + 1
      symbols := s.metrics.tally.symbols + 1
      misses := s.metrics.tally.misses + miss.toNat
      full := if full then satCount s.metrics.tally.full 1 else s.metrics.tally.full }
  applied : s'.applied = s.applied.map (· + full.toNat)

/-- The delivery of one packet. -/
theorem deliver_step {tid : UInt64} {delivered : Packet}
    (h : deliver cfg tid s delivered = .ok s') :
    ∃ miss full, DeliverStep s s' delivered miss full := by
  rw [deliver, bind_eq_ok] at h
  obtain ⟨⟨s₁, gpuLatency⟩, hgpu, hs'⟩ := h
  obtain ⟨full, hgpu⟩ := gpuStage_step hgpu
  obtain ⟨miss, hmeasure⟩ := measure_step cfg tid delivered s₁ gpuLatency
  cases hs'
  refine ⟨miss, full, ?_⟩
  exact
    { transport := hmeasure.transport.trans hgpu.transport
      nic := hmeasure.nic.trans hgpu.nic
      delivered := hmeasure.delivered.trans hgpu.delivered
      packets := by rw [hmeasure.packets, hgpu.packets]; rfl
      symbolMiss := by rw [hmeasure.symbolMiss, hgpu.symbolMiss]; rfl
      tally := by rw [hmeasure.tally, hgpu.tally]; rfl
      applied := by rw [hmeasure.applied, hgpu.applied]; rfl }

/-- What the way from the inbox to the delivery changes. -/
structure ForwardStep (s s' : BenchState) (packet : Packet) (miss full : Bool) : Prop where
  transport : s'.transport = { s.transport with inbox := [] }
  nic : s'.nic.Idle
  delivered : s'.delivered = s.delivered ++ [packet]
  packets : s'.packets = s.packets + 1
  symbolMiss : s'.symbolMiss = s.symbolMiss + miss.toNat
  tally : s'.metrics.tally =
    { s.metrics.tally with
      rx := s.metrics.tally.rx + 2
      tx := s.metrics.tally.tx + 1
      samples := s.metrics.tally.samples + 1
      symbols := s.metrics.tally.symbols + 1
      misses := s.metrics.tally.misses + miss.toNat
      full := if full then satCount s.metrics.tally.full 1 else s.metrics.tally.full }
  applied : s'.applied = s.applied.map (· + full.toNat)

/-- The packet in the inbox is submitted to an idle card and delivered, all by itself. -/
theorem forward_eq_ok {tid : UInt64} (h : forward cfg s tid = .ok s')
    (hinbox : s.transport.inbox = [packet]) (hidle : s.nic.Idle) :
    ∃ s₁, submit cfg { s with transport := { s.transport with inbox := [] } } tid packet = .ok s₁ ∧
      deliver cfg tid { s₁ with nic := (s₁.nic.rxBurst 32).1 } packet = .ok s' := by
  rw [forward, SimTransportEngine.receive_cons hinbox, bind_eq_ok] at h
  obtain ⟨_, hreceive, h⟩ := h
  cases hreceive
  rw [bind_eq_ok] at h
  obtain ⟨s₁, hsubmit, h⟩ := h
  obtain ⟨hburst, -⟩ := submit_step (s := { s with
    transport := { s.transport with inbox := [] } }) hidle hsubmit
  change List.foldlM (deliver cfg tid) { s₁ with nic := (s₁.nic.rxBurst 32).1 }
    (s₁.nic.rxBurst 32).2 = _ at h
  rw [hburst, List.foldlM_cons, bind_eq_ok] at h
  obtain ⟨_, hdeliver, hs'⟩ := h
  cases hs'
  exact ⟨s₁, hsubmit, hdeliver⟩

/-- What happens to it on the way. -/
theorem forward_step {tid : UInt64} (hinbox : s.transport.inbox = [packet]) (hidle : s.nic.Idle)
    (h : forward cfg s tid = .ok s') : ∃ miss full, ForwardStep s s' packet miss full := by
  obtain ⟨s₁, hsubmit, hdeliver⟩ := forward_eq_ok h hinbox hidle
  obtain ⟨-, hidle'⟩ := submit_step (s := { s with
    transport := { s.transport with inbox := [] } }) hidle hsubmit
  have heq := submit_frame hsubmit
  obtain ⟨miss, full, hstep⟩ := deliver_step hdeliver
  rw [heq] at hstep
  refine ⟨miss, full, hstep.transport, ?_, hstep.delivered, hstep.packets, hstep.symbolMiss,
    hstep.tally, hstep.applied⟩
  rw [hstep.nic, ← heq]
  exact hidle'

/-- What one packet does to a run. -/
inductive PacketStep (cfg : BenchConfig) (s s' : BenchState) (packet : Packet) : Prop where
  | late (time : s.transport.ts.Late packet (cfg.arriveNs s.nowNs packet))
      (transport : s'.transport = { s.transport with
        nowNs := cfg.arriveNs s.nowNs packet
        latePackets := s.transport.latePackets + 1 })
      (nowNs : s'.nowNs = cfg.arriveNs s.nowNs packet)
      (nic : s'.nic = s.nic)
      (delivered : s'.delivered = s.delivered)
      (packets : s'.packets = s.packets)
      (symbolMiss : s'.symbolMiss = s.symbolMiss)
      (tally : s'.metrics.tally =
        { s.metrics.tally with
          misses := s.metrics.tally.misses + 1
          late := s.metrics.tally.late + 1 })
      (applied : s'.applied = s.applied.map (· + 1))
  | delivered (gap miss full : Bool)
      (time : ¬ s.transport.ts.Late packet (cfg.arriveNs s.nowNs packet))
      (gapIff : gap = true ↔ packet.sequence.val ≠ s.transport.seq.expected packet.streamId)
      (inbox : s'.transport.inbox = [])
      (seq : s'.transport.seq = s.transport.seq.afterAccept packet)
      (ts : s'.transport.ts = s.transport.ts)
      (gaps : s'.transport.sequenceGaps = s.transport.sequenceGaps + gap.toNat)
      (late : s'.transport.latePackets = s.transport.latePackets)
      (nic : s'.nic.Idle)
      (delivered : s'.delivered = s.delivered ++ [packet])
      (packets : s'.packets = s.packets + 1)
      (symbolMiss : s'.symbolMiss = s.symbolMiss + miss.toNat)
      (tally : s'.metrics.tally =
        { s.metrics.tally with
          rx := s.metrics.tally.rx + 2
          tx := s.metrics.tally.tx + 1
          gaps := s.metrics.tally.gaps + gap.toNat
          samples := s.metrics.tally.samples + 1
          symbols := s.metrics.tally.symbols + 1
          misses := s.metrics.tally.misses + miss.toNat
          full := if full then satCount s.metrics.tally.full 1 else s.metrics.tally.full })
      (applied : s'.applied = s.applied.map (· + (gap.toNat + full.toNat)))

/-- `process_one` takes one of these steps and leaves nothing in flight. -/
theorem processOne_step (hinbox : s.transport.inbox = []) (hidle : s.nic.Idle)
    (h : processOne cfg s packet = .ok s') : PacketStep cfg s s' packet := by
  rw [processOne] at h
  simp only [bind_eq_ok] at h
  obtain ⟨⟨s₁, through⟩, hingest, h⟩ := h
  have hstep := ingestOrRecover_step hingest
  have hforward (hthrough : through = true) : ∃ miss full, ForwardStep s₁ s' packet miss full := by
    subst hthrough
    obtain ⟨hqueued, hidle'⟩ := hstep.alone hinbox hidle
    exact forward_step hqueued hidle' h
  cases hstep with
  | late htime heq =>
    cases h
    subst heq
    exact .late htime rfl rfl rfl rfl rfl rfl rfl (BenchState.applied_applyRecovery ..)
  | inOrder htime hseq heq =>
    obtain ⟨miss, full, hstep⟩ := hforward rfl
    subst heq
    refine .delivered false miss full htime ⟨nofun, fun h ↦ absurd hseq h⟩
      (congrArg (·.inbox) hstep.transport) (congrArg (·.seq) hstep.transport)
      (congrArg (·.ts) hstep.transport) (congrArg (·.sequenceGaps) hstep.transport)
      (congrArg (·.latePackets) hstep.transport) hstep.nic hstep.delivered hstep.packets
      hstep.symbolMiss hstep.tally ?_
    rw [hstep.applied, Bool.toNat_false, Nat.zero_add]
    rfl
  | recovered htime hseq heq =>
    obtain ⟨miss, full, hstep⟩ := hforward rfl
    subst heq
    refine .delivered true miss full htime ⟨fun _ ↦ hseq, fun _ ↦ rfl⟩
      (congrArg (·.inbox) hstep.transport) (congrArg (·.seq) hstep.transport)
      (congrArg (·.ts) hstep.transport) (congrArg (·.sequenceGaps) hstep.transport)
      (congrArg (·.latePackets) hstep.transport) hstep.nic hstep.delivered hstep.packets
      hstep.symbolMiss hstep.tally ?_
    rw [hstep.applied]
    show (BenchState.applied (BenchState.applyRecovery (depart cfg s packet).1 _)).map _ = _
    rw [BenchState.applied_applyRecovery, Option.map_map]
    exact congrArg (Option.map · s.applied) (funext fun n ↦ Nat.add_assoc n 1 _)

end PipelineBench

end AetherRadio
