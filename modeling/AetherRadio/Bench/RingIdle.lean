import AetherRadio.Bench.Traces

/-!
# The GPU ring between two packets

Every packet of a run finds the GPU ring idle and leaves it idle, so that its kernel runs in the
slot that received it.
-/

namespace AetherRadio

open Verif

namespace PipelineBench

/-- The state in which the delivery loop hands a packet to the GPU. -/
def enqueue (tid : UInt64) (s : BenchState) (delivered : Packet) : BenchState :=
  let s := { s with
    metrics := s.metrics.recordRx.recordRxBytes delivered.payload.length
    delivered := s.delivered ++ [delivered] }
  (s.stamp tid .hostReady).stamp tid .gpuEnqueue

/-- `process_one` comes to `begin_receive` with a packet of the card's burst. -/
inductive Reaches (cfg : BenchConfig) (s : BenchState) (packet : Packet) :
    BenchState → Packet → Prop where
  | intro {s₁ s₂ s₃ : BenchState} {transport : SimTransportEngine} {pkt delivered : Packet}
      {before rest : List Packet} (kernel : cfg.profile.includeGpuKernel = true)
      (ingested : ingestOrRecover (depart cfg s packet).1 packet = .ok (s₁, true))
      (received : s₁.transport.receive = (transport, .ok (some pkt)))
      (submitted : submit cfg { s₁ with transport } (depart cfg s packet).2 pkt = .ok s₂)
      (burst : (s₂.nic.rxBurst 32).2 = before ++ delivered :: rest)
      (delivering : before.foldlM (deliver cfg (depart cfg s packet).2)
        { s₂ with nic := (s₂.nic.rxBurst 32).1 } = .ok s₃) :
      Reaches cfg s packet (enqueue (depart cfg s packet).2 s₃ delivered) delivered

/-- The way of a payload through the ring: all slots are free, only a ring without slots is full,
and what was received is processed and released in its slot, after its own kernel delay. -/
structure KernelRuns (cfg : BenchConfig) (s : BenchState) (payload : List UInt8) : Prop where
  free : s.ring.Idle
  full : ∀ ring e, s.ring.beginReceive s.nowNs = (ring, .error e) →
    e = .ringFull ∧ cfg.gpuRing.slotCount = 0
  occupied : ∀ ring idx, s.ring.beginReceive s.nowNs = (ring, .ok idx) → ring.occupied = 1
  runs : ∀ ring₁ idx ring₂, s.ring.beginReceive s.nowNs = (ring₁, .ok idx) →
    ring₁.completeReceive idx payload = (ring₂, .ok ()) →
    ∃ ring₃ doneAt ring₄ latency ring₅,
      ring₂.beginProcess s.nowNs = (ring₃, .ok (idx, doneAt)) ∧
      ring₃.completeProcess idx doneAt = (ring₄, .ok latency) ∧
      ring₄.release idx = (ring₅, .ok ()) ∧
      latency.toNat = min cfg.gpuRing.kernelDelayNs.toNat (2 ^ 64 - 1 - s.nowNs.toNat) ∧
      gpuKernel s payload = .ok ({ s with
        ring := ring₅
        ringPeak := max s.ringPeak 1
        metrics := (s.metrics.setRingOccupancy (max s.ringPeak 1)).recordKernelNs latency },
        latency)

variable {cfg : BenchConfig} {s s' : BenchState} {packet : Packet} {tid : UInt64}

/-- A waiting ring runs a kernel. -/
private theorem kernelRuns (h : s.ring.Waits cfg.gpuRing) (payload : List UInt8) :
    KernelRuns cfg s payload := by
  constructor
  · exact h.idle
  · intro ring e hfail
    obtain ⟨-, hfull, hslots⟩ := h.idle.beginReceive_error hfail
    exact ⟨hfull, h.slotCount.symm.trans hslots⟩
  · intro ring idx hbegin
    exact h.idle.occupied_beginReceive hbegin
  · intro ring₁ idx ring₂ hbegin hreceive
    obtain ⟨ring₃, doneAt, ring₄, latency, ring₅, hprocess, hcomplete, hrelease⟩ :=
      h.idle.process hbegin hreceive
    obtain ⟨hlatency, -, -⟩ := h.cycle hbegin hreceive hprocess hcomplete hrelease
    have hoccupied := h.idle.occupied_beginReceive hbegin
    refine ⟨ring₃, doneAt, ring₄, latency, ring₅, hprocess, hcomplete, hrelease, ?_, ?_⟩
    · have hdelay := cfg.gpuRing.kernelDelayNs.toNat_lt
      have hnow := s.nowNs.toNat_lt
      rw [hlatency, toNat_satSub, toNat_satAdd]
      omega
    · rw [gpuKernel, hbegin]
      simp only [bind_eq_ok, hoccupied]
      exact ⟨(ring₂, ()), orFail_eq_ok.mpr hreceive,
        (ring₃, idx, doneAt), orFail_eq_ok.mpr hprocess,
        (ring₄, latency), orFail_eq_ok.mpr hcomplete,
        (ring₅, ()), orFail_eq_ok.mpr hrelease, rfl⟩

/-- Between two packets the ring waits, and never more than one of its slots was taken. -/
structure Rests (cfg : BenchConfig) (s : BenchState) : Prop where
  ring : s.ring.Waits cfg.gpuRing
  peak : s.ringPeak ≤ 1

/-- The ring is not touched. -/
theorem Rests.of_eq (h : Rests cfg s) (ring : s'.ring = s.ring)
    (ringPeak : s'.ringPeak = s.ringPeak) : Rests cfg s' :=
  ⟨ring ▸ h.ring, ringPeak ▸ h.peak⟩

/-- The GPU stage. -/
theorem Rests.gpuStage {payload : List UInt8} {latency : UInt64} (h : Rests cfg s)
    (hstage : gpuStage cfg s payload = .ok (s', latency)) : Rests cfg s' := by
  obtain ⟨-, ring, hwaits, hs'⟩ := gpuStage_timeline hstage h.ring
  have hring : s'.ring = ring := congrArg (·.ring) hs'
  refine ⟨hring ▸ hwaits, ?_⟩
  unfold PipelineBench.gpuStage at hstage
  split at hstage
  · unfold gpuKernel at hstage
    split at hstage
    · next ring₁ idx hbegin =>
      simp only [bind_eq_ok] at hstage
      obtain ⟨⟨ring₂, _⟩, -, ⟨ring₃, idx', doneAt⟩, -, ⟨ring₄, lat⟩, -, ⟨ring₅, _⟩, -, hs'⟩ :=
        hstage
      cases hs'
      rw [h.ring.idle.occupied_beginReceive hbegin]
      exact Nat.max_le.mpr ⟨h.peak, Nat.le_refl 1⟩
    · cases hstage
      exact h.peak
    · cases hstage
  · cases hstage
    exact h.peak

/-- The measurements do not touch the ring. -/
private theorem measure_ring (cfg : BenchConfig) (tid : UInt64) (delivered : Packet)
    (s : BenchState)
    (gpuLatency : UInt64) :
    (measure cfg tid delivered s gpuLatency).ring = s.ring ∧
      (measure cfg tid delivered s gpuLatency).ringPeak = s.ringPeak := by
  unfold measure checkBudget
  dsimp only
  split <;> exact ⟨rfl, rfl⟩

/-- A delivery is the GPU stage and the measurements after it. -/
theorem deliver_eq (cfg : BenchConfig) (tid : UInt64) (s : BenchState) (delivered : Packet) :
    deliver cfg tid s delivered = (do
      let (s, gpuLatency) ← gpuStage cfg (enqueue tid s delivered) delivered.payload
      pure (measure cfg tid delivered s gpuLatency)) := rfl

/-- The delivery of one packet. -/
theorem Rests.deliver {delivered : Packet} (h : Rests cfg s)
    (hdeliver : deliver cfg tid s delivered = .ok s') : Rests cfg s' := by
  rw [deliver_eq, bind_eq_ok] at hdeliver
  obtain ⟨⟨s₁, gpuLatency⟩, hstage, hs'⟩ := hdeliver
  have hqueued : Rests cfg (enqueue tid s delivered) := h.of_eq rfl rfl
  have hdone := hqueued.gpuStage hstage
  obtain ⟨hring, hpeak⟩ := measure_ring cfg tid delivered s₁ gpuLatency
  cases hs'
  exact hdone.of_eq hring hpeak

/-- The delivery of a burst. -/
theorem Rests.burst {burst : List Packet} (h : Rests cfg s)
    (hburst : burst.foldlM (PipelineBench.deliver cfg tid) s = .ok s') : Rests cfg s' :=
  foldlM_invariant (P := fun _ s ↦ Rests cfg s) hburst h
    fun _ _ _ _ _ _ hrests hdeliver ↦ hrests.deliver hdeliver

/-- The receive path does not touch the ring. -/
theorem Rests.ingestOrRecover {through : Bool} (h : Rests cfg s)
    (hingest : ingestOrRecover s packet = .ok (s', through)) : Rests cfg s' := by
  cases ingestOrRecover_step hingest with
  | late time eq =>
    rw [eq]
    exact h.of_eq rfl rfl
  | inOrder time seq eq =>
    rw [eq]
    exact h.of_eq rfl rfl
  | recovered time seq eq =>
    rw [eq]
    exact h.of_eq rfl rfl

/-- Nor does the card. -/
theorem Rests.submit (h : Rests cfg s) (hsubmit : submit cfg s tid packet = .ok s') :
    Rests cfg s' := by
  rw [submit_frame hsubmit]
  exact h.of_eq rfl rfl

/-- Every packet whose processing succeeds leaves the ring as it found it. -/
theorem Rests.processOne (h : Rests cfg s) (hprocess : processOne cfg s packet = .ok s') :
    Rests cfg s' := by
  rw [PipelineBench.processOne] at hprocess
  simp only [bind_eq_ok] at hprocess
  obtain ⟨⟨s₁, through⟩, hingest, hforward⟩ := hprocess
  have hdeparted : Rests cfg (depart cfg s packet).1 := h.of_eq rfl rfl
  have hingested := hdeparted.ingestOrRecover hingest
  split at hforward
  · rw [forward, bind_eq_ok] at hforward
    obtain ⟨⟨transport, received⟩, -, hforward⟩ := hforward
    have hreceived : Rests cfg { s₁ with transport } := hingested.of_eq rfl rfl
    cases received with
    | none =>
      cases hforward
      exact hreceived
    | some pkt =>
      obtain ⟨s₂, hsubmit, hburst⟩ := bind_eq_ok.mp hforward
      have htaken : Rests cfg { s₂ with nic := (s₂.nic.rxBurst 32).1 } :=
        (hreceived.submit hsubmit).of_eq rfl rfl
      exact htaken.burst hburst
  · cases hforward
    exact hingested

/-- So it is found whenever `process_one` comes to `begin_receive`. -/
theorem Rests.reached {delivered : Packet} (h : Rests cfg s)
    (hreach : Reaches cfg s packet s' delivered) : Rests cfg s' := by
  cases hreach with
  | @intro s₁ s₂ s₃ transport pkt delivered before rest kernel ingested received submitted burst
      delivering =>
    have hdeparted : Rests cfg (depart cfg s packet).1 := h.of_eq rfl rfl
    have hreceived : Rests cfg { s₁ with transport } :=
      (hdeparted.ingestOrRecover ingested).of_eq rfl rfl
    have htaken : Rests cfg { s₂ with nic := (s₂.nic.rxBurst 32).1 } :=
      (hreceived.submit submitted).of_eq rfl rfl
    exact (htaken.burst delivering).of_eq rfl rfl

private theorem start_rests (h : start cfg = .ok s) : Rests cfg s := by
  rw [start, bind_eq_ok] at h
  obtain ⟨t, -, hs⟩ := h
  cases hs
  exact ⟨GpuRingBuffer.waits_new cfg.gpuRing, Nat.zero_le 1⟩

/-- Between any two packets of a run the ring rests. -/
theorem rests_between {s₀ : BenchState} {pre : List Packet} (hstart : start cfg = .ok s₀)
    (hrun : pre.foldlM (processOne cfg) s₀ = .ok s) : Rests cfg s :=
  foldlM_invariant (P := fun _ s ↦ Rests cfg s) hrun (start_rests hstart)
    fun _ _ _ _ _ _ hrests hprocess ↦ hrests.processOne hprocess

/-- A packet in time that is processed with nothing in flight before it comes to
`begin_receive`. -/
private theorem exists_reaches (hkernel : cfg.profile.includeGpuKernel = true) (hquiet : Quiet s)
    (htime : ¬ s.transport.ts.Late packet (cfg.arriveNs s.nowNs packet))
    (h : processOne cfg s packet = .ok s') : ∃ atRing, Reaches cfg s packet atRing packet := by
  rw [processOne] at h
  simp only [bind_eq_ok] at h
  obtain ⟨⟨s₁, through⟩, hingest, hforward⟩ := h
  have hstep := ingestOrRecover_step hingest
  cases through with
  | false =>
    cases hstep with
    | late time eq => exact absurd time htime
  | true =>
    obtain ⟨hinbox, hidle⟩ := hstep.alone hquiet.inbox hquiet.nic
    obtain ⟨s₂, hsubmit, -⟩ := forward_eq_ok hforward hinbox hidle
    obtain ⟨hburst, -⟩ := submit_step (s := { s₁ with
      transport := { s₁.transport with inbox := [] } }) hidle hsubmit
    have hsplit : (s₂.nic.rxBurst 32).2 = [] ++ packet :: [] := hburst
    exact ⟨_, .intro hkernel hingest (SimTransportEngine.receive_cons hinbox) hsubmit hsplit rfl⟩

/-- Whenever `process_one` comes to `begin_receive` in a run, all slots of the ring are free: only
a ring without slots is full, and a packet that was received is processed and released in its slot,
after its own kernel delay. The peak of the occupancy is at most one. -/
theorem ring_idle_between_packets (cfg : BenchConfig) :
    (∀ s₀ pre packet post s, start cfg = .ok s₀ → offered cfg = pre ++ packet :: post →
      pre.foldlM (processOne cfg) s₀ = .ok s →
      ∀ atRing delivered, Reaches cfg s packet atRing delivered →
        KernelRuns cfg atRing delivered.payload ∧ atRing.ringPeak ≤ 1) ∧
    ∀ r, run cfg = .ok r → r.report.ringOccupancyPeak ≤ 1 := by
  constructor
  · intro s₀ pre packet post s hstart _ hpre atRing delivered hreach
    have hrests := (rests_between hstart hpre).reached hreach
    exact ⟨kernelRuns hrests.ring delivered.payload, hrests.peak⟩
  · intro r hrun
    obtain ⟨-, -, s₀, s, hstart, hfold, rfl⟩ := (run_eq_ok cfg).mp hrun
    exact (rests_between hstart hfold).peak

/-- The first packet that the lossy run offers comes to the ring. -/
theorem ring_idle_between_packets_lossy : ∃ r s₀ packet post atRing, run lossyBench = .ok r ∧
    start lossyBench = .ok s₀ ∧ offered lossyBench = packet :: post ∧
    Reaches lossyBench s₀ packet atRing packet ∧ KernelRuns lossyBench atRing packet.payload ∧
    r.report.ringOccupancyPeak ≤ 1 := by
  obtain ⟨r, hrun, -⟩ := exists_run_lossy
  obtain ⟨-, -, s₀, s, hstart, hfold, -⟩ := (run_eq_ok lossyBench).mp hrun
  obtain ⟨hreached, hpeak⟩ := ring_idle_between_packets lossyBench
  cases hoffered : offered lossyBench with
  | nil => exact absurd hoffered (by decide)
  | cons packet post =>
    have htime : ∀ packet ∈ (offered lossyBench).head?,
        ¬ (TimestampChecker.fromConfig lossyBench.deadline).Late packet
          (lossyBench.arriveNs 0 packet) := by decide
    obtain ⟨hnow, -, -, -, hts, -⟩ := start_expected hstart
    rw [hoffered, List.foldlM_cons, bind_eq_ok] at hfold
    obtain ⟨s₁, hprocess, -⟩ := hfold
    obtain ⟨atRing, hreach⟩ := exists_reaches rfl (start_balanced hstart).1
      (by rw [hnow, hts]; exact htime packet (by rw [hoffered]; rfl)) hprocess
    exact ⟨r, s₀, packet, post, atRing, hrun, hstart, rfl, hreach,
      (hreached s₀ [] packet post s₀ hstart hoffered rfl atRing packet hreach).1, hpeak r hrun⟩

end PipelineBench

end AetherRadio
