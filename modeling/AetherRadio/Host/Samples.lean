import AetherRadio.Bench.Traces
import AetherRadio.Host.AtMostOnce
import AetherRadio.Host.Deliver

/-!
# The latency samples of the receiver

The receiver's clock starts at zero and only moves by the latencies it charges, while a sample is
taken against the timestamp of the packet. The bench raises its clock to the timestamp first.
-/

namespace AetherRadio

open Verif

/-- The latencies the receiver charges for a packet: the DMA, and the kernel if there is a slot. -/
def HostConfig.stagesNs (cfg : HostConfig) : Nat :=
  cfg.nic.dmaLatencyNs.toNat +
    if 0 < cfg.gpuRing.slotCount then cfg.gpuRing.kernelDelayNs.toNat else 0

/-- The latencies the bench charges for the same stages. -/
def BenchConfig.stagesNs (cfg : BenchConfig) : Nat :=
  (if cfg.profile.includeNicDma then cfg.nic.dmaLatencyNs.toNat else 0) +
    if cfg.RunsKernel then cfg.gpuRing.kernelDelayNs.toNat else 0

/-- A sample of the receiver, with its packet and the clock before and after the packet. -/
structure HostSample where
  packet : Packet
  clockNs : UInt64
  doneNs : UInt64
  e2eNs : UInt64
  deriving DecidableEq

namespace HostRecv

/-- The sample that is recorded between two states, if there is one. -/
def sampleOf (packet : Packet) (s s' : HostState) : List HostSample :=
  if s'.metrics.tally.samples = s.metrics.tally.samples then []
  else [{ packet, clockNs := s.nowNs, doneNs := s'.nowNs, e2eNs := s'.metrics.lastLatencyNs }]

variable (cfg : HostConfig)

/-- The samples of a burst, up to a packet that fails. -/
def burstSamples : List Packet → HostState → List HostSample
  | [], _ => []
  | pkt :: pkts, s =>
    match processPacket cfg s pkt with
    | .error _ => []
    | .ok s' => sampleOf pkt s s' ++ burstSamples pkts s'

/-- The samples of the bursts the receiver takes. -/
def samples : List (List Packet) → HostState → List HostSample
  | [], _ => []
  | burst :: bursts, s =>
    if s.accepted < cfg.symbols.toNat then
      burstSamples cfg burst s ++
        match burst.foldlM (processPacket cfg) s with
        | .error _ => []
        | .ok s' => samples bursts s'
    else []

variable {cfg} {s s' : HostState} {pkt : Packet} {k n : Nat}

/-- What the receive path leaves. -/
structure Kept (s s' : HostState) : Prop where
  nowNs : s'.nowNs = s.nowNs
  ring : s'.ring = s.ring
  samples : s'.metrics.tally.samples = s.metrics.tally.samples

private theorem ingestOrRecover_kept (s : HostState) (pkt : Packet) :
    Kept s (ingestOrRecover cfg s pkt).1 := by
  unfold ingestOrRecover
  split
  · exact ⟨rfl, rfl, rfl⟩
  · dsimp only
    split <;> exact ⟨rfl, rfl, rfl⟩
  · exact ⟨rfl, rfl, rfl⟩
  · exact ⟨rfl, rfl, rfl⟩

theorem receiveOne_kept (s : HostState) (pkt : Packet) : Kept s (receiveOne cfg s pkt).1 := by
  let stamped : HostState := { s with transport.nowNs := receiveNs pkt }
  have hkept : Kept stamped (ingestOrRecover cfg stamped pkt).1 := ingestOrRecover_kept stamped pkt
  unfold receiveOne
  split
  · next heq =>
    rw [heq] at hkept
    exact ⟨hkept.nowNs, hkept.ring, hkept.samples⟩
  · next heq =>
    rw [heq] at hkept
    exact ⟨hkept.nowNs, hkept.ring, hkept.samples⟩

/-- The kernel charges its delay when there is a slot. -/
private theorem gpuKernel_charges {payload : List UInt8} (h : gpuKernel s payload = .ok s')
    (hring : s.ring.Waits cfg.gpuRing) (hclock : s.nowNs.toNat = min n (2 ^ 64 - 1)) :
    s'.ring.Waits cfg.gpuRing ∧
      s'.nowNs.toNat = min (n + if 0 < cfg.gpuRing.slotCount then
        cfg.gpuRing.kernelDelayNs.toNat else 0) (2 ^ 64 - 1) ∧
      s'.metrics.tally.samples = s.metrics.tally.samples := by
  unfold gpuKernel at h
  split at h
  · next ring idx hreceive =>
    simp only [bind_eq_ok] at h
    obtain ⟨⟨ring₁, _⟩, hcomplete, ⟨ring₂, idx₂, doneAt⟩, hbegin, ⟨ring₃, lat⟩, hprocessed,
      ⟨ring₄, _⟩, hrelease, hs'⟩ := h
    obtain ⟨hlatency, hslots, hwaits⟩ := hring.cycle hreceive (orFail_eq_ok.mp hcomplete)
      (orFail_eq_ok.mp hbegin) (orFail_eq_ok.mp hprocessed) (orFail_eq_ok.mp hrelease)
    cases hs'
    refine ⟨hwaits, ?_, rfl⟩
    rw [if_pos hslots, hlatency]
    change (satAdd s.nowNs (satSub (satAdd s.nowNs cfg.gpuRing.kernelDelayNs) s.nowNs)).toNat = _
    rw [toNat_satAdd, toNat_satSub, toNat_satAdd, hclock]
    omega
  · next ring hreceive =>
    cases h
    obtain ⟨hwaits, hslots⟩ := hring.full hreceive
    rw [if_neg hslots]
    exact ⟨hwaits, hclock, rfl⟩
  · cases h

/-- What the delivery of a packet does to the clock and the samples. -/
structure Charge (cfg : HostConfig) (n : Nat) (pkt : Packet) (s s' : HostState) : Prop where
  nicCfg : s'.nic.cfg = s.nic.cfg
  ring : s'.ring.Waits cfg.gpuRing
  clock : s'.nowNs.toNat = min (n + cfg.stagesNs) (2 ^ 64 - 1)
  samples : s'.metrics.tally.samples = s.metrics.tally.samples + 1
  sample : s'.metrics.lastLatencyNs = satSub s'.nowNs pkt.timestamp.val

private theorem forward_charge (hidle : s.nic.Idle) (hnic : s.nic.cfg = cfg.nic)
    (hring : s.ring.Waits cfg.gpuRing) (hclock : s.nowNs.toNat = min n (2 ^ 64 - 1))
    (h : forward cfg s pkt = .ok s') : Charge cfg n pkt s s' := by
  obtain ⟨nic, -, hcfg, hdeliver⟩ := forward_eq_ok hidle h
  have hdma := toNat_satAdd_of_min hclock s.nic.cfg.dmaLatencyNs
  rw [deliver, bind_eq_ok] at hdeliver
  obtain ⟨s₁, hgpu, hs'⟩ := hdeliver
  obtain ⟨hwaits, hdone, hsamples⟩ := gpuKernel_charges hgpu hring hdma
  have hkept := (gpuKernel_step hgpu).nic
  cases hs'
  refine ⟨(congrArg (·.cfg) hkept).trans hcfg, hwaits, ?_, congrArg (· + 1) hsamples, rfl⟩
  rw [HostConfig.stagesNs, ← hnic, ← Nat.add_assoc]
  exact hdone

/-- The receiver between two packets, after `k` samples: the clock has moved by the latencies of
`k` packets. -/
structure Anchored (cfg : HostConfig) (k : Nat) (s : HostState) : Prop where
  counted : Counted cfg s
  nicCfg : s.nic.cfg = cfg.nic
  ring : s.ring.Waits cfg.gpuRing
  clock : s.nowNs.toNat = min (k * cfg.stagesNs) (2 ^ 64 - 1)
  samples : s.metrics.tally.samples = k
  accepted : s.accepted = k

/-- The sample of a packet that comes after `k` others. -/
structure AnchoredAt (cfg : HostConfig) (k : Nat) (sample : HostSample) : Prop where
  clock : sample.clockNs.toNat = min (k * cfg.stagesNs) (2 ^ 64 - 1)
  done : sample.doneNs.toNat = min ((k + 1) * cfg.stagesNs) (2 ^ 64 - 1)
  e2e : sample.e2eNs = satSub sample.doneNs sample.packet.timestamp.val

/-- Samples in a row, the first after `k` others. -/
def AnchoredFrom (cfg : HostConfig) (k : Nat) (samples : List HostSample) : Prop :=
  ∀ i sample, samples[i]? = some sample → AnchoredAt cfg (k + i) sample

theorem AnchoredFrom.nil : AnchoredFrom cfg k [] := by
  intro i sample hsample
  cases hsample

theorem AnchoredFrom.singleton {sample : HostSample} (h : AnchoredAt cfg k sample) :
    AnchoredFrom cfg k [sample] := by
  intro i sample' hsample
  cases i with
  | zero =>
    cases hsample
    exact h
  | succ i => cases hsample

theorem AnchoredFrom.append {xs ys : List HostSample} (hxs : AnchoredFrom cfg k xs)
    (hys : AnchoredFrom cfg (k + xs.length) ys) : AnchoredFrom cfg k (xs ++ ys) := by
  intro i sample hsample
  by_cases hi : i < xs.length
  · rw [List.getElem?_append_left hi] at hsample
    exact hxs i sample hsample
  · have hle := Nat.le_of_not_lt hi
    rw [List.getElem?_append_right hle] at hsample
    have hanchored := hys _ sample hsample
    rwa [Nat.add_assoc, Nat.add_sub_cancel' hle] at hanchored

/-- A packet that arrives is charged and its sample taken; any other packet leaves the clock. -/
theorem Anchored.processPacket (h : Anchored cfg k s)
    (hprocess : processPacket cfg s pkt = .ok s') :
    AnchoredFrom cfg k (sampleOf pkt s s') ∧
      Anchored cfg (k + (sampleOf pkt s s').length) s' := by
  obtain ⟨hcounted, haccepted⟩ := h.counted.processPacket hprocess
  have hprocess := h.counted.listening.processPacket_eq_ok hprocess
  have hstep := h.counted.listening.receiveOne pkt
  have hkept : Kept s (receiveOne cfg s pkt).1 := receiveOne_kept s pkt
  by_cases harrives : Arrives cfg pkt
  · rw [if_pos harrives] at hprocess haccepted
    have hcharge := forward_charge (hstep.nic ▸ h.counted.nic)
      ((congrArg (·.cfg) hstep.nic).trans h.nicCfg) (hkept.ring ▸ h.ring)
      ((congrArg UInt64.toNat hkept.nowNs).trans h.clock) hprocess
    have hsamples := hcharge.samples.trans (congrArg (· + 1) hkept.samples)
    have hdone := hcharge.clock
    rw [← Nat.succ_mul] at hdone
    have hsample : sampleOf pkt s s' =
        [{ packet := pkt, clockNs := s.nowNs, doneNs := s'.nowNs,
           e2eNs := s'.metrics.lastLatencyNs }] := by
      rw [sampleOf, if_neg]
      omega
    rw [hsample]
    constructor
    · exact .singleton ⟨h.clock, hdone, hcharge.sample⟩
    · refine ⟨hcounted, ?_, hcharge.ring, hdone, ?_, ?_⟩
      · rw [hcharge.nicCfg, hstep.nic]
        exact h.nicCfg
      · rw [hsamples, h.samples]
        rfl
      · rw [haccepted, h.accepted]
        rfl
  · rw [if_neg harrives] at hprocess haccepted
    subst hprocess
    have hsample : sampleOf pkt s (receiveOne cfg s pkt).1 = [] := by
      rw [sampleOf, if_pos hkept.samples]
    rw [hsample]
    refine ⟨.nil, hcounted, ?_, hkept.ring ▸ h.ring, ?_, ?_, ?_⟩
    · rw [hstep.nic]
      exact h.nicCfg
    · rw [hkept.nowNs]
      exact h.clock
    · rw [hkept.samples]
      exact h.samples
    · rw [haccepted, h.accepted]
      rfl

/-- So is every packet of a burst. -/
theorem Anchored.burst (h : Anchored cfg k s) (burst : List Packet) :
    AnchoredFrom cfg k (burstSamples cfg burst s) ∧
      ∀ s', burst.foldlM (HostRecv.processPacket cfg) s = .ok s' →
        Anchored cfg (k + (burstSamples cfg burst s).length) s' := by
  induction burst generalizing s k with
  | nil =>
    refine ⟨.nil, fun s' hs' ↦ ?_⟩
    cases hs'
    exact h
  | cons pkt pkts ih =>
    rw [burstSamples]
    cases hprocess : HostRecv.processPacket cfg s pkt with
    | error e =>
      refine ⟨.nil, fun s' hs' ↦ ?_⟩
      rw [List.foldlM_cons, hprocess] at hs'
      cases hs'
    | ok s₁ =>
      obtain ⟨hfirst, hanchored⟩ := h.processPacket hprocess
      obtain ⟨hrest, hend⟩ := ih hanchored
      refine ⟨hfirst.append hrest, fun s' hs' ↦ ?_⟩
      rw [List.foldlM_cons, hprocess] at hs'
      rw [List.length_append, ← Nat.add_assoc]
      exact hend s' hs'

/-- And so is every packet the receiver takes. -/
theorem Anchored.bursts (h : Anchored cfg k s) (bursts : List (List Packet)) :
    AnchoredFrom cfg k (HostRecv.samples cfg bursts s) := by
  induction bursts generalizing s k with
  | nil => exact .nil
  | cons burst bursts ih =>
    rw [HostRecv.samples]
    by_cases hmore : s.accepted < cfg.symbols.toNat
    · rw [if_pos hmore]
      obtain ⟨hburst, hend⟩ := h.burst burst
      apply hburst.append
      cases hfold : burst.foldlM (HostRecv.processPacket cfg) s with
      | error e => exact .nil
      | ok s' => exact ih (hend s' hfold)
    · rw [if_neg hmore]
      exact .nil

theorem start_clock (h : start cfg = .ok s) : s.nowNs = 0 ∧ s.nic = .new cfg.nic ∧
    s.ring = .new cfg.gpuRing ∧ s.metrics.tally.samples = 0 := by
  simp only [start, bind_eq_ok] at h
  obtain ⟨⟨t₁, _⟩, -, ⟨t₂, _⟩, -, ⟨t₃, _⟩, -, hs⟩ := h
  cases hs
  exact ⟨rfl, rfl, rfl, rfl⟩

/-- The receiver starts with its clock at zero. -/
private theorem exists_start_anchored (cfg : HostConfig) :
    ∃ s, start cfg = .ok s ∧ Anchored cfg 0 s := by
  obtain ⟨s, hstart, hlistening, -, hidle, haccepted, hrx, htx⟩ := exists_start cfg
  obtain ⟨hnow, hnic, hring, hsamples⟩ := start_clock hstart
  refine ⟨s, hstart, ⟨⟨hlistening, hidle, ?_, ?_⟩, ?_, ?_, ?_, hsamples, haccepted⟩⟩
  · rw [hrx, haccepted]
  · rw [htx, haccepted]
  · rw [hnic]
    rfl
  · rw [hring]
    exact GpuRingBuffer.waits_new cfg.gpuRing
  · rw [hnow, Nat.zero_mul]
    rfl

private theorem AnchoredAt.charged {sample : HostSample} (h : AnchoredAt cfg k sample) :
    sample.doneNs.toNat = min (sample.clockNs.toNat + cfg.stagesNs) (2 ^ 64 - 1) := by
  rw [h.done, h.clock, Nat.succ_mul]
  omega

/-- A sample that was taken after `k` others covers the stages exactly when its packet was sent in
their time. -/
theorem AnchoredAt.covers_iff {sample : HostSample} (h : AnchoredAt cfg k sample) :
    (cfg.stagesNs ≤ sample.e2eNs.toNat ∨ 2 ^ 64 ≤ sample.clockNs.toNat + cfg.stagesNs) ↔
      sample.packet.timestamp.val.toNat ≤ k * cfg.stagesNs ∨ cfg.stagesNs = 0 ∨
        2 ^ 64 ≤ (k + 1) * cfg.stagesNs := by
  have hlt := sample.packet.timestamp.val.toNat_lt
  have hclock := h.clock
  have hdone := h.done
  rw [Nat.succ_mul] at hdone ⊢
  rw [h.e2e, toNat_satSub]
  omega

end HostRecv

namespace PipelineBench

variable {cfg : BenchConfig} {s s' : BenchState} {packet : Packet}

/-- What a packet of a bench run adds to the samples: nothing when it is late, else a sample that
covers the stages unless the clock has come to its end. -/
def CoversStages (cfg : BenchConfig) (t t' : Timeline) : Prop :=
  t'.latencies = t.latencies ∨
    ∃ e2e, t'.latencies = t.latencies ++ [e2e] ∧
      (cfg.stagesNs ≤ e2e.toNat ∨ t'.nowNs.toNat = 2 ^ 64 - 1)

private theorem Journey.coversStages {t t' : Timeline} (h : Journey cfg packet t t') :
    CoversStages cfg t t' := by
  cases h with
  | late time eq =>
    subst eq
    exact .inl rfl
  | delivered ring waits time eq =>
    subst eq
    refine .inr ⟨_, rfl, ?_⟩
    have hclock := cfg.toNat_deliveredNs t.nowNs packet
    have hstages : cfg.stagesNs ≤ cfg.delayNs packet := by
      unfold BenchConfig.stagesNs BenchConfig.delayNs
      omega
    change cfg.stagesNs ≤ (satSub (cfg.doneNs (cfg.receivedNs (cfg.arriveNs t.nowNs packet)))
      packet.timestamp.val).toNat ∨
        (cfg.doneNs (cfg.receivedNs (cfg.arriveNs t.nowNs packet))).toNat = 2 ^ 64 - 1
    rw [toNat_satSub]
    omega

/-- The bench between two packets. -/
structure Ready (cfg : BenchConfig) (s : BenchState) : Prop where
  quiet : Quiet s
  nicCfg : s.nic.cfg = cfg.nic
  ring : s.ring.Waits cfg.gpuRing

private theorem start_ready (h : start cfg = .ok s) : Ready cfg s := by
  have hquiet := (start_balanced h).1
  rw [start, bind_eq_ok] at h
  obtain ⟨t, -, hs⟩ := h
  cases hs
  exact ⟨hquiet, rfl, GpuRingBuffer.waits_new cfg.gpuRing⟩

private theorem Ready.journey (h : Ready cfg s) (hprocess : processOne cfg s packet = .ok s') :
    Journey cfg packet s.timeline s'.timeline :=
  processOne_journey hprocess h.quiet h.nicCfg h.ring

theorem Ready.step (h : Ready cfg s) (hprocess : processOne cfg s packet = .ok s') :
    Ready cfg s' := by
  have hquiet := h.quiet.step hprocess
  cases h.journey hprocess with
  | late time eq =>
    have hnic : s'.nic.cfg = s.nic.cfg := congrArg (·.nicCfg) eq
    have hring : s'.ring = s.ring := congrArg (·.ring) eq
    exact ⟨hquiet, hnic.trans h.nicCfg, hring ▸ h.ring⟩
  | delivered ring waits time eq =>
    have hnic : s'.nic.cfg = s.nic.cfg := congrArg (·.nicCfg) eq
    have hring : s'.ring = ring := congrArg (·.ring) eq
    exact ⟨hquiet, hnic.trans h.nicCfg, hring ▸ waits⟩

private theorem ready_of_run {packets : List Packet} {s₀ : BenchState} (hstart : start cfg = .ok s₀)
    (hrun : packets.foldlM (processOne cfg) s₀ = .ok s) : Ready cfg s :=
  foldlM_invariant (P := fun _ s ↦ Ready cfg s) hrun (start_ready hstart)
    fun _ _ _ _ _ _ hready hstep ↦ hready.step hstep

end PipelineBench

namespace HostRecv

/-- For every configuration and all bursts: the receiver charges every packet for the DMA and the
kernel. The sample of a packet that comes after `k` others covers what it was charged, or the clock
has come to its end, if and only if the packet was sent in the time charged for the `k` others,
nothing is charged, or the clock has come to its end. For every packet of every bench run the sample
does. -/
theorem host_samples_cover_iff (cfg : HostConfig) :
    (∃ s₀, start cfg = .ok s₀ ∧ ∀ bursts k sample, (samples cfg bursts s₀)[k]? = some sample →
      sample.doneNs.toNat = min (sample.clockNs.toNat + cfg.stagesNs) (2 ^ 64 - 1) ∧
      ((cfg.stagesNs ≤ sample.e2eNs.toNat ∨ 2 ^ 64 ≤ sample.clockNs.toNat + cfg.stagesNs) ↔
        sample.packet.timestamp.val.toNat ≤ k * cfg.stagesNs ∨ cfg.stagesNs = 0 ∨
          2 ^ 64 ≤ (k + 1) * cfg.stagesNs)) ∧
    ∀ (bench : BenchConfig) (packets : List Packet) packet s₀ s s',
      PipelineBench.start bench = .ok s₀ →
      packets.foldlM (PipelineBench.processOne bench) s₀ = .ok s →
      PipelineBench.processOne bench s packet = .ok s' →
      PipelineBench.CoversStages bench s.timeline s'.timeline := by
  constructor
  · obtain ⟨s₀, hstart, hanchored⟩ := exists_start_anchored cfg
    refine ⟨s₀, hstart, fun bursts k sample hsample ↦ ?_⟩
    have hk := hanchored.bursts bursts k sample hsample
    rw [Nat.zero_add] at hk
    exact ⟨hk.charged, hk.covers_iff⟩
  · intro bench packets packet s₀ s s' hstart hrun hprocess
    exact ((PipelineBench.ready_of_run hstart hrun).journey hprocess).coversStages

/-- A first packet with timestamp 1000 is charged 300 and has the sample 0. -/
theorem host_sample_below_stages :
    let packet : Packet := ⟨⟨1⟩, ⟨0⟩, ⟨1000⟩, []⟩
    strictHost.stagesNs = 300 ∧
      ∃ s₀, start strictHost = .ok s₀ ∧
        samples strictHost [[packet]] s₀ = [⟨packet, 0, 300, 0⟩] := by
  refine ⟨by decide, _, rfl, ?_⟩
  decide +kernel

end HostRecv

end AetherRadio
