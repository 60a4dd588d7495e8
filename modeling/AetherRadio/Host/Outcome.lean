import AetherRadio.Bench.Stages
import AetherRadio.Host.AtMostOnce
import AetherRadio.Host.Samples
import AetherRadio.Lib.Gaps
import AetherRadio.Lib.Simulation

/-!
# How a receiver run ends

A run of the receiver in closed form: it takes whole bursts until enough packets have arrived, and
fails at the first arriving packet that the card or the GPU ring has no room for.
-/

namespace AetherRadio

open Verif

/-- The layers of an engine without the times in them: its counters, and what is in use. -/
def MetricsEngine.counts (self : MetricsEngine) : LayeredMetricsSnapshot :=
  { self.layered with
    transport := { self.layered.transport with
      latencyMinNs := 0, latencyMaxNs := 0, latencyLastNs := 0, latencySumNs := 0, jitterNs := 0 }
    compute.kernelLatencyNs := 0 }

/-- A counter that has stopped at the largest word stays there. -/
theorem satCount_min (n k : Nat) :
    satCount (min n (2 ^ 64 - 1)) k = min (n + k) (2 ^ 64 - 1) := by
  unfold satCount
  omega

namespace HostRecv

variable {cfg : HostConfig} {s s' : HostState} {pkt : Packet}

/-- The packet is on the receiver's stream and too old. -/
def ComesLate (cfg : HostConfig) (pkt : Packet) : Prop :=
  pkt.streamId = cfg.streamId ∧
    (TimestampChecker.fromConfig cfg.deadline).Late pkt (receiveNs pkt)

instance : DecidablePred (ComesLate cfg) := fun _ ↦ inferInstanceAs (Decidable (_ ∧ _))

/-- What the receiver fails with at a packet. -/
def refusal (cfg : HostConfig) (pkt : Packet) : Option RuntimeError :=
  if Arrives cfg pkt then
    (cfg.nic.refusal.map .nic).or ((cfg.gpuRing.refusal pkt.payload).map .gpu)
  else none

/-- The packets a run takes when `n` have been accepted: whole bursts, until enough have
arrived. -/
def taken (cfg : HostConfig) : (n : Nat) → List (List Packet) → List Packet
  | _, [] => []
  | n, burst :: bursts =>
    if n < cfg.symbols.toNat then burst ++ taken cfg (n + burst.countP (Arrives cfg ·)) bursts
    else []

/-- The payload bytes of the packets that arrive. -/
def payloadBytes (cfg : HostConfig) (pkts : List Packet) : Nat :=
  ((pkts.filter (Arrives cfg ·)).map (·.payload.length)).sum

/-- The counters of an engine after so many packets accepted with so many bytes, gaps and late
packets. An accepted packet is counted twice as received. Without ring slots each of them meets a
full ring, with slots each runs the kernel. -/
def countsOf (cfg : HostConfig) (accepted bytes gaps late : Nat) : LayeredMetricsSnapshot where
  physical := { linkUp := true, crcError := 0 }
  transport := {
    txPackets := accepted
    rxPackets := 2 * accepted
    txBytes := 0
    rxBytes := min bytes (2 ^ 64 - 1)
    gapCount := gaps
    latePacket := late
    drop := 0
    latencyMinNs := 0
    latencyMaxNs := 0
    latencyLastNs := 0
    latencySumNs := 0
    latencySamples := accepted
    jitterNs := 0 }
  radio := {
    slotReceived := 0
    slotProcessed := 0
    slotDeadlineMiss := late
    symbolReceived := 0
    deadlineMiss := late }
  memory := {
    hostBufferUsed := 0
    gpuBufferUsed := cfg.gpuRing.slotCount * cfg.gpuRing.slotBytes
    bufferFull := if cfg.gpuRing.slotCount = 0 then min accepted (2 ^ 64 - 1) else 0
    overflow := if cfg.gpuRing.slotCount = 0 then min accepted (2 ^ 64 - 1) else 0
    ringOccupancy := if cfg.gpuRing.slotCount = 0 then 0 else min accepted 1
    ringStallNs := 0 }
  compute := {
    kernelLatencyNs := 0
    kernelExecutions := if cfg.gpuRing.slotCount = 0 then 0 else accepted }

/-- What a visit to the GPU stage counts. -/
def kernelCounts (cfg : HostConfig) (c : LayeredMetricsSnapshot) : LayeredMetricsSnapshot :=
  if cfg.gpuRing.slotCount = 0 then
    { c with memory := { c.memory with
        bufferFull := satCount c.memory.bufferFull 1
        overflow := satCount c.memory.overflow 1 } }
  else
    { c with
      memory.ringOccupancy := 1
      compute.kernelExecutions := c.compute.kernelExecutions + 1 }

/-- What the delivery of a payload counts before the GPU stage. -/
def receivedCounts (payload : List UInt8) (c : LayeredMetricsSnapshot) :
    LayeredMetricsSnapshot :=
  { c with transport := { c.transport with
      rxPackets := c.transport.rxPackets + 2
      rxBytes := satCount c.transport.rxBytes payload.length } }

/-- What it counts after the GPU stage. -/
def sentCounts (c : LayeredMetricsSnapshot) : LayeredMetricsSnapshot :=
  { c with transport := { c.transport with
      txPackets := c.transport.txPackets + 1
      latencySamples := c.transport.latencySamples + 1 } }

/-- A delivery counts one more packet. -/
private theorem countsOf_delivered (cfg : HostConfig) (payload : List UInt8)
    (accepted bytes gaps late : Nat) :
    sentCounts (kernelCounts cfg
        (receivedCounts payload (countsOf cfg accepted bytes gaps late))) =
      countsOf cfg (accepted + 1) (bytes + payload.length) gaps late := by
  have hbusy : min (accepted + 1) 1 = 1 := Nat.min_eq_right (Nat.le_add_left 1 accepted)
  unfold kernelCounts
  by_cases hslots : cfg.gpuRing.slotCount = 0
  · rw [if_pos hslots]
    simp only [sentCounts, receivedCounts, countsOf, if_pos hslots, satCount_min, Nat.mul_add,
      Nat.mul_one]
  · rw [if_neg hslots]
    simp only [sentCounts, receivedCounts, countsOf, if_neg hslots, satCount_min, Nat.mul_add,
      Nat.mul_one, hbusy]

/-- The counters of a run that has taken some packets. -/
structure Tallied (cfg : HostConfig) (pkts : List Packet) (s : HostState) : Prop where
  accepted : s.accepted = pkts.countP (Arrives cfg ·)
  expected : s.transport.seq.expected cfg.streamId =
    following (· + 1) cfg.deadline.startSequence (arrivals cfg pkts)
  gaps : s.transport.sequenceGaps =
    breaks (· + 1) cfg.deadline.startSequence (arrivals cfg pkts)
  late : s.transport.latePackets = pkts.countP (ComesLate cfg ·)
  counts : s.metrics.counts =
    countsOf cfg s.accepted (payloadBytes cfg pkts) s.transport.sequenceGaps
      s.transport.latePackets

/-- The receiver between two packets of a run. -/
structure Sound (cfg : HostConfig) (pkts : List Packet) (s : HostState) : Prop where
  listening : Listening cfg s
  idle : s.nic.Idle
  nic : s.nic.cfg = cfg.nic
  ring : s.ring.Serves cfg.gpuRing
  tallied : Tallied cfg pkts s

/-- What the GPU stage leaves behind. -/
structure KernelStep (cfg : HostConfig) (s s' : HostState) : Prop where
  ring : s'.ring.Serves cfg.gpuRing
  transport : s'.transport = s.transport
  nic : s'.nic = s.nic
  accepted : s'.accepted = s.accepted
  counts : s'.metrics.counts = kernelCounts cfg s.metrics.counts

/-- The GPU stage fails on a payload that is too large for the slots, and on no other. -/
private theorem gpuKernel_ends (hring : s.ring.Serves cfg.gpuRing) (payload : List UInt8) :
    EndsIn (gpuKernel s payload) ((cfg.gpuRing.refusal payload).map .gpu) (KernelStep cfg s) := by
  have hexit := hring.cycle_exit s.nowNs payload
  generalize cfg.gpuRing.refusal payload = refusal at hexit
  unfold gpuKernel
  cases hexit with
  | full slots begins =>
    rw [begins]
    refine ⟨_, rfl, hring, rfl, rfl, rfl, ?_⟩
    rw [kernelCounts, if_pos slots]
    rfl
  | tooLarge ring₁ begins receives =>
    rw [begins]
    dsimp only
    rw [receives]
    rfl
  | done ring₁ ring₂ ring₃ ring₄ ring₅ doneAt slots begins occupied receives processes completes
      releases serves =>
    rw [begins]
    simp only [receives, orFail, bind, Except.bind, processes, completes, releases, occupied]
    refine ⟨_, rfl, serves, rfl, rfl, rfl, ?_⟩
    rw [kernelCounts, if_neg (Nat.ne_of_gt slots)]
    rfl

/-- What the delivery of a packet leaves behind. -/
structure DeliveredStep (cfg : HostConfig) (payload : List UInt8) (s s' : HostState) : Prop where
  ring : s'.ring.Serves cfg.gpuRing
  transport : s'.transport = s.transport
  nic : s'.nic = s.nic
  accepted : s'.accepted = s.accepted + 1
  counts : s'.metrics.counts =
    sentCounts (kernelCounts cfg (receivedCounts payload s.metrics.counts))

/-- The delivery of a packet fails when the GPU stage does. -/
theorem deliver_ends (hring : s.ring.Serves cfg.gpuRing) (pkt : Packet) :
    EndsIn (deliver s pkt) ((cfg.gpuRing.refusal pkt.payload).map .gpu)
      (DeliveredStep cfg pkt.payload s) := by
  let recorded : HostState :=
    { s with metrics := s.metrics.recordRx.recordRxBytes pkt.payload.length }
  have hkernel : EndsIn (gpuKernel recorded pkt.payload) _ _ :=
    gpuKernel_ends (s := recorded) hring pkt.payload
  unfold deliver
  rw [← Option.or_none (o := Option.map _ _)]
  refine hkernel.bind fun s₁ hstep ↦ ⟨_, rfl, hstep.ring, hstep.transport, hstep.nic, ?_, ?_⟩
  · exact congrArg (· + 1) hstep.accepted
  · exact congrArg sentCounts hstep.counts

/-- A packet goes through the idle card and is delivered, unless the card or the ring refuses it. -/
theorem forward_ends (hidle : s.nic.Idle) (hnic : s.nic.cfg = cfg.nic)
    (hring : s.ring.Serves cfg.gpuRing) (pkt : Packet) :
    EndsIn (forward cfg s pkt)
      ((cfg.nic.refusal.map .nic).or ((cfg.gpuRing.refusal pkt.payload).map .gpu))
      fun s' ↦ s'.nic.Idle ∧ s'.nic.cfg = cfg.nic ∧
        DeliveredStep cfg pkt.payload { s with nic := s'.nic } s' := by
  have hidle' : (s.nic.advanceTime s.nowNs).Idle := by
    rw [hidle.advanceTime]
    exact ⟨hidle.pending, hidle.rxReady⟩
  have hcfg' : (s.nic.advanceTime s.nowNs).cfg = cfg.nic := hnic
  have hsubmit : EndsIn (orFail RuntimeError.nic ((s.nic.advanceTime s.nowNs).submitRx pkt))
      (cfg.nic.refusal.map .nic)
      fun r ↦ (s.nic.advanceTime s.nowNs).submitRx pkt = (r.1, .ok ()) := by
    rw [← hcfg']
    exact hidle'.submits ..
  unfold forward
  refine hsubmit.bind ?_
  rintro ⟨nic, _⟩ hok
  obtain ⟨hburst, hempty⟩ := hidle.submitRx_burst hok (by decide : 0 < 32)
  have hkept : nic.cfg = cfg.nic := by
    have hcfg := (s.nic.advanceTime s.nowNs).submitRx_cfg pkt
    rw [hok] at hcfg
    exact hcfg.trans hcfg'
  change EndsIn (deliverLoop cfg
    ((nic.advanceTime (satAdd s.nowNs nic.cfg.dmaLatencyNs)).rxBurst 32).2 _) _ _
  rw [hburst, deliverLoop, ← Option.or_none (o := Option.map _ _)]
  let waiting : HostState := { s with
    nowNs := satAdd s.nowNs nic.cfg.dmaLatencyNs
    nic := ((nic.advanceTime (satAdd s.nowNs nic.cfg.dmaLatencyNs)).rxBurst 32).1 }
  have hdeliver : EndsIn (deliver waiting pkt) _ (DeliveredStep cfg pkt.payload waiting) :=
    deliver_ends (s := waiting) hring pkt
  refine hdeliver.bind fun s₁ hstep ↦ ⟨s₁, ?_, ?_, ?_, ?_⟩
  · split <;> rfl
  · rw [hstep.nic]
    exact hempty
  · rw [hstep.nic]
    exact hkept
  · exact ⟨hstep.ring, hstep.transport, rfl, hstep.accepted, hstep.counts⟩

/-- What the receive path counts. -/
structure CountStep (s s' : HostState) (gap old : Nat) : Prop where
  gaps : s'.transport.sequenceGaps = s.transport.sequenceGaps + gap
  late : s'.transport.latePackets = s.transport.latePackets + old
  counts : s'.metrics.counts =
    { s.metrics.counts with
      transport := { s.metrics.counts.transport with
        gapCount := s.metrics.counts.transport.gapCount + gap
        latePacket := s.metrics.counts.transport.latePacket + old }
      radio := { s.metrics.counts.radio with
        slotDeadlineMiss := s.metrics.counts.radio.slotDeadlineMiss + old
        deadlineMiss := s.metrics.counts.radio.deadlineMiss + old } }

/-- A gap is counted for a packet that arrives with another number than the expected one, and a
late packet for one that comes late. -/
private theorem Listening.ingestOrRecover_counts (h : Listening cfg s) (pkt : Packet)
    (hnow : receiveNs pkt = s.transport.nowNs) :
    CountStep s (HostRecv.ingestOrRecover cfg s pkt).1
      (if Arrives cfg pkt ∧ pkt.sequence.val ≠ s.transport.seq.expected cfg.streamId then 1 else 0)
      (if ComesLate cfg pkt then 1 else 0) := by
  have hadmits := h.admission_iff pkt
  have hlate : s.transport.ts.Late pkt s.transport.nowNs ↔
      (TimestampChecker.fromConfig cfg.deadline).Late pkt (receiveNs pkt) := by rw [h.ts, hnow]
  cases s.transport.ingest_exit pkt with
  | refused e hrefusal hadmission heq =>
    have hskip : HostRecv.ingestOrRecover cfg s pkt = (s, false) := by
      rw [HostRecv.ingestOrRecover, heq]
      cases hrefusal <;> rfl
    have hother : pkt.streamId ≠ cfg.streamId := by
      intro hstream
      rw [hadmits.mpr hstream] at hadmission
      cases hadmission
    rw [hskip, if_neg (fun h ↦ hother h.1.1), if_neg (fun h ↦ hother h.1)]
    exact ⟨rfl, rfl, rfl⟩
  | late hadmission htime heq =>
    have hcomes : ComesLate cfg pkt := ⟨hadmits.mp hadmission, hlate.mp htime⟩
    rw [HostRecv.ingestOrRecover, heq, if_neg (fun h ↦ h.1.2 hcomes.2), if_pos hcomes]
    exact ⟨rfl, rfl, rfl⟩
  | accepted hadmission htime hseq heq =>
    have hstream := hadmits.mp hadmission
    rw [hstream] at hseq
    rw [HostRecv.ingestOrRecover, heq, if_neg (fun h ↦ h.2 hseq),
      if_neg (fun h ↦ htime (hlate.mpr h.2))]
    exact ⟨rfl, rfl, rfl⟩
  | gap hadmission htime hseq heq =>
    have hstream := hadmits.mp hadmission
    have hrecover := SimTransportEngine.ingest_recover (congrArg Prod.snd heq)
    rw [heq, hstream] at hrecover
    rw [hstream] at hseq
    rw [HostRecv.ingestOrRecover, heq, if_pos ⟨⟨hstream, fun h ↦ htime (hlate.mpr h)⟩, hseq⟩,
      if_neg (fun h ↦ htime (hlate.mpr h.2))]
    dsimp only [HostState.applyRecovery]
    rw [hrecover]
    exact ⟨rfl, rfl, rfl⟩

private theorem Listening.receiveOne_counts (h : Listening cfg s) (pkt : Packet) :
    CountStep s (HostRecv.receiveOne cfg s pkt).1
      (if Arrives cfg pkt ∧ pkt.sequence.val ≠ s.transport.seq.expected cfg.streamId then 1 else 0)
      (if ComesLate cfg pkt then 1 else 0) := by
  unfold HostRecv.receiveOne
  obtain ⟨nowNs, hnow⟩ : ∃ nowNs, receiveNs pkt = nowNs := ⟨_, rfl⟩
  have hstamped : Listening cfg { s with transport.nowNs := nowNs } :=
    ⟨h.link, h.stream, h.others, h.inbox, h.ts⟩
  have hcounts := hstamped.ingestOrRecover_counts pkt hnow
  have hreceive (t : SimTransportEngine) : t.receive.1.sequenceGaps = t.sequenceGaps ∧
      t.receive.1.latePackets = t.latePackets := by
    unfold SimTransportEngine.receive
    split <;> exact ⟨rfl, rfl⟩
  rw [hnow]
  generalize HostRecv.ingestOrRecover cfg { s with transport.nowNs := nowNs } pkt = r at hcounts
  obtain ⟨s₁, through⟩ := r
  cases through with
  | false => exact ⟨hcounts.gaps, hcounts.late, hcounts.counts⟩
  | true =>
    obtain ⟨hgaps, hlate⟩ := hreceive s₁.transport
    exact ⟨hgaps.trans hcounts.gaps, hlate.trans hcounts.late, hcounts.counts⟩

private theorem arrivals_concat (pkts : List Packet) (pkt : Packet) :
    arrivals cfg (pkts ++ [pkt]) =
      arrivals cfg pkts ++ if Arrives cfg pkt then [pkt.sequence.val] else [] := by
  rw [arrivals, arrivals, List.filter_append, List.map_append, List.filter_cons]
  by_cases harrives : Arrives cfg pkt <;> simp [harrives]

theorem payloadBytes_concat (pkts : List Packet) (pkt : Packet) :
    payloadBytes cfg (pkts ++ [pkt]) =
      payloadBytes cfg pkts + if Arrives cfg pkt then pkt.payload.length else 0 := by
  rw [payloadBytes, payloadBytes, List.filter_append, List.map_append, List.sum_append,
    List.filter_cons]
  by_cases harrives : Arrives cfg pkt <;> simp [harrives]

/-- The counters after a packet that was passed through, or skipped. -/
theorem Tallied.concat {pkts : List Packet} {s₁ : HostState} (s' : HostState)
    (h : Tallied cfg pkts s)
    (expected : s₁.transport.seq.expected cfg.streamId =
      if Arrives cfg pkt then pkt.sequence.val + 1 else s.transport.seq.expected cfg.streamId)
    (accepted : s₁.accepted = s.accepted)
    (counts : CountStep s s₁
      (if Arrives cfg pkt ∧ pkt.sequence.val ≠ s.transport.seq.expected cfg.streamId then 1 else 0)
      (if ComesLate cfg pkt then 1 else 0))
    (done : if Arrives cfg pkt then DeliveredStep cfg pkt.payload { s₁ with nic := s'.nic } s'
      else s' = s₁) :
    Tallied cfg (pkts ++ [pkt]) s' := by
  have hcounts : s₁.metrics.counts =
      countsOf cfg s₁.accepted (payloadBytes cfg pkts) s₁.transport.sequenceGaps
        s₁.transport.latePackets := by
    rw [counts.counts, h.counts, accepted, counts.gaps, counts.late]
    rfl
  have hlate : s₁.transport.latePackets = (pkts ++ [pkt]).countP (ComesLate cfg ·) := by
    rw [counts.late, h.late, List.countP_append, List.countP_singleton]
    simp only [decide_eq_true_eq]
  by_cases harrives : Arrives cfg pkt
  · rw [if_pos harrives] at expected done
    have htransport : s'.transport = s₁.transport := done.transport
    have haccepted : s'.accepted = s.accepted + 1 := by rw [done.accepted, accepted]
    constructor
    · rw [haccepted, h.accepted, List.countP_append, List.countP_singleton]
      simp only [harrives, decide_true, if_true]
    · rw [htransport, expected, arrivals_concat, if_pos harrives, following_concat]
    · rw [htransport, counts.gaps, h.gaps, arrivals_concat, if_pos harrives, breaks_concat,
        ← h.expected]
      simp only [harrives, true_and, ne_eq, ite_not]
    · rw [htransport, hlate]
    · have hdelivered := done.counts
      dsimp only at hdelivered
      rw [hdelivered, hcounts, countsOf_delivered, htransport, haccepted, accepted,
        payloadBytes_concat, if_pos harrives]
  · rw [if_neg harrives] at expected done
    subst done
    have hgap : ¬ (Arrives cfg pkt ∧
      pkt.sequence.val ≠ s.transport.seq.expected cfg.streamId) := fun h ↦ harrives h.1
    have hgaps := counts.gaps
    rw [if_neg hgap] at hgaps
    constructor
    · rw [accepted, h.accepted, List.countP_append, List.countP_singleton]
      simp [harrives]
    · rw [expected, h.expected, arrivals_concat, if_neg harrives, List.append_nil]
    · rw [hgaps, h.gaps, arrivals_concat, if_neg harrives, List.append_nil]
      rfl
    · exact hlate
    · rw [hcounts, payloadBytes_concat, if_neg harrives, Nat.add_zero]

/-- The loop body fails on the packets that are refused, and on no others. -/
theorem processPacket_ends (pkts : List Packet) (pkt : Packet) (s : HostState)
    (h : Sound cfg pkts s) :
    EndsIn (processPacket cfg s pkt) (refusal cfg pkt) (Sound cfg (pkts ++ [pkt])) := by
  have hstep := h.listening.receiveOne pkt
  have hkept : Kept s (receiveOne cfg s pkt).1 := receiveOne_kept s pkt
  have hring : (receiveOne cfg s pkt).1.ring.Serves cfg.gpuRing := hkept.ring ▸ h.ring
  have hidle : (receiveOne cfg s pkt).1.nic.Idle := hstep.nic ▸ h.idle
  have hnic : (receiveOne cfg s pkt).1.nic.cfg = cfg.nic := hstep.nic ▸ h.nic
  have htallied := fun s' ↦ h.tallied.concat s' hstep.expected hstep.accepted
    (h.listening.receiveOne_counts pkt)
  have hreceived : orFail RuntimeError.transport (receiveOne cfg s pkt) =
      .ok ((receiveOne cfg s pkt).1, if Arrives cfg pkt then some pkt else none) :=
    orFail_eq_ok.mpr (Prod.ext rfl hstep.received)
  rw [processPacket, hreceived, refusal]
  by_cases harrives : Arrives cfg pkt
  · simp only [if_pos harrives] at htallied ⊢
    apply (forward_ends hidle hnic hring pkt).mono
    rintro s' ⟨hidle', hnic', hdelivered⟩
    exact ⟨hstep.listening.of_transport hdelivered.transport, hidle', hnic', hdelivered.ring,
      htallied s' hdelivered⟩
  · simp only [if_neg harrives] at htallied ⊢
    exact ⟨_, rfl, hstep.listening, hidle, hnic, hring, htallied _ rfl⟩

private theorem recvLoop_ends (bursts : List (List Packet)) (pkts : List Packet) (s : HostState)
    (h : Sound cfg pkts s) :
    EndsIn (recvLoop cfg bursts s) ((taken cfg s.accepted bursts).findSome? (refusal cfg))
      (Sound cfg (pkts ++ taken cfg s.accepted bursts)) := by
  induction bursts generalizing pkts s with
  | nil =>
    refine ⟨s, rfl, ?_⟩
    rw [taken, List.append_nil]
    exact h
  | cons burst bursts ih =>
    rw [recvLoop, taken]
    by_cases hmore : s.accepted < cfg.symbols.toNat
    · rw [if_pos hmore, if_pos hmore, List.findSome?_append]
      have hburst : EndsIn (burst.foldlM (processPacket cfg) s) (burst.findSome? (refusal cfg))
          (Sound cfg (pkts ++ burst)) :=
        .foldlM (fun pre pkt s h ↦ processPacket_ends pre pkt s h) burst h
      apply hburst.bind
      intro s₁ hsound
      have haccepted : s₁.accepted = s.accepted + burst.countP (Arrives cfg ·) := by
        rw [hsound.tallied.accepted, h.tallied.accepted, List.countP_append]
      have hrest := ih (pkts ++ burst) s₁ hsound
      rw [haccepted, List.append_assoc] at hrest
      exact hrest
    · rw [if_neg hmore, if_neg hmore]
      refine ⟨s, rfl, ?_⟩
      rw [List.append_nil]
      exact h

private theorem start_counts (h : start cfg = .ok s) : s.transport.sequenceGaps = 0 ∧
    s.transport.latePackets = 0 ∧ s.metrics.counts = countsOf cfg 0 0 0 0 := by
  simp only [start, bind_eq_ok] at h
  obtain ⟨⟨t₁, _⟩, hup, ⟨t₂, _⟩, hcreate, ⟨t₃, _⟩, hrun, hs⟩ := h
  cases hup
  have hcreate := orFail_eq_ok.mp hcreate
  have hrun := orFail_eq_ok.mp hrun
  unfold SimTransportEngine.createStream at hcreate
  unfold SimTransportEngine.startStream SimTransportEngine.setStreamState at hrun
  split at hcreate
  · cases hcreate
  · cases hcreate
    split at hrun
    · cases hrun
    · cases hrun
      cases hs
      refine ⟨rfl, rfl, ?_⟩
      simp [MetricsEngine.counts, countsOf, MetricsEngine.new, MetricsEngine.setLinkUp,
        MetricsEngine.setMemoryBuffers, MetricsEngine.onMemory, GpuRingBuffer.new,
        GpuRingBuffer.slotCount]

/-- The receiver starts with nothing taken. -/
theorem exists_start_sound (cfg : HostConfig) : ∃ s, start cfg = .ok s ∧ Sound cfg [] s := by
  obtain ⟨s, hstart, hlistening, hexpected, hidle, haccepted, -⟩ := exists_start cfg
  obtain ⟨-, hnic, hring, -⟩ := start_clock hstart
  obtain ⟨hgaps, hlate, hcounts⟩ := start_counts hstart
  refine ⟨s, hstart, hlistening, hidle, ?_, ?_, haccepted, hexpected, hgaps, hlate, ?_⟩
  · rw [hnic]
    rfl
  · rw [hring]
    exact GpuRingBuffer.serves_new cfg.gpuRing
  · rw [hcounts, haccepted, hgaps, hlate]
    rfl

/-- A run of the receiver in closed form. It takes whole bursts until enough packets have arrived.
It fails exactly when one of the arriving packets it takes finds a card without a queue or slots
that are too small, with the error of the first such packet. Otherwise it accepts every packet of
its stream that comes in time, counts a gap for each of them that does not carry the number after
the last one, and counts the late ones; and these numbers, with the payload bytes, give every
counter of the metrics. -/
theorem run_ends (cfg : HostConfig) (bursts : List (List Packet)) :
    let pkts := taken cfg 0 bursts
    EndsIn (run cfg bursts) (pkts.findSome? (refusal cfg)) fun r ↦
      r.accepted = pkts.countP (Arrives cfg ·) ∧
      r.sequenceGaps = breaks (· + 1) cfg.deadline.startSequence (arrivals cfg pkts) ∧
      r.latePackets = pkts.countP (ComesLate cfg ·) ∧
      r.timedOut = decide (r.accepted < cfg.symbols.toNat) ∧
      r.metrics.counts =
        countsOf cfg r.accepted (payloadBytes cfg pkts) r.sequenceGaps r.latePackets := by
  intro pkts
  obtain ⟨s₀, hstart, hsound⟩ := exists_start_sound cfg
  have hloop := recvLoop_ends bursts [] s₀ hsound
  have hnone : s₀.accepted = 0 := hsound.tallied.accepted
  rw [hnone, List.nil_append] at hloop
  rw [run, hstart, ← Option.or_none (o := List.findSome? _ _)]
  apply hloop.bind
  intro s hs
  exact ⟨_, rfl, hs.tallied.accepted, hs.tallied.gaps, hs.tallied.late, rfl, hs.tallied.counts⟩

end HostRecv

end AetherRadio
