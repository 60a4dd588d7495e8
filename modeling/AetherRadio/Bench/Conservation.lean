import AetherRadio.Bench.Run
import AetherRadio.Bench.Step

/-!
# Packet conservation

Over a whole run every packet offered to the receive path is delivered or late, and the counters
of the report and of the metrics are all determined by the deliveries, the gaps and the late
packets.
-/

namespace AetherRadio

open Verif

namespace PipelineBench

variable {cfg : BenchConfig} {s s' : BenchState} {packet : Packet}

/-- Nothing is in flight between two packets. -/
structure Quiet (s : BenchState) : Prop where
  inbox : s.transport.inbox = []
  nic : s.nic.Idle

/-- Every packet is done with when the next one comes. -/
theorem Quiet.step (h : Quiet s) (hprocess : processOne cfg s packet = .ok s') : Quiet s' := by
  cases processOne_step h.inbox h.nic hprocess with
  | late _ htransport _ hnic => exact ⟨by rw [htransport, h.inbox], hnic ▸ h.nic⟩
  | delivered _ _ _ _ _ hinbox _ _ _ _ hnic => exact ⟨hinbox, hnic⟩

/-- The counters of a run that has processed some packets and found the ring full some times. -/
structure Balanced (cfg : BenchConfig) (seen : List Packet) (full : Nat) (s : BenchState) :
    Prop where
  delivered : s.packets = s.delivered.length
  seen : s.packets + s.transport.latePackets = seen.length
  full_le : full ≤ s.packets
  tally : s.metrics.tally =
    { rx := 2 * s.packets
      tx := s.packets
      gaps := s.transport.sequenceGaps
      late := s.transport.latePackets
      drop := 0
      samples := s.packets
      symbols := s.packets
      misses := s.symbolMiss + s.transport.latePackets
      full }
  applied : s.applied = cfg.recoveryPolicy.map fun _ ↦
    s.transport.sequenceGaps + s.transport.latePackets + full

/-- A packet keeps the counters balanced, as long as the saturating counter has room. -/
theorem Balanced.step {seen : List Packet} {n : Nat} (h : Balanced cfg seen n s)
    (hroom : seen.length < 2 ^ 60) (hstep : PacketStep cfg s s' packet) :
    ∃ n', Balanced cfg (seen ++ [packet]) n' s' := by
  have hseen := h.seen
  have hle := h.full_le
  cases hstep with
  | late htime htransport hnow hnic hdelivered hpackets hmiss htally happlied =>
    refine ⟨n, ?_⟩
    exact
      { delivered := by rw [hpackets, hdelivered, h.delivered]
        seen := by
          rw [hpackets, htransport, List.length_append, List.length_singleton]
          dsimp only
          omega
        full_le := by rw [hpackets]; exact hle
        tally := by
          rw [htally, h.tally, htransport, hpackets, hmiss]
          rfl
        applied := by
          rw [happlied, h.applied, htransport, Option.map_map]
          congr 1
          ext _
          dsimp only [Function.comp]
          omega }
  | delivered gap miss full htime hgap hinbox hseq hts hgaps hlate hnic hdelivered hpackets hmiss
      htally happlied =>
    have hcount : (if full then satCount n 1 else n) = n + full.toNat := by
      cases full with
      | false => rfl
      | true => exact satCount_of_lt (by omega)
    have hbit := full.toNat_le
    refine ⟨n + full.toNat, ?_⟩
    exact
      { delivered := by rw [hpackets, hdelivered, h.delivered, List.length_append]; rfl
        seen := by
          rw [hpackets, hlate, List.length_append, List.length_singleton]
          omega
        full_le := by omega
        tally := by
          rw [htally, h.tally, hpackets, hgaps, hlate, hmiss]
          dsimp only
          rw [hcount]
          congr 1
          omega
        applied := by
          rw [happlied, h.applied, hgaps, hlate, Option.map_map]
          congr 1
          ext _
          dsimp only [Function.comp]
          omega }

/-- Setting up streams touches the registry only, and no stream expects another number than
before. -/
theorem setupStreams_step {ids : List UInt32} {t t' : SimTransportEngine}
    (h : setupStreams cfg ids t = .ok t') :
    t' = { t with streams := t'.streams, seq := t'.seq } ∧
      ∀ id, t'.seq.expected id = t.seq.expected id := by
  induction ids generalizing t with
  | nil =>
    cases h
    exact ⟨rfl, fun _ ↦ rfl⟩
  | cons id ids ih =>
    rw [setupStreams] at h
    simp only [bind_eq_ok] at h
    obtain ⟨⟨t₁, _⟩, hcreate, ⟨t₂, _⟩, hstart, hrest⟩ := h
    have hcreate := orFail_eq_ok.mp hcreate
    have hstart := orFail_eq_ok.mp hstart
    obtain ⟨heq, hexpected⟩ := ih hrest
    unfold SimTransportEngine.createStream at hcreate
    split at hcreate
    · cases hcreate
    · cases hcreate
      unfold SimTransportEngine.startStream SimTransportEngine.setStreamState at hstart
      split at hstart
      · cases hstart
      · cases hstart
        refine ⟨heq, fun id' ↦ ?_⟩
        rw [hexpected]
        exact SequenceChecker.expected_registerStream ..

/-- Before the first packet nothing has happened, and every stream expects the configured start. -/
theorem start_expected (h : start cfg = .ok s) :
    s.nowNs = 0 ∧ s.packets = 0 ∧ s.delivered = [] ∧ s.transport.sequenceGaps = 0 ∧
      s.transport.ts = .fromConfig cfg.deadline ∧
      ∀ id, s.transport.seq.expected id = cfg.deadline.startSequence := by
  rw [start, bind_eq_ok] at h
  obtain ⟨t, hsetup, hs⟩ := h
  obtain ⟨heq, hexpected⟩ := setupStreams_step hsetup
  cases hs
  exact ⟨rfl, rfl, rfl, by rw [heq]; rfl, by rw [heq]; rfl, hexpected⟩

/-- A run starts with nothing in flight and balanced counters. -/
theorem start_balanced (h : start cfg = .ok s) : Quiet s ∧ Balanced cfg [] 0 s := by
  rw [start, bind_eq_ok] at h
  obtain ⟨t, hsetup, hs⟩ := h
  obtain ⟨heq, -⟩ := setupStreams_step hsetup
  cases hs
  have hinbox : t.inbox = [] := by rw [heq]; rfl
  have hgaps : t.sequenceGaps = 0 := by rw [heq]; rfl
  have hlate : t.latePackets = 0 := by rw [heq]; rfl
  refine ⟨⟨hinbox, rfl, rfl⟩, rfl, ?_, Nat.le_refl 0, ?_, ?_⟩
  · exact (Nat.zero_add _).trans hlate
  · dsimp only
    rw [hgaps, hlate]
    rfl
  · dsimp only
    rw [hgaps, hlate]
    rw [BenchState.applied, Option.map_map]
    rfl

/-- Between any two packets of a run nothing is in flight. -/
private theorem quiet_between {s₀ : BenchState} {pre : List Packet} (hstart : start cfg = .ok s₀)
    (hrun : pre.foldlM (processOne cfg) s₀ = .ok s) : Quiet s :=
  foldlM_invariant (P := fun _ s ↦ Quiet s) hrun (start_balanced hstart).1
    fun _ _ _ _ _ _ hquiet hstep ↦ hquiet.step hstep

/-- Over a whole run the counters stay balanced. -/
theorem balanced_of_run {s₀ : BenchState} (hstart : start cfg = .ok s₀)
    (hsize : cfg.profile.symbolCount.toNat * cfg.streamCount * 8 < 2 ^ 63)
    (hrun : (offered cfg).foldlM (processOne cfg) s₀ = .ok s) :
    ∃ n, Balanced cfg (offered cfg) n s := by
  have hoffered := length_offered cfg
  refine (foldlM_invariant (P := fun seen s ↦ Quiet s ∧ ∃ n, Balanced cfg seen n s) hrun
    ⟨(start_balanced hstart).1, 0, (start_balanced hstart).2⟩ ?_).2
  rintro pre packet post s₁ s₂ hsplit ⟨hquiet, n, hbalanced⟩ hprocess
  have hlength := congrArg List.length hsplit
  rw [List.length_append] at hlength
  exact ⟨hquiet.step hprocess,
    hbalanced.step (by omega) (processOne_step hquiet.inbox hquiet.nic hprocess)⟩

/-- The counters a run ends with: the drops are added to what the loops have counted. -/
theorem Balanced.finish_tally {seen : List Packet} {n : Nat} (h : Balanced cfg seen n s) :
    (finish (pushed cfg).1.flush.1 s).metrics.tally =
      { rx := 2 * s.packets
        tx := s.packets
        gaps := s.transport.sequenceGaps
        late := s.transport.latePackets
        drop := (pushed cfg).1.dropped
        samples := s.packets
        symbols := s.packets
        misses := s.symbolMiss + s.transport.latePackets
        full := n } := by
  have htally : (finish (pushed cfg).1.flush.1 s).metrics.tally =
      { s.metrics.tally with drop := s.metrics.tally.drop + (pushed cfg).1.dropped } :=
    MetricsEngine.tally_iterate_recordDrop ..
  rwa [h.tally, Nat.zero_add] at htally

/-- What the receive path promises about the next packet: the second try after a gap succeeds, what
is received is the packet, and the burst after a submission is that packet alone. -/
structure SoundStep (cfg : BenchConfig) (s : BenchState) (packet : Packet) : Prop where
  reingest : let departed := (depart cfg s packet).1.transport
    ∀ expected got, (departed.ingest packet).2 = .error (.sequenceGap expected got) →
      (((departed.ingest packet).1.recoverSequence packet.streamId got).ingest packet).2 = .ok ()
  received : ∀ s₁, ingestOrRecover (depart cfg s packet).1 packet = .ok (s₁, true) →
    s₁.transport.receive.2 = .ok (some packet)
  burst : ∀ s₁ s₂ tid, ingestOrRecover (depart cfg s packet).1 packet = .ok (s₁, true) →
    submit cfg { s₁ with transport := s₁.transport.receive.1 } tid packet = .ok s₂ →
    (s₂.nic.rxBurst 32).2 = [packet]

/-- With nothing in flight the receive path keeps its promises. -/
private theorem Quiet.soundStep (h : Quiet s) (packet : Packet) : SoundStep cfg s packet := by
  refine ⟨fun expected got hgap ↦ ?_, fun s₁ hingest ↦ ?_, fun s₁ s₂ tid hingest hsubmit ↦ ?_⟩
  · rw [SimTransportEngine.ingest_recover hgap]
  · obtain ⟨hinbox, -⟩ := (ingestOrRecover_step hingest).alone h.inbox h.nic
    rw [SimTransportEngine.receive_result, hinbox]
    rfl
  · obtain ⟨-, hidle⟩ := (ingestOrRecover_step hingest).alone h.inbox h.nic
    exact (submit_step (s := { s₁ with transport := s₁.transport.receive.1 }) hidle hsubmit).1

/-- A run that succeeds has delivered, dropped or counted as late every packet emitted, and its
counters agree with each other. At every packet of any run the receive path keeps its promises. -/
theorem run_conserves_packets (cfg : BenchConfig) :
    (∀ r, run cfg = .ok r →
      let report := r.report
      let transport := r.metrics.layered.transport
      let radio := r.metrics.layered.radio
      cfg.profile.symbolCount.toNat * max cfg.profile.streams.toNat 1 =
        report.packets + r.injector.dropped + report.latePackets ∧
      report.packets = transport.txPackets ∧
      report.packets = radio.symbolReceived ∧
      report.packets = transport.latencySamples ∧
      transport.drop = r.injector.dropped ∧
      transport.gapCount = report.sequenceGaps ∧
      transport.latePacket = report.latePackets ∧
      radio.deadlineMiss = report.symbolMiss + report.latePackets ∧
      (cfg.recoveryPolicy.isSome → report.recoveryActions =
        report.sequenceGaps + report.latePackets + r.metrics.layered.memory.bufferFull)) ∧
    ∀ s₀ pre packet post s, start cfg = .ok s₀ → offered cfg = pre ++ packet :: post →
      pre.foldlM (processOne cfg) s₀ = .ok s → SoundStep cfg s packet := by
  constructor
  · intro r hrun
    obtain ⟨-, hsize, s₀, s, hstart, hfold, rfl⟩ := (run_eq_ok cfg).mp hrun
    obtain ⟨n, hbalanced⟩ := balanced_of_run hstart hsize hfold
    have htally := hbalanced.finish_tally
    refine ⟨?_, (congrArg (·.tx) htally).symm, (congrArg (·.symbols) htally).symm,
      (congrArg (·.samples) htally).symm, congrArg (·.drop) htally, congrArg (·.gaps) htally,
      congrArg (·.late) htally, congrArg (·.misses) htally, fun hpolicy ↦ ?_⟩
    · have hoffered := length_offered cfg
      have hseen := hbalanced.seen
      rw [BenchConfig.streamCount] at hoffered
      show _ = s.packets + (pushed cfg).1.dropped + s.transport.latePackets
      omega
    · have hfull : (finish (pushed cfg).1.flush.1 s).metrics.layered.memory.bufferFull = n :=
        congrArg (·.full) htally
      rw [hfull]
      show s.applied.getD 0 = s.transport.sequenceGaps + s.transport.latePackets + n
      rw [hbalanced.applied, ← Option.some_get hpolicy]
      rfl
  · intro s₀ pre packet post s hstart _ hpre
    exact (quiet_between hstart hpre).soundStep packet

/-- One stream of four symbols: the first packet is lost, and the kernel delay after the second
makes the third late. -/
def lossyBench : BenchConfig :=
  { profile := ⟨4, 1, 10000, false, true, true, "sim"⟩
    timing := ⟨10, 14, 1000, 1⟩
    tone := fun _ _ ↦ ⟨0, 0⟩
    eth := ⟨fun _ ↦ 0, 0⟩
    deadline := ⟨3500, false, 0⟩
    nic := ⟨100, 8, 8⟩
    gpuRing := ⟨4, 64, 200⟩
    fault :=
      { enabled := true
        lossPeriod := some ⟨4, by decide⟩
        configuredLatencyNs := 0
        burstLength := 0
        configuredKernelNs := 5000
        burstStart := 0
        reorderDistance := 0
        sequenceJump := 0
        timestampSkewNs := 0 }
    traceEnabled := false
    traceCapacity := 0
    recoveryPolicy := some ⟨.empty⟩ }

theorem lossyBench_gpuBackend : lossyBench.profile.gpuBackend.toLower ≠ "cuda" := by
  intro h
  have hchars : (lossyBench.profile.gpuBackend.map Char.toLower).toList = "cuda".toList :=
    congrArg String.toList h
  rw [String.toList_map] at hchars
  exact absurd hchars (by decide)

/-- The lossy run delivers two packets, both after a gap; one was dropped and one late. -/
theorem exists_run_lossy : ∃ r, run lossyBench = .ok r ∧ (r.report.packets = 2 ∧
    r.injector.dropped = 1 ∧ r.report.latePackets = 1 ∧ r.report.sequenceGaps = 2) := by
  obtain ⟨r, hrun, hr⟩ := exists_run lossyBench
    (fun r ↦ decide (r.report.packets = 2 ∧ r.injector.dropped = 1 ∧ r.report.latePackets = 1 ∧
      r.report.sequenceGaps = 2)) lossyBench_gpuBackend (by decide) (by rfl)
  exact ⟨r, hrun, of_decide_eq_true hr⟩

/-- The lossy run accounts for its four packets. -/
theorem run_conserves_packets_lossy : ∃ r, run lossyBench = .ok r ∧
    4 = r.report.packets + r.injector.dropped + r.report.latePackets := by
  obtain ⟨r, hrun, -⟩ := exists_run_lossy
  exact ⟨r, hrun, ((run_conserves_packets lossyBench).1 r hrun).1⟩

end PipelineBench

end AetherRadio
