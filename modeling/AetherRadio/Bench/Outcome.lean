import AetherRadio.Bench.Sequence
import AetherRadio.Bench.Server
import AetherRadio.Sim.Injector

/-!
# A bench run beside its server

The bench and the server go on together packet by packet, so that the report of a run is read off
what becomes of its packets at the server.
-/

namespace AetherRadio

open Verif

namespace PipelineBench

section Runs

variable (cfg : BenchConfig)

/-- The receive path lets the packets of all streams of the run pass to its checks. -/
def Admits (t : SimTransportEngine) : Prop :=
  t.link = .running ∧ ∀ id ∈ streamIds cfg, ∃ runtime, t.streams.get? ⟨id⟩ = some runtime ∧
    runtime.state = .running

variable {cfg} {s s' : BenchState} {packet : Packet}

theorem Admits.admission {t : SimTransportEngine} (h : Admits cfg t)
    (hstream : packet.streamId.val ∈ streamIds cfg) : t.admission packet = .ok () := by
  obtain ⟨hlink, hstreams⟩ := h
  obtain ⟨runtime, hknown, hrunning⟩ := hstreams _ hstream
  have hknown' : t.streams.get? packet.streamId = some runtime := hknown
  simp [SimTransportEngine.admission, hlink, hknown', hrunning]

/-- Setting up streams that are not known yet succeeds, and all of them run. -/
private theorem exists_setupStreams {ids : List UInt32} (hnodup : ids.Nodup)
    {t : SimTransportEngine}
    (hlink : t.link = .running) (hfresh : ∀ id ∈ ids, t.streams.get? ⟨id⟩ = none) :
    ∃ t', setupStreams cfg ids t = .ok t' ∧ t'.link = .running ∧
      (∀ id ∈ ids, ∃ runtime, t'.streams.get? ⟨id⟩ = some runtime ∧ runtime.state = .running) ∧
      ∀ id, id ∉ ids → t'.streams.get? ⟨id⟩ = t.streams.get? ⟨id⟩ := by
  induction ids generalizing t with
  | nil => exact ⟨t, rfl, hlink, fun _ h ↦ absurd h List.not_mem_nil, fun _ _ ↦ rfl⟩
  | cons id ids ih =>
    obtain ⟨hnew, hrest⟩ := List.nodup_cons.mp hnodup
    let scfg : StreamConfig :=
      { streamId := ⟨id⟩
        carrier := ((id - 1) % 4).toUInt16
        antenna := ((id - 1) / 4).toUInt16
        qos := 0
        deadlineNs := cfg.profile.latencyBudgetNs }
    let created : SimTransportEngine := { t with
      seq := t.seq.registerStream ⟨id⟩
      streams := t.streams.insert ⟨id⟩ { cfg := scfg, state := .idle } }
    let started : SimTransportEngine := { created with
      streams := created.streams.insert ⟨id⟩ { cfg := scfg, state := .running } }
    have hcreate : t.createStream scfg = (created, .ok ⟨id⟩) := by
      have hunknown : t.streams.get? scfg.streamId = none := hfresh id List.mem_cons_self
      rw [SimTransportEngine.createStream, hunknown]
    have hstart : created.startStream ⟨id⟩ = (started, .ok ()) := by
      have hknown : created.streams.get? ⟨id⟩ = some { cfg := scfg, state := .idle } :=
        Table.get?_insert_self ..
      rw [SimTransportEngine.startStream, SimTransportEngine.setStreamState, hknown]
    have hother (id' : UInt32) (hne : id' ≠ id) :
        started.streams.get? ⟨id'⟩ = t.streams.get? ⟨id'⟩ := by
      have hkey : (⟨id'⟩ : StreamId) ≠ ⟨id⟩ := fun heq ↦ hne (congrArg StreamId.val heq)
      exact (Table.get?_insert_of_ne _ _ hkey).trans (Table.get?_insert_of_ne _ _ hkey)
    obtain ⟨t', hsetup, hlink', hrunning, hkept⟩ := ih hrest (t := started) hlink
      fun id' hid' ↦ by
        rw [hother id' (fun heq ↦ hnew (heq ▸ hid'))]
        exact hfresh id' (List.mem_cons_of_mem _ hid')
    refine ⟨t', ?_, hlink', fun id' hid' ↦ ?_, fun id' hid' ↦ ?_⟩
    · rw [setupStreams, bind_eq_ok]
      refine ⟨_, orFail_eq_ok.mpr hcreate, ?_⟩
      rw [bind_eq_ok]
      exact ⟨_, orFail_eq_ok.mpr hstart, hsetup⟩
    · rcases List.mem_cons.mp hid' with heq | hmem
      · refine ⟨{ cfg := scfg, state := .running }, ?_, rfl⟩
        rw [heq, hkept id hnew]
        exact Table.get?_insert_self ..
      · exact hrunning id' hmem
    · rw [List.mem_cons, not_or] at hid'
      rw [hkept id' hid'.2, hother id' hid'.1]

variable {t : List (Packet × Fate)}

/-- The counters of a run, as the fates of its packets give them. -/
structure Counted (cfg : BenchConfig) (t : List (Packet × Fate)) (s : BenchState) : Prop where
  samples : s.latencies = latencies t
  bytes : s.bytes = payloadBytes t
  packets : s.packets = (latencies t).length
  symbolMiss : s.symbolMiss = (latencies t).countP (· > cfg.profile.latencyBudgetNs)
  gaps : s.transport.sequenceGaps = outOfSequence t
  late : s.transport.latePackets = lates t
  ringPeak : s.ringPeak = if cfg.RunsKernel ∧ latencies t ≠ [] then 1 else 0
  applied : s.applied = cfg.recoveryPolicy.map fun _ ↦
    outOfSequence t + lates t + if cfg.Overflows then (latencies t).length else 0

@[simp] theorem latencies_concat (packet : Packet) (fate : Fate) :
    latencies (t ++ [(packet, fate)]) = latencies t ++ fate.latencyNs?.toList := by
  rw [latencies, List.filterMap_append]
  cases fate <;> rfl

@[simp] theorem payloadBytes_concat (packet : Packet) (fate : Fate) :
    payloadBytes (t ++ [(packet, fate)]) =
      payloadBytes t + if fate = .late then 0 else packet.payload.length := by
  rw [payloadBytes, List.map_append, List.sum_append]
  rfl

@[simp] theorem lates_concat (packet : Packet) (fate : Fate) :
    lates (t ++ [(packet, fate)]) = lates t + if fate = .late then 1 else 0 := by
  rw [lates, List.countP_append, List.countP_singleton]
  simp only [decide_eq_true_eq]
  rfl

@[simp] theorem outOfSequence_concat (packet : Packet) (fate : Fate) :
    outOfSequence (t ++ [(packet, fate)]) = outOfSequence t + fate.isGap.toNat := by
  rw [outOfSequence, List.countP_append, List.countP_singleton]
  cases fate.isGap <;> rfl

/-- What the wire and the receive path leave behind. -/
structure Ingestion (cfg : BenchConfig) (packet : Packet) (s s' : BenchState) (gap old : Bool) :
    Prop where
  gaps : s'.transport.sequenceGaps = s.transport.sequenceGaps + gap.toNat
  late : s'.transport.latePackets = s.transport.latePackets + old.toNat
  applied : s'.applied = s.applied.map (· + (gap.toNat + old.toNat))
  frame : s' = { s with
    nowNs := cfg.arriveNs s.nowNs packet
    transport := s'.transport
    metrics := s'.metrics
    tracer := s'.tracer
    recovery := s'.recovery }

/-- A late packet is counted, and a recovery action for it. -/
theorem Counted.late_step (h : Counted cfg t s) (hstep : Ingestion cfg packet s s' false true) :
    Counted cfg (t ++ [(packet, .late)]) s' := by
  have hframe := hstep.frame
  constructor
  · rw [hframe, latencies_concat]
    exact h.samples.trans (List.append_nil _).symm
  · rw [hframe, payloadBytes_concat]
    exact h.bytes
  · rw [hframe, latencies_concat]
    exact h.packets.trans (congrArg List.length (List.append_nil _).symm)
  · rw [hframe, latencies_concat]
    exact h.symbolMiss.trans (congrArg (List.countP _) (List.append_nil _).symm)
  · rw [hstep.gaps, h.gaps, outOfSequence_concat]
    rfl
  · rw [hstep.late, h.late, lates_concat]
    rfl
  · rw [hframe, latencies_concat]
    simp only [Fate.latencyNs?, Option.toList_none, List.append_nil]
    exact h.ringPeak
  · rw [hstep.applied, h.applied, Option.map_map]
    simp only [latencies_concat, lates_concat, outOfSequence_concat, Fate.latencyNs?, Fate.isGap,
      Option.toList_none, List.append_nil, if_true]
    congr 1
    ext _
    simp only [Function.comp, Bool.toNat_false, Bool.toNat_true]
    omega

/-- A delivered packet is counted, with its sample, its bytes and its recovery actions. -/
theorem Counted.delivered_step (h : Counted cfg t s) {s₁ : BenchState} {gap : Bool}
    (hstep : Ingestion cfg packet s s₁ gap false) (hforward : Forwarding cfg packet s₁ s') :
    Counted cfg (t ++ [(packet, .delivered gap
      (satSub (cfg.doneNs (cfg.receivedNs (cfg.arriveNs s.nowNs packet)))
        packet.timestamp.val))]) s' := by
  have hframe := hstep.frame
  obtain ⟨-, -, hdelivery⟩ := hforward
  have hnow : s₁.nowNs = cfg.arriveNs s.nowNs packet := by rw [hframe]
  rw [hnow] at hdelivery
  constructor
  · rw [hdelivery.latencies, latencies_concat, hframe]
    exact congrArg (· ++ _) h.samples
  · rw [hdelivery.bytes, payloadBytes_concat, hframe]
    exact congrArg (· + _) h.bytes
  · rw [hdelivery.packets, latencies_concat, List.length_append, hframe]
    exact congrArg (· + 1) h.packets
  · rw [hdelivery.symbolMiss, latencies_concat, List.countP_append, hframe]
    refine congr (congrArg _ h.symbolMiss) ?_
    simp only [Fate.latencyNs?, Option.toList_some, List.countP_singleton, decide_eq_true_eq]
  · rw [hdelivery.transport, outOfSequence_concat]
    exact hstep.gaps.trans (congrArg (· + _) h.gaps)
  · rw [hdelivery.transport, lates_concat]
    exact hstep.late.trans (congrArg (· + _) h.late)
  · have hpeak := h.ringPeak
    have hsome : latencies t ++ Option.toList (some (satSub
      (cfg.doneNs (cfg.receivedNs (cfg.arriveNs s.nowNs packet))) packet.timestamp.val)) ≠ [] :=
        List.append_ne_nil_of_right_ne_nil _ (List.cons_ne_nil _ _)
    rw [hdelivery.ringPeak, latencies_concat, hframe]
    by_cases hruns : cfg.RunsKernel
    · rw [if_pos hruns, if_pos ⟨hruns, hsome⟩]
      show max s.ringPeak 1 = 1
      rw [hpeak]
      split <;> rfl
    · rw [if_neg hruns, if_neg (fun h ↦ hruns h.1)]
      show s.ringPeak = 0
      rw [hpeak, if_neg (fun h ↦ hruns h.1)]
  · rw [hdelivery.applied]
    show s₁.applied.map _ = _
    rw [hstep.applied, h.applied, Option.map_map, Option.map_map]
    simp only [latencies_concat, lates_concat, outOfSequence_concat, Fate.latencyNs?, Fate.isGap,
      Option.toList_some, List.length_append, List.length_singleton, reduceCtorEq, if_false]
    congr 1
    ext _
    simp only [Function.comp, Bool.toNat_false]
    split <;> omega

/-- The bench between two packets of a run, beside the server that has taken the same packets. -/
structure Serving (cfg : BenchConfig) (pre : List Packet) (s : BenchState) : Prop where
  quiet : Quiet s
  admits : Admits cfg s.transport
  ts : s.transport.ts = .fromConfig cfg.deadline
  nic : s.nic.cfg = cfg.nic
  ring : s.ring.Serves cfg.gpuRing
  nowNs : s.nowNs = (cfg.server.run cfg.idleServer pre).nowNs
  expected : ∀ id, s.transport.seq.expected id = (cfg.server.run cfg.idleServer pre).expected id
  counted : Counted cfg (cfg.server.trace cfg.idleServer pre) s

/-- What the receive path does to the checks of the packets to come. -/
structure Checks (cfg : BenchConfig) (packet : Packet) (s s' : BenchState) (old : Bool) :
    Prop where
  admits : Admits cfg s'.transport
  ts : s'.transport.ts = s.transport.ts
  inbox : s'.transport.inbox = s.transport.inbox ++ if old then [] else [packet]
  seq : s'.transport.seq = if old then s.transport.seq else s.transport.seq.afterAccept packet

/-- A packet of a stream of the run passes the wire and the receive path without an error. -/
private theorem ingest_ends (hadmits : Admits cfg s.transport)
    (hstream : packet.streamId.val ∈ streamIds cfg) :
    let old := decide (s.transport.ts.Late packet (cfg.arriveNs s.nowNs packet))
    let gap := decide (¬ s.transport.ts.Late packet (cfg.arriveNs s.nowNs packet) ∧
      packet.sequence.val ≠ s.transport.seq.expected packet.streamId)
    EndsIn (ingestOrRecover (depart cfg s packet).1 packet) none fun r ↦
      r.2 = !old ∧ Ingestion cfg packet s r.1 gap old ∧ Checks cfg packet s r.1 old := by
  intro old gap
  have hzero : s.applied = s.applied.map (· + (false.toNat + false.toNat)) := by
    cases s.applied <;> rfl
  have hadmission : (depart cfg s packet).1.transport.admission packet = .ok () :=
    hadmits.admission hstream
  unfold ingestOrRecover
  cases (depart cfg s packet).1.transport.ingest_exit packet with
  | refused e refusal admission eq =>
    rw [hadmission] at admission
    cases admission
  | late admission time eq =>
    have hold : old = true := decide_eq_true time
    have hgap : gap = false := decide_eq_false fun h ↦ h.1 time
    rw [eq, hgap, hold]
    exact ⟨_, rfl, rfl, ⟨rfl, rfl, BenchState.applied_applyRecovery .., rfl⟩, hadmits, rfl,
      (List.append_nil _).symm, rfl⟩
  | accepted admission time seq eq =>
    have hold : old = false := decide_eq_false time
    have hgap : gap = false := decide_eq_false fun h ↦ h.2 seq
    rw [eq, hgap, hold]
    exact ⟨_, rfl, rfl, ⟨rfl, rfl, hzero, rfl⟩, hadmits, rfl, rfl, rfl⟩
  | gap admission time seq eq =>
    have hold : old = false := decide_eq_false time
    have hgap : gap = true := decide_eq_true ⟨time, seq⟩
    have hrecover := SimTransportEngine.ingest_recover (congrArg Prod.snd eq)
    rw [eq, hgap, hold]
    rw [eq] at hrecover
    dsimp only [BenchState.applyRecovery]
    rw [hrecover]
    exact ⟨_, rfl, rfl, ⟨rfl, rfl, BenchState.applied_applyRecovery .., rfl⟩,
      ⟨rfl, hadmits.2⟩, rfl, rfl, rfl⟩

/-- The bench and the server go on together with a late packet. -/
theorem Serving.late_step {pre : List Packet} (h : Serving cfg pre s)
    (time : s.transport.ts.Late packet (cfg.arriveNs s.nowNs packet))
    (hstep : Ingestion cfg packet s s' false true) (hchecks : Checks cfg packet s s' true) :
    Serving cfg (pre ++ [packet]) s' := by
  have hframe := hstep.frame
  have hcounted := h.counted.late_step hstep
  rw [h.ts, h.nowNs] at time
  have hserve := BenchConfig.serve_late time
  have hrun : cfg.server.run cfg.idleServer (pre ++ [packet]) = _ :=
    (cfg.server.run_append ..).trans (congrArg Prod.fst hserve)
  have htrace : cfg.server.trace cfg.idleServer (pre ++ [packet]) =
      cfg.server.trace cfg.idleServer pre ++ [(packet, .late)] :=
    (cfg.server.trace_append ..).trans
      (congrArg (fun r ↦ _ ++ [(packet, Prod.snd r)]) hserve)
  refine ⟨⟨?_, ?_⟩, hchecks.admits, hchecks.ts.trans h.ts, ?_, ?_, ?_, ?_, ?_⟩
  · rw [hchecks.inbox, h.quiet.inbox]
    rfl
  · rw [hframe]
    exact h.quiet.nic
  · rw [hframe]
    exact h.nic
  · rw [hframe]
    exact h.ring
  · rw [hframe, hrun, h.nowNs]
  · intro id
    rw [hchecks.seq, hrun]
    exact h.expected id
  · rw [htrace]
    exact hcounted

/-- And with one that is delivered. -/
theorem Serving.delivered_step {pre : List Packet} {s₁ : BenchState} (h : Serving cfg pre s)
    (time : ¬ s.transport.ts.Late packet (cfg.arriveNs s.nowNs packet))
    (hstep : Ingestion cfg packet s s₁
      (packet.sequence.val ≠ s.transport.seq.expected packet.streamId) false)
    (hchecks : Checks cfg packet s s₁ false) (hforward : Forwarding cfg packet s₁ s') :
    Serving cfg (pre ++ [packet]) s' := by
  have hdelivery := hforward.delivery
  have hnow : s₁.nowNs = cfg.arriveNs s.nowNs packet := by rw [hstep.frame]
  have htransport : s'.transport = { s₁.transport with inbox := [] } := hdelivery.transport
  have hcounted := h.counted.delivered_step hstep hforward
  rw [h.expected, h.nowNs] at hcounted
  rw [h.ts, h.nowNs] at time
  have hserve := BenchConfig.serve_delivered time
  have hrun : cfg.server.run cfg.idleServer (pre ++ [packet]) = _ :=
    (cfg.server.run_append ..).trans (congrArg Prod.fst hserve)
  have htrace : cfg.server.trace cfg.idleServer (pre ++ [packet]) =
      cfg.server.trace cfg.idleServer pre ++ [(packet, _)] :=
    (cfg.server.trace_append ..).trans
      (congrArg (fun r ↦ _ ++ [(packet, Prod.snd r)]) hserve)
  refine ⟨⟨?_, hforward.idle⟩, ?_, ?_, hforward.nic, hdelivery.ring, ?_, ?_, ?_⟩
  · rw [htransport]
  · rw [htransport]
    exact hchecks.admits
  · rw [htransport]
    exact hchecks.ts.trans h.ts
  · rw [hdelivery.nowNs, hrun, hnow, h.nowNs]
  · intro id
    rw [htransport, hrun]
    dsimp only
    rw [hchecks.seq, if_neg Bool.false_ne_true]
    by_cases hid : id = packet.streamId
    · rw [hid, SequenceChecker.expected_afterAccept_self, Function.update_self]
    · rw [SequenceChecker.expected_afterAccept_of_ne _ hid, Function.update_of_ne hid, h.expected]
  · rw [htrace]
    exact hcounted

/-- A packet fails where its fate is refused, and otherwise the bench and the server go on together.
-/
private theorem processOne_ends {pre : List Packet} (h : Serving cfg pre s)
    (hstream : packet.streamId.val ∈ streamIds cfg) :
    EndsIn (processOne cfg s packet)
      (cfg.fateRefusal packet (cfg.server.step (cfg.server.run cfg.idleServer pre) packet).2)
      (Serving cfg (pre ++ [packet])) := by
  show EndsIn _ (cfg.fateRefusal packet (cfg.serve _ packet).2) _
  have hingest := ingest_ends h.admits hstream
  rw [processOne, ← Option.none_or (o := cfg.fateRefusal _ _)]
  apply hingest.bind
  rintro ⟨s₁, through⟩ ⟨hthrough, hstep, hchecks⟩
  dsimp only at hthrough hstep hchecks ⊢
  rw [hthrough]
  by_cases htime : s.transport.ts.Late packet (cfg.arriveNs s.nowNs packet)
  · rw [decide_eq_true htime] at hstep hchecks ⊢
    rw [decide_eq_false fun h ↦ h.1 htime] at hstep
    have hserving := h.late_step htime hstep hchecks
    rw [h.ts, h.nowNs] at htime
    rw [BenchConfig.serve_late htime]
    exact ⟨s₁, rfl, hserving⟩
  · rw [decide_eq_false htime] at hstep hchecks ⊢
    simp only [htime, not_false_eq_true, true_and] at hstep
    have hserving (s' : BenchState) (hforward : Forwarding cfg packet s₁ s') :=
      h.delivered_step htime hstep hchecks hforward
    rw [h.ts, h.nowNs] at htime
    rw [BenchConfig.serve_delivered htime]
    have hinbox : s₁.transport.inbox = [packet] := by
      rw [hchecks.inbox, h.quiet.inbox]
      rfl
    have hidle : s₁.nic.Idle := by
      rw [hstep.frame]
      exact h.quiet.nic
    have hnic : s₁.nic.cfg = cfg.nic := by
      rw [hstep.frame]
      exact h.nic
    have hring : s₁.ring.Serves cfg.gpuRing := by
      rw [hstep.frame]
      exact h.ring
    have hforward := forward_ends hinbox hidle hnic hring (depart cfg s packet).2
    exact hforward.mono hserving

/-- A run starts beside the idle server. -/
theorem exists_start_serving (cfg : BenchConfig) : ∃ s, start cfg = .ok s ∧ Serving cfg [] s := by
  let linked := (SimTransportEngine.new cfg.deadline).linkUp.1
  obtain ⟨t, hsetup, hlink, hrunning, -⟩ := @exists_setupStreams cfg _ (streamIds_nodup cfg)
    linked rfl fun _ _ ↦ rfl
  have hstart : start cfg = .ok _ := bind_eq_ok.mpr ⟨t, hsetup, rfl⟩
  obtain ⟨hquiet, -⟩ := start_balanced hstart
  obtain ⟨heq, hexpected⟩ := setupStreams_step hsetup
  refine ⟨_, hstart, hquiet, ⟨hlink, hrunning⟩, ?_, rfl, GpuRingBuffer.serves_new cfg.gpuRing, rfl,
    hexpected, rfl, rfl, rfl, rfl, ?_, ?_, ?_, ?_⟩
  · show t.ts = _
    rw [heq]
    rfl
  · show t.sequenceGaps = _
    rw [heq]
    rfl
  · show t.latePackets = _
    rw [heq]
    rfl
  · exact (if_neg fun h ↦ h.2 rfl).symm
  · show (cfg.recoveryPolicy.map RecoveryExecutor.new).map _ = _
    rw [Option.map_map]
    congr 1
    ext _
    split <;> rfl

/-- What a run offers is on its streams. -/
private theorem offered_stream (h : packet ∈ offered cfg) :
    packet.streamId.val ∈ streamIds cfg := by
  have hperm := (FaultInjector.new cfg.fault).pushAll_perm (emitted cfg)
  have hmem := List.mem_of_mem_filter (hperm.mem_iff.mp h)
  obtain ⟨source, hsource, rfl⟩ := List.mem_map.mp hmem
  have hlabel : label source ∈ (emitted cfg).map label := List.mem_map_of_mem hsource
  rw [label_emitted] at hlabel
  obtain ⟨k, -, hround⟩ := List.mem_flatMap.mp hlabel
  obtain ⟨id, hid, heq⟩ := List.mem_map.mp hround
  have hstream : source.streamId = ⟨id⟩ := (congrArg Prod.fst heq).symm
  rw [FaultInjectionConfig.mutatePacket_streamId, hstream]
  exact hid

end Runs

variable (cfg : BenchConfig)

/-- What becomes of the packets of a run. -/
def fates : List (Packet × Fate) := cfg.server.trace cfg.idleServer (offered cfg)

/-- What a run fails with. -/
def refusal : Option PipelineBenchError :=
  if cfg.profile.gpuBackend.toLower = "cuda" then
    some (.config "gpu_backend=cuda requires benchmark/cli `--features cuda`")
  else if cfg.profile.symbolCount.toNat * cfg.streamCount * 8 ≥ 2 ^ 63 then some .capacityOverflow
  else (fates cfg).findSome? fun entry ↦ cfg.fateRefusal entry.1 entry.2

/-- The report of the server. -/
def served : BenchReport :=
  let t := fates cfg
  { latencies := (latencies t).insertionSort (· ≤ ·)
    slotMiss := 0
    symbolMiss := (latencies t).countP (· > cfg.profile.latencyBudgetNs)
    packets := (latencies t).length
    bytes := payloadBytes t
    sequenceGaps := outOfSequence t
    latePackets := lates t
    simDurationNs := (cfg.server.run cfg.idleServer (offered cfg)).nowNs
    recoveryActions :=
      if cfg.recoveryPolicy.isSome then
        outOfSequence t + lates t + if cfg.Overflows then (latencies t).length else 0
      else 0
    ringOccupancyPeak := if cfg.RunsKernel ∧ latencies t ≠ [] then 1 else 0 }

/-- The loops of a run fail at the first packet whose fate is refused, and otherwise end in the
report of the server. -/
theorem loops_ends {s₀ : BenchState} (h : Serving cfg [] s₀) :
    EndsIn (loops cfg s₀)
      ((fates cfg).findSome? fun entry ↦ cfg.fateRefusal entry.1 entry.2)
      fun r ↦ r.report = served cfg ∧ r.injector = (pushed cfg).1.flush.1 := by
  have hloop : EndsIn ((offered cfg).foldlM (processOne cfg) s₀)
      ((fates cfg).findSome? fun entry ↦ cfg.fateRefusal entry.1 entry.2)
      (Serving cfg ([] ++ offered cfg)) :=
    cfg.server.endsIn_foldlM cfg.fateRefusal (offered cfg)
      (fun pre packet hpacket s h ↦ processOne_ends h (offered_stream hpacket)) h
  rw [loops_eq, ← Option.or_none (o := List.findSome? _ _)]
  apply hloop.bind
  intro s hends
  rw [List.nil_append] at hends
  have hcounted : Counted cfg (fates cfg) s := hends.counted
  have hactions : s.applied.getD 0 = if cfg.recoveryPolicy.isSome then
    outOfSequence (fates cfg) + lates (fates cfg) +
      if cfg.Overflows then (latencies (fates cfg)).length else 0
  else 0 := by
    rw [hcounted.applied]
    cases cfg.recoveryPolicy <;> rfl
  refine ⟨_, rfl, ?_, rfl⟩
  unfold finish served
  dsimp only
  rw [← hactions, hcounted.samples, hcounted.symbolMiss, hcounted.packets, hcounted.bytes,
    hcounted.gaps, hcounted.late, hends.nowNs, hcounted.ringPeak]
  rfl

/-- A run of the bench is a run of one server with one clock. It fails exactly when its backend is
not compiled in, its buffers cannot be allocated, or a packet that is not late there meets a card
without a queue or slots that are too small, with the error of the first such packet; otherwise its
report is the server's, and the drops are the injector's. The configurations are taken as parsed,
and the event log is taken to open. -/
theorem run_refines_server :
    EndsIn (run cfg) (refusal cfg) fun r ↦
      r.report = served cfg ∧ r.injector = (pushed cfg).1.flush.1 := by
  unfold run refusal
  by_cases hcuda : cfg.profile.gpuBackend.toLower = "cuda"
  · rw [if_pos hcuda, if_pos hcuda]
    rfl
  · rw [if_neg hcuda, if_neg hcuda]
    obtain ⟨s₀, hstart, hserving⟩ := exists_start_serving cfg
    rw [hstart]
    by_cases hlarge : cfg.profile.symbolCount.toNat * cfg.streamCount * 8 ≥ 2 ^ 63
    · rw [if_pos hlarge]
      show ite _ _ _ = _
      rw [if_pos hlarge]
    · rw [if_neg hlarge]
      show EndsIn (ite _ _ _) _ _
      rw [if_neg hlarge]
      exact loops_ends cfg hserving

end PipelineBench

end AetherRadio
