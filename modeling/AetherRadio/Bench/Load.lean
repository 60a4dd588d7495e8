import AetherRadio.Bench.Outcome
import AetherRadio.Lib.Backlog
import AetherRadio.Sim.Emitter

/-!
# The load of a bench run

All streams of a run send a symbol at the same time, and the server takes their packets one after
the other. Without faults the backlog of one symbol is passed on to the next, so that the latencies
of a run, and whether a packet comes late, are those of a queue of batches.
-/

namespace AetherRadio

open Verif Verif.Backlog

namespace BenchConfig

variable (cfg : BenchConfig)

/-- The delays of a packet until it is received. -/
def crossNs (packet : Packet) : Nat :=
  (cfg.wireNs packet).toNat + cfg.fault.extraLatencyNs.toNat

variable {cfg} {packet : Packet} {nowNs : UInt64}

private theorem toNat_arriveNs : (cfg.arriveNs nowNs packet).toNat =
    min (max nowNs.toNat packet.timestamp.val.toNat + cfg.crossNs packet) (2 ^ 64 - 1) := by
  have hsent : (max nowNs packet.timestamp.val).toNat =
      min (max nowNs.toNat packet.timestamp.val.toNat) (2 ^ 64 - 1) := by
    have hnow := nowNs.toNat_lt
    have htimestamp := packet.timestamp.val.toNat_lt
    rw [toNat_max]
    omega
  have harrive := toNat_satAdd_of_min (toNat_satAdd_of_min hsent (cfg.wireNs packet))
    cfg.fault.extraLatencyNs
  rw [Nat.add_assoc] at harrive
  exact harrive

private theorem crossNs_le_delayNs : cfg.crossNs packet ≤ cfg.delayNs packet := by
  unfold crossNs delayNs
  omega

/-- While the clock does not come to its end, a packet is late when the server takes it too late. -/
theorem late_iff
    (h : max nowNs.toNat packet.timestamp.val.toNat + cfg.delayNs packet < 2 ^ 64) :
    (TimestampChecker.fromConfig cfg.deadline).Late packet (cfg.arriveNs nowNs packet) ↔
      packet.timestamp.val.toNat + cfg.deadline.maxLatencyNs.toNat <
        max nowNs.toNat packet.timestamp.val.toNat + cfg.crossNs packet := by
  have hcross := @crossNs_le_delayNs cfg packet
  have harrive := @toNat_arriveNs cfg packet nowNs
  show satSub _ _ > cfg.deadline.maxLatencyNs ↔ _
  rw [gt_iff_lt, UInt64.lt_iff_toNat_lt, toNat_satSub, harrive]
  omega

private theorem toNat_doneNs_of_lt
    (h : max nowNs.toNat packet.timestamp.val.toNat + cfg.delayNs packet < 2 ^ 64) :
    (cfg.doneNs (cfg.receivedNs (cfg.arriveNs nowNs packet))).toNat =
      max nowNs.toNat packet.timestamp.val.toNat + cfg.delayNs packet := by
  rw [toNat_deliveredNs]
  omega

end BenchConfig

namespace PipelineBench

/-- When the packets were sent. -/
def sentNs (packets : List Packet) : List Nat := packets.map (·.timestamp.val.toNat)

@[simp] theorem lates_late_cons (packet : Packet) (t : List (Packet × Fate)) :
    lates ((packet, .late) :: t) = lates t + 1 := List.countP_cons_of_pos (decide_eq_true rfl)

@[simp] theorem lates_delivered_cons (packet : Packet) (gap : Bool) (latencyNs : UInt64)
    (t : List (Packet × Fate)) : lates ((packet, .delivered gap latencyNs) :: t) = lates t :=
  List.countP_cons_of_neg (by simp)

section Queue

variable {cfg : BenchConfig} {cross delay : Nat}

/-- A packet in time is served like a job of a queue. -/
theorem serve_of_in_time {packet : Packet} {v : BenchServer}
    (hroom : max v.nowNs.toNat packet.timestamp.val.toNat + cfg.delayNs packet < 2 ^ 64)
    (htime : max v.nowNs.toNat packet.timestamp.val.toNat + cfg.crossNs packet ≤
      packet.timestamp.val.toNat + cfg.deadline.maxLatencyNs.toNat) :
    ∃ gap latencyNs, (cfg.serve v packet).2 = .delivered gap latencyNs ∧
      latencyNs.toNat = max v.nowNs.toNat packet.timestamp.val.toNat + cfg.delayNs packet -
        packet.timestamp.val.toNat ∧
      (cfg.serve v packet).1.nowNs.toNat =
        max v.nowNs.toNat packet.timestamp.val.toNat + cfg.delayNs packet := by
  have hdone := BenchConfig.toNat_doneNs_of_lt hroom
  have hserve := BenchConfig.serve_delivered
    (fun hlate ↦ absurd ((BenchConfig.late_iff hroom).mp hlate) (Nat.not_lt.mpr htime))
  rw [hserve]
  refine ⟨_, _, rfl, ?_, hdone⟩
  rw [toNat_satSub, hdone]

/-- As long as no packet is late, the server is the server of a queue. -/
theorem lates_eq_zero_iff (packets : List Packet) (v : BenchServer)
    (hcross : ∀ packet ∈ packets, cfg.crossNs packet = cross)
    (hdelay : ∀ packet ∈ packets, cfg.delayNs packet = delay)
    (hroom : ∀ job ∈ Backlog.schedule delay v.nowNs.toNat (sentNs packets),
      job.1 + delay < 2 ^ 64) :
    lates (cfg.server.trace v packets) = 0 ↔
      ∀ job ∈ Backlog.schedule delay v.nowNs.toNat (sentNs packets),
        job.1 + cross ≤ job.2 + cfg.deadline.maxLatencyNs.toNat := by
  induction packets generalizing v with
  | nil => exact ⟨fun _ _ h ↦ absurd h List.not_mem_nil, fun _ ↦ rfl⟩
  | cons packet packets ih =>
    have hfirst := hroom _ List.mem_cons_self
    rw [← hdelay packet List.mem_cons_self] at hfirst
    show lates ((packet, (cfg.serve v packet).2) :: cfg.server.trace (cfg.serve v packet).1 packets)
      = 0 ↔ ∀ job ∈ (max v.nowNs.toNat packet.timestamp.val.toNat, packet.timestamp.val.toNat) ::
        Backlog.schedule delay (max v.nowNs.toNat packet.timestamp.val.toNat + delay)
          (sentNs packets), _
    rw [List.forall_mem_cons]
    by_cases htime : max v.nowNs.toNat packet.timestamp.val.toNat + cross ≤
      packet.timestamp.val.toNat + cfg.deadline.maxLatencyNs.toNat
    · rw [← hcross packet List.mem_cons_self] at htime
      obtain ⟨gap, latencyNs, hfate, -, hnow⟩ := serve_of_in_time hfirst htime
      rw [hcross packet List.mem_cons_self] at htime
      rw [hdelay packet List.mem_cons_self] at hnow
      have hrest := ih (cfg.serve v packet).1
        (fun p hp ↦ hcross p (List.mem_cons_of_mem _ hp))
        (fun p hp ↦ hdelay p (List.mem_cons_of_mem _ hp))
        (by rw [hnow]; exact fun job hjob ↦ hroom job (List.mem_cons_of_mem _ hjob))
      rw [hnow] at hrest
      rw [hfate, and_iff_right htime, ← hrest, lates_delivered_cons]
    · rw [← hcross packet List.mem_cons_self] at htime
      have hserve := BenchConfig.serve_late
        ((BenchConfig.late_iff hfirst).mpr (Nat.lt_of_not_le htime))
      rw [hcross packet List.mem_cons_self] at htime
      rw [hserve, lates_late_cons]
      exact ⟨fun hnone ↦ absurd hnone (Nat.succ_ne_zero _), fun h ↦ absurd h.1 htime⟩

/-- The latency of a packet is the time it waits, and its delays. -/
private theorem latencies_eq (packets : List Packet) (v : BenchServer)
    (hdelay : ∀ packet ∈ packets, cfg.delayNs packet = delay)
    (hroom : ∀ job ∈ Backlog.schedule delay v.nowNs.toNat (sentNs packets),
      job.1 + delay < 2 ^ 64)
    (hfresh : lates (cfg.server.trace v packets) = 0) :
    (latencies (cfg.server.trace v packets)).map UInt64.toNat =
      (Backlog.schedule delay v.nowNs.toNat (sentNs packets)).map
        (fun job ↦ job.1 + delay - job.2) ∧
    (cfg.server.run v packets).nowNs.toNat =
      Backlog.clockAfter delay v.nowNs.toNat (sentNs packets) := by
  induction packets generalizing v with
  | nil => exact ⟨rfl, rfl⟩
  | cons packet packets ih =>
    have hfirst := hroom _ List.mem_cons_self
    rw [← hdelay packet List.mem_cons_self] at hfirst
    rw [Machine.trace_cons] at hfresh ⊢
    change lates ((packet, (cfg.serve v packet).2) ::
      cfg.server.trace (cfg.serve v packet).1 packets) = 0 at hfresh
    by_cases htime : max v.nowNs.toNat packet.timestamp.val.toNat + cfg.crossNs packet ≤
      packet.timestamp.val.toNat + cfg.deadline.maxLatencyNs.toNat
    · obtain ⟨gap, latencyNs, hfate, hlatency, hnow⟩ := serve_of_in_time hfirst htime
      rw [hdelay packet List.mem_cons_self] at hlatency hnow
      rw [hfate, lates_delivered_cons] at hfresh
      obtain ⟨hrest, hclock⟩ := ih (cfg.serve v packet).1
        (fun p hp ↦ hdelay p (List.mem_cons_of_mem _ hp))
        (by rw [hnow]; exact fun job hjob ↦ hroom job (List.mem_cons_of_mem _ hjob)) hfresh
      rw [hnow] at hrest hclock
      refine ⟨?_, hclock⟩
      show (latencies ((packet, (cfg.serve v packet).2) :: _)).map _ = _
      rw [hfate]
      show latencyNs.toNat :: (latencies _).map _ = _
      rw [hlatency]
      exact congrArg (_ :: ·) hrest
    · have hserve := BenchConfig.serve_late
        ((BenchConfig.late_iff hfirst).mpr (Nat.lt_of_not_le htime))
      rw [hserve, lates_late_cons] at hfresh
      cases hfresh

end Queue

section Emission

/-- The packets, by stream and number, that do not carry the number after the last one of their
stream. -/
def skipped : (StreamId → UInt64) → List (StreamId × UInt64) → Nat
  | _, [] => 0
  | expected, (id, n) :: labels =>
    skipped (Function.update expected id (n + 1)) labels + if n = expected id then 0 else 1

/-- These are out of sequence, as long as none is late. -/
private theorem outOfSequence_eq {cfg : BenchConfig} (packets : List Packet) (v : BenchServer)
    (hfresh : lates (cfg.server.trace v packets) = 0) :
    outOfSequence (cfg.server.trace v packets) = skipped v.expected (packets.map label) := by
  induction packets generalizing v with
  | nil => rfl
  | cons packet packets ih =>
    rw [Machine.trace_cons] at hfresh ⊢
    change lates ((packet, (cfg.serve v packet).2) ::
      cfg.server.trace (cfg.serve v packet).1 packets) = 0 at hfresh
    by_cases htime : (TimestampChecker.fromConfig cfg.deadline).Late packet
      (cfg.arriveNs v.nowNs packet)
    · rw [BenchConfig.serve_late htime, lates_late_cons] at hfresh
      cases hfresh
    · have hserve := BenchConfig.serve_delivered htime
      rw [hserve, lates_delivered_cons] at hfresh
      show outOfSequence ((packet, (cfg.serve v packet).2) ::
        cfg.server.trace (cfg.serve v packet).1 packets) = _
      rw [hserve, outOfSequence, List.countP_cons]
      show outOfSequence _ + (if decide _ = true then 1 else 0) = _
      rw [ih _ hfresh, List.map_cons, label, skipped]
      simp only [decide_eq_true_eq, ite_not]

/-- One symbol of every stream: all streams skip, or none. -/
private theorem skipped_round {ids : List UInt32} (hnodup : ids.Nodup)
    (expected : StreamId → UInt64)
    {e : UInt64} (hexpected : ∀ id ∈ ids, expected ⟨id⟩ = e) (n : UInt64)
    (labels : List (StreamId × UInt64)) :
    ∃ expected' : StreamId → UInt64, (∀ id ∈ ids, expected' ⟨id⟩ = n + 1) ∧
      (∀ id, id ∉ ids → expected' ⟨id⟩ = expected ⟨id⟩) ∧
      skipped expected (ids.map (fun id ↦ (⟨id⟩, n)) ++ labels) =
        skipped expected' labels + if n = e then 0 else ids.length := by
  induction ids generalizing expected with
  | nil =>
    refine ⟨expected, fun _ h ↦ absurd h List.not_mem_nil, fun _ _ ↦ rfl, ?_⟩
    split <;> rfl
  | cons id ids ih =>
    obtain ⟨hnew, hnodup⟩ := List.nodup_cons.mp hnodup
    have hother (other : UInt32) (hne : other ≠ id) :
        Function.update expected ⟨id⟩ (n + 1) ⟨other⟩ = expected ⟨other⟩ :=
      Function.update_of_ne (fun heq ↦ hne (StreamId.mk.inj heq)) _ _
    have hrest : ∀ other ∈ ids, Function.update expected ⟨id⟩ (n + 1) ⟨other⟩ = e := by
      intro other hmem
      rw [hother other (fun heq ↦ hnew (heq ▸ hmem))]
      exact hexpected other (List.mem_cons_of_mem _ hmem)
    obtain ⟨expected', hnext, hkept, hskipped⟩ := ih hnodup _ hrest
    refine ⟨expected', ?_, ?_, ?_⟩
    · intro other hmem
      rcases List.mem_cons.mp hmem with heq | hmem
      · rw [heq, hkept id hnew]
        exact Function.update_self ..
      · exact hnext other hmem
    · intro other hnone
      rw [List.mem_cons, not_or] at hnone
      rw [hkept other hnone.2]
      exact hother other hnone.1
    · rw [List.map_cons, List.cons_append, skipped, hskipped, hexpected id List.mem_cons_self,
        List.length_cons]
      split <;> omega

/-- All symbols of all streams: at most the first one of a stream skips. -/
private theorem skipped_symbols {ids : List UInt32} (hnodup : ids.Nodup) (n k : Nat)
    (expected : StreamId → UInt64) {e : UInt64} (hexpected : ∀ id ∈ ids, expected ⟨id⟩ = e) :
    skipped expected ((List.range n).flatMap fun i ↦
        ids.map fun id ↦ (⟨id⟩, UInt64.ofNat (k + i))) =
      if UInt64.ofNat k = e ∨ n = 0 then 0 else ids.length := by
  induction n generalizing k expected e with
  | zero =>
    rw [if_pos (.inr rfl)]
    rfl
  | succ n ih =>
    rw [List.range_succ_eq_map, List.flatMap_cons, List.flatMap_map]
    obtain ⟨expected', hnext, -, hskipped⟩ :=
      skipped_round hnodup expected hexpected (UInt64.ofNat k) ((List.range n).flatMap fun i ↦
        ids.map fun id ↦ (⟨id⟩, UInt64.ofNat (k + (i + 1))))
    have hrest := ih (k + 1) expected' fun id hid ↦ by rw [hnext id hid, ofNat_add_one]
    rw [if_pos (.inl rfl)] at hrest
    simp only [Nat.add_assoc, Nat.add_comm 1] at hrest
    refine hskipped.trans ?_
    rw [hrest, Nat.zero_add]
    simp only [Nat.add_one_ne_zero, or_false]

/-- One symbol of every emulator. -/
private theorem emitRound_eq {timing : RadioTimingConfig} (tone : UInt64 → Nat → IQSample) {k : Nat}
    {ids : List UInt32} {fpgas : List FpgaEmulator}
    (h : List.Forall₂ (fun id fpga ↦ FpgaEmulator.Emits timing ⟨id⟩ fpga k) ids fpgas) :
    (emitRound tone fpgas).2 =
      ids.map (fun id ↦ FpgaEmulator.packetAt tone timing ⟨id⟩ k) ∧
    List.Forall₂ (fun id fpga ↦ FpgaEmulator.Emits timing ⟨id⟩ fpga (k + 1)) ids
      (emitRound tone fpgas).1 := by
  induction h with
  | nil => exact ⟨rfl, .nil⟩
  | cons hfirst _ ih =>
    obtain ⟨hpacket, hnext⟩ := hfirst.emitSymbol tone
    refine ⟨?_, .cons hnext ih.2⟩
    rw [List.map_cons, ← hpacket, ← ih.1]
    rfl

/-- All symbols of all emulators. -/
private theorem emitAll_eq {timing : RadioTimingConfig} {tone : UInt64 → Nat → IQSample}
    {ids : List UInt32}
    (n k : Nat) {fpgas : List FpgaEmulator}
    (h : List.Forall₂ (fun id fpga ↦ FpgaEmulator.Emits timing ⟨id⟩ fpga k) ids fpgas) :
    emitAll tone n fpgas = (List.range n).flatMap fun i ↦
      ids.map fun id ↦ FpgaEmulator.packetAt tone timing ⟨id⟩ (k + i) := by
  induction n generalizing k fpgas with
  | zero => rfl
  | succ n ih =>
    obtain ⟨hpackets, hnext⟩ := emitRound_eq tone h
    rw [emitAll, hpackets, ih (k + 1) hnext, List.range_succ_eq_map, List.flatMap_cons,
      List.flatMap_map]
    simp only [Nat.succ_eq_one_add, Nat.add_assoc, Nat.add_zero]

/-- The packets of a run, symbol by symbol. -/
theorem emitted_eq (cfg : BenchConfig) :
    emitted cfg = (List.range cfg.profile.symbolCount.toNat).flatMap fun k ↦
      (streamIds cfg).map fun id ↦ FpgaEmulator.packetAt cfg.tone cfg.timing ⟨id⟩ k := by
  have hnew : List.Forall₂ (fun id fpga ↦ FpgaEmulator.Emits cfg.timing ⟨id⟩ fpga 0)
      (streamIds cfg) (emulators cfg) := by
    rw [emulators, List.forall₂_map_right_iff]
    exact List.forall₂_same.mpr fun id _ ↦ FpgaEmulator.emits_new cfg.timing ⟨id⟩
  rw [emitted, emitAll_eq _ 0 hnew]
  simp only [Nat.zero_add]

/-- Without faults the injector lets every packet pass as it is. -/
private theorem pushAll_of_disabled {injector : FaultInjector} (hheld : injector.held = none)
    (hdisabled : injector.cfg.enabled = false) (packets : List Packet) :
    injector.pushAll packets = (injector, packets) := by
  induction packets with
  | nil => rfl
  | cons packet packets ih =>
    have hpush : injector.push packet = (injector, [packet]) := by
      simp [FaultInjector.push, FaultInjector.tickHold, FaultInjectionConfig.mutatePacket,
        FaultInjectionConfig.shouldDrop, FaultInjectionConfig.shouldDropDeterministic,
        FaultInjectionConfig.shouldDropBurst, hheld, hdisabled]
    rw [FaultInjector.pushAll, hpush]
    dsimp only
    rw [ih]
    rfl

end Emission

section FaultFree

variable (cfg : BenchConfig)

/-- The first packet of a run; all others are as long. -/
def firstPacket : Packet := FpgaEmulator.packetAt cfg.tone cfg.timing ⟨1⟩ 0

/-- The delays of a packet, in nanoseconds. -/
def delay : Nat := cfg.delayNs (firstPacket cfg)

/-- What all streams together need for a symbol. -/
def roundNs : Nat := cfg.streamCount * delay cfg

/-- The duration of a symbol. -/
def periodNs : Nat := cfg.timing.symbolDurationNs.toNat

/-- What every symbol leaves over for the next. -/
def backlogNs : Nat := roundNs cfg - periodNs cfg

variable {cfg}

/-- All packets of a run are delayed like the first. -/
theorem delays_of_emitted {packet : Packet} (h : packet ∈ emitted cfg) :
    cfg.crossNs packet = cfg.crossNs (firstPacket cfg) ∧ cfg.delayNs packet = delay cfg := by
  rw [emitted_eq] at h
  obtain ⟨k, -, hround⟩ := List.mem_flatMap.mp h
  obtain ⟨id, -, rfl⟩ := List.mem_map.mp hround
  have hlength : (FpgaEmulator.packetAt cfg.tone cfg.timing ⟨id⟩ k).payload.length =
      (firstPacket cfg).payload.length :=
    (FpgaEmulator.length_packetAt k).trans (FpgaEmulator.length_packetAt 0).symm
  constructor
  · simp only [BenchConfig.crossNs, BenchConfig.wireNs, hlength]
  · simp only [delay, BenchConfig.delayNs, BenchConfig.wireNs, hlength]

private theorem length_streamIds (cfg : BenchConfig) :
    (streamIds cfg).length = cfg.streamCount := by
  rw [streamIds, List.length_map, List.length_range]

/-- The packets are sent in batches. -/
theorem sentNs_emitted
    (hclock : cfg.profile.symbolCount.toNat * periodNs cfg < 2 ^ 64) :
    sentNs (emitted cfg) =
      batches (periodNs cfg) cfg.streamCount cfg.profile.symbolCount.toNat := by
  rw [emitted_eq, sentNs, batches, List.map_flatMap]
  apply List.flatMap_congr
  intro k hk
  have hsent : (UInt64.ofNat (cfg.timing.symbolNs k)).toNat = k • periodNs cfg := by
    have hle : k * periodNs cfg ≤ cfg.profile.symbolCount.toNat * periodNs cfg :=
      Nat.mul_le_mul_right _ (Nat.le_of_lt (List.mem_range.mp hk))
    rw [UInt64.toNat_ofNat', RadioTimingConfig.symbolNs]
    show min (k * periodNs cfg) (2 ^ 64 - 1) % 2 ^ 64 = k * periodNs cfg
    omega
  rw [List.map_map, ← length_streamIds, ← hsent]
  exact List.map_const' ..

private theorem streamCount_eq : cfg.streamCount = cfg.streamCount - 1 + 1 := by
  unfold BenchConfig.streamCount
  omega

/-- The run is over when the last symbol of all streams is done. -/
private theorem clockAfter_emitted (symbols : Nat) :
    Backlog.clockAfter (delay cfg) 0 (batches (periodNs cfg) cfg.streamCount symbols) =
      if symbols = 0 then 0
      else (symbols - 1) * max (periodNs cfg) (roundNs cfg) + roundNs cfg := by
  cases symbols with
  | zero => rfl
  | succ n =>
    rw [roundNs, streamCount_eq, clockAfter_batches_succ (Nat.zero_le _)]
    rfl

/-- In a fault-free run every packet starts after those of its symbol before it, and every symbol
after the period or the time all streams need, whichever is longer. -/
theorem schedule_emitted (hclock : cfg.profile.symbolCount.toNat *
      max (periodNs cfg) (roundNs cfg) < 2 ^ 64) :
    Backlog.schedule (delay cfg) 0 (sentNs (emitted cfg)) =
      (List.range cfg.profile.symbolCount.toNat).flatMap fun k ↦
        (List.range cfg.streamCount).map fun j ↦
          (k * max (periodNs cfg) (roundNs cfg) + j * delay cfg, k * periodNs cfg) := by
  have hperiod : cfg.profile.symbolCount.toNat * periodNs cfg < 2 ^ 64 :=
    Nat.lt_of_le_of_lt (Nat.mul_le_mul_left _ (Nat.le_max_left _ _)) hclock
  rw [sentNs_emitted hperiod, roundNs, streamCount_eq, schedule_batches (Nat.zero_le _)]
  rfl

/-- Every stream skips at its first packet, if the receivers do not start at zero. -/
private theorem skipped_emitted (cfg : BenchConfig) :
    skipped cfg.idleServer.expected ((emitted cfg).map label) =
      if cfg.deadline.startSequence = 0 ∨ cfg.profile.symbolCount.toNat = 0 then 0
      else cfg.streamCount := by
  have hsymbols := skipped_symbols (streamIds_nodup cfg) cfg.profile.symbolCount.toNat 0
    cfg.idleServer.expected (e := cfg.deadline.startSequence) fun _ _ ↦ rfl
  simp only [Nat.zero_add] at hsymbols
  rw [label_emitted, hsymbols, length_streamIds]
  simp only [eq_comm (a := cfg.deadline.startSequence)]
  rfl

/-- The card and the ring treat all packets of a run like the first. -/
private theorem refusal_of_emitted {packet : Packet} (h : packet ∈ emitted cfg) :
    cfg.refusal packet = cfg.refusal (firstPacket cfg) := by
  rw [emitted_eq] at h
  obtain ⟨k, -, hround⟩ := List.mem_flatMap.mp h
  obtain ⟨id, -, rfl⟩ := List.mem_map.mp hround
  have hlength : (FpgaEmulator.packetAt cfg.tone cfg.timing ⟨id⟩ k).payload.length =
      (firstPacket cfg).payload.length :=
    (FpgaEmulator.length_packetAt k).trans (FpgaEmulator.length_packetAt 0).symm
  simp only [BenchConfig.refusal, GpuRingConfig.refusal, hlength]

/-- A job of a fault-free run: the symbol, the place of its stream, and when it starts. -/
theorem mem_schedule_emitted (hclock : cfg.profile.symbolCount.toNat *
      max (periodNs cfg) (roundNs cfg) < 2 ^ 64) {job : Nat × Nat} :
    job ∈ Backlog.schedule (delay cfg) 0 (sentNs (emitted cfg)) ↔
      ∃ k < cfg.profile.symbolCount.toNat, ∃ j < cfg.streamCount,
        job = (k * max (periodNs cfg) (roundNs cfg) + j * delay cfg, k * periodNs cfg) := by
  rw [schedule_emitted hclock]
  simp only [List.mem_flatMap, List.mem_map, List.mem_range, eq_comm]

/-- A symbol waits for what the ones before it have left over. -/
theorem start_eq (cfg : BenchConfig) (k : Nat) :
    k * max (periodNs cfg) (roundNs cfg) = k * periodNs cfg + k * backlogNs cfg := by
  rw [← Nat.mul_add, backlogNs]
  congr 1
  omega

/-- Every packet is done before the clock comes to its end. -/
private theorem start_add_lt (hclock : cfg.profile.symbolCount.toNat *
      max (periodNs cfg) (roundNs cfg) < 2 ^ 64) {k j : Nat}
    (hk : k < cfg.profile.symbolCount.toNat) (hj : j < cfg.streamCount) :
    k * max (periodNs cfg) (roundNs cfg) + j * delay cfg + delay cfg < 2 ^ 64 := by
  have hsymbols : (k + 1) * max (periodNs cfg) (roundNs cfg) ≤
    cfg.profile.symbolCount.toNat * max (periodNs cfg) (roundNs cfg) := Nat.mul_le_mul_right _ hk
  have hstreams : (j + 1) * delay cfg ≤ roundNs cfg := Nat.mul_le_mul_right _ hj
  have hround : roundNs cfg ≤ max (periodNs cfg) (roundNs cfg) := Nat.le_max_right ..
  rw [Nat.succ_mul] at hsymbols hstreams
  omega

/-- The last packet of the last symbol waits longest. -/
theorem all_in_time_iff {n m b d c t : Nat} (hm : 0 < m) :
    (∀ k < n, ∀ j < m, k * b + j * d + c ≤ t) ↔ n = 0 ∨ (n - 1) * b + (m - 1) * d + c ≤ t := by
  constructor
  · intro hall
    rcases Nat.eq_zero_or_pos n with hnone | hsome
    · exact .inl hnone
    · exact .inr (hall (n - 1) (by omega) (m - 1) (by omega))
  · rintro (hnone | hlast) k hk j hj
    · omega
    · have hsymbols : k * b ≤ (n - 1) * b := Nat.mul_le_mul_right b (by omega)
      have hstreams : j * d ≤ (m - 1) * d := Nat.mul_le_mul_right d (by omega)
      omega

section Closed

variable (hfaults : cfg.fault.enabled = false)
  (hclock : cfg.profile.symbolCount.toNat * max (periodNs cfg) (roundNs cfg) < 2 ^ 64)

include hfaults in
private theorem pushed_of_disabled : pushed cfg = (FaultInjector.new cfg.fault, emitted cfg) :=
  pushAll_of_disabled rfl hfaults (emitted cfg)

include hfaults in
/-- What is emitted is offered. -/
theorem offered_of_disabled : offered cfg = emitted cfg := by
  rw [offered, pushed_of_disabled hfaults]
  exact List.append_nil _

include hfaults in
/-- A run without faults does not fail when its first packet fits. -/
private theorem fits_of_first (hfits : cfg.refusal (firstPacket cfg) = none) :
    ((fates cfg).findSome? fun entry ↦ cfg.fateRefusal entry.1 entry.2) = none := by
  rw [List.findSome?_eq_none_iff]
  rintro ⟨packet, fate⟩ hentry
  rw [fates, offered_of_disabled hfaults] at hentry
  obtain ⟨pre, post, hsplit, -⟩ := cfg.server.mem_trace hentry
  have hpacket : packet ∈ emitted cfg := by
    rw [hsplit]
    exact List.mem_append_right _ List.mem_cons_self
  cases fate with
  | late => rfl
  | delivered gap latencyNs => exact (refusal_of_emitted hpacket).trans hfits

include hclock

private theorem room_of_clock {job : Nat × Nat}
    (hjob : job ∈ Backlog.schedule (delay cfg) cfg.idleServer.nowNs.toNat (sentNs (emitted cfg))) :
    job.1 + delay cfg < 2 ^ 64 := by
  obtain ⟨k, hk, j, hj, rfl⟩ := (mem_schedule_emitted hclock).mp hjob
  exact start_add_lt hclock hk hj

include hfaults

/-- A packet of a fault-free run is late when the last one is. -/
private theorem lates_fates : lates (fates cfg) = 0 ↔ cfg.profile.symbolCount.toNat = 0 ∨
    (cfg.profile.symbolCount.toNat - 1) * backlogNs cfg + (cfg.streamCount - 1) * delay cfg +
      cfg.crossNs (firstPacket cfg) ≤ cfg.deadline.maxLatencyNs.toNat := by
  have hstreams : 0 < cfg.streamCount := Nat.lt_of_lt_of_le Nat.one_pos (Nat.le_max_right ..)
  rw [← all_in_time_iff hstreams, fates, offered_of_disabled hfaults,
    lates_eq_zero_iff (emitted cfg) cfg.idleServer
      (fun packet hpacket ↦ (delays_of_emitted hpacket).1)
      (fun packet hpacket ↦ (delays_of_emitted hpacket).2) fun _ ↦ room_of_clock hclock]
  constructor
  · intro hjobs k hk j hj
    have hjob := hjobs _ ((mem_schedule_emitted hclock).mpr ⟨k, hk, j, hj, rfl⟩)
    have hstart := start_eq cfg k
    omega
  · intro hjobs job hjob
    obtain ⟨k, hk, j, hj, rfl⟩ := (mem_schedule_emitted hclock).mp hjob
    have hstays := hjobs k hk j hj
    have hstart := start_eq cfg k
    dsimp only
    omega

/-- The latencies of a fault-free run without a late packet, and how long it takes. -/
private theorem latencies_fates (hfresh : lates (fates cfg) = 0) :
    (latencies (fates cfg)).map UInt64.toNat =
      ((List.range cfg.profile.symbolCount.toNat).flatMap fun k ↦
        (List.range cfg.streamCount).map fun j ↦ k * backlogNs cfg + (j + 1) * delay cfg) ∧
    (cfg.server.run cfg.idleServer (offered cfg)).nowNs.toNat =
      Backlog.clockAfter (delay cfg) 0
        (batches (periodNs cfg) cfg.streamCount cfg.profile.symbolCount.toNat) := by
  have hperiod : cfg.profile.symbolCount.toNat * periodNs cfg < 2 ^ 64 :=
    Nat.lt_of_le_of_lt (Nat.mul_le_mul_left _ (Nat.le_max_left _ _)) hclock
  rw [fates, offered_of_disabled hfaults] at hfresh
  obtain ⟨hsamples, hduration⟩ := latencies_eq (emitted cfg) cfg.idleServer
    (fun packet hpacket ↦ (delays_of_emitted hpacket).2) (fun _ ↦ room_of_clock hclock) hfresh
  rw [sentNs_emitted hperiod] at hduration
  rw [fates, offered_of_disabled hfaults, hsamples]
  refine ⟨?_, hduration⟩
  show (Backlog.schedule (delay cfg) 0 _).map _ = _
  rw [schedule_emitted hclock, List.map_flatMap]
  simp only [List.map_map]
  congr 1
  funext k
  congr 1
  funext j
  have hstart := start_eq cfg k
  rw [Function.comp_apply, Nat.succ_mul]
  omega

end Closed

/-- Without faults a run comes to an end, and in closed form, when the first packet is not refused
and neither the packets nor the clock overflow. No packet is late if and only if the last one is
not, after what the symbols before it have left over; then every packet is delivered, out of
sequence only the first one of each stream and that only if the receivers do not start at zero, its
latency is what the symbols before have left over and the delays of the packets of its symbol up to
itself, and the run takes as long as all its packets one after the other, or until the last symbol
is done. -/
theorem fault_free_run (cfg : BenchConfig) (hfaults : cfg.fault.enabled = false)
    (hbackend : cfg.profile.gpuBackend.toLower ≠ "cuda")
    (hsize : cfg.profile.symbolCount.toNat * cfg.streamCount * 8 < 2 ^ 63)
    (hfits : cfg.refusal (firstPacket cfg) = none)
    (hclock : cfg.profile.symbolCount.toNat * max (periodNs cfg) (roundNs cfg) < 2 ^ 64) :
    let symbols := cfg.profile.symbolCount.toNat
    ∃ r, run cfg = .ok r ∧ r.injector.dropped = 0 ∧
      (r.report.latePackets = 0 ↔ symbols = 0 ∨
        (symbols - 1) * backlogNs cfg + (cfg.streamCount - 1) * delay cfg +
          cfg.crossNs (firstPacket cfg) ≤ cfg.deadline.maxLatencyNs.toNat) ∧
      (r.report.latePackets = 0 →
        r.report.packets = symbols * cfg.streamCount ∧
        r.report.sequenceGaps =
          (if cfg.deadline.startSequence = 0 ∨ symbols = 0 then 0 else cfg.streamCount) ∧
        r.report.latencies.map UInt64.toNat =
          ((List.range symbols).flatMap fun k ↦ (List.range cfg.streamCount).map fun j ↦
            k * backlogNs cfg + (j + 1) * delay cfg).insertionSort (· ≤ ·) ∧
        r.report.simDurationNs.toNat = if symbols = 0 then 0 else
          (symbols - 1) * max (periodNs cfg) (roundNs cfg) + roundNs cfg) := by
  intro symbols
  obtain ⟨s₀, hstart, hserving⟩ := exists_start_serving cfg
  have hends := loops_ends cfg hserving
  rw [fits_of_first hfaults hfits] at hends
  obtain ⟨r, hloops, hreport, hinjector⟩ := hends
  have hrun : run cfg = .ok r := by
    rw [run, if_neg hbackend, hstart]
    show ite _ _ _ = _
    rw [if_neg (Nat.not_le.mpr hsize), hloops]
  refine ⟨r, hrun, ?_, ?_, fun hfresh ↦ ?_⟩
  · rw [hinjector, pushed_of_disabled hfaults]
    rfl
  · rw [hreport]
    exact lates_fates hfaults hclock
  · rw [hreport] at hfresh ⊢
    obtain ⟨hsamples, hduration⟩ := latencies_fates hfaults hclock hfresh
    refine ⟨?_, ?_, ?_, ?_⟩
    · show (latencies (fates cfg)).length = _
      rw [← List.length_map UInt64.toNat, hsamples]
      simp [List.length_flatMap, symbols]
    · show outOfSequence (fates cfg) = _
      change lates (fates cfg) = 0 at hfresh
      rw [fates, offered_of_disabled hfaults] at hfresh ⊢
      rw [outOfSequence_eq (emitted cfg) cfg.idleServer hfresh, skipped_emitted]
    · rw [← hsamples]
      exact List.map_insertionSort _ _ _ _ fun a _ b _ ↦ UInt64.le_iff_toNat_le
    · show (cfg.server.run cfg.idleServer (offered cfg)).nowNs.toNat = _
      rw [hduration, clockAfter_emitted]

/-- Four streams that need more than the duration of a symbol, without faults. -/
def loadedBench : BenchConfig :=
  { lossyBench with
    profile := ⟨4, 4, 10000, false, true, true, "sim"⟩
    fault := { lossyBench.fault with enabled := false } }

theorem fault_free_run_loaded : ∃ r, run loadedBench = .ok r ∧ r.report.latePackets = 0 ∧
    r.report.packets = 16 ∧ r.report.sequenceGaps = 0 ∧ r.report.simDurationNs.toNat = 4800 := by
  obtain ⟨r, hrun, -, hlate, hreport⟩ := fault_free_run loadedBench rfl lossyBench_gpuBackend
    (by decide) (by decide) (by decide)
  have hfresh := hlate.mpr (.inr (by decide))
  obtain ⟨hpackets, hgaps, -, hduration⟩ := hreport hfresh
  exact ⟨r, hrun, hfresh, hpackets, hgaps, hduration⟩

end FaultFree

end PipelineBench

end AetherRadio
