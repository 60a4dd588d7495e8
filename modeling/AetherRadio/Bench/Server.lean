import AetherRadio.Bench.RingIdle
import AetherRadio.Bench.Stages
import AetherRadio.Lib.Simulation

/-!
# The bench as one server

Nothing is in flight between two packets, so that the inbox, the card and the GPU ring are one
server with a clock and the numbers it expects next. Each stage is given as what it refuses and what
it leaves behind.
-/

namespace AetherRadio

open Verif

/-- The bench as a server. -/
structure BenchServer where
  nowNs : UInt64
  expected : StreamId → UInt64

/-- What becomes of a packet. -/
inductive Fate where
  | late
  | delivered (gap : Bool) (latencyNs : UInt64)
  deriving DecidableEq, Repr

/-- The latency sample of a packet that is delivered. -/
def Fate.latencyNs? : Fate → Option UInt64
  | .late => none
  | .delivered _ latencyNs => some latencyNs

/-- The packet is delivered out of sequence. -/
def Fate.isGap : Fate → Bool
  | .late => false
  | .delivered gap _ => gap

namespace BenchConfig

variable (cfg : BenchConfig)

/-- A packet is late when it arrives, or done after all delays. -/
def serve (self : BenchServer) (packet : Packet) : BenchServer × Fate :=
  let arriveNs := cfg.arriveNs self.nowNs packet
  if (TimestampChecker.fromConfig cfg.deadline).Late packet arriveNs then
    ({ self with nowNs := arriveNs }, .late)
  else
    let nowNs := cfg.doneNs (cfg.receivedNs arriveNs)
    let expected := Function.update self.expected packet.streamId (packet.sequence.val + 1)
    ({ nowNs, expected },
      .delivered (packet.sequence.val ≠ self.expected packet.streamId)
        (satSub nowNs packet.timestamp.val))

variable {cfg} in
theorem serve_late {self : BenchServer} {packet : Packet}
    (h : (TimestampChecker.fromConfig cfg.deadline).Late packet
      (cfg.arriveNs self.nowNs packet)) :
    cfg.serve self packet = ({ self with nowNs := cfg.arriveNs self.nowNs packet }, .late) :=
  if_pos h

variable {cfg} in
theorem serve_delivered {self : BenchServer} {packet : Packet}
    (h : ¬ (TimestampChecker.fromConfig cfg.deadline).Late packet
      (cfg.arriveNs self.nowNs packet)) :
    cfg.serve self packet =
      (⟨cfg.doneNs (cfg.receivedNs (cfg.arriveNs self.nowNs packet)),
        Function.update self.expected packet.streamId (packet.sequence.val + 1)⟩,
        .delivered (packet.sequence.val ≠ self.expected packet.streamId)
          (satSub (cfg.doneNs (cfg.receivedNs (cfg.arriveNs self.nowNs packet)))
            packet.timestamp.val)) :=
  if_neg h

/-- The server. -/
def server : Machine BenchServer Packet Fate where
  step := cfg.serve

/-- The server before the first packet. -/
def idleServer : BenchServer := ⟨0, fun _ ↦ cfg.deadline.startSequence⟩

/-- The GPU stage finds no slot in the ring. -/
def Overflows : Prop := cfg.profile.includeGpuKernel = true ∧ cfg.gpuRing.slotCount = 0

instance : Decidable cfg.Overflows := inferInstanceAs (Decidable (_ ∧ _))

/-- What a run fails with at a packet that is delivered. -/
def refusal (packet : Packet) : Option PipelineBenchError :=
  (cfg.nic.refusal.map (.runtime ∘ .nic)).or
    (if cfg.profile.includeGpuKernel then
      (cfg.gpuRing.refusal packet.payload).map (.runtime ∘ .gpu)
    else none)

/-- What a run fails with at a packet. -/
def fateRefusal (packet : Packet) : Fate → Option PipelineBenchError
  | .late => none
  | .delivered _ _ => cfg.refusal packet

end BenchConfig

namespace PipelineBench

/-- The latency samples, in the order of the deliveries. -/
def latencies (t : List (Packet × Fate)) : List UInt64 := t.filterMap (·.2.latencyNs?)

/-- The bytes delivered. -/
def payloadBytes (t : List (Packet × Fate)) : Nat :=
  (t.map fun entry ↦ if entry.2 = .late then 0 else entry.1.payload.length).sum

/-- The packets that come late. -/
def lates (t : List (Packet × Fate)) : Nat := t.countP (·.2 = .late)

/-- The packets delivered out of sequence. -/
def outOfSequence (t : List (Packet × Fate)) : Nat := t.countP (·.2.isGap)

section Frames

variable {cfg : BenchConfig} {s s' : BenchState} {packet : Packet} {tid : UInt64}

/-- The state after the GPU stage. -/
def kernelled (cfg : BenchConfig) (s : BenchState) (ring : GpuRingBuffer) : BenchState :=
  if cfg.RunsKernel then
    let ringPeak := max s.ringPeak 1
    { s with
      ring
      ringPeak
      metrics := (s.metrics.setRingOccupancy ringPeak).recordKernelNs (cfg.kernelNs s.nowNs) }
  else if cfg.Overflows then
    { s with ring, metrics := s.metrics.recordBufferFull }.applyRecovery "buffer_overflow"
  else { s with ring }

/-- A ring that overflows runs no kernel. -/
theorem not_runsKernel_of_overflows (h : cfg.Overflows) : ¬ cfg.RunsKernel := by
  intro hruns
  exact absurd h.2 (Nat.ne_of_gt hruns.2)

/-- The GPU stage fails on a payload that is too large for the slots, and on no other. -/
private theorem gpuStage_ends (hring : s.ring.Serves cfg.gpuRing) (payload : List UInt8) :
    EndsIn (gpuStage cfg s payload)
      (if cfg.profile.includeGpuKernel then
        (cfg.gpuRing.refusal payload).map (.runtime ∘ .gpu)
      else none)
      fun r ↦ r.2 = cfg.kernelNs s.nowNs ∧
        ∃ ring, ring.Serves cfg.gpuRing ∧ r.1 = kernelled cfg s ring := by
  unfold gpuStage
  by_cases hgpu : cfg.profile.includeGpuKernel = true
  · rw [if_pos hgpu, if_pos hgpu]
    have hexit := hring.cycle_exit s.nowNs payload
    generalize cfg.gpuRing.refusal payload = refusal at hexit
    unfold gpuKernel
    cases hexit with
    | full slots begins =>
      have hover : cfg.Overflows := ⟨hgpu, slots⟩
      have hruns := not_runsKernel_of_overflows hover
      rw [begins]
      refine ⟨_, rfl, (if_neg hruns).symm, s.ring, hring, ?_⟩
      rw [kernelled, if_neg hruns, if_pos hover]
    | tooLarge ring₁ begins receives =>
      rw [begins]
      dsimp only
      rw [receives]
      rfl
    | done ring₁ ring₂ ring₃ ring₄ ring₅ doneAt slots begins occupied receives processes completes
        releases serves =>
      have hruns : cfg.RunsKernel := ⟨hgpu, slots⟩
      have hlatency : cfg.kernelNs s.nowNs =
        satSub (satAdd s.nowNs cfg.gpuRing.kernelDelayNs) s.nowNs := if_pos hruns
      rw [begins]
      simp only [receives, orFail, bind, Except.bind, processes, completes, releases, occupied]
      refine ⟨_, rfl, hlatency.symm, ring₅, serves, ?_⟩
      rw [kernelled, if_pos hruns, hlatency]
  · rw [if_neg hgpu, if_neg hgpu]
    have hruns : ¬ cfg.RunsKernel := fun hruns ↦ hgpu hruns.1
    refine ⟨_, rfl, (if_neg hruns).symm, s.ring, hring, ?_⟩
    rw [kernelled, if_neg hruns, if_neg (fun hover ↦ hgpu hover.1)]

/-- What the delivery of a packet leaves behind. -/
structure Delivery (cfg : BenchConfig) (packet : Packet) (s s' : BenchState) : Prop where
  nowNs : s'.nowNs = cfg.doneNs s.nowNs
  transport : s'.transport = s.transport
  nic : s'.nic = s.nic
  ring : s'.ring.Serves cfg.gpuRing
  latencies : s'.latencies =
    s.latencies ++ [satSub (cfg.doneNs s.nowNs) packet.timestamp.val]
  bytes : s'.bytes = s.bytes + packet.payload.length
  packets : s'.packets = s.packets + 1
  symbolMiss : s'.symbolMiss = s.symbolMiss +
    if satSub (cfg.doneNs s.nowNs) packet.timestamp.val > cfg.profile.latencyBudgetNs then 1 else 0
  ringPeak : s'.ringPeak = if cfg.RunsKernel then max s.ringPeak 1 else s.ringPeak
  applied : s'.applied = s.applied.map (· + if cfg.Overflows then 1 else 0)

/-- The GPU stage touches the ring, and its counters. -/
private theorem kernelled_frame (cfg : BenchConfig) (s : BenchState) (ring : GpuRingBuffer) :
    kernelled cfg s ring = { s with
      ring
      ringPeak := if cfg.RunsKernel then max s.ringPeak 1 else s.ringPeak
      metrics := (kernelled cfg s ring).metrics
      recovery := (kernelled cfg s ring).recovery } ∧
    (kernelled cfg s ring).applied = s.applied.map (· + if cfg.Overflows then 1 else 0) := by
  have hsame : s.applied = s.applied.map (· + 0) := by
    cases s.applied <;> rfl
  unfold kernelled
  by_cases hruns : cfg.RunsKernel
  · have hover : ¬ cfg.Overflows := fun hover ↦ not_runsKernel_of_overflows hover hruns
    rw [if_pos hruns, if_pos hruns, if_neg hover]
    exact ⟨rfl, hsame⟩
  · rw [if_neg hruns, if_neg hruns]
    by_cases hover : cfg.Overflows
    · rw [if_pos hover, if_pos hover]
      exact ⟨rfl, BenchState.applied_applyRecovery ..⟩
    · rw [if_neg hover, if_neg hover]
      exact ⟨rfl, hsame⟩

/-- A miss is counted for a latency over the budget. -/
private theorem checkBudget_frame (cfg : BenchConfig) (s : BenchState) (e2e : UInt64) :
    checkBudget cfg s e2e = { s with
      symbolMiss := s.symbolMiss + if e2e > cfg.profile.latencyBudgetNs then 1 else 0
      metrics := (checkBudget cfg s e2e).metrics } := by
  unfold checkBudget
  by_cases hmiss : e2e > cfg.profile.latencyBudgetNs
  · rw [if_pos hmiss, if_pos hmiss]
  · rw [if_neg hmiss, if_neg hmiss]
    rfl

/-- The delivery of a packet fails when the GPU stage does. -/
theorem deliver_ends (hring : s.ring.Serves cfg.gpuRing) (tid : UInt64) (packet : Packet) :
    EndsIn (deliver cfg tid s packet)
      (if cfg.profile.includeGpuKernel then
        (cfg.gpuRing.refusal packet.payload).map (.runtime ∘ .gpu)
      else none)
      (Delivery cfg packet s) := by
  have hqueued : (enqueue tid s packet).ring.Serves cfg.gpuRing := hring
  rw [deliver_eq, ← Option.or_none (o := ite _ _ _)]
  apply (gpuStage_ends hqueued packet.payload).bind
  rintro ⟨s₁, latency⟩ ⟨hlatency, ring, hserves, hs₁⟩
  dsimp only at hlatency hs₁
  obtain ⟨hframe, happlied⟩ := kernelled_frame cfg (enqueue tid s packet) ring
  refine ⟨_, rfl, ?_⟩
  rw [hlatency, measure, checkBudget_frame]
  rw [← hs₁] at hframe happlied
  rw [hframe]
  exact ⟨rfl, rfl, rfl, hserves, rfl, rfl, rfl, rfl, rfl, happlied⟩

/-- What the card's part leaves behind: the packet alone comes with the next burst. -/
structure Submission (cfg : BenchConfig) (packet : Packet) (s s' : BenchState) : Prop where
  burst : (s'.nic.rxBurst 32).2 = [packet]
  idle : (s'.nic.rxBurst 32).1.Idle
  nic : (s'.nic.rxBurst 32).1.cfg = cfg.nic
  frame : s' = { s with nowNs := cfg.receivedNs s.nowNs, nic := s'.nic, tracer := s'.tracer }

/-- The card refuses a packet when it has no queue, and for nothing else. -/
private theorem submit_ends (hidle : s.nic.Idle) (hnic : s.nic.cfg = cfg.nic) (tid : UInt64)
    (packet : Packet) :
    EndsIn (submit cfg s tid packet) (cfg.nic.refusal.map (.runtime ∘ .nic))
      (Submission cfg packet s) := by
  have hidle' : (s.nic.advanceTime s.nowNs).Idle := by
    rw [hidle.advanceTime]
    exact ⟨hidle.pending, hidle.rxReady⟩
  have hcfg : (s.nic.advanceTime s.nowNs).cfg = cfg.nic := hnic
  have hsubmit : EndsIn (submitRx cfg s packet) (cfg.nic.refusal.map (.runtime ∘ .nic))
      fun _ ↦ True := by
    unfold submitRx
    dsimp only
    rw [← Option.or_none (o := Option.map _ _), ← hcfg]
    by_cases hdma : cfg.profile.includeNicDma = true
    · rw [if_pos hdma]
      exact (hidle'.submits _ packet _).bind fun r _ ↦ ⟨_, rfl, True.intro⟩
    · rw [if_neg hdma]
      exact (hidle'.submits _ packet _).bind fun r _ ↦ ⟨_, rfl, True.intro⟩
  have hends : EndsIn (submit cfg s tid packet) (cfg.nic.refusal.map (.runtime ∘ .nic))
      fun _ ↦ True := by
    rw [submit, ← Option.or_none (o := Option.map _ _)]
    exact hsubmit.bind fun s₁ _ ↦ ⟨_, rfl, True.intro⟩
  apply hends.of_ok
  intro s' hok _
  obtain ⟨hburst, hempty⟩ := submit_step hidle hok
  have htimeline := submit_timeline hok hnic
  have hframe := submit_frame hok
  have hnow : s'.nowNs = cfg.receivedNs s.nowNs := congrArg (·.nowNs) htimeline
  refine ⟨hburst, hempty, (congrArg (·.nicCfg) htimeline).trans hnic, ?_⟩
  rw [← hnow]
  exact hframe

/-- What the way from the inbox to the delivery leaves behind. -/
structure Forwarding (cfg : BenchConfig) (packet : Packet) (s s' : BenchState) : Prop where
  idle : s'.nic.Idle
  nic : s'.nic.cfg = cfg.nic
  delivery : Delivery cfg packet { s with
    transport := { s.transport with inbox := [] }
    nowNs := cfg.receivedNs s.nowNs
    nic := s'.nic } s'

/-- The packet in the inbox goes through the idle card and is delivered, unless the card or the ring
refuses it. -/
theorem forward_ends (hinbox : s.transport.inbox = [packet]) (hidle : s.nic.Idle)
    (hnic : s.nic.cfg = cfg.nic) (hring : s.ring.Serves cfg.gpuRing) (tid : UInt64) :
    EndsIn (forward cfg s tid) (cfg.refusal packet) (Forwarding cfg packet s) := by
  let taken : BenchState := { s with transport := { s.transport with inbox := [] } }
  have hsubmit : EndsIn (submit cfg taken tid packet) _ (Submission cfg packet taken) :=
    submit_ends (s := taken) hidle hnic tid packet
  have hreceive : orFail (PipelineBenchError.runtime ∘ .transport) s.transport.receive =
      .ok ({ s.transport with inbox := [] }, some packet) := by
    rw [SimTransportEngine.receive_cons hinbox]
    rfl
  rw [forward, hreceive]
  apply hsubmit.bind
  intro s₁ hsubmitted
  dsimp only
  rw [hsubmitted.burst]
  have hserves : s₁.ring.Serves cfg.gpuRing := by
    rw [hsubmitted.frame]
    exact hring
  have hdeliver := deliver_ends (s := { s₁ with nic := (s₁.nic.rxBurst 32).1 }) hserves tid packet
  rw [List.foldlM_cons, ← Option.or_none (o := ite _ _ _)]
  apply hdeliver.bind
  intro s' hdelivery
  refine ⟨s', rfl, ?_, ?_, ?_⟩
  · rw [hdelivery.nic]
    exact hsubmitted.idle
  · rw [hdelivery.nic]
    exact hsubmitted.nic
  · rw [hsubmitted.frame] at hdelivery
    exact
      { nowNs := hdelivery.nowNs
        transport := hdelivery.transport
        nic := rfl
        ring := hdelivery.ring
        latencies := hdelivery.latencies
        bytes := hdelivery.bytes
        packets := hdelivery.packets
        symbolMiss := hdelivery.symbolMiss
        ringPeak := hdelivery.ringPeak
        applied := hdelivery.applied }

end Frames

end PipelineBench

end AetherRadio
