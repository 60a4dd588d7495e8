import AetherRadio.Bench.Conservation
import AetherRadio.Host.AtMostOnce
import AetherRadio.Host.Deliver

/-!
# Receive counters

Both delivery loops record every packet with `record_rx` and again with `record_rx_bytes`, which
counts a packet too. The receive counter is right only when nothing is delivered.
-/

namespace AetherRadio

open Verif

namespace PipelineBench

variable {cfg : BenchConfig} {s s' : BenchState}

/-- Every packet is late, each at the time the clock has reached by then. -/
def AllLate (cfg : BenchConfig) : UInt64 → List Packet → Prop
  | _, [] => True
  | nowNs, packet :: packets =>
    (TimestampChecker.fromConfig cfg.deadline).Late packet (cfg.arriveNs nowNs packet) ∧
      AllLate cfg (cfg.arriveNs nowNs packet) packets

/-- A loop over packets delivers some, unless all of them are late. -/
private theorem packets_of_loop {packets : List Packet} (hquiet : Quiet s)
    (hts : s.transport.ts = .fromConfig cfg.deadline)
    (h : packets.foldlM (processOne cfg) s = .ok s') :
    s.packets ≤ s'.packets ∧ (s'.packets = s.packets ↔ AllLate cfg s.nowNs packets) := by
  induction packets generalizing s with
  | nil =>
    cases h
    exact ⟨Nat.le_refl _, iff_of_true rfl True.intro⟩
  | cons packet packets ih =>
    rw [List.foldlM_cons, bind_eq_ok] at h
    obtain ⟨s₁, hprocess, hrest⟩ := h
    have hquiet' := hquiet.step hprocess
    cases processOne_step hquiet.inbox hquiet.nic hprocess with
    | late htime htransport hnow _ _ hpackets =>
      obtain ⟨hle, hiff⟩ := ih hquiet' (by rw [htransport]; exact hts) hrest
      rw [hpackets] at hle hiff
      rw [hnow] at hiff
      exact ⟨hle, hiff.trans (and_iff_right (hts ▸ htime)).symm⟩
    | delivered _ _ _ htime _ _ _ hts' _ _ _ _ hpackets =>
      obtain ⟨hle, -⟩ := ih hquiet' (hts'.trans hts) hrest
      rw [hpackets] at hle
      exact ⟨by omega, iff_of_false (by omega) fun hall ↦ htime (hts ▸ hall.1)⟩

/-- A run delivers nothing exactly when all packets offered are late. -/
theorem packets_eq_zero_iff {r : BenchResult} (h : run cfg = .ok r) :
    r.report.packets = 0 ↔ AllLate cfg 0 (offered cfg) := by
  obtain ⟨-, -, s₀, s, hstart, hfold, rfl⟩ := (run_eq_ok cfg).mp h
  obtain ⟨hnow, hpackets, -, -, hts, -⟩ := start_expected hstart
  obtain ⟨-, hiff⟩ := packets_of_loop (start_balanced hstart).1 hts hfold
  rwa [hnow, hpackets] at hiff

/-- Every delivered packet is counted twice. -/
theorem rxPackets_of_run {r : BenchResult} (h : run cfg = .ok r) :
    r.metrics.tally.rx = 2 * r.report.packets ∧ r.metrics.tally.tx = r.report.packets := by
  obtain ⟨-, hsize, s₀, s, hstart, hfold, rfl⟩ := (run_eq_ok cfg).mp h
  obtain ⟨n, hbalanced⟩ := balanced_of_run hstart hsize hfold
  have htally := hbalanced.finish_tally
  exact ⟨congrArg (·.rx) htally, congrArg (·.tx) htally⟩

end PipelineBench

/-- The receive counter, and with it the loss rate, counts the packets delivered. -/
structure CountsDeliveries (metrics : MetricsEngine) (delivered : Nat) : Prop where
  rx : metrics.layered.transport.rxPackets = delivered
  rx_eq_tx : metrics.layered.transport.rxPackets = metrics.layered.transport.txPackets
  lossRate : metrics.lossRate = (metrics.layered.transport.drop, max delivered 1)

/-- A receive counter that counts twice is right only about nothing. -/
theorem countsDeliveries_iff {metrics : MetricsEngine} {delivered : Nat}
    (hrx : metrics.tally.rx = 2 * delivered) (htx : metrics.tally.tx = delivered) :
    CountsDeliveries metrics delivered ↔ delivered = 0 := by
  change metrics.layered.transport.rxPackets = 2 * delivered at hrx
  change metrics.layered.transport.txPackets = delivered at htx
  constructor
  · rintro ⟨hright, -, -⟩
    omega
  · rintro rfl
    exact ⟨hrx, hrx.trans htx.symm, by rw [MetricsEngine.lossRate, hrx]⟩

/-- A bench run counts its deliveries exactly when every packet offered is late, and a receiver
exactly when it is asked for nothing or nothing arrives. -/
theorem counts_deliveries_iff (bench : BenchConfig) (host : HostConfig)
    (bursts : List (List Packet)) :
    (∀ r, PipelineBench.run bench = .ok r →
      (CountsDeliveries r.metrics r.report.packets ↔
        PipelineBench.AllLate bench 0 (PipelineBench.offered bench))) ∧
    (∀ r, HostRecv.run host bursts = .ok r →
      (CountsDeliveries r.metrics r.accepted ↔
        host.symbols = 0 ∨ ∀ pkt ∈ bursts.flatten, ¬ HostRecv.Arrives host pkt)) := by
  constructor
  · intro r hrun
    obtain ⟨hrx, htx⟩ := PipelineBench.rxPackets_of_run hrun
    exact (countsDeliveries_iff hrx htx).trans (PipelineBench.packets_eq_zero_iff hrun)
  · intro r hrun
    obtain ⟨hrx, htx, hzero⟩ := HostRecv.run_counted hrun
    exact (countsDeliveries_iff hrx htx).trans hzero

/-- The lossy bench, and a receiver that is offered one packet. -/
theorem counts_deliveries_iff_lossy :
    (∃ r, PipelineBench.run PipelineBench.lossyBench = .ok r ∧
      (CountsDeliveries r.metrics r.report.packets ↔
        PipelineBench.AllLate PipelineBench.lossyBench 0
          (PipelineBench.offered PipelineBench.lossyBench))) ∧
    ∃ r, HostRecv.run HostRecv.strictHost [[⟨⟨1⟩, ⟨0⟩, ⟨0⟩, []⟩]] = .ok r ∧
      (CountsDeliveries r.metrics r.accepted ↔ HostRecv.strictHost.symbols = 0 ∨
        ∀ pkt ∈ [[(⟨⟨1⟩, ⟨0⟩, ⟨0⟩, []⟩ : Packet)]].flatten,
          ¬ HostRecv.Arrives HostRecv.strictHost pkt) := by
  constructor
  · obtain ⟨r, hrun, -⟩ := PipelineBench.exists_run_lossy
    exact ⟨r, hrun, (counts_deliveries_iff _ HostRecv.strictHost []).1 r hrun⟩
  · exact ⟨_, rfl, (counts_deliveries_iff PipelineBench.lossyBench _ _).2 _ rfl⟩

/-- A bench that delivers two packets reports four received; a receiver that accepts one packet
reports two. -/
theorem deliveries_counted_twice :
    (∃ r, PipelineBench.run PipelineBench.lossyBench = .ok r ∧ r.report.packets = 2 ∧
      r.metrics.layered.transport.rxPackets = 4) ∧
    ∃ r, HostRecv.run HostRecv.strictHost [[⟨⟨1⟩, ⟨0⟩, ⟨0⟩, []⟩]] = .ok r ∧ r.accepted = 1 ∧
      r.metrics.layered.transport.rxPackets = 2 := by
  constructor
  · obtain ⟨r, hrun, hpackets, -⟩ := PipelineBench.exists_run_lossy
    obtain ⟨hrx, -⟩ := PipelineBench.rxPackets_of_run hrun
    rw [hpackets] at hrx
    exact ⟨r, hrun, hpackets, hrx⟩
  · exact ⟨_, rfl, rfl, rfl⟩

end AetherRadio
