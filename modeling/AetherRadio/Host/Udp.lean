import AetherRadio.Host.Outcome
import AetherRadio.Net.Link

/-!
# From the emulator to the receiver over UDP

`fpga-emit` sends its symbols as datagrams, the network does with them what it likes, and
`host-recv` polls its socket for bursts of 32 packets until enough are accepted.
-/

namespace AetherRadio

open Verif Net

namespace HostRecv

variable (cfg : HostConfig)

variable {cfg}

/-- With a millisecond to spare no packet of the receiver's stream is late. -/
theorem arrives_of_stream {pkt : Packet} (hage : 1_000_000 ≤ cfg.deadline.maxLatencyNs)
    (hstream : pkt.streamId = cfg.streamId) : Arrives cfg pkt := by
  refine ⟨hstream, ?_⟩
  have hlatency := UInt64.le_iff_toNat_le.mp hage
  have hmilli : (1_000_000 : UInt64).toNat = 1_000_000 := rfl
  rw [TimestampChecker.Late, receiveNs, gt_iff_lt, UInt64.not_lt, UInt64.le_iff_toNat_le,
    toNat_satSub, toNat_satAdd]
  show _ ≤ cfg.deadline.maxLatencyNs.toNat
  omega

/-- All packets of an emulator are refused for the same reason. -/
theorem refusal_packetAt (tone : UInt64 → Nat → IQSample) (timing : RadioTimingConfig)
    (streamId : StreamId) (ks : List Nat)
    (harrives : ∀ k, Arrives cfg (FpgaEmulator.packetAt tone timing streamId k)) :
    (ks.map (FpgaEmulator.packetAt tone timing streamId)).findSome? (refusal cfg) =
      ks.head?.bind fun k ↦ refusal cfg (FpgaEmulator.packetAt tone timing streamId k) := by
  have hsame (k k' : Nat) : refusal cfg (FpgaEmulator.packetAt tone timing streamId k) =
      refusal cfg (FpgaEmulator.packetAt tone timing streamId k') := by
    simp only [refusal, GpuRingConfig.refusal, if_pos (harrives _), FpgaEmulator.length_packetAt]
  cases ks with
  | nil => rfl
  | cons k ks =>
    rw [List.map_cons, List.findSome?_cons, List.head?_cons, Option.bind_some]
    cases hrefusal : refusal cfg (FpgaEmulator.packetAt tone timing streamId k) with
    | some e => rfl
    | none =>
      apply List.findSome?_eq_none_iff.mpr
      intro pkt hpkt
      obtain ⟨k', -, rfl⟩ := List.mem_map.mp hpkt
      rw [hsame k' k, hrefusal]

/-- The numbers of the packets of some symbols. -/
theorem arrivals_packetAt (tone : UInt64 → Nat → IQSample) (timing : RadioTimingConfig)
    (streamId : StreamId) (ks : List Nat)
    (harrives : ∀ k, Arrives cfg (FpgaEmulator.packetAt tone timing streamId k)) :
    arrivals cfg (ks.map (FpgaEmulator.packetAt tone timing streamId)) =
      ks.map UInt64.ofNat := by
  have hall : (ks.map (FpgaEmulator.packetAt tone timing streamId)).filter (Arrives cfg ·) =
      ks.map (FpgaEmulator.packetAt tone timing streamId) := by
    apply List.filter_eq_self.mpr
    intro pkt hpkt
    obtain ⟨k, -, rfl⟩ := List.mem_map.mp hpkt
    exact decide_eq_true (harrives k)
  rw [arrivals, hall, List.map_map]
  rfl

end HostRecv

end AetherRadio
