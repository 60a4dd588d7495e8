import AetherRadio.Sim.Fault
import AetherRadio.Sim.RadioTime

/-!
# Skewed timestamps

The packets of an emulator carry the times of its symbols. The fault injector shifts them by a
signed number of nanoseconds: below zero the shifted time is clamped, above the largest word it is
cut off.
-/

namespace AetherRadio

open Verif

/-- The packets of the next so many symbols. -/
def FpgaEmulator.emitted (tone : UInt64 → Nat → IQSample) (self : FpgaEmulator) :
    Nat → List Packet
  | 0 => []
  | n + 1 => (self.emitSymbol tone).2 :: emitted tone (self.emitSymbol tone).1 n

/-- The time of a symbol. -/
def RadioTimingConfig.symbolNs (timing : RadioTimingConfig) (n : Nat) : Nat :=
  min (n * timing.symbolDurationNs.toNat) (2 ^ 64 - 1)

private theorem RadioTimingConfig.symbolNs_le (timing : RadioTimingConfig) {m n : Nat} (h : m ≤ n) :
    timing.symbolNs m ≤ timing.symbolNs n := by
  have hmul := Nat.mul_le_mul_right timing.symbolDurationNs.toNat h
  unfold symbolNs
  omega

/-- Sequence and time of the packets from some symbol on. -/
private theorem FpgaEmulator.map_emitted (tone : UInt64 → Nat → IQSample) {self : FpgaEmulator}
    {m : Nat}
    (hsymbol : AtSymbol m self.scheduler) (hsequence : self.packetizer.next = UInt64.ofNat m)
    (n : Nat) :
    (self.emitted tone n).map (fun packet ↦ (packet.sequence.val, packet.timestamp.val.toNat)) =
      (List.range n).map
        (fun k ↦ (UInt64.ofNat (m + k), self.scheduler.timing.symbolNs (m + k))) := by
  induction n generalizing self m with
  | zero => rfl
  | succ n ih =>
    have hnext : (self.emitSymbol tone).1.packetizer.next = UInt64.ofNat (m + 1) := by
      rw [← ofNat_add_one, ← hsequence]
      rfl
    have htiming : (self.emitSymbol tone).1.scheduler.timing = self.scheduler.timing :=
      self.scheduler.tickSymbol_timing
    have hsymbol' : AtSymbol (m + 1) (self.emitSymbol tone).1.scheduler := hsymbol.tick
    rw [emitted, List.map_cons, ih hsymbol' hnext, htiming, List.range_succ_eq_map, List.map_cons,
      List.map_map]
    congr 1
    · exact Prod.ext hsequence hsymbol.ns
    · apply List.map_congr_left
      intro k _
      rw [Function.comp_apply, Nat.succ_eq_one_add, Nat.add_assoc]

namespace FaultInjectionConfig

variable (self : FaultInjectionConfig)

/-- The packet is not dropped. -/
def keeps (packet : Packet) : Bool := ! self.shouldDrop (self.mutatePacket packet).sequence.val

/-- A time shifted by the skew and clamped to a word. -/
def clampedNs (ns : UInt64) : Int :=
  min (max (ns.toNat + self.timestampSkewNs.toInt) 0) (2 ^ 64 - 1)

/-- The time of a mutated packet. -/
theorem mutatePacket_timestamp (henabled : self.enabled = true) (packet : Packet) :
    (self.mutatePacket packet).timestamp.val =
      UInt64.ofInt (max (packet.timestamp.val.toNat + self.timestampSkewNs.toInt) 0) := by
  unfold mutatePacket
  rw [henabled, if_neg (not_not_intro rfl)]
  dsimp only
  by_cases hskew : self.timestampSkewNs = 0
  · have htime := packet.timestamp.val.toNat_lt
    rw [if_neg (not_not_intro hskew), hskew]
    apply UInt64.toNat_inj.mp
    rw [UInt64.ofInt, UInt64.toNat_ofNat', Int64.toInt_zero]
    omega
  · rw [if_pos hskew]

/-- The shifted time is the clamped one when it fits in a word. -/
theorem toNat_skewed (ns : UInt64) :
    ((UInt64.ofInt (max (ns.toNat + self.timestampSkewNs.toInt) 0)).toNat : Int) =
        self.clampedNs ns ↔
      ns.toNat + self.timestampSkewNs.toInt ≤ 2 ^ 64 - 1 := by
  have hns := ns.toNat_lt
  have hskew := self.timestampSkewNs.toInt_lt
  unfold clampedNs
  rw [UInt64.ofInt, UInt64.toNat_ofNat']
  omega

end FaultInjectionConfig

namespace FaultInjector

variable (cfg : FaultInjectionConfig)

/-- What comes out of a fresh injector has non-decreasing times, those of the packets kept, shifted
by the skew and clamped to a word. -/
def KeepsTime (packets : List Packet) : Prop :=
  let out := ((new cfg).pushAll packets).2
  out.Pairwise (fun p q ↦ p.timestamp.val ≤ q.timestamp.val) ∧
    out.map (fun packet ↦ (packet.timestamp.val.toNat : Int)) =
      (packets.filter cfg.keeps).map (fun packet ↦ cfg.clampedNs packet.timestamp.val)

variable {cfg}

/-- Without reordering the packets kept come out mutated. -/
private theorem pushAll_keeps (hdist : cfg.reorderDistance = 0) (packets : List Packet) :
    ((new cfg).pushAll packets).2 = (packets.filter cfg.keeps).map cfg.mutatePacket := by
  have hpushed : ((new cfg).pushAll packets).2 = _ :=
    (pushAll_of_not_reordering rfl hdist packets).2
  rw [hpushed, List.filter_map]
  congr 1
  apply List.filter_congr
  intro packet _
  simp [FaultInjectionConfig.keeps, new]

/-- On packets in the order of their times the skew keeps time exactly when it takes none of the
packets kept past the largest word. -/
theorem keepsTime_iff (henabled : cfg.enabled = true) (hdist : cfg.reorderDistance = 0)
    {packets : List Packet}
    (hordered : packets.Pairwise (fun p q ↦ p.timestamp.val ≤ q.timestamp.val)) :
    KeepsTime cfg packets ↔ ∀ packet ∈ packets, cfg.keeps packet = true →
      packet.timestamp.val.toNat + cfg.timestampSkewNs.toInt ≤ 2 ^ 64 - 1 := by
  have htimes : ((packets.filter cfg.keeps).map cfg.mutatePacket).map
        (fun packet ↦ (packet.timestamp.val.toNat : Int)) =
      (packets.filter cfg.keeps).map (fun packet ↦ cfg.clampedNs packet.timestamp.val) ↔
      ∀ packet ∈ packets, cfg.keeps packet = true →
        packet.timestamp.val.toNat + cfg.timestampSkewNs.toInt ≤ 2 ^ 64 - 1 := by
    rw [List.map_map, List.map_inj_left]
    simp only [List.mem_filter, Function.comp_apply, cfg.mutatePacket_timestamp henabled,
      cfg.toNat_skewed, and_imp]
  unfold KeepsTime
  dsimp only
  rw [pushAll_keeps hdist, htimes]
  apply and_iff_right_of_imp
  intro hfits
  rw [List.pairwise_map]
  apply (hordered.filter cfg.keeps).imp_of_mem
  intro p q hp hq hle
  have hpfits := (cfg.toNat_skewed p.timestamp.val).mpr
    (hfits p (List.mem_filter.mp hp).1 (List.mem_filter.mp hp).2)
  have hqfits := (cfg.toNat_skewed q.timestamp.val).mpr
    (hfits q (List.mem_filter.mp hq).1 (List.mem_filter.mp hq).2)
  have hle' := UInt64.le_iff_toNat_le.mp hle
  rw [cfg.mutatePacket_timestamp henabled, cfg.mutatePacket_timestamp henabled,
    UInt64.le_iff_toNat_le]
  unfold FaultInjectionConfig.clampedNs at hpfits hqfits
  omega

/-- The mutated sequence of the packet of a symbol. -/
def sequenceAt (cfg : FaultInjectionConfig) (k : Nat) : UInt64 :=
  if cfg.sequenceJump > 0 then satAdd (UInt64.ofNat k) cfg.sequenceJump else UInt64.ofNat k

/-- Whether a packet is kept depends on its mutated sequence. -/
theorem keeps_iff (henabled : cfg.enabled = true) (packet : Packet) :
    cfg.keeps packet = true ↔ cfg.shouldDrop
      (if cfg.sequenceJump > 0 then satAdd packet.sequence.val cfg.sequenceJump
        else packet.sequence.val) = false := by
  have hmutated : (cfg.mutatePacket packet).sequence.val =
      if cfg.sequenceJump > 0 then satAdd packet.sequence.val cfg.sequenceJump
        else packet.sequence.val := by
    unfold FaultInjectionConfig.mutatePacket
    rw [henabled, if_neg (not_not_intro rfl)]
    dsimp only
    split <;> rfl
  rw [FaultInjectionConfig.keeps, hmutated, Bool.not_eq_true']

/-- For every radio timing, every enabled configuration that does not reorder and every number of
symbols: the skew keeps the times of the emulator's packets exactly when no time of a symbol whose
packet is kept goes past the largest word with the skew. -/
theorem skew_keeps_time_iff (tone : UInt64 → Nat → IQSample) (timing : RadioTimingConfig)
    (streamId : StreamId) (cfg : FaultInjectionConfig) (n : Nat) (henabled : cfg.enabled = true)
    (hdist : cfg.reorderDistance = 0) :
    KeepsTime cfg ((FpgaEmulator.new timing streamId).emitted tone n) ↔
      ∀ k < n, cfg.shouldDrop (sequenceAt cfg k) = false →
        timing.symbolNs k + cfg.timestampSkewNs.toInt ≤ 2 ^ 64 - 1 := by
  have hemitted : ((FpgaEmulator.new timing streamId).emitted tone n).map
      (fun packet ↦ (packet.sequence.val, packet.timestamp.val.toNat)) =
        (List.range n).map (fun k ↦ (UInt64.ofNat k, timing.symbolNs k)) := by
    have hmap : ((FpgaEmulator.new timing streamId).emitted tone n).map _ = _ :=
      FpgaEmulator.map_emitted tone (AtSymbol.new timing) rfl n
    simp only [Nat.zero_add] at hmap
    exact hmap
  generalize (FpgaEmulator.new timing streamId).emitted tone n = packets at hemitted ⊢
  have hordered : packets.Pairwise (fun p q ↦ p.timestamp.val ≤ q.timestamp.val) := by
    have hrange : (packets.map
        (fun packet ↦ (packet.sequence.val, packet.timestamp.val.toNat))).Pairwise
          (fun p q ↦ p.2 ≤ q.2) := by
      rw [hemitted, List.pairwise_map]
      exact List.pairwise_lt_range.imp fun hlt ↦ timing.symbolNs_le (Nat.le_of_lt hlt)
    rw [List.pairwise_map] at hrange
    exact hrange.imp UInt64.le_iff_toNat_le.mpr
  -- both sides speak of the pairs of sequence and time, of the packets or of the symbols
  calc KeepsTime cfg packets
    _ ↔ ∀ packet ∈ packets, cfg.keeps packet = true →
          packet.timestamp.val.toNat + cfg.timestampSkewNs.toInt ≤ 2 ^ 64 - 1 :=
      keepsTime_iff henabled hdist hordered
    _ ↔ ∀ pair : UInt64 × Nat, pair ∈ packets.map
            (fun packet ↦ (packet.sequence.val, packet.timestamp.val.toNat)) →
          cfg.shouldDrop
            (if cfg.sequenceJump > 0 then satAdd pair.1 cfg.sequenceJump else pair.1) = false →
          pair.2 + cfg.timestampSkewNs.toInt ≤ 2 ^ 64 - 1 := by
      simp only [List.forall_mem_map, keeps_iff henabled]
    _ ↔ ∀ k < n, cfg.shouldDrop (sequenceAt cfg k) = false →
          timing.symbolNs k + cfg.timestampSkewNs.toInt ≤ 2 ^ 64 - 1 := by
      rw [hemitted]
      simp only [List.forall_mem_map, List.mem_range, sequenceAt]

/-- A configuration that only shifts times, by one nanosecond. -/
def skewOne : FaultInjectionConfig := ⟨true, none, 0, 0, 0, 0, 0, 0, 1⟩

/-- Symbols without samples that last as long as time goes. -/
def longSymbols : RadioTimingConfig := ⟨20, 14, 18446744073709551615, 0⟩

theorem skew_keeps_time_iff_long :
    KeepsTime skewOne ((FpgaEmulator.new longSymbols ⟨1⟩).emitted (fun _ _ ↦ ⟨0, 0⟩) 2) ↔
      ∀ k < 2, skewOne.shouldDrop (sequenceAt skewOne k) = false →
        longSymbols.symbolNs k + skewOne.timestampSkewNs.toInt ≤ 2 ^ 64 - 1 :=
  skew_keeps_time_iff (fun _ _ ↦ ⟨0, 0⟩) longSymbols ⟨1⟩ skewOne 2 rfl rfl

/-- The second packet stands at the largest word; one nanosecond later is time zero. -/
theorem skew_turns_time_back :
    let tone : UInt64 → Nat → IQSample := fun _ _ ↦ ⟨0, 0⟩
    let packets := (FpgaEmulator.new longSymbols ⟨1⟩).emitted tone 2
    ((new skewOne).pushAll packets).2.map (·.timestamp.val) = [1, 0] ∧
      ¬ KeepsTime skewOne packets := by
  intro tone packets
  have hout : ((new skewOne).pushAll packets).2.map (·.timestamp.val) = [1, 0] := by decide
  refine ⟨hout, ?_⟩
  rintro ⟨hordered, -⟩
  have hpairwise : (((new skewOne).pushAll packets).2.map (·.timestamp.val)).Pairwise (· ≤ ·) :=
    List.pairwise_map.mpr hordered
  rw [hout] at hpairwise
  exact absurd hpairwise (by decide)

end FaultInjector

end AetherRadio
