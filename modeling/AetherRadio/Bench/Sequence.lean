import AetherRadio.Bench.Conservation
import AetherRadio.Lib.Gaps

/-!
# Gap accounting

Without reordering and sequence jumps every stream offers its packets in ascending order. The
receive path then reports a gap exactly for those delivered packets whose predecessor was not
delivered, in either reorder mode.
-/

namespace AetherRadio

open Verif

/-- The number of a packet. -/
def Packet.number (self : Packet) : Nat := self.sequence.val.toNat

namespace FaultInjectionConfig

variable (self : FaultInjectionConfig) (packet : Packet)

@[simp] theorem mutatePacket_streamId : (self.mutatePacket packet).streamId = packet.streamId := by
  unfold mutatePacket
  split <;> rfl

private theorem mutatePacket_sequence (h : self.sequenceJump = 0) :
    (self.mutatePacket packet).sequence = packet.sequence := by
  unfold mutatePacket
  split
  · rfl
  · exact if_neg (by rw [h]; decide)

end FaultInjectionConfig

namespace PipelineBench

/-- Stream and sequence of a packet. -/
def label (packet : Packet) : StreamId × UInt64 := (packet.streamId, packet.sequence.val)

/-- Stream and sequence of an emulator's next packet. -/
def nextLabel (fpga : FpgaEmulator) : StreamId × UInt64 := (fpga.streamId, fpga.packetizer.next)

/-- A round emits the next packet of every stream. -/
private theorem label_emitRound (tone : UInt64 → Nat → IQSample) (fpgas : List FpgaEmulator) :
    (emitRound tone fpgas).2.map label = fpgas.map nextLabel ∧
      (emitRound tone fpgas).1.map nextLabel =
        (fpgas.map nextLabel).map fun l ↦ (l.1, l.2 + 1) := by
  induction fpgas with
  | nil => exact ⟨rfl, rfl⟩
  | cons fpga fpgas ih =>
    exact ⟨congrArg (nextLabel fpga :: ·) ih.1,
      congrArg ((fpga.streamId, fpga.packetizer.next + 1) :: ·) ih.2⟩

/-- Round by round every stream counts on. -/
private theorem label_emitAll (tone : UInt64 → Nat → IQSample) (n : Nat)
    (fpgas : List FpgaEmulator) :
    (emitAll tone n fpgas).map label = (List.range n).flatMap fun k ↦
      (fpgas.map nextLabel).map fun l ↦ (l.1, l.2 + UInt64.ofNat k) := by
  induction n generalizing fpgas with
  | zero => rfl
  | succ n ih =>
    obtain ⟨hpackets, hfpgas⟩ := label_emitRound tone fpgas
    have hfirst : (fpgas.map nextLabel).map (fun l ↦ (l.1, l.2 + UInt64.ofNat 0)) =
        fpgas.map nextLabel := by simp
    rw [emitAll, List.map_append, ih, hpackets, hfpgas, List.range_succ_eq_map, List.flatMap_cons,
      hfirst, List.flatMap_map]
    congr 2
    funext k
    rw [List.map_map]
    congr 1
    funext l
    simp only [Function.comp, UInt64.add_assoc, UInt64.add_comm 1, ofNat_add_one,
      Nat.succ_eq_add_one]

variable (cfg : BenchConfig)

/-- A run emits the sequences from zero on, each of them on every stream. -/
theorem label_emitted : (emitted cfg).map label =
    (List.range cfg.profile.symbolCount.toNat).flatMap fun k ↦
      (streamIds cfg).map fun s ↦ (⟨s⟩, UInt64.ofNat k) := by
  rw [emitted, label_emitAll, emulators, List.map_map]
  congr 1
  funext k
  rw [List.map_map]
  congr 1
  funext s
  exact Prod.ext rfl (UInt64.zero_add _)

/-- The streams of a run are different from each other. -/
theorem streamIds_nodup : (streamIds cfg).Nodup := by
  refine List.Nodup.map_on ?_ List.nodup_range
  intro a ha b hb heq
  have ha := List.mem_range.mp ha
  have hb := List.mem_range.mp hb
  have hmax : cfg.streamCount < 2 ^ 32 :=
    max_lt cfg.profile.streams.toNat_lt (by decide)
  have heq := congrArg UInt32.toNat heq
  rw [UInt32.toNat_ofNat', UInt32.toNat_ofNat'] at heq
  omega

/-- The emitted packets ascend on every stream. -/
private theorem emitted_ascending : Ascending Packet.streamId Packet.number (emitted cfg) := by
  have hlabels : ((emitted cfg).map label).Pairwise
      fun a b ↦ a.1 = b.1 → a.2.toNat < b.2.toNat := by
    rw [label_emitted, List.pairwise_flatMap]
    constructor
    · intro k _
      refine List.pairwise_map.mpr ((streamIds_nodup cfg).imp fun hne heq ↦ ?_)
      exact absurd (congrArg StreamId.val heq) hne
    · apply List.pairwise_lt_range.imp_of_mem
      intro k l hk hl hlt a ha b hb _
      obtain ⟨s, -, rfl⟩ := List.mem_map.mp ha
      obtain ⟨t, -, rfl⟩ := List.mem_map.mp hb
      have hsmall := cfg.profile.symbolCount.toNat_lt
      have hk := List.mem_range.mp hk
      have hl := List.mem_range.mp hl
      simp only [UInt64.toNat_ofNat']
      omega
  exact List.pairwise_map.mp hlabels

/-- Every packet emitted but the first of a stream has its predecessor emitted. -/
private theorem emitted_closed {packet : Packet} (h : packet ∈ emitted cfg)
    (hpos : 0 < packet.number) :
    ∃ l ∈ (emitted cfg).map label,
      l.1 = packet.streamId ∧ l.2.toNat + 1 = packet.number := by
  have hlabel : label packet ∈ (emitted cfg).map label := List.mem_map_of_mem h
  rw [label_emitted] at hlabel ⊢
  obtain ⟨k, hk, hpacket⟩ := List.mem_flatMap.mp hlabel
  obtain ⟨s, hs, heq⟩ := List.mem_map.mp hpacket
  obtain ⟨hstream, hsequence⟩ := Prod.mk.inj heq
  have hsmall := cfg.profile.symbolCount.toNat_lt
  have hk := List.mem_range.mp hk
  have hnumber : packet.number = k := by
    rw [Packet.number, ← hsequence, UInt64.toNat_ofNat']
    omega
  refine ⟨(⟨s⟩, UInt64.ofNat (k - 1)), List.mem_flatMap.mpr ⟨k - 1, ?_, ?_⟩, hstream, ?_⟩
  · exact List.mem_range.mpr (by omega)
  · exact List.mem_map.mpr ⟨s, hs, rfl⟩
  · simp only [UInt64.toNat_ofNat']
    omega

section NoReordering

variable {cfg} (hreorder : cfg.fault.reorderDistance = 0) (hjump : cfg.fault.sequenceJump = 0)
include hreorder

/-- Without reordering the packets offered are the emitted ones but the dropped. -/
theorem offered_of_not_reordering : offered cfg =
    ((emitted cfg).map cfg.fault.mutatePacket).filter
      fun packet ↦ ¬ cfg.fault.shouldDrop packet.sequence.val := by
  obtain ⟨hheld, hout⟩ := FaultInjector.pushAll_of_not_reordering
    (rfl : (FaultInjector.new cfg.fault).held = none) hreorder (emitted cfg)
  rw [offered, pushed, hheld, hout, Option.toList_none, List.append_nil]
  rfl

include hjump

/-- The packets offered ascend on every stream. -/
private theorem offered_ascending : Ascending Packet.streamId Packet.number (offered cfg) := by
  rw [offered_of_not_reordering hreorder]
  refine List.Pairwise.filter _ (List.pairwise_map.mpr ((emitted_ascending cfg).imp ?_))
  intro a b hlt
  simp only [Packet.number, cfg.fault.mutatePacket_streamId,
    cfg.fault.mutatePacket_sequence _ hjump]
  exact hlt

/-- When nothing was dropped, the packets offered are those emitted. -/
private theorem label_offered (hdropped : (pushed cfg).1.dropped = 0) :
    (offered cfg).map label = (emitted cfg).map label := by
  have hlabel : label ∘ cfg.fault.mutatePacket = label := by
    funext packet
    simp only [Function.comp, label, cfg.fault.mutatePacket_streamId,
      cfg.fault.mutatePacket_sequence packet hjump]
  have hlength : (offered cfg).length = ((emitted cfg).map cfg.fault.mutatePacket).length := by
    have hoffered := length_offered cfg
    rw [hdropped, Nat.add_zero] at hoffered
    rw [hoffered, List.length_map, length_emitted]
  have hall := offered_of_not_reordering hreorder
  rw [hall] at hlength ⊢
  rw [List.filter_eq_self.mpr (List.length_filter_eq_length_iff.mp hlength), List.map_map, hlabel]

end NoReordering

variable {cfg}

/-- The receive path has followed the numbers of every stream. -/
structure Tracks (seen : List Packet) (s : BenchState) : Prop where
  sublist : s.delivered.Sublist seen
  expected : ∀ id, s.transport.seq.expected id =
    UInt64.ofNat (nextNumber Packet.streamId Packet.number id s.delivered)
  gaps : s.transport.sequenceGaps = gaps Packet.streamId Packet.number s.delivered

/-- It goes on following them, as long as they ascend. -/
theorem Tracks.step {seen : List Packet} {s s' : BenchState} {packet : Packet}
    (h : Tracks seen s) (hascending : Ascending Packet.streamId Packet.number (seen ++ [packet]))
    (hstep : PacketStep cfg s s' packet) : Tracks (seen ++ [packet]) s' := by
  cases hstep with
  | late _ htransport _ _ hdelivered =>
    refine ⟨?_, ?_, ?_⟩
    · rw [hdelivered]
      exact h.sublist.trans (List.sublist_append_left ..)
    · rw [htransport, hdelivered]
      exact h.expected
    · rw [htransport, hdelivered]
      exact h.gaps
  | delivered gap _ _ _ hgap _ hseq _ hgaps _ _ hdelivered =>
    have hsublist := h.sublist.append (List.Sublist.refl [packet])
    have hascending : Ascending Packet.streamId Packet.number (s.delivered ++ [packet]) :=
      hascending.sublist hsublist
    refine ⟨?_, ?_, ?_⟩
    · rw [hdelivered]
      exact hsublist
    · intro id
      rw [hseq, hdelivered, nextNumber_append_singleton]
      by_cases hid : packet.streamId = id
      · rw [if_pos hid, ← hid, SequenceChecker.expected_afterAccept_self, ← ofNat_add_one,
          Packet.number, UInt64.ofNat_toNat]
      · rw [if_neg hid, SequenceChecker.expected_afterAccept_of_ne _ (Ne.symm hid), h.expected]
    · -- below the packet's own number the expected word does not wrap
      have hle := nextNumber_le hascending
      have hbound := packet.sequence.val.toNat_lt
      have hsequence : packet.sequence.val ≠ s.transport.seq.expected packet.streamId ↔
          OpensGap Packet.streamId Packet.number s.delivered packet := by
        rw [← ne_nextNumber_iff hascending, h.expected, not_iff_not, ← UInt64.toNat_inj,
          UInt64.toNat_ofNat', Nat.mod_eq_of_lt (lt_of_le_of_lt hle hbound)]
        rfl
      rw [hgaps, hdelivered, gaps_append_singleton hascending, h.gaps]
      congr 1
      rw [hsequence] at hgap
      cases gap with
      | false => rw [if_neg (fun hopens ↦ nomatch hgap.mpr hopens)]; rfl
      | true => rw [if_pos (hgap.mp rfl)]; rfl

/-- Over a whole run whose packets ascend and start at zero. -/
theorem tracks_of_run (hstartSequence : cfg.deadline.startSequence = 0)
    (hascending : Ascending Packet.streamId Packet.number (offered cfg)) {s₀ s : BenchState}
    (hstart : start cfg = .ok s₀) (hrun : (offered cfg).foldlM (processOne cfg) s₀ = .ok s) :
    Tracks (offered cfg) s := by
  obtain ⟨-, -, hdelivered, hgaps, -, hexpected⟩ := start_expected hstart
  have hfirst : Tracks [] s₀ := by
    refine ⟨?_, fun id ↦ ?_, ?_⟩
    · rw [hdelivered]
    · rw [hexpected, hdelivered, hstartSequence]
      rfl
    · rw [hgaps, hdelivered]
      rfl
  refine (foldlM_invariant (P := fun seen s ↦ Quiet s ∧ Tracks seen s) hrun
    ⟨(start_balanced hstart).1, hfirst⟩ ?_).2
  rintro pre packet post s₁ s₂ hsplit ⟨hquiet, htracks⟩ hprocess
  refine ⟨hquiet.step hprocess,
    htracks.step (hascending.sublist ?_) (processOne_step hquiet.inbox hquiet.nic hprocess)⟩
  have hfront : offered cfg = pre ++ [packet] ++ post := by
    rw [hsplit, List.append_assoc, List.singleton_append]
  rw [hfront]
  exact List.sublist_append_left ..

/-- Without reordering and sequence jumps, a run whose streams start at zero reports a gap for
exactly the delivered packets that are not first on their stream and whose predecessor was not
delivered. Nothing dropped and nothing late means no gaps. -/
theorem sequence_gaps_exact {r : BenchResult} (hstartSequence : cfg.deadline.startSequence = 0)
    (hreorder : cfg.fault.reorderDistance = 0) (hjump : cfg.fault.sequenceJump = 0)
    (hrun : run cfg = .ok r) :
    let delivered := r.final.delivered
    r.report.packets = delivered.length ∧
    r.report.sequenceGaps = delivered.countP (fun packet ↦ 0 < packet.sequence.val.toNat ∧
      ∀ other ∈ delivered, other.streamId = packet.streamId →
        other.sequence.val.toNat + 1 ≠ packet.sequence.val.toNat) ∧
    (r.injector.dropped = 0 → r.report.latePackets = 0 → r.report.sequenceGaps = 0) := by
  obtain ⟨-, hsize, s₀, s, hstart, hfold, rfl⟩ := (run_eq_ok cfg).mp hrun
  obtain ⟨n, hbalanced⟩ := balanced_of_run hstart hsize hfold
  have htracks := tracks_of_run hstartSequence (offered_ascending hreorder hjump) hstart hfold
  refine ⟨hbalanced.delivered, htracks.gaps, fun hdropped hlate ↦ ?_⟩
  have hseen := hbalanced.seen
  change s.transport.latePackets = 0 at hlate
  change s.transport.sequenceGaps = 0
  rw [hbalanced.delivered, hlate, Nat.add_zero] at hseen
  have hall : s.delivered = offered cfg := htracks.sublist.eq_of_length hseen
  have hlabels := label_offered hreorder hjump hdropped
  rw [htracks.gaps, hall]
  refine gaps_eq_zero fun packet hpacket hpos ↦ ?_
  have hemitted : label packet ∈ (emitted cfg).map label := by
    rw [← hlabels]
    exact List.mem_map_of_mem hpacket
  obtain ⟨source, hsource, heq⟩ := List.mem_map.mp hemitted
  obtain ⟨hstream, hsequence⟩ := Prod.mk.inj heq
  obtain ⟨l, hl, hprev⟩ := emitted_closed cfg hsource (by rwa [Packet.number, hsequence])
  rw [← hlabels] at hl
  obtain ⟨other, hother, rfl⟩ := List.mem_map.mp hl
  rw [hstream, Packet.number, hsequence] at hprev
  exact ⟨other, hother, hprev⟩

/-- The lossy run reports its two gaps. -/
theorem sequence_gaps_exact_lossy : ∃ r, run lossyBench = .ok r ∧ r.report.sequenceGaps = 2 ∧
    r.report.packets = r.final.delivered.length ∧
    r.report.sequenceGaps = gaps Packet.streamId Packet.number r.final.delivered := by
  obtain ⟨r, hrun, -, -, -, htwo⟩ := exists_run_lossy
  obtain ⟨hpackets, hgaps, -⟩ := sequence_gaps_exact rfl rfl rfl hrun
  exact ⟨r, hrun, htwo, hpackets, hgaps⟩

end PipelineBench

end AetherRadio
