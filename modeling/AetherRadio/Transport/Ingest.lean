import AetherRadio.Transport.Engine

/-!
# The exits of `ingest` and `receive`

One equation per exit of `ingest`: refused by link or registry, late, accepted, and out of
sequence. A refused packet leaves everything but one counter as it was, with one exception: when
reordering is allowed, a packet from ahead moves its stream's expected number past itself.
-/

namespace AetherRadio

open Verif

namespace SequenceChecker

/-- The checker after it refused a packet. -/
def afterGap (self : SequenceChecker) (packet : Packet) : SequenceChecker :=
  if self.allowReorder ∧ packet.sequence.val > self.expected packet.streamId then
    { self with next := self.next.insert packet.streamId (packet.sequence.val + 1) }
  else self

/-- The checker after it accepted a packet. -/
def afterAccept (self : SequenceChecker) (packet : Packet) : SequenceChecker :=
  { self with next := self.next.insert packet.streamId (packet.sequence.val + 1) }

/-- Only the expected numbers change. -/
private theorem afterGap_eq (self : SequenceChecker) (packet : Packet) :
    self.afterGap packet = { self with next := (self.afterGap packet).next } := by
  unfold afterGap
  split <;> rfl

private theorem check_of_eq (self : SequenceChecker) {packet : Packet}
    (h : packet.sequence.val = self.expected packet.streamId) :
    self.check packet = (self.afterAccept packet, .ok ()) := by
  simp only [check, afterAccept, h, if_true]

private theorem check_of_ne (self : SequenceChecker) {packet : Packet}
    (h : packet.sequence.val ≠ self.expected packet.streamId) :
    self.check packet = (self.afterGap packet,
      .error (.sequenceGap (self.expected packet.streamId) packet.sequence.val)) := by
  simp only [check, if_neg h, afterGap]
  split <;> rfl

@[simp] theorem expected_afterAccept_self (self : SequenceChecker) (packet : Packet) :
    (self.afterAccept packet).expected packet.streamId = packet.sequence.val + 1 := by
  simp [afterAccept]

@[simp] theorem expected_afterAccept_of_ne (self : SequenceChecker) {packet : Packet}
    {id : StreamId} (h : id ≠ packet.streamId) :
    (self.afterAccept packet).expected id = self.expected id := by
  simp [afterAccept, h]

/-- What a refused packet does to the expected numbers. -/
private theorem expected_afterGap (self : SequenceChecker) (packet : Packet) (id : StreamId) :
    (self.afterGap packet).expected id =
      if self.allowReorder ∧ packet.sequence.val > self.expected packet.streamId ∧
        id = packet.streamId then packet.sequence.val + 1 else self.expected id := by
  unfold afterGap
  by_cases hahead : self.allowReorder ∧ packet.sequence.val > self.expected packet.streamId
  · rw [if_pos hahead]
    by_cases hid : id = packet.streamId
    · rw [if_pos ⟨hahead.1, hahead.2, hid⟩, hid, expected_insert_self]
    · rw [if_neg (fun h ↦ hid h.2.2), expected_insert_of_ne _ _ hid]
  · rw [if_neg hahead, if_neg (fun h ↦ hahead ⟨h.1, h.2.1⟩)]

/-- Without reordering a refused packet changes nothing. -/
theorem afterGap_of_strict {self : SequenceChecker} (h : self.allowReorder = false)
    (packet : Packet) : self.afterGap packet = self := by
  simp [afterGap, h]

end SequenceChecker

namespace SimTransportEngine

variable {self : SimTransportEngine} {packet : Packet}

/-- The errors of the checks before the packet is looked at. -/
inductive Refusal : TransportError → Prop where
  | link : Refusal .linkNotReady
  | unknown (streamId : StreamId) : Refusal (.streamNotFound streamId)
  | notRunning (streamId : StreamId) : Refusal (.streamNotRunning streamId)

private theorem refusal_of_admission {e : TransportError} (h : self.admission packet = .error e) :
    Refusal e := by
  unfold admission at h
  split at h
  · cases h
    exact .link
  · split at h
    · cases h
      exact .unknown _
    · split at h
      · cases h
        exact .notRunning _
      · cases h

theorem ingest_refused {e : TransportError} (h : self.admission packet = .error e) :
    self.ingest packet = (self, .error e) := by
  simp only [ingest, h]

theorem ingest_late (h : self.admission packet = .ok ()) (hlate : self.ts.Late packet self.nowNs) :
    self.ingest packet = ({ self with latePackets := self.latePackets + 1 },
      .error (.latePacket (satSub self.nowNs packet.timestamp.val) self.ts.maxLatencyNs)) := by
  simp only [ingest, h, TimestampChecker.check_of_late hlate]

theorem ingest_accepted (h : self.admission packet = .ok ())
    (htime : ¬ self.ts.Late packet self.nowNs)
    (hseq : packet.sequence.val = self.seq.expected packet.streamId) :
    self.ingest packet = ({ self with
      seq := self.seq.afterAccept packet
      inbox := self.inbox ++ [packet] }, .ok ()) := by
  simp only [ingest, h, TimestampChecker.check_of_not_late htime, self.seq.check_of_eq hseq]

theorem ingest_gap (h : self.admission packet = .ok ()) (htime : ¬ self.ts.Late packet self.nowNs)
    (hseq : packet.sequence.val ≠ self.seq.expected packet.streamId) :
    self.ingest packet = ({ self with
      seq := self.seq.afterGap packet
      sequenceGaps := self.sequenceGaps + 1 },
      .error (.sequenceGap (self.seq.expected packet.streamId) packet.sequence.val)) := by
  simp only [ingest, h, TimestampChecker.check_of_not_late htime, self.seq.check_of_ne hseq]

/-- How `ingest` can end. -/
inductive IngestExit (self : SimTransportEngine) (packet : Packet) : Prop where
  | refused (e : TransportError) (refusal : Refusal e)
      (admission : self.admission packet = .error e) (eq : self.ingest packet = (self, .error e))
  | late (admission : self.admission packet = .ok ()) (time : self.ts.Late packet self.nowNs)
      (eq : self.ingest packet = ({ self with latePackets := self.latePackets + 1 },
        .error (.latePacket (satSub self.nowNs packet.timestamp.val) self.ts.maxLatencyNs)))
  | accepted (admission : self.admission packet = .ok ()) (time : ¬ self.ts.Late packet self.nowNs)
      (seq : packet.sequence.val = self.seq.expected packet.streamId)
      (eq : self.ingest packet = ({ self with
        seq := self.seq.afterAccept packet
        inbox := self.inbox ++ [packet] }, .ok ()))
  | gap (admission : self.admission packet = .ok ()) (time : ¬ self.ts.Late packet self.nowNs)
      (seq : packet.sequence.val ≠ self.seq.expected packet.streamId)
      (eq : self.ingest packet = ({ self with
        seq := self.seq.afterGap packet
        sequenceGaps := self.sequenceGaps + 1 },
        .error (.sequenceGap (self.seq.expected packet.streamId) packet.sequence.val)))

/-- Every call takes one of the four exits. -/
theorem ingest_exit (self : SimTransportEngine) (packet : Packet) : IngestExit self packet := by
  cases hadmission : self.admission packet with
  | error e =>
    exact .refused e (refusal_of_admission hadmission) hadmission (ingest_refused hadmission)
  | ok _ =>
    by_cases htime : self.ts.Late packet self.nowNs
    · exact .late hadmission htime (ingest_late hadmission htime)
    · by_cases hseq : packet.sequence.val = self.seq.expected packet.streamId
      · exact .accepted hadmission htime hseq (ingest_accepted hadmission htime hseq)
      · exact .gap hadmission htime hseq (ingest_gap hadmission htime hseq)

theorem receive_nil (h : self.inbox = []) : self.receive = (self, .ok none) := by
  simp only [receive, h]

theorem receive_cons {inbox : List Packet} (h : self.inbox = packet :: inbox) :
    self.receive = ({ self with inbox }, .ok (some packet)) := by
  simp only [receive, h]

/-- `receive` answers with the head of the inbox. -/
theorem receive_result (self : SimTransportEngine) : self.receive.2 = .ok self.inbox.head? := by
  cases h : self.inbox with
  | nil => rw [receive_nil h, List.head?_nil]
  | cons packet inbox => rw [receive_cons h, List.head?_cons]

/-- An admitted packet belongs to a registered stream that is running. -/
theorem exists_of_admission (h : self.admission packet = .ok ()) :
    ∃ runtime, self.streams.get? packet.streamId = some runtime ∧ runtime.state = .running := by
  unfold admission at h
  split at h
  · cases h
  · split at h
    · cases h
    · next runtime hs =>
      split at h
      · cases h
      · next hrunning => exact ⟨runtime, hs, not_not.mp hrunning⟩

/-- A link that is neither running nor ready admits nothing. -/
theorem admission_of_link (h : self.link ≠ .running ∧ self.link ≠ .ready) (packet : Packet) :
    self.admission packet = .error .linkNotReady := if_pos h

/-- After a gap, recovering to the packet's own number makes `ingest` accept it, in either
reorder mode. The gap stays counted and the link is running. -/
theorem ingest_recover {expected got : UInt64}
    (h : (self.ingest packet).2 = .error (.sequenceGap expected got)) :
    ((self.ingest packet).1.recoverSequence packet.streamId got).ingest packet =
      ({ self with
          seq := self.seq.afterAccept packet
          inbox := self.inbox ++ [packet]
          sequenceGaps := self.sequenceGaps + 1
          link := .running }, .ok ()) := by
  cases self.ingest_exit packet with
  | refused e hrefusal hadmission heq =>
    rw [heq] at h
    cases h
    cases hrefusal
  | late hadmission htime heq =>
    rw [heq] at h
    cases h
  | accepted hadmission htime hseq heq =>
    rw [heq] at h
    cases h
  | gap hadmission htime hseq heq =>
    rw [heq] at h ⊢
    cases h
    obtain ⟨runtime, hknown, hrunning⟩ := exists_of_admission hadmission
    -- the stream was running already, so only the link and the expected number change
    have hrecover : ({ self with
          seq := self.seq.afterGap packet
          sequenceGaps := self.sequenceGaps + 1 } : SimTransportEngine).recoverSequence
            packet.streamId packet.sequence.val =
        { self with
          seq := (self.seq.afterGap packet).resync packet.streamId packet.sequence.val
          sequenceGaps := self.sequenceGaps + 1
          link := .running } := by
      simp only [recoverSequence, hknown]
      rw [← hrunning, Table.insert_eq_self hknown]
    have haccept : ((self.seq.afterGap packet).resync packet.streamId
        packet.sequence.val).afterAccept packet = self.seq.afterAccept packet := by
      simp only [SequenceChecker.afterAccept, SequenceChecker.resync, Table.insert_insert]
      unfold SequenceChecker.afterGap
      split
      · rw [Table.insert_insert]
      · rfl
    rw [hrecover, ingest_accepted]
    · rw [haccept]
    · simp [admission, hknown, hrunning]
    · exact htime
    · exact (SequenceChecker.expected_resync_self ..).symm

/-- A packet that `ingest` accepts joins the inbox and moves its stream's expected number to the
next one. A packet it refuses leaves everything but the two counters and the expected numbers as
it is (also the start number and the reorder mode of the checker), and those too, except that with
reordering allowed a packet from ahead is reported as a gap and moves its stream's expected number
past itself. -/
theorem ingest_atomic_but_ahead (self : SimTransportEngine) (packet : Packet) :
    let next := (self.ingest packet).1
    ((self.ingest packet).2 = .ok () →
      next.inbox = self.inbox ++ [packet] ∧
      next.seq.expected packet.streamId = packet.sequence.val + 1) ∧
    (∀ e, (self.ingest packet).2 = .error e →
      let expected := self.seq.expected packet.streamId
      let got := packet.sequence.val
      next = { self with
        seq := { self.seq with next := next.seq.next }
        sequenceGaps := next.sequenceGaps
        latePackets := next.latePackets } ∧
      self.sequenceGaps ≤ next.sequenceGaps ∧ self.latePackets ≤ next.latePackets ∧
      ∀ id, next.seq.expected id =
        if (self.seq.allowReorder ∧ got > expected ∧ e = .sequenceGap expected got) ∧
          id = packet.streamId then got + 1 else self.seq.expected id) := by
  intro next
  cases self.ingest_exit packet with
  | refused e' hrefusal hadmission heq =>
    have hnext : next = self := congrArg Prod.fst heq
    rw [heq, hnext]
    refine ⟨nofun, ?_⟩
    rintro e ⟨⟩
    refine ⟨rfl, Nat.le_refl _, Nat.le_refl _, fun id ↦ ?_⟩
    rw [if_neg]
    rintro ⟨⟨-, -, rfl⟩, -⟩
    cases hrefusal
  | late hadmission htime heq =>
    have hnext : next = { self with latePackets := self.latePackets + 1 } := congrArg Prod.fst heq
    rw [heq, hnext]
    refine ⟨nofun, ?_⟩
    rintro e ⟨⟩
    refine ⟨rfl, Nat.le_refl _, Nat.le_succ _, fun id ↦ ?_⟩
    rw [if_neg (fun h ↦ nomatch h.1.2.2)]
  | accepted hadmission htime hseq heq =>
    have hnext : next = { self with
        seq := self.seq.afterAccept packet
        inbox := self.inbox ++ [packet] } := congrArg Prod.fst heq
    rw [heq, hnext]
    exact ⟨fun _ ↦ ⟨rfl, SequenceChecker.expected_afterAccept_self ..⟩, nofun⟩
  | gap hadmission htime hseq heq =>
    have hnext : next = { self with
        seq := self.seq.afterGap packet
        sequenceGaps := self.sequenceGaps + 1 } := congrArg Prod.fst heq
    rw [heq, hnext]
    refine ⟨nofun, ?_⟩
    rintro e ⟨⟩
    refine ⟨?_, Nat.le_succ _, Nat.le_refl _, fun id ↦ ?_⟩
    · rw [SequenceChecker.afterGap_eq]
    rw [SequenceChecker.expected_afterGap]
    simp only [and_true, and_assoc]

/-- An engine with one running stream, reordering allowed. -/
def oneStream : SimTransportEngine :=
  let cfg : StreamConfig := ⟨⟨1⟩, 0, 0, 0, 10000⟩
  ((((new ⟨10000, true, 0⟩).linkUp.1.createStream cfg).1).startStream cfg.streamId).1

/-- With reordering allowed, sequence 1 in place of sequence 0 is refused and yet counted as
consumed: the stream then expects 2. -/
theorem ingest_refuses_and_consumes :
    let packet : Packet := ⟨⟨1⟩, ⟨1⟩, ⟨0⟩, []⟩
    (oneStream.ingest packet).2 = .error (.sequenceGap 0 1) ∧
      oneStream.seq.expected ⟨1⟩ = 0 ∧ (oneStream.ingest packet).1.seq.expected ⟨1⟩ = 2 := by
  decide

end SimTransportEngine

end AetherRadio
