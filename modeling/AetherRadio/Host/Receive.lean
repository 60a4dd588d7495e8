import AetherRadio.Host.Recv
import AetherRadio.Transport.Ingest

/-!
# What the receiver takes

The receiver's transport has one running stream. Every packet of that stream that is on time gets
through, whatever its number, and moves the expected number to its own successor; every other
packet is skipped.
-/

namespace AetherRadio

open Verif

namespace HostRecv

variable {cfg : HostConfig} {s s' : HostState} {pkt : Packet}

/-- The packet is on the receiver's stream and not too old. -/
def Arrives (cfg : HostConfig) (pkt : Packet) : Prop :=
  pkt.streamId = cfg.streamId ∧
    ¬ (TimestampChecker.fromConfig cfg.deadline).Late pkt (receiveNs pkt)

instance : DecidablePred (Arrives cfg) := fun _ ↦ inferInstanceAs (Decidable (_ ∧ _))

/-- The transport between two packets: the one stream is running and nothing is queued. -/
structure Listening (cfg : HostConfig) (s : HostState) : Prop where
  link : s.transport.link = .running
  stream : ∃ runtime, s.transport.streams.get? cfg.streamId = some runtime ∧
    runtime.state = .running
  others : ∀ id, id ≠ cfg.streamId → s.transport.streams.get? id = none
  inbox : s.transport.inbox = []
  ts : s.transport.ts = .fromConfig cfg.deadline

/-- The receiver always starts, listening, with all counters at zero. -/
theorem exists_start (cfg : HostConfig) : ∃ s, start cfg = .ok s ∧ Listening cfg s ∧
    s.transport.seq.expected cfg.streamId = cfg.deadline.startSequence ∧ s.nic.Idle ∧
    s.accepted = 0 ∧ s.metrics.tally.rx = 0 ∧ s.metrics.tally.tx = 0 := by
  have hcreated (t : SimTransportEngine) (scfg : StreamConfig)
      (h : t.streams.get? scfg.streamId = none) : t.createStream scfg =
      ({ t with
          seq := t.seq.registerStream scfg.streamId
          streams := t.streams.insert scfg.streamId { cfg := scfg, state := .idle } },
        .ok scfg.streamId) := by
    rw [SimTransportEngine.createStream, h]
  have hstarted (t : SimTransportEngine) (streamId : StreamId) (runtime : StreamRuntime)
      (h : t.streams.get? streamId = some runtime) : t.startStream streamId =
      ({ t with streams := t.streams.insert streamId { runtime with state := .running } },
        .ok ()) := by
    rw [SimTransportEngine.startStream, SimTransportEngine.setStreamState, h]
  refine ⟨_, bind_eq_ok.mpr ⟨_, rfl, bind_eq_ok.mpr ⟨_, orFail_eq_ok.mpr (hcreated _ _ rfl),
    bind_eq_ok.mpr ⟨_, orFail_eq_ok.mpr (hstarted _ _ _ (Table.get?_insert_self ..)), rfl⟩⟩⟩,
    ⟨rfl, ⟨_, Table.get?_insert_self .., rfl⟩, fun id hid ↦ ?_, rfl, rfl⟩, ?_, ⟨rfl, rfl⟩, rfl, rfl,
    rfl⟩
  · exact (Table.get?_insert_of_ne _ _ hid).trans (Table.get?_insert_of_ne _ _ hid)
  · exact SequenceChecker.expected_registerStream ..

/-- Listening is a matter of the transport alone. -/
theorem Listening.of_transport (h : Listening cfg s) (heq : s'.transport = s.transport) :
    Listening cfg s' := by
  obtain ⟨hlink, hstream, hothers, hinbox, hts⟩ := h
  rw [← heq] at hlink hstream hothers hinbox hts
  exact ⟨hlink, hstream, hothers, hinbox, hts⟩

/-- A listening receiver admits the packets of its stream. -/
theorem Listening.admission_iff (h : Listening cfg s) (pkt : Packet) :
    s.transport.admission pkt = .ok () ↔ pkt.streamId = cfg.streamId := by
  obtain ⟨runtime, hknown, hrunning⟩ := h.stream
  unfold SimTransportEngine.admission
  rw [if_neg (by rw [h.link]; exact fun hdown ↦ hdown.1 rfl)]
  by_cases hid : pkt.streamId = cfg.streamId
  · simp [hid, hknown, hrunning]
  · simp [hid, h.others _ hid]

/-- How the receive path can end. -/
inductive IngestStep (cfg : HostConfig) (s s' : HostState) (pkt : Packet) : Bool → Prop where
  | skipped (skip : pkt.streamId ≠ cfg.streamId ∨ s.transport.ts.Late pkt s.transport.nowNs)
      (listening : Listening cfg s') (seq : s'.transport.seq = s.transport.seq)
      (rx : s'.metrics.tally.rx = s.metrics.tally.rx)
      (tx : s'.metrics.tally.tx = s.metrics.tally.tx)
      (nic : s'.nic = s.nic) (accepted : s'.accepted = s.accepted) : IngestStep cfg s s' pkt false
  | queued (stream : pkt.streamId = cfg.streamId)
      (time : ¬ s.transport.ts.Late pkt s.transport.nowNs)
      (listening : Listening cfg { s' with transport.inbox := [] })
      (inbox : s'.transport.inbox = [pkt])
      (seq : s'.transport.seq = s.transport.seq.afterAccept pkt)
      (rx : s'.metrics.tally.rx = s.metrics.tally.rx)
      (tx : s'.metrics.tally.tx = s.metrics.tally.tx)
      (nic : s'.nic = s.nic) (accepted : s'.accepted = s.accepted) : IngestStep cfg s s' pkt true

/-- A listening receiver takes one of these steps. -/
theorem Listening.ingestOrRecover (h : Listening cfg s) (pkt : Packet) :
    IngestStep cfg s (ingestOrRecover cfg s pkt).1 pkt (ingestOrRecover cfg s pkt).2 := by
  have hadmits := h.admission_iff pkt
  cases s.transport.ingest_exit pkt with
  | refused e hrefusal hadmission heq =>
    have hskip : HostRecv.ingestOrRecover cfg s pkt = (s, false) := by
      rw [HostRecv.ingestOrRecover, heq]
      cases hrefusal <;> rfl
    rw [hskip]
    refine .skipped (.inl fun hstream ↦ ?_) h rfl rfl rfl rfl rfl
    rw [hadmits.mpr hstream] at hadmission
    cases hadmission
  | late hadmission htime heq =>
    rw [HostRecv.ingestOrRecover, heq]
    exact .skipped (.inr htime) ⟨h.link, h.stream, h.others, h.inbox, h.ts⟩ rfl rfl rfl rfl rfl
  | accepted hadmission htime hseq heq =>
    rw [HostRecv.ingestOrRecover, heq]
    exact .queued (hadmits.mp hadmission) htime ⟨h.link, h.stream, h.others, rfl, h.ts⟩
      (by rw [h.inbox]; rfl) rfl rfl rfl rfl rfl
  | gap hadmission htime hseq heq =>
    have hstream := hadmits.mp hadmission
    have hrecover := SimTransportEngine.ingest_recover (congrArg Prod.snd heq)
    rw [heq, hstream] at hrecover
    have hqueued : HostRecv.ingestOrRecover cfg s pkt =
        ({ s.applyRecovery "sequence_gap" with
          transport := { s.transport with
            seq := s.transport.seq.afterAccept pkt
            inbox := s.transport.inbox ++ [pkt]
            sequenceGaps := s.transport.sequenceGaps + 1
            link := .running }
          metrics := s.metrics.recordSequenceGap }, true) := by
      rw [HostRecv.ingestOrRecover, heq]
      dsimp only [HostState.applyRecovery]
      rw [hrecover]
    rw [hqueued]
    exact .queued hstream htime ⟨rfl, h.stream, h.others, rfl, h.ts⟩ (by rw [h.inbox]; rfl) rfl rfl
      rfl rfl rfl

/-- What the receive path makes of one packet. -/
structure ReceiveStep (cfg : HostConfig) (s s' : HostState) (pkt : Packet)
    (received : Except TransportError (Option Packet)) : Prop where
  received : received = .ok (if Arrives cfg pkt then some pkt else none)
  listening : Listening cfg s'
  expected : s'.transport.seq.expected cfg.streamId =
    if Arrives cfg pkt then pkt.sequence.val + 1 else s.transport.seq.expected cfg.streamId
  nic : s'.nic = s.nic
  accepted : s'.accepted = s.accepted
  rx : s'.metrics.tally.rx = s.metrics.tally.rx
  tx : s'.metrics.tally.tx = s.metrics.tally.tx

/-- A listening receiver takes such a step and goes on listening. -/
theorem Listening.receiveOne (h : Listening cfg s) (pkt : Packet) :
    ReceiveStep cfg s (receiveOne cfg s pkt).1 pkt (receiveOne cfg s pkt).2 := by
  unfold HostRecv.receiveOne
  obtain ⟨nowNs, hnow⟩ : ∃ nowNs, receiveNs pkt = nowNs := ⟨_, rfl⟩
  have harrives : Arrives cfg pkt ↔ pkt.streamId = cfg.streamId ∧
      ¬ (TimestampChecker.fromConfig cfg.deadline).Late pkt nowNs := by
    rw [← hnow]
    rfl
  have hstamped : Listening cfg { s with transport.nowNs := nowNs } :=
    ⟨h.link, h.stream, h.others, h.inbox, h.ts⟩
  have hstep := hstamped.ingestOrRecover pkt
  rw [hnow]
  generalize HostRecv.ingestOrRecover cfg { s with transport.nowNs := nowNs } pkt = r at hstep
  obtain ⟨s', through⟩ := r
  cases hstep with
  | skipped skip listening seq rx tx nic accepted =>
    have hskip : ¬ Arrives cfg pkt := by
      rw [harrives, ← h.ts]
      rintro ⟨hstream, htime⟩
      exact skip.elim (fun hother ↦ hother hstream) htime
    refine ⟨by rw [if_neg hskip], listening, ?_, nic, accepted, rx, tx⟩
    rw [if_neg hskip]
    exact congrArg (·.expected cfg.streamId) seq
  | queued stream time listening inbox seq rx tx nic accepted =>
    have htakes : Arrives cfg pkt := by
      rw [harrives, ← h.ts]
      exact ⟨stream, time⟩
    dsimp only at inbox
    dsimp only
    rw [SimTransportEngine.receive_cons inbox]
    refine ⟨by rw [if_pos htakes], listening, ?_, nic, accepted, rx, tx⟩
    rw [if_pos htakes, ← stream]
    exact (congrArg (·.expected pkt.streamId) seq).trans
      (SequenceChecker.expected_afterAccept_self ..)

end HostRecv

end AetherRadio
