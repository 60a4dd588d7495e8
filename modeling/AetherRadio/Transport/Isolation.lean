import AetherRadio.Transport.Runs

/-!
# Streams do not interfere

All that the engine answers about one stream depends on: the stream's own registry entry and
expected number, the link, the clock and the two checkers' settings. An operation on another stream
leaves these alone, so it can be dropped from a run without changing an answer.
-/

namespace AetherRadio

open Verif

/-- The stream an operation names. -/
def TransportOp.streamId? : TransportOp → Option StreamId
  | .createStream cfg => some cfg.streamId
  | .startStream id | .stopStream id | .queryStream id | .destroyStream id
  | .recoverSequence id _ => some id
  | .ingest packet | .send packet => some packet.streamId
  | .linkUp | .linkDown | .reset | .receive | .advanceTime _ | .setNow _ => none

/-- The operation names the stream. -/
def TransportOp.on (streamId : StreamId) (op : TransportOp) : Bool := op.streamId? = some streamId

/-- The operation names the stream or none at all. -/
def TransportOp.concerns (streamId : StreamId) (op : TransportOp) : Bool :=
  op.streamId?.all (· = streamId)

namespace SequenceChecker

/-- Two checkers that answer alike about one stream. -/
structure SameFor (streamId : StreamId) (seq seq' : SequenceChecker) : Prop where
  start : seq'.start = seq.start
  allowReorder : seq'.allowReorder = seq.allowReorder
  next : seq'.next.get? streamId = seq.next.get? streamId

variable {self self' : SequenceChecker} {streamId : StreamId}

theorem SameFor.expected (h : SameFor streamId self self') :
    self'.expected streamId = self.expected streamId := by
  rw [SequenceChecker.expected, SequenceChecker.expected, h.next, h.start]

/-- The same entry on both sides. -/
theorem SameFor.insert (h : SameFor streamId self self') (n : UInt64) :
    SameFor streamId { self with next := self.next.insert streamId n }
      { self' with next := self'.next.insert streamId n } :=
  ⟨h.start, h.allowReorder, by rw [Table.get?_insert_self, Table.get?_insert_self]⟩

theorem SameFor.registerStream (h : SameFor streamId self self') :
    SameFor streamId (self.registerStream streamId) (self'.registerStream streamId) := by
  unfold SequenceChecker.registerStream
  rw [h.next]
  split
  · exact h
  · have hinsert := h.insert self.start
    rw [h.start] at hinsert ⊢
    exact hinsert

theorem SameFor.afterGap {packet : Packet} (h : SameFor packet.streamId self self') :
    SameFor packet.streamId (self.afterGap packet) (self'.afterGap packet) := by
  unfold SequenceChecker.afterGap
  rw [h.allowReorder, h.expected]
  split
  · have hinsert := h.insert (packet.sequence.val + 1)
    rw [h.allowReorder] at hinsert
    exact hinsert
  · exact h

/-- An entry for another stream. -/
theorem sameFor_insert (self : SequenceChecker) {id : StreamId} (hid : streamId ≠ id)
    (n : UInt64) : SameFor streamId self { self with next := self.next.insert id n } :=
  ⟨rfl, rfl, Table.get?_insert_of_ne _ _ hid⟩

/-- A refused packet of another stream. -/
private theorem sameFor_afterGap (self : SequenceChecker) {packet : Packet}
    (hid : streamId ≠ packet.streamId) : SameFor streamId self (self.afterGap packet) := by
  unfold SequenceChecker.afterGap
  split
  · exact self.sameFor_insert hid _
  · exact ⟨rfl, rfl, rfl⟩

end SequenceChecker

namespace SimTransportEngine

/-- Two engines that answer alike about one stream. -/
structure SameFor (streamId : StreamId) (s s' : SimTransportEngine) : Prop where
  link : s'.link = s.link
  nowNs : s'.nowNs = s.nowNs
  ts : s'.ts = s.ts
  stream : s'.streams.get? streamId = s.streams.get? streamId
  seq : s.seq.SameFor streamId s'.seq

namespace SameFor

variable {streamId : StreamId} {s s' s'' : SimTransportEngine}

theorem refl (streamId : StreamId) (s : SimTransportEngine) : SameFor streamId s s :=
  ⟨rfl, rfl, rfl, rfl, rfl, rfl, rfl⟩

theorem symm (h : SameFor streamId s s') : SameFor streamId s' s :=
  ⟨h.link.symm, h.nowNs.symm, h.ts.symm, h.stream.symm, h.seq.start.symm,
    h.seq.allowReorder.symm, h.seq.next.symm⟩

theorem trans (h : SameFor streamId s s') (h' : SameFor streamId s' s'') :
    SameFor streamId s s'' :=
  ⟨h'.link.trans h.link, h'.nowNs.trans h.nowNs, h'.ts.trans h.ts, h'.stream.trans h.stream,
    h'.seq.start.trans h.seq.start, h'.seq.allowReorder.trans h.seq.allowReorder,
    h'.seq.next.trans h.seq.next⟩

theorem admission (h : SameFor streamId s s') {packet : Packet}
    (hid : packet.streamId = streamId) : s'.admission packet = s.admission packet := by
  rw [SimTransportEngine.admission, SimTransportEngine.admission, h.link, hid, h.stream]

theorem late (h : SameFor streamId s s') (packet : Packet) :
    s'.ts.Late packet s'.nowNs ↔ s.ts.Late packet s.nowNs := by rw [h.ts, h.nowNs]

/-- What only changes the queues and the counters does not matter. -/
theorem of_eq (link : s'.link = s.link) (nowNs : s'.nowNs = s.nowNs) (ts : s'.ts = s.ts)
    (streams : s'.streams = s.streams) (seq : s'.seq = s.seq) : SameFor streamId s s' :=
  ⟨link, nowNs, ts, by rw [streams], by rw [seq], by rw [seq], by rw [seq]⟩

end SameFor

/-- In the run, `recover_sequence` is called only directly after an `ingest` on the same stream
that reported a gap. -/
def RecoversAfterGap (deadline : TransportDeadlineConfig) (ops : List TransportOp) : Prop :=
  ∀ pre op, pre ++ [op] <+: ops → ∀ streamId nextSeq, op = .recoverSequence streamId nextSeq →
    ∃ before packet expected got, pre = before ++ [.ingest packet] ∧ packet.streamId = streamId ∧
      ((after deadline before).ingest packet).2 = .error (.sequenceGap expected got)

/-- `recover_sequence` on a link that is up already. -/
def RecoversUp (eng : SimTransportEngine) (op : TransportOp) : Prop :=
  op.isRecover = true → eng.link = .running

/-- The frame of an operation on another stream. -/
private theorem act_other {self : SimTransportEngine} {streamId : StreamId} {op : TransportOp}
    (hop : op.concerns streamId = false) (hup : self.RecoversUp op) :
    SameFor streamId self (self.act op).1 := by
  have hne : ∀ id, op.streamId? = some id → streamId ≠ id := by
    rintro id hid rfl
    rw [TransportOp.concerns, hid, Option.all_some, decide_eq_false_iff_not] at hop
    exact hop rfl
  cases op with
  | linkUp | linkDown | reset | receive | advanceTime deltaNs | setNow nowNs => cases hop
  | queryStream id => exact .refl ..
  | send packet =>
    simp only [act, send]
    split <;> exact .of_eq rfl rfl rfl rfl rfl
  | createStream cfg =>
    have hid := hne _ rfl
    simp only [act, createStream]
    split
    · exact .refl ..
    · exact ⟨rfl, rfl, rfl, Table.get?_insert_of_ne _ _ hid,
        SequenceChecker.registerStream_start ..,
        SequenceChecker.registerStream_allowReorder ..,
        SequenceChecker.get?_registerStream_of_ne _ hid⟩
  | startStream id | stopStream id =>
    have hid := hne _ rfl
    simp only [act, startStream, stopStream, setStreamState]
    split
    · exact .refl ..
    · exact ⟨rfl, rfl, rfl, Table.get?_insert_of_ne _ _ hid, rfl, rfl, rfl⟩
  | destroyStream id =>
    have hid := hne _ rfl
    simp only [act, destroyStream]
    split
    · exact .refl ..
    · exact ⟨rfl, rfl, rfl, Table.get?_remove_of_ne _ hid, rfl, rfl, Table.get?_remove_of_ne _ hid⟩
  | recoverSequence id nextSeq =>
    have hid := hne _ rfl
    refine ⟨(hup rfl).symm, rfl, rfl, ?_, self.seq.sameFor_insert hid nextSeq⟩
    simp only [act, recoverSequence]
    split
    · exact Table.get?_insert_of_ne _ _ hid
    · rfl
  | ingest packet =>
    have hid := hne _ rfl
    cases self.ingest_exit packet with
    | refused e hrefusal hadmission heq =>
      rw [act, heq]
      exact .refl ..
    | late hadmission htime heq =>
      rw [act, heq]
      exact .of_eq rfl rfl rfl rfl rfl
    | accepted hadmission htime hseq heq =>
      rw [act, heq]
      exact ⟨rfl, rfl, rfl, rfl, self.seq.sameFor_insert hid _⟩
    | gap hadmission htime hseq heq =>
      rw [act, heq]
      exact ⟨rfl, rfl, rfl, rfl, self.seq.sameFor_afterGap hid⟩

/-- An operation on the stream itself, or on none, is answered alike by engines that answer alike
about the stream. -/
private theorem act_alike {s s' : SimTransportEngine} {streamId : StreamId}
    (h : SameFor streamId s s')
    {op : TransportOp} (hop : op.concerns streamId = true) :
    SameFor streamId (s.act op).1 (s'.act op).1 ∧
      (op.on streamId = true → (s.act op).2 = (s'.act op).2) := by
  have heq : ∀ id, op.streamId? = some id → id = streamId := by
    intro id hid
    rwa [TransportOp.concerns, hid, Option.all_some, decide_eq_true_eq] at hop
  cases op with
  | linkUp | linkDown | reset => exact ⟨⟨rfl, h.nowNs, h.ts, h.stream, h.seq⟩, fun _ ↦ rfl⟩
  | advanceTime deltaNs =>
    exact ⟨⟨h.link, congrArg (satAdd · deltaNs) h.nowNs, h.ts, h.stream, h.seq⟩, fun _ ↦ rfl⟩
  | setNow nowNs => exact ⟨⟨h.link, rfl, h.ts, h.stream, h.seq⟩, fun _ ↦ rfl⟩
  | receive =>
    have hsame (s : SimTransportEngine) : SameFor streamId s s.receive.1 := by
      unfold receive
      split <;> exact .of_eq rfl rfl rfl rfl rfl
    -- the inbox is shared, so the answers differ, but `receive` names no stream
    exact ⟨(hsame s).symm.trans (h.trans (hsame s')), fun hon ↦ by cases hon⟩
  | queryStream id =>
    obtain rfl := heq id rfl
    refine ⟨h, fun _ ↦ ?_⟩
    simp only [act, queryStream, h.stream, SequenceChecker.lastExpected, h.seq.expected]
  | send packet =>
    simp only [act, send, h.admission (heq _ rfl)]
    split
    · exact ⟨h, fun _ ↦ rfl⟩
    · exact ⟨⟨h.link, h.nowNs, h.ts, h.stream, h.seq⟩, fun _ ↦ rfl⟩
  | createStream cfg =>
    obtain rfl := heq _ rfl
    simp only [act, createStream, h.stream]
    split
    · exact ⟨h, fun _ ↦ rfl⟩
    · refine ⟨⟨h.link, h.nowNs, h.ts, ?_, h.seq.registerStream⟩, fun _ ↦ rfl⟩
      exact (Table.get?_insert_self ..).trans (Table.get?_insert_self ..).symm
  | startStream id | stopStream id =>
    obtain rfl := heq id rfl
    simp only [act, startStream, stopStream, setStreamState, h.stream]
    split
    · exact ⟨h, fun _ ↦ rfl⟩
    · refine ⟨⟨h.link, h.nowNs, h.ts, ?_, h.seq⟩, fun _ ↦ rfl⟩
      exact (Table.get?_insert_self ..).trans (Table.get?_insert_self ..).symm
  | destroyStream id =>
    obtain rfl := heq id rfl
    simp only [act, destroyStream, h.stream]
    split
    · exact ⟨h, fun _ ↦ rfl⟩
    · refine ⟨⟨h.link, h.nowNs, h.ts, ?_, h.seq.start, h.seq.allowReorder, ?_⟩, fun _ ↦ rfl⟩
      · exact (Table.get?_remove_self ..).trans (Table.get?_remove_self ..).symm
      · exact (Table.get?_remove_self ..).trans (Table.get?_remove_self ..).symm
  | recoverSequence id nextSeq =>
    obtain rfl := heq id rfl
    refine ⟨⟨rfl, h.nowNs, h.ts, ?_, h.seq.insert nextSeq⟩, fun _ ↦ rfl⟩
    simp only [act, recoverSequence, h.stream]
    split
    · exact (Table.get?_insert_self ..).trans (Table.get?_insert_self ..).symm
    · exact h.stream
  | ingest packet =>
    obtain rfl := heq _ rfl
    have hsame := h.admission rfl
    cases s.ingest_exit packet with
    | refused e hrefusal hadmission hexit =>
      rw [act, act, hexit, ingest_refused (hsame.trans hadmission)]
      exact ⟨h, fun _ ↦ rfl⟩
    | late hadmission htime hexit =>
      rw [act, act, hexit, ingest_late (hsame.trans hadmission) ((h.late packet).mpr htime)]
      refine ⟨⟨h.link, h.nowNs, h.ts, h.stream, h.seq⟩, fun _ ↦ ?_⟩
      rw [h.ts, h.nowNs]
      rfl
    | accepted hadmission htime hseq hexit =>
      rw [act, act, hexit, ingest_accepted (hsame.trans hadmission) (mt (h.late packet).mp htime)
        (hseq.trans h.seq.expected.symm)]
      exact ⟨⟨h.link, h.nowNs, h.ts, h.stream, h.seq.insert _⟩, fun _ ↦ rfl⟩
    | gap hadmission htime hseq hexit =>
      rw [act, act, hexit, ingest_gap (hsame.trans hadmission) (mt (h.late packet).mp htime)
        (fun heq ↦ hseq (heq.trans h.seq.expected)), h.seq.expected]
      exact ⟨⟨h.link, h.nowNs, h.ts, h.stream, h.seq.afterGap⟩, fun _ ↦ rfl⟩

/-- The link is down or running: no operation sets any other state. -/
private theorem act_link (self : SimTransportEngine) (op : TransportOp)
    (h : self.link = .init ∨ self.link = .running) :
    (self.act op).1.link = .init ∨ (self.act op).1.link = .running := by
  cases op with
  | linkUp | recoverSequence id nextSeq => exact .inr rfl
  | linkDown | reset => exact .inl rfl
  | startStream id => exact (self.setStreamState_link id .running).symm ▸ h
  | stopStream id => exact (self.setStreamState_link id .stopped).symm ▸ h
  | _ => simp [act, advanceTime, h]

private theorem after_link (deadline : TransportDeadlineConfig) (ops : List TransportOp) :
    (after deadline ops).link = .init ∨ (after deadline ops).link = .running :=
  transport.run_preserves (P := fun s ↦ s.link = .init ∨ s.link = .running) (.inl rfl)
    (fun s op hs _ ↦ s.act_link op hs) (transport.permits_true _ _)

/-- A gap is reported on a link that is up. -/
private theorem link_of_gap {self : SimTransportEngine} {packet : Packet} {expected got : UInt64}
    (h : (self.ingest packet).2 = .error (.sequenceGap expected got)) : self.link ≠ .init := by
  intro hdown
  have hlink : self.link ≠ .running ∧ self.link ≠ .ready := by
    rw [hdown]
    decide
  have hrefused := admission_of_link hlink packet
  rw [ingest_refused hrefused] at h
  cases h

/-- Recovering only after a gap is recovering only while the link is up. -/
private theorem permits_recoversUp {deadline : TransportDeadlineConfig} {ops : List TransportOp}
    (h : RecoversAfterGap deadline ops) : transport.Permits RecoversUp (new deadline) ops := by
  apply Machine.permits_iff.mpr
  intro pre op hpre hrecover
  cases op with
  | recoverSequence streamId nextSeq =>
    obtain ⟨before, packet, expected, got, rfl, -, hgap⟩ := h pre _ hpre streamId nextSeq rfl
    have hup := (after_link deadline before).resolve_left (link_of_gap hgap)
    rw [transport.run_append]
    exact ((after deadline before).ingest_link packet).trans hup
  | _ => cases hrecover

/-- In a run that recovers only after a gap, the operations on a stream are answered as in the run
without the operations on the other streams. -/
theorem streams_do_not_interfere (deadline : TransportDeadlineConfig) (ops : List TransportOp)
    (h : RecoversAfterGap deadline ops) (streamId : StreamId) :
    (transport.trace (new deadline) ops).filter (·.1.on streamId) =
      (transport.trace (new deadline) (ops.filter (·.concerns streamId))).filter
        (·.1.on streamId) := by
  have hconcerns (op : TransportOp) (hon : op.on streamId = true) :
      op.concerns streamId = true := by
    rw [TransportOp.on, decide_eq_true_eq] at hon
    rw [TransportOp.concerns, hon, Option.all_some, decide_eq_true rfl]
  exact transport.trace_purge (R := SameFor streamId) hconcerns
    (fun s s' op hs hup hop ↦ (act_other hop hup).symm.trans hs)
    (fun s s' op hs _ hop ↦ act_alike hs hop) (.refl ..) (permits_recoversUp h)

/-- Two streams, of which one loses packets and recovers. -/
theorem streams_do_not_interfere_recovered :
    let before : List TransportOp := [.linkUp, .createStream ⟨⟨1⟩, 0, 0, 0, 10000⟩,
      .createStream ⟨⟨2⟩, 0, 0, 0, 10000⟩, .startStream ⟨2⟩]
    let ops := before ++ [.ingest ⟨⟨2⟩, ⟨5⟩, ⟨0⟩, []⟩, .recoverSequence ⟨2⟩ 5, .startStream ⟨1⟩,
      .ingest ⟨⟨1⟩, ⟨0⟩, ⟨0⟩, []⟩]
    (transport.trace (new ⟨10000, false, 0⟩) ops).filter (·.1.on ⟨1⟩) =
      (transport.trace (new ⟨10000, false, 0⟩) (ops.filter (·.concerns ⟨1⟩))).filter
        (·.1.on ⟨1⟩) := by
  intro before ops
  apply streams_do_not_interfere
  unfold RecoversAfterGap
  simp only [ops, before, List.cons_append, List.nil_append, forall_prefix_cons]
  refine ⟨nofun, nofun, nofun, nofun, nofun, ?_, nofun, nofun, by simp⟩
  rintro streamId nextSeq ⟨⟩
  exact ⟨before, ⟨⟨2⟩, ⟨5⟩, ⟨0⟩, []⟩, 0, 5, rfl, rfl, by decide⟩

end SimTransportEngine

end AetherRadio
