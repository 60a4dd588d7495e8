import AetherRadio.Transport.InOrder

/-!
# Registered streams and their expected numbers

The registry and the sequence checker are two tables over the same streams. Every operation keeps
them in step except `recover_sequence`, which enters an expected number without looking whether
the stream is registered; a stream created later under that name adopts the number.
-/

namespace AetherRadio

open Verif

namespace SimTransportEngine

/-- The sequence checker has an entry exactly for the registered streams. -/
def InStep (eng : SimTransportEngine) : Prop :=
  ∀ id, (eng.seq.next.get? id).isSome = eng.registered id

/-- `recover_sequence` is called on a registered stream. -/
def RecoversKnown (eng : SimTransportEngine) (op : TransportOp) : Prop :=
  ∀ id nextSeq, op = .recoverSequence id nextSeq → eng.registered id = true

/-- Recovery neither registers nor removes a stream. -/
@[simp] theorem registered_recoverSequence (self : SimTransportEngine) (streamId : StreamId)
    (nextSeq : UInt64) : (self.recoverSequence streamId nextSeq).registered = self.registered := by
  ext id
  unfold registered recoverSequence
  dsimp only
  split
  · next s hs =>
    by_cases hid : id = streamId
    · rw [hid, hs, Table.get?_insert_self]
      rfl
    · rw [Table.get?_insert_of_ne _ _ hid]
  · rfl

/-- Nor do `start_stream` and `stop_stream`. -/
@[simp] theorem registered_setStreamState (self : SimTransportEngine) (streamId : StreamId)
    (state : StreamState) :
    (self.setStreamState streamId state).1.registered = self.registered := by
  unfold setStreamState
  split
  · rfl
  · next s hs =>
    ext id
    by_cases hid : id = streamId
    · simp [registered, hid, hs]
    · simp [registered, hid]

@[simp] theorem setStreamState_seq (self : SimTransportEngine) (streamId : StreamId)
    (state : StreamState) : (self.setStreamState streamId state).1.seq = self.seq := by
  unfold setStreamState
  split <;> rfl

/-- The checker has an entry for the stream that was entered and for those it had before. -/
private theorem isSome_insert (next : Table StreamId UInt64) (streamId : StreamId) (n : UInt64)
    (id : StreamId) : ((next.insert streamId n).get? id).isSome =
      (decide (id = streamId) || (next.get? id).isSome) := by
  by_cases hid : id = streamId <;> simp [hid]

/-- An entry for a registered stream keeps the tables in step. -/
theorem InStep.insert {self next : SimTransportEngine} (h : self.InStep) {streamId : StreamId}
    {n : UInt64} (known : self.registered streamId = true)
    (streams : next.registered = self.registered)
    (seq : next.seq.next = self.seq.next.insert streamId n) : next.InStep := by
  intro id
  rw [seq, isSome_insert, h id, streams]
  by_cases hid : id = streamId
  · rw [hid, known, Bool.or_true]
  · rw [decide_eq_false hid, Bool.false_or]

/-- Every operation keeps the tables in step, if it does not recover an unknown stream. -/
private theorem act_inStep {self : SimTransportEngine} (h : self.InStep) {op : TransportOp}
    (hop : self.RecoversKnown op) : (self.act op).1.InStep := by
  by_cases hrecover : op.isRecover = false
  · cases self.act_registry hrecover with
    | keep quiet streams seq =>
      intro id
      rw [seq, streams]
      exact h id
    | gap packet quiet known streams seq =>
      unfold SequenceChecker.afterGap at seq
      split at seq
      · exact h.insert known streams (congrArg (·.next) seq)
      · intro id
        rw [seq, streams]
        exact h id
    | accept packet quiet known inOrder streams seq =>
      exact h.insert known streams (congrArg (·.next) seq)
    | create streamId quiet fresh streams seq =>
      intro id
      rw [seq, streams]
      by_cases hid : id = streamId
      · have hnext : self.seq.next.get? streamId = none := by
          apply Option.not_isSome_iff_eq_none.mp
          rw [h streamId, fresh]
          decide
        rw [hid, Function.update_self, SequenceChecker.get?_registerStream_self hnext]
        rfl
      · rw [Function.update_of_ne hid, SequenceChecker.get?_registerStream_of_ne _ hid]
        exact h id
    | destroy streamId isDestroy quiet streams seq =>
      intro id
      rw [seq, streams]
      by_cases hid : id = streamId
      · rw [hid, Function.update_self]
        exact congrArg Option.isSome (Table.get?_remove_self ..)
      · rw [Function.update_of_ne hid, ← h id]
        exact congrArg Option.isSome (Table.get?_remove_of_ne _ hid)
  · cases op with
    | recoverSequence streamId nextSeq =>
      exact h.insert (hop _ _ rfl) (registered_recoverSequence ..) rfl
    | _ => exact absurd rfl hrecover

/-- Recovering an unknown stream leaves it an entry. -/
private theorem not_inStep_of_unknown {self : SimTransportEngine} {op : TransportOp}
    (hop : ¬ self.RecoversKnown op) : ¬ (self.act op).1.InStep := by
  intro h
  apply hop
  rintro id nextSeq rfl
  have hentry := h id
  rw [← registered_recoverSequence self id nextSeq]
  exact hentry.symm.trans (congrArg Option.isSome (Table.get?_insert_self ..))

/-- In every state the run passes through, the tables are in step. -/
def InStepThroughout (deadline : TransportDeadlineConfig) (ops : List TransportOp) : Prop :=
  ∀ pre, pre <+: ops → (after deadline pre).InStep

/-- The tables are in step throughout a run exactly when it recovers registered streams only. -/
theorem inStepThroughout_iff (deadline : TransportDeadlineConfig) (ops : List TransportOp) :
    InStepThroughout deadline ops ↔ transport.Permits RecoversKnown (new deadline) ops := by
  constructor
  · intro h
    apply Machine.permits_iff.mpr
    intro pre op hpre
    by_contra hunknown
    apply not_inStep_of_unknown hunknown
    have hnext := h _ hpre
    rwa [after, transport.run_append] at hnext
  · rintro h pre ⟨post, rfl⟩
    exact transport.run_preserves (P := InStep) (fun _ ↦ rfl) (fun _ _ hs hok ↦ act_inStep hs hok)
      ((transport.permits_append ..).mp h).1

/-- The operation leaves the stream's expected number alone: it does not destroy or recover the
stream, and no packet of the stream is accepted, or reported as a gap while reordering is
allowed. -/
def Untouched (eng : SimTransportEngine) (streamId : StreamId) (op : TransportOp) : Prop :=
  match op with
  | .destroyStream id | .recoverSequence id _ => id ≠ streamId
  | .ingest packet => packet.streamId = streamId →
      (eng.ingest packet).2 ≠ .ok () ∧ (eng.seq.allowReorder = true →
        ∀ expected got, (eng.ingest packet).2 ≠ .error (.sequenceGap expected got))
  | _ => True

/-- The stream is registered and expects `n` next, in either reorder mode. -/
structure Awaits (eng : SimTransportEngine) (streamId : StreamId) (n : UInt64) : Prop where
  known : eng.registered streamId = true
  next : eng.seq.next.get? streamId = some n

theorem Awaits.expected {eng : SimTransportEngine} {streamId : StreamId} {n : UInt64}
    (h : eng.Awaits streamId n) : eng.seq.expected streamId = n := by
  rw [SequenceChecker.expected, h.next]
  rfl

/-- An entry for another stream. -/
theorem Awaits.insert {self next : SimTransportEngine} {streamId id : StreamId} {n m : UInt64}
    (h : self.Awaits streamId n) (hid : streamId ≠ id)
    (streams : next.registered = self.registered)
    (seq : next.seq.next = self.seq.next.insert id m) : next.Awaits streamId n := by
  constructor
  · rw [streams, h.known]
  · rw [seq, Table.get?_insert_of_ne _ _ hid, h.next]

/-- Operations that leave the expected number alone. -/
theorem awaits_act {self : SimTransportEngine} {streamId : StreamId} {n : UInt64}
    (h : self.Awaits streamId n) {op : TransportOp} (hop : self.Untouched streamId op) :
    (self.act op).1.Awaits streamId n := by
  cases op with
  | recoverSequence id nextSeq =>
    exact h.insert (Ne.symm hop) (registered_recoverSequence ..) rfl
  | ingest packet =>
    by_cases hid : packet.streamId = streamId
    · obtain ⟨hrefused, hgap⟩ := hop hid
      cases self.ingest_exit packet with
      | refused e hrefusal hadmission heq =>
        rw [act, heq]
        exact ⟨h.known, h.next⟩
      | late hadmission htime heq =>
        rw [act, heq]
        exact ⟨h.known, h.next⟩
      | accepted hadmission htime hseq heq => exact absurd (congrArg Prod.snd heq) hrefused
      | gap hadmission htime hseq heq =>
        have hstrict : self.seq.allowReorder = false := by
          rw [← Bool.not_eq_true]
          exact fun hallow ↦ hgap hallow _ _ (congrArg Prod.snd heq)
        rw [act, heq]
        exact ⟨h.known, (congrArg (·.next.get? streamId)
          (SequenceChecker.afterGap_of_strict hstrict packet)).trans h.next⟩
    · cases self.ingest_exit packet with
      | refused e hrefusal hadmission heq =>
        rw [act, heq]
        exact ⟨h.known, h.next⟩
      | late hadmission htime heq =>
        rw [act, heq]
        exact ⟨h.known, h.next⟩
      | accepted hadmission htime hseq heq =>
        rw [act, heq]
        exact h.insert (Ne.symm hid) rfl rfl
      | gap hadmission htime hseq heq =>
        rw [act, heq]
        by_cases hahead : self.seq.allowReorder ∧
            packet.sequence.val > self.seq.expected packet.streamId
        · exact h.insert (Ne.symm hid) rfl
            (congrArg (·.next) (if_pos hahead : self.seq.afterGap packet = _))
        · exact ⟨h.known, (congrArg (·.next.get? streamId)
            (if_neg hahead : self.seq.afterGap packet = _)).trans h.next⟩
  | createStream cfg =>
    simp only [act, createStream]
    split
    · exact ⟨h.known, h.next⟩
    · next hfresh =>
      have hid : streamId ≠ cfg.streamId := by
        rintro rfl
        have hknown := h.known
        rw [registered, hfresh] at hknown
        cases hknown
      exact
        { known := (congrArg Option.isSome (Table.get?_insert_of_ne _ _ hid)).trans h.known
          next := (SequenceChecker.get?_registerStream_of_ne _ hid).trans h.next }
  | destroyStream id =>
    simp only [act, destroyStream]
    split
    · exact ⟨h.known, h.next⟩
    · have hid : streamId ≠ id := Ne.symm hop
      exact
        { known := (congrArg Option.isSome (Table.get?_remove_of_ne _ hid)).trans h.known
          next := (Table.get?_remove_of_ne _ hid).trans h.next }
  | startStream id | stopStream id =>
    rw [act]
    exact ⟨by simp [startStream, stopStream, h.known], by simp [startStream, stopStream, h.next]⟩
  | receive =>
    simp only [act, receive]
    split <;> exact ⟨h.known, h.next⟩
  | send packet =>
    simp only [act, send]
    split <;> exact ⟨h.known, h.next⟩
  | _ => exact ⟨h.known, h.next⟩

/-- What `ingest` accepts. -/
theorem ingest_ok_iff (self : SimTransportEngine) (packet : Packet) :
    (self.ingest packet).2 = .ok () ↔ self.admission packet = .ok () ∧
      ¬ self.ts.Late packet self.nowNs ∧
      packet.sequence.val = self.seq.expected packet.streamId := by
  constructor
  · intro h
    cases self.ingest_exit packet with
    | refused e hrefusal hadmission heq =>
      rw [heq] at h
      cases h
    | late hadmission htime heq =>
      rw [heq] at h
      cases h
    | accepted hadmission htime hseq heq => exact ⟨hadmission, htime, hseq⟩
    | gap hadmission htime hseq heq =>
      rw [heq] at h
      cases h
  · rintro ⟨hadmission, htime, hseq⟩
    exact congrArg Prod.snd (ingest_accepted hadmission htime hseq)

/-- The configured start number never changes. -/
private theorem act_start (self : SimTransportEngine) (op : TransportOp) :
    (self.act op).1.seq.start = self.seq.start := by
  by_cases hrecover : op.isRecover = false
  · cases self.act_registry hrecover with
    | keep quiet streams seq => rw [seq]
    | gap packet quiet known streams seq =>
      rw [seq, SequenceChecker.afterGap]
      split <;> rfl
    | accept packet quiet known inOrder streams seq =>
      rw [seq]
      rfl
    | create streamId quiet fresh streams seq => rw [seq, SequenceChecker.registerStream_start]
    | destroy streamId isDestroy quiet streams seq =>
      rw [seq]
      rfl
  · cases op with
    | recoverSequence streamId nextSeq => rfl
    | _ => exact absurd rfl hrecover

theorem after_start (deadline : TransportDeadlineConfig) (ops : List TransportOp) :
    (after deadline ops).seq.start = deadline.startSequence :=
  transport.run_preserves (P := fun s ↦ s.seq.start = deadline.startSequence) rfl
    (fun s op hs _ ↦ (s.act_start op).trans hs) (transport.permits_true _ _)

/-- A stream created while the tables are in step awaits the start number. -/
private theorem awaits_createStream {self : SimTransportEngine} (h : self.InStep)
    {cfg : StreamConfig}
    (hcreate : (self.createStream cfg).2 = .ok cfg.streamId) :
    (self.createStream cfg).1.Awaits cfg.streamId self.seq.start := by
  unfold createStream at hcreate ⊢
  split at hcreate
  · cases hcreate
  · next hfresh =>
    have hnext : self.seq.next.get? cfg.streamId = none := by
      apply Option.not_isSome_iff_eq_none.mp
      rw [h cfg.streamId, registered, hfresh]
      decide
    exact ⟨by simp [registered], SequenceChecker.get?_registerStream_self hnext⟩

/-- Of every stream created in the run, the packet numbered with the configured start is the one
that `ingest` accepts, as long as the operations since then leave its expected number `Untouched`:
a packet that is accepted, or a call that recovers the stream, ends this. -/
def StartsAfresh (deadline : TransportDeadlineConfig) (ops : List TransportOp) : Prop :=
  ∀ pre cfg mid, pre ++ [.createStream cfg] ++ mid <+: ops →
    ((after deadline pre).createStream cfg).2 = .ok cfg.streamId →
    transport.Permits (·.Untouched cfg.streamId) (after deadline (pre ++ [.createStream cfg])) mid →
    ∀ packet, packet.streamId = cfg.streamId →
      let eng := after deadline (pre ++ [.createStream cfg] ++ mid)
      (eng.ingest packet).2 = .ok () ↔ eng.admission packet = .ok () ∧
        ¬ eng.ts.Late packet eng.nowNs ∧ packet.sequence.val = deadline.startSequence

private theorem startsAfresh {deadline : TransportDeadlineConfig} {ops : List TransportOp}
    (h : InStepThroughout deadline ops) : StartsAfresh deadline ops := by
  intro pre cfg mid hpre hcreate hmid packet hid eng
  have hinStep := h pre (((List.prefix_append ..).trans (List.prefix_append ..)).trans hpre)
  have hcreated := awaits_createStream hinStep hcreate
  rw [after_start] at hcreated
  have hawaits : eng.Awaits cfg.streamId deadline.startSequence := by
    rw [show eng = transport.run (after deadline (pre ++ [.createStream cfg])) mid from
      transport.run_append ..]
    apply transport.run_preserves (P := (·.Awaits cfg.streamId deadline.startSequence)) _
      (fun s op hs hok ↦ awaits_act hs hok) hmid
    rw [after, transport.run_append]
    exact hcreated
  rw [ingest_ok_iff, hid, hawaits.expected]

/-- The checker has an entry exactly for the registered streams in every state of a run, so that
every stream created in it starts at the configured number (and keeps to it while it is
`Untouched`), exactly when each `recover_sequence` of the run names a stream that is registered when
it is called. -/
theorem tables_in_step_iff (deadline : TransportDeadlineConfig) (ops : List TransportOp) :
    InStepThroughout deadline ops ∧ StartsAfresh deadline ops ↔
      transport.Permits RecoversKnown (new deadline) ops := by
  rw [← inStepThroughout_iff]
  exact ⟨And.left, fun h ↦ ⟨h, startsAfresh h⟩⟩

/-- A stream recovered to 7 before it is created: the new stream refuses packet 0, its configured
start, and accepts packet 7. -/
theorem recovered_before_created :
    let cfg : StreamConfig := ⟨⟨1⟩, 0, 0, 0, 10000⟩
    let pre : List TransportOp := [.linkUp, .recoverSequence ⟨1⟩ 7]
    let ops := pre ++ [.createStream cfg] ++ [.startStream ⟨1⟩]
    ((after ⟨10000, false, 0⟩ ops).ingest ⟨⟨1⟩, ⟨0⟩, ⟨0⟩, []⟩).2 = .error (.sequenceGap 7 0) ∧
      ((after ⟨10000, false, 0⟩ ops).ingest ⟨⟨1⟩, ⟨7⟩, ⟨0⟩, []⟩).2 = .ok () ∧
      ¬ InStepThroughout ⟨10000, false, 0⟩ ops ∧ ¬ StartsAfresh ⟨10000, false, 0⟩ ops := by
  intro cfg pre ops
  have haccepted : ((after ⟨10000, false, 0⟩ ops).ingest ⟨⟨1⟩, ⟨7⟩, ⟨0⟩, []⟩).2 = .ok () := by
    decide
  refine ⟨by decide, haccepted, ?_, ?_⟩
  · intro h
    have hentry := h pre ⟨_, rfl⟩ ⟨1⟩
    revert hentry
    decide
  · intro h
    have hstart := (h pre cfg [.startStream ⟨1⟩] List.prefix_rfl (by decide)
      ⟨True.intro, True.intro⟩ ⟨⟨1⟩, ⟨7⟩, ⟨0⟩, []⟩ rfl).mp haccepted
    exact absurd hstart.2.2 (by decide)

end SimTransportEngine

end AetherRadio
