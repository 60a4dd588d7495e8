import AetherRadio.Transport.Runs

/-!
# In-order acceptance over whole runs

The inbox is an unbounded queue that `reset` discards. Without reordering and without
`recover_sequence`, a registered stream's expected number counts the packets accepted since the
stream was created.
-/

namespace AetherRadio

open Verif

/-- Packets `ingest` accepted, oldest first. -/
def accepted (t : List (TransportOp × TransportReply)) : List Packet :=
  t.filterMap fun | (.ingest packet, .done (.ok ())) => some packet | _ => none

/-- Packets `receive` returned, oldest first. -/
def received (t : List (TransportOp × TransportReply)) : List Packet :=
  t.filterMap fun | (.receive, .received (.ok (some packet))) => some packet | _ => none

/-- The accepted packets of one stream. -/
def acceptedOn (streamId : StreamId) (t : List (TransportOp × TransportReply)) : List Packet :=
  (accepted t).filter (·.streamId = streamId)

/-- What an operation does to the inbox. -/
def inboxEvent : TransportOp × TransportReply → List (Fifo.Event Packet)
  | (.ingest packet, .done (.ok ())) => [.enq packet]
  | (.receive, .received (.ok (some packet))) => [.deq packet]
  | (.reset, _) => [.clear]
  | _ => []

private theorem enqs_inboxEvent (t : List (TransportOp × TransportReply)) :
    Fifo.enqs (t.flatMap inboxEvent) = accepted t := by
  induction t with
  | nil => rfl
  | cons entry t ih =>
    rw [List.flatMap_cons, Fifo.enqs_append, ih, accepted, accepted, List.filterMap_cons]
    unfold inboxEvent
    split <;> simp_all [Fifo.enqs, Fifo.Event.enq?]

private theorem deqs_inboxEvent (t : List (TransportOp × TransportReply)) :
    Fifo.deqs (t.flatMap inboxEvent) = received t := by
  induction t with
  | nil => rfl
  | cons entry t ih =>
    rw [List.flatMap_cons, Fifo.deqs_append, ih, received, received, List.filterMap_cons]
    unfold inboxEvent
    split <;> simp_all [Fifo.deqs, Fifo.Event.deq?]

namespace SimTransportEngine

/-- Every operation treats the inbox as a queue. -/
private theorem act_inbox (self : SimTransportEngine) (op : TransportOp) :
    Fifo.Path ⊤ self.inbox (inboxEvent (op, (self.act op).2)) (self.act op).1.inbox := by
  cases op with
  | reset => exact .snoc (.nil _) (.clear _)
  | ingest packet =>
    obtain ⟨_, _, _, heq⟩ | ⟨_, _, heq⟩ | ⟨_, _, _, heq⟩ | ⟨_, _, _, heq⟩ :=
      self.ingest_exit packet <;> simp only [act, heq, Prod.map, id]
    · exact .nil _
    · exact .nil _
    · exact .snoc (.nil _) (.enq packet (ENat.natCast_lt_top _))
    · exact .nil _
  | receive =>
    cases hinbox : self.inbox with
    | nil =>
      simp only [act, receive_nil hinbox, Prod.map, id, hinbox]
      exact .nil _
    | cons packet inbox =>
      simp only [act, receive_cons hinbox, Prod.map, id]
      exact .snoc (.nil _) (.deq packet inbox)
  | createStream cfg =>
    simp only [act, createStream]
    split <;> exact .nil _
  | send packet =>
    simp only [act, send]
    split <;> exact .nil _
  | startStream streamId | stopStream streamId =>
    simp only [act, startStream, stopStream, setStreamState]
    split <;> exact .nil _
  | destroyStream streamId =>
    simp only [act, destroyStream]
    split <;> exact .nil _
  | _ => exact .nil _

/-- So does every schedule. -/
private theorem run_inbox (self : SimTransportEngine) (ops : List TransportOp) :
    Fifo.Path ⊤ self.inbox ((transport.trace self ops).flatMap inboxEvent)
      (transport.run self ops).inbox := by
  refine transport.run_invariant (G := fun _ _ ↦ True)
    (P := fun t s ↦ Fifo.Path ⊤ self.inbox (t.flatMap inboxEvent) s.inbox) (.nil _) ?_
    (transport.permits_true self ops)
  intro t s op hpath _
  rw [List.flatMap_append, List.flatMap_cons, List.flatMap_nil, List.append_nil]
  exact hpath.append (s.act_inbox op)

private theorem clear_notMem {self : SimTransportEngine} {ops : List TransportOp}
    (h : .reset ∉ ops) : .clear ∉ (transport.trace self ops).flatMap inboxEvent := by
  intro hclear
  obtain ⟨⟨op, reply⟩, hentry, hevent⟩ := List.mem_flatMap.mp hclear
  obtain ⟨pre, post, rfl, -⟩ := transport.mem_trace hentry
  unfold inboxEvent at hevent
  split at hevent <;> simp_all

/-- While nothing is discarded, what was accepted onto an empty inbox is what was received followed
by what is still queued. -/
private theorem accepted_eq_received_append {self : SimTransportEngine} (hempty : self.inbox = [])
    {ops : List TransportOp} (h : .reset ∉ ops) :
    accepted (transport.trace self ops) =
      received (transport.trace self ops) ++ (transport.run self ops).inbox := by
  have := (self.run_inbox ops).conserves (clear_notMem h)
  rwa [enqs_inboxEvent, deqs_inboxEvent, hempty, List.nil_append] at this

/-- The stream exists. -/
def registered (self : SimTransportEngine) (streamId : StreamId) : Bool :=
  (self.streams.get? streamId).isSome

/-- What an operation can do to the stream registry and the expected numbers. -/
inductive RegistryStep (self next : SimTransportEngine) (op : TransportOp)
    (reply : TransportReply) : Prop where
  | keep (quiet : accepted [(op, reply)] = []) (streams : next.registered = self.registered)
      (seq : next.seq = self.seq)
  | gap (packet : Packet) (quiet : accepted [(op, reply)] = [])
      (known : self.registered packet.streamId = true)
      (streams : next.registered = self.registered) (seq : next.seq = self.seq.afterGap packet)
  | accept (packet : Packet) (quiet : accepted [(op, reply)] = [packet])
      (known : self.registered packet.streamId = true)
      (inOrder : packet.sequence.val = self.seq.expected packet.streamId)
      (streams : next.registered = self.registered) (seq : next.seq = self.seq.afterAccept packet)
  | create (streamId : StreamId) (quiet : accepted [(op, reply)] = [])
      (fresh : self.registered streamId = false)
      (streams : next.registered = Function.update self.registered streamId true)
      (seq : next.seq = self.seq.registerStream streamId)
  | destroy (streamId : StreamId) (isDestroy : op = .destroyStream streamId)
      (quiet : accepted [(op, reply)] = [])
      (streams : next.registered = Function.update self.registered streamId false)
      (seq : next.seq = self.seq.unregisterStream streamId)

private theorem registered_insert (streams : Table StreamId StreamRuntime) (streamId : StreamId)
    (runtime : StreamRuntime) : (fun id ↦ ((streams.insert streamId runtime).get? id).isSome) =
      Function.update (fun id ↦ (streams.get? id).isSome) streamId true := by
  ext id
  by_cases h : id = streamId <;> simp [h]

private theorem registered_remove (streams : Table StreamId StreamRuntime)
    (streamId : StreamId) : (fun id ↦ ((streams.remove streamId).get? id).isSome) =
      Function.update (fun id ↦ (streams.get? id).isSome) streamId false := by
  ext id
  by_cases h : id = streamId <;> simp [h]

/-- Every operation but `recover_sequence` is such a step. -/
theorem act_registry (self : SimTransportEngine) {op : TransportOp} (hop : op.isRecover = false) :
    RegistryStep self (self.act op).1 op (self.act op).2 := by
  cases op with
  | linkUp | linkDown | reset | queryStream id | advanceTime deltaNs | setNow nowNs =>
    exact .keep rfl rfl rfl
  | recoverSequence id nextSeq => cases hop
  | receive =>
    simp only [act, receive]
    split <;> exact .keep rfl rfl rfl
  | send packet =>
    simp only [act, send]
    split <;> exact .keep rfl rfl rfl
  | startStream streamId | stopStream streamId =>
    simp only [act, startStream, stopStream, setStreamState]
    split
    · exact .keep rfl rfl rfl
    · next s hs =>
      refine .keep rfl ((registered_insert ..).trans ?_) rfl
      exact Function.update_eq_self_iff.mpr (by rw [hs]; rfl)
  | destroyStream streamId =>
    simp only [act, destroyStream]
    split
    · exact .keep rfl rfl rfl
    · exact .destroy streamId rfl rfl (registered_remove ..) rfl
  | createStream cfg =>
    simp only [act, createStream]
    split
    · exact .keep rfl rfl rfl
    · next hfresh =>
      exact .create cfg.streamId rfl (by rw [registered, hfresh]; rfl) (registered_insert ..) rfl
  | ingest packet =>
    cases self.ingest_exit packet with
    | refused e hrefusal hadmission heq =>
      rw [act, heq]
      exact .keep rfl rfl rfl
    | late hadmission htime heq =>
      rw [act, heq]
      exact .keep rfl rfl rfl
    | gap hadmission htime hseq heq =>
      obtain ⟨runtime, hknown, -⟩ := exists_of_admission hadmission
      rw [act, heq]
      exact .gap packet rfl (by rw [registered, hknown]; rfl) rfl rfl
    | accepted hadmission htime hseq heq =>
      obtain ⟨runtime, hknown, -⟩ := exists_of_admission hadmission
      rw [act, heq]
      exact .accept packet rfl (by rw [registered, hknown]; rfl) hseq rfl rfl

/-- The stream is registered and expects `n` next; reordering is not allowed. -/
structure Expects (eng : SimTransportEngine) (streamId : StreamId) (n : UInt64) : Prop where
  strict : eng.seq.allowReorder = false
  known : eng.registered streamId = true
  next : eng.seq.next.get? streamId = some n

/-- What leaves the stream and its number alone leaves it expecting the same. -/
theorem Expects.frame {self next : SimTransportEngine} {streamId : StreamId} {n : UInt64}
    (h : self.Expects streamId n) (strict : next.seq.allowReorder = self.seq.allowReorder)
    (known : next.registered streamId = self.registered streamId)
    (entry : next.seq.next.get? streamId = self.seq.next.get? streamId) :
    next.Expects streamId n :=
  ⟨strict.trans h.strict, known.trans h.known, entry.trans h.next⟩

private theorem acceptedOn_nil {streamId : StreamId} {t : List (TransportOp × TransportReply)}
    (h : accepted t = []) : acceptedOn streamId t = [] := by
  rw [acceptedOn, h, List.filter_nil]

/-- An operation other than `recover_sequence` and the stream's own `destroy_stream` leaves the
expected number alone, or accepts the packet that carries it and moves on by one. -/
theorem expects_act {self : SimTransportEngine} {streamId : StreamId} {n : UInt64}
    (h : self.Expects streamId n) {op : TransportOp} (hop : op.isRecover = false)
    (hdestroy : op ≠ .destroyStream streamId) :
    (acceptedOn streamId [(op, (self.act op).2)] = [] ∧ (self.act op).1.Expects streamId n) ∨
    ∃ packet, acceptedOn streamId [(op, (self.act op).2)] = [packet] ∧ packet.sequence.val = n ∧
      (self.act op).1.Expects streamId (n + 1) := by
  cases self.act_registry hop with
  | keep quiet streams seq =>
    exact .inl ⟨acceptedOn_nil quiet, h.frame (by rw [seq]) (by rw [streams]) (by rw [seq])⟩
  | gap packet quiet known streams seq =>
    rw [SequenceChecker.afterGap_of_strict h.strict] at seq
    exact .inl ⟨acceptedOn_nil quiet, h.frame (by rw [seq]) (by rw [streams]) (by rw [seq])⟩
  | accept packet quiet known inOrder streams seq =>
    by_cases hid : streamId = packet.streamId
    · subst hid
      have hn : packet.sequence.val = n := by rw [inOrder, SequenceChecker.expected, h.next]; rfl
      refine .inr ⟨packet, by simp [acceptedOn, quiet], hn, ?_, ?_, ?_⟩
      · rw [seq]
        exact h.strict
      · rw [streams, h.known]
      · rw [seq, ← hn]
        exact Table.get?_insert_self ..
    · refine .inl ⟨by simp [acceptedOn, quiet, Ne.symm hid], ?_⟩
      apply h.frame
      · rw [seq]
        rfl
      · rw [streams]
      · rw [seq]
        exact Table.get?_insert_of_ne _ _ hid
  | create id quiet fresh streams seq =>
    have hid : streamId ≠ id := by
      rintro rfl
      rw [h.known] at fresh
      cases fresh
    refine .inl ⟨acceptedOn_nil quiet, ?_⟩
    apply h.frame
    · rw [seq, SequenceChecker.registerStream_allowReorder]
    · rw [streams, Function.update_of_ne hid]
    · rw [seq, SequenceChecker.get?_registerStream_of_ne _ hid]
  | destroy id isDestroy quiet streams seq =>
    have hid : streamId ≠ id := fun hid ↦ hdestroy (by rw [hid, isDestroy])
    refine .inl ⟨acceptedOn_nil quiet, ?_⟩
    apply h.frame
    · rw [seq]
      rfl
    · rw [streams, Function.update_of_ne hid]
    · rw [seq]
      exact Table.get?_remove_of_ne _ hid

private theorem acceptedOn_append (streamId : StreamId)
    (t t' : List (TransportOp × TransportReply)) :
    acceptedOn streamId (t ++ t') = acceptedOn streamId t ++ acceptedOn streamId t' := by
  rw [acceptedOn, accepted, List.filterMap_append, List.filter_append]
  rfl

/-- From a registered stream on, until it is destroyed, the accepted packets carry consecutive
numbers. -/
private theorem accepted_consecutive {self : SimTransportEngine} {streamId : StreamId} {n : UInt64}
    (h : self.Expects streamId n) {ops : List TransportOp}
    (hops : ∀ op ∈ ops, op.isRecover = false ∧ op ≠ .destroyStream streamId) (k : Nat)
    (packet : Packet) (hk : (acceptedOn streamId (transport.trace self ops))[k]? = some packet) :
    packet.sequence.val = n + UInt64.ofNat k := by
  refine (transport.run_invariant
    (P := fun t s ↦ s.Expects streamId (n + UInt64.ofNat (acceptedOn streamId t).length) ∧
      ∀ (k : Nat) (packet : Packet), (acceptedOn streamId t)[k]? = some packet →
        packet.sequence.val = n + UInt64.ofNat k)
    ⟨by simpa [acceptedOn, accepted] using h, by simp [acceptedOn, accepted]⟩ ?_
    (transport.permits_of_forall hops self)).2 k packet hk
  rintro t s op ⟨hexpects, hnumbers⟩ ⟨hrecover, hdestroy⟩
  rw [acceptedOn_append]
  obtain ⟨hnone, hnext⟩ | ⟨packet, hone, hnumber, hnext⟩ := expects_act hexpects hrecover hdestroy
  · change acceptedOn streamId [(op, (transport.step s op).2)] = [] at hnone
    rw [hnone, List.append_nil]
    exact ⟨hnext, hnumbers⟩
  · change acceptedOn streamId [(op, (transport.step s op).2)] = [packet] at hone
    rw [hone]
    constructor
    · rw [List.length_append, List.length_singleton, ← ofNat_add_one, ← UInt64.add_assoc]
      exact hnext
    · intro k packet' hk
      rcases Nat.lt_trichotomy k (acceptedOn streamId t).length with hlt | heq | hgt
      · rw [List.getElem?_append_left hlt] at hk
        exact hnumbers k packet' hk
      · subst heq
        simp at hk
        rw [← hk]
        exact hnumber
      · rw [List.getElem?_eq_none (by simp; omega)] at hk
        cases hk

/-- A strict checker that holds numbers for registered streams only. -/
structure Fresh (eng : SimTransportEngine) (start : UInt64) : Prop where
  strict : eng.seq.allowReorder = false
  start : eng.seq.start = start
  next : ∀ id, eng.registered id = false → eng.seq.next.get? id = none

/-- Every operation but `recover_sequence` keeps it that way. -/
theorem fresh_act {self : SimTransportEngine} {start : UInt64} (h : self.Fresh start)
    {op : TransportOp} (hop : op.isRecover = false) : (self.act op).1.Fresh start := by
  cases self.act_registry hop with
  | keep quiet streams seq => exact ⟨seq ▸ h.strict, seq ▸ h.start, seq ▸ streams ▸ h.next⟩
  | gap packet quiet known streams seq =>
    rw [SequenceChecker.afterGap_of_strict h.strict] at seq
    exact ⟨seq ▸ h.strict, seq ▸ h.start, seq ▸ streams ▸ h.next⟩
  | accept packet quiet known inOrder streams seq =>
    refine ⟨by rw [seq]; exact h.strict, by rw [seq]; exact h.start, fun id hid ↦ ?_⟩
    rw [streams] at hid
    have hne : id ≠ packet.streamId := by
      rintro rfl
      rw [known] at hid
      cases hid
    rw [seq]
    exact (Table.get?_insert_of_ne _ _ hne).trans (h.next id hid)
  | create streamId quiet fresh streams seq =>
    refine ⟨by rw [seq, SequenceChecker.registerStream_allowReorder, h.strict],
      by rw [seq, SequenceChecker.registerStream_start, h.start], fun id hid ↦ ?_⟩
    have hne : id ≠ streamId := by
      rintro rfl
      rw [streams, Function.update_self] at hid
      cases hid
    rw [streams, Function.update_of_ne hne] at hid
    rw [seq, SequenceChecker.get?_registerStream_of_ne _ hne, h.next id hid]
  | destroy streamId isDestroy quiet streams seq =>
    refine ⟨by rw [seq]; exact h.strict, by rw [seq]; exact h.start, fun id hid ↦ ?_⟩
    rw [seq]
    by_cases hne : id = streamId
    · rw [hne]
      exact Table.get?_remove_self ..
    · rw [streams, Function.update_of_ne hne] at hid
      exact (Table.get?_remove_of_ne _ hne).trans (h.next id hid)

/-- After any schedule without `recover_sequence`. -/
private theorem fresh_after {deadline : TransportDeadlineConfig}
    (hstrict : deadline.allowReorder = false)
    {ops : List TransportOp} (hops : ∀ op ∈ ops, op.isRecover = false) :
    (after deadline ops).Fresh deadline.startSequence :=
  transport.run_preserves (P := (·.Fresh deadline.startSequence)) ⟨hstrict, rfl, fun _ _ ↦ rfl⟩
    (fun _ _ h hop ↦ fresh_act h hop) (transport.permits_of_forall hops _)

/-- A stream that was just created expects the configured start. -/
private theorem expects_createStream {self : SimTransportEngine} {start : UInt64}
    (h : self.Fresh start)
    {cfg : StreamConfig} (hcreate : (self.createStream cfg).2 = .ok cfg.streamId) :
    (self.createStream cfg).1.Expects cfg.streamId start := by
  unfold createStream at hcreate ⊢
  split at hcreate
  · cases hcreate
  · next hfresh =>
    have hnext : self.seq.next.get? cfg.streamId = none :=
      h.next _ (by rw [registered, hfresh]; rfl)
    refine ⟨?_, ?_, ?_⟩
    · exact (SequenceChecker.registerStream_allowReorder ..).trans h.strict
    · simp [registered]
    · rw [← h.start]
      exact SequenceChecker.get?_registerStream_self hnext

/-- In a run without reordering and without `recover_sequence`, the `k`-th accepted packet of a
stream's lifetime carries the start number plus `k`; and since the start or the last `reset`, the
received packets are the accepted ones in order, up to those still to be received. -/
theorem in_order_acceptance (deadline : TransportDeadlineConfig)
    (hstrict : deadline.allowReorder = false) :
    (∀ pre cfg mid, (∀ op ∈ pre ++ mid, op.isRecover = false) →
      ((after deadline pre).createStream cfg).2 = .ok cfg.streamId →
      .destroyStream cfg.streamId ∉ mid →
      ∀ (k : Nat) packet,
        (acceptedOn cfg.streamId
          (transport.trace (after deadline (pre ++ [.createStream cfg])) mid))[k]? = some packet →
        packet.sequence.val = deadline.startSequence + UInt64.ofNat k) ∧
    (∀ pre mid, (∀ op ∈ pre ++ mid, op.isRecover = false) →
      (pre = [] ∨ pre.getLast? = some .reset) → .reset ∉ mid →
      let t := transport.trace (after deadline pre) mid
      accepted t = received t ++ (after deadline (pre ++ mid)).inbox ∧
      (after deadline (pre ++ mid)).receive.2 =
        .ok ((accepted t).drop (received t).length).head?) := by
  constructor
  · intro pre cfg mid hops hcreate hdestroy k packet hk
    have hfresh := fresh_after hstrict (fun op h ↦ hops op (List.mem_append_left _ h))
    have hexpects := expects_createStream hfresh hcreate
    rw [after, transport.run_append] at hk
    refine accepted_consecutive hexpects (fun op hop ↦ ⟨hops op (List.mem_append_right _ hop), ?_⟩)
      k packet hk
    rintro rfl
    exact hdestroy hop
  · intro pre mid _ hpre hreset t
    have hempty : (after deadline pre).inbox = [] := by
      rcases hpre with rfl | hlast
      · rfl
      · obtain ⟨pre, rfl⟩ := List.getLast?_eq_some_iff.mp hlast
        rw [after, transport.run_append]
        rfl
    have hqueue := accepted_eq_received_append hempty hreset
    rw [receive_result, after, transport.run_append]
    refine ⟨hqueue, ?_⟩
    show _ = Except.ok ((accepted (transport.trace _ mid)).drop _).head?
    rw [hqueue, List.drop_left]
    rfl

/-- Two packets in order, the first of them offered twice and received. -/
theorem in_order_acceptance_repeated :
    let deadline : TransportDeadlineConfig := ⟨10000, false, 0⟩
    let cfg : StreamConfig := ⟨⟨1⟩, 0, 0, 0, 10000⟩
    let pre : List TransportOp := [.linkUp] ++ [.createStream cfg]
    let mid : List TransportOp := [.startStream ⟨1⟩, .ingest ⟨⟨1⟩, ⟨0⟩, ⟨0⟩, []⟩,
      .ingest ⟨⟨1⟩, ⟨0⟩, ⟨0⟩, []⟩, .ingest ⟨⟨1⟩, ⟨1⟩, ⟨0⟩, []⟩, .receive]
    let t := transport.trace (after deadline []) (pre ++ mid)
    (∀ (k : Nat) packet,
      (acceptedOn cfg.streamId (transport.trace (after deadline pre) mid))[k]? = some packet →
      packet.sequence.val = 0 + UInt64.ofNat k) ∧
    received t = [⟨⟨1⟩, ⟨0⟩, ⟨0⟩, []⟩] ∧
    accepted t = received t ++ (after deadline ([] ++ (pre ++ mid))).inbox ∧
    (after deadline ([] ++ (pre ++ mid))).receive.2 = .ok (some ⟨⟨1⟩, ⟨1⟩, ⟨0⟩, []⟩) := by
  intro deadline cfg pre mid t
  obtain ⟨hnumbers, hqueue⟩ := in_order_acceptance deadline rfl
  obtain ⟨haccepted, hreceive⟩ := hqueue [] (pre ++ mid) (by decide) (.inl rfl) (by decide)
  exact ⟨hnumbers [.linkUp] cfg mid (by decide) (by decide) (by decide), by decide, haccepted,
    hreceive.trans (by decide)⟩

end SimTransportEngine

end AetherRadio
