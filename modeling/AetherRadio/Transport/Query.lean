import AetherRadio.Lib.History
import AetherRadio.Transport.Registry

/-!
# The last sequence number of a stream

`query_stream` steps back from the expected number, saturating where the checker wraps. The
number it reports is compared with the packets the run accepted.
-/

namespace AetherRadio

open Verif

/-- What an operation does to the last packet of a stream: an accepted packet becomes the last one,
and there is none after a gap, at the stream's creation and at its end. -/
def lastPacketEvent : TransportOp × TransportReply → StreamId → Option (Option Packet)
  | (.ingest packet, .done (.ok ())), id =>
    if packet.streamId = id then some (some packet) else none
  | (.ingest packet, .done (.error (.sequenceGap _ _))), id =>
    if packet.streamId = id then some none else none
  | (.createStream cfg, .created (.ok _)), id => if cfg.streamId = id then some none else none
  | (.destroyStream streamId, .done (.ok ())), id =>
    if streamId = id then some none else none
  | _, _ => none

/-- The last packet of a stream that was accepted since its creation, if none of its packets was a
gap after it. -/
def lastAccepted (t : List (TransportOp × TransportReply)) (id : StreamId) : Option Packet :=
  (lastOf lastPacketEvent t id).join

@[simp] theorem lastAccepted_nil (id : StreamId) : lastAccepted [] id = none := rfl

/-- Only an accepted packet becomes the last one. -/
theorem ingest_of_lastPacketEvent {op : TransportOp} {reply : TransportReply} {id : StreamId}
    {packet : Packet} (h : lastPacketEvent (op, reply) id = some (some packet)) :
    op = .ingest packet ∧ reply = .done (.ok ()) ∧ packet.streamId = id := by
  unfold lastPacketEvent at h
  split at h
  · next accepted id' heq =>
    split at h
    · next hid =>
      cases heq
      cases h
      exact ⟨rfl, rfl, hid⟩
    · cases h
  all_goals first | cases h | (split at h <;> cases h)

/-- So the last packet was accepted. -/
private theorem mem_accepted_of_lastAccepted {t : List (TransportOp × TransportReply)}
    {id : StreamId}
    {packet : Packet} (h : lastAccepted t id = some packet) : packet ∈ accepted t := by
  obtain ⟨⟨op, reply⟩, hentry, hevent⟩ :=
    List.exists_of_findSome?_eq_some (Option.join_eq_some_iff.mp h)
  obtain ⟨rfl, rfl, -⟩ := ingest_of_lastPacketEvent hevent
  exact List.mem_filterMap.mpr ⟨_, List.mem_reverse.mp hentry, rfl⟩

/-- An accepted packet was answered with success. -/
private theorem mem_of_mem_accepted {t : List (TransportOp × TransportReply)} {packet : Packet}
    (h : packet ∈ accepted t) : (.ingest packet, .done (.ok ())) ∈ t := by
  obtain ⟨⟨op, reply⟩, hentry, hevent⟩ := List.mem_filterMap.mp h
  split at hevent
  · next heq =>
    cases heq
    cases hevent
    exact hentry
  · cases hevent

/-- A packet is the last one when it is accepted. -/
private theorem lastAccepted_concat_ingest (t : List (TransportOp × TransportReply))
    (packet : Packet) :
    lastAccepted (t ++ [(.ingest packet, .done (.ok ()))]) packet.streamId = some packet := by
  rw [lastAccepted, lastOf_concat, lastPacketEvent, if_pos rfl]
  rfl

namespace SimTransportEngine

/-- An operation other than `recover_sequence` that does nothing to the last packet of a registered
stream leaves its expected number alone. -/
private theorem untouched_of_lastPacketEvent {self : SimTransportEngine} {op : TransportOp}
    {id : StreamId} (known : self.registered id = true) (hop : op.isRecover = false)
    (h : lastPacketEvent (op, (self.act op).2) id = none) : self.Untouched id op := by
  cases op with
  | recoverSequence streamId nextSeq => cases hop
  | destroyStream streamId =>
    rintro rfl
    obtain ⟨runtime, hruntime⟩ := Option.isSome_iff_exists.mp known
    simp [act, destroyStream, hruntime, lastPacketEvent] at h
  | ingest packet =>
    rintro rfl
    constructor
    · intro haccepted
      simp [act, haccepted, lastPacketEvent] at h
    · intro _ expected got hgap
      simp [act, hgap, lastPacketEvent] at h
  | _ => exact True.intro

/-- A stream that accepts a packet awaits the number after it. -/
private theorem awaits_ingest {self : SimTransportEngine} {packet : Packet}
    (h : (self.ingest packet).2 = .ok ()) :
    (self.ingest packet).1.Awaits packet.streamId (packet.sequence.val + 1) := by
  obtain ⟨hadmission, htime, hseq⟩ := (self.ingest_ok_iff packet).mp h
  obtain ⟨runtime, hknown, -⟩ := exists_of_admission hadmission
  rw [ingest_accepted hadmission htime hseq]
  exact ⟨by rw [registered, hknown]; rfl, Table.get?_insert_self ..⟩

/-- Every stream awaits the number after its last packet. -/
def AwaitsNext (t : List (TransportOp × TransportReply)) (eng : SimTransportEngine) : Prop :=
  ∀ id packet, lastAccepted t id = some packet → eng.Awaits id (packet.sequence.val + 1)

/-- One operation other than `recover_sequence`. -/
theorem awaitsNext_act {t : List (TransportOp × TransportReply)} {self : SimTransportEngine}
    (h : self.AwaitsNext t) {op : TransportOp} (hop : op.isRecover = false) :
    (self.act op).1.AwaitsNext (t ++ [(op, (self.act op).2)]) := by
  intro id packet hlast
  rw [lastAccepted, lastOf_concat] at hlast
  cases hevent : lastPacketEvent (op, (self.act op).2) id with
  | none =>
    rw [hevent, Option.none_or] at hlast
    have hawaits := h id packet hlast
    exact awaits_act hawaits (untouched_of_lastPacketEvent hawaits.known hop hevent)
  | some last =>
    rw [hevent, Option.some_or, Option.join_some] at hlast
    subst hlast
    obtain ⟨rfl, hreply, rfl⟩ := ingest_of_lastPacketEvent hevent
    exact awaits_ingest (TransportReply.done.inj hreply)

private theorem awaitsNext_after (deadline : TransportDeadlineConfig) {ops : List TransportOp}
    (h : ∀ op ∈ ops, op.isRecover = false) :
    (after deadline ops).AwaitsNext (transport.trace (new deadline) ops) :=
  transport.run_invariant (P := fun t s ↦ s.AwaitsNext t) nofun
    (fun _ _ _ hs hop ↦ awaitsNext_act hs hop) (transport.permits_of_forall h _)

/-- What `query_stream` reports of a stream that awaits a number. -/
theorem Awaits.lastSequence {eng : SimTransportEngine} {id : StreamId} {n : UInt64}
    (h : eng.Awaits id n) :
    (eng.queryStream id).map (·.lastSequence) = .ok (satSub n 1) := by
  obtain ⟨runtime, hruntime⟩ := Option.isSome_iff_exists.mp h.known
  simp only [queryStream, hruntime, SequenceChecker.lastExpected, h.expected]
  rfl

/-- `query_stream` reports the number of a packet for a stream. -/
def Reports (eng : SimTransportEngine) (id : StreamId) (packet : Packet) : Prop :=
  (eng.queryStream id).map (·.lastSequence) = .ok packet.sequence.val

instance (eng : SimTransportEngine) (id : StreamId) (packet : Packet) :
    Decidable (eng.Reports id packet) := inferInstanceAs (Decidable (_ = _))

/-- In every state the run passes through, `query_stream` reports the number of each stream's last
packet. -/
def ReportsThroughout (deadline : TransportDeadlineConfig) (ops : List TransportOp) : Prop :=
  ∀ pre, pre <+: ops → ∀ id packet,
    lastAccepted (transport.trace (new deadline) pre) id = some packet →
      (after deadline pre).Reports id packet

/-- The number of a stream's last packet is reported unless the expected number has wrapped. -/
theorem reports_iff (deadline : TransportDeadlineConfig) {ops : List TransportOp}
    (h : ∀ op ∈ ops, op.isRecover = false) {id : StreamId} {packet : Packet}
    (hlast : lastAccepted (transport.trace (new deadline) ops) id = some packet) :
    (after deadline ops).Reports id packet ↔ packet.sequence.val.toNat ≠ 2 ^ 64 - 1 := by
  have hawaits := awaitsNext_after deadline h id packet hlast
  rw [Reports, hawaits.lastSequence, ← satSub_add_one_eq_iff, Except.ok.injEq]

/-- In a run without `recover_sequence` the number of a stream's last packet is reported exactly
when it is not the largest one, and the numbers are reported in every state of the run exactly when
no packet with the largest number is accepted. -/
theorem query_reports_last_iff (deadline : TransportDeadlineConfig) {ops : List TransportOp}
    (h : ∀ op ∈ ops, op.isRecover = false) :
    (∀ id packet, lastAccepted (transport.trace (new deadline) ops) id = some packet →
      ((after deadline ops).Reports id packet ↔ packet.sequence.val.toNat ≠ 2 ^ 64 - 1)) ∧
    (ReportsThroughout deadline ops ↔
      ∀ packet ∈ accepted (transport.trace (new deadline) ops),
        packet.sequence.val.toNat ≠ 2 ^ 64 - 1) := by
  have hrecover : ∀ pre, pre <+: ops → ∀ op ∈ pre, op.isRecover = false :=
    fun pre hpre op hop ↦ h op (hpre.subset hop)
  refine ⟨fun id packet hlast ↦ reports_iff deadline h hlast, ?_, ?_⟩
  · intro hreports packet hpacket
    obtain ⟨pre, post, hops, hreply⟩ := transport.mem_trace (mem_of_mem_accepted hpacket)
    have hpre : pre ++ [.ingest packet] <+: ops := ⟨post, by rw [hops, List.append_assoc]; rfl⟩
    have hlast : lastAccepted (transport.trace (new deadline) (pre ++ [.ingest packet]))
        packet.streamId = some packet := by
      rw [transport.trace_append, transport.trace_cons, transport.trace_nil, ← hreply]
      exact lastAccepted_concat_ingest ..
    exact (reports_iff deadline (hrecover _ hpre) hlast).mp (hreports _ hpre _ _ hlast)
  · intro hnumbers pre hpre id packet hlast
    apply (reports_iff deadline (hrecover pre hpre) hlast).mpr
    apply hnumbers
    obtain ⟨post, rfl⟩ := hpre
    rw [transport.trace_append, accepted, List.filterMap_append]
    exact List.mem_append_left _ (mem_accepted_of_lastAccepted hlast)

/-- A stream that has accepted packet 0 and then packet 1. -/
theorem query_reports_last_iff_two :
    let ops : List TransportOp := [.linkUp, .createStream ⟨⟨1⟩, 0, 0, 0, 10000⟩,
      .startStream ⟨1⟩, .ingest ⟨⟨1⟩, ⟨0⟩, ⟨0⟩, []⟩, .ingest ⟨⟨1⟩, ⟨1⟩, ⟨0⟩, []⟩]
    (∀ op ∈ ops, op.isRecover = false) ∧ ReportsThroughout ⟨10000, false, 0⟩ ops ∧
      ((after ⟨10000, false, 0⟩ ops).queryStream ⟨1⟩).map (·.lastSequence) = .ok 1 := by
  intro ops
  have hops : ∀ op ∈ ops, op.isRecover = false := by decide
  exact ⟨hops, (query_reports_last_iff ⟨10000, false, 0⟩ hops).2.mpr (by decide), by decide⟩

/-- A stream that starts at the largest number and accepts it: zero is reported. -/
theorem query_reports_zero :
    let packet : Packet := ⟨⟨1⟩, ⟨18446744073709551615⟩, ⟨0⟩, []⟩
    let ops : List TransportOp := [.linkUp, .createStream ⟨⟨1⟩, 0, 0, 0, 10000⟩,
      .startStream ⟨1⟩, .ingest packet]
    let deadline : TransportDeadlineConfig := ⟨10000, false, 18446744073709551615⟩
    (∀ op ∈ ops, op.isRecover = false) ∧
      lastAccepted (transport.trace (new deadline) ops) ⟨1⟩ = some packet ∧
      (after deadline ops).queryStream ⟨1⟩ = .ok ⟨⟨1⟩, .running, 0⟩ ∧
      ¬ (after deadline ops).Reports ⟨1⟩ packet := by
  decide

end SimTransportEngine

end AetherRadio
