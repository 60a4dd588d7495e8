import AetherRadio.Bench.Conservation

/-!
# The recovery policy of a run

The executor names an action for a gap and the loop does not look at it: every gap is recovered
from, whatever the policy says.
-/

namespace AetherRadio

open Verif

/-- A packet that is admitted in time, with another number than the expected one. -/
def SimTransportEngine.OutOfSequence (self : SimTransportEngine) (packet : Packet) : Prop :=
  self.admission packet = .ok () ∧ ¬ self.ts.Late packet self.nowNs ∧
    packet.sequence.val ≠ self.seq.expected packet.streamId

instance (self : SimTransportEngine) (packet : Packet) : Decidable (self.OutOfSequence packet) :=
  inferInstanceAs (Decidable (_ ∧ _ ∧ _))

/-- These are the packets refused as a gap. -/
theorem SimTransportEngine.outOfSequence_iff {self : SimTransportEngine} {packet : Packet} :
    self.OutOfSequence packet ↔
      ∃ expected got, (self.ingest packet).2 = .error (.sequenceGap expected got) := by
  cases self.ingest_exit packet with
  | refused e refusal admission eq =>
    rw [eq, OutOfSequence, admission]
    constructor
    · rintro ⟨h, -⟩
      cases h
    · rintro ⟨expected, got, h⟩
      cases h
      cases refusal
  | late admission time eq =>
    rw [eq]
    constructor
    · rintro ⟨-, htime, -⟩
      exact absurd time htime
    · rintro ⟨expected, got, h⟩
      cases h
  | accepted admission time seq eq =>
    rw [eq]
    constructor
    · rintro ⟨-, -, hseq⟩
      exact absurd seq hseq
    · rintro ⟨expected, got, h⟩
      cases h
  | gap admission time seq eq =>
    rw [eq]
    constructor
    · intro _
      exact ⟨_, _, rfl⟩
    · intro _
      exact ⟨admission, time, seq⟩

namespace PipelineBench

variable {cfg : BenchConfig} {s : BenchState} {packet : Packet}

/-- A run comes to a packet in a state. -/
def Meets (cfg : BenchConfig) (s : BenchState) (packet : Packet) : Prop :=
  ∃ s₀ pre post, start cfg = .ok s₀ ∧ offered cfg = pre ++ packet :: post ∧
    pre.foldlM (processOne cfg) s₀ = .ok s

/-- At every packet of a run that is refused as a gap, under another action than recovering, the
receive path leaves the transport as the refusal left it and the packet does not get through. -/
def ExecutesPolicy (cfg : BenchConfig) (policy : RecoveryPolicy) : Prop :=
  ∀ s packet, Meets cfg s packet →
    let departed := (depart cfg s packet).1
    (∃ expected got,
      (departed.transport.ingest packet).2 = .error (.sequenceGap expected got)) →
    policy.actionFor "sequence_gap" ≠ .recoverSequence →
    ∀ s₁ through, ingestOrRecover departed packet = .ok (s₁, through) →
      s₁.transport = (departed.transport.ingest packet).1 ∧ through = false

/-- A packet out of sequence gets through under every policy. -/
theorem ingestOrRecover_gap (h : s.transport.OutOfSequence packet) :
    ∃ s₁, ingestOrRecover s packet = .ok (s₁, true) := by
  obtain ⟨expected, got, hgap⟩ := SimTransportEngine.outOfSequence_iff.mp h
  have hrecover := SimTransportEngine.ingest_recover hgap
  rw [ingestOrRecover]
  generalize s.transport.ingest packet = refused at hgap hrecover ⊢
  obtain ⟨transport, result⟩ := refused
  cases hgap
  dsimp only [BenchState.applyRecovery]
  rw [hrecover]
  exact ⟨_, rfl⟩

/-- For every bench and every policy: the runs execute the policy exactly when its action for a gap
is to recover, or no run comes to an admitted packet that is in time and out of sequence. -/
theorem executes_policy_iff (cfg : BenchConfig) (policy : RecoveryPolicy) :
    let cfg := { cfg with recoveryPolicy := some policy }
    ExecutesPolicy cfg policy ↔
      policy.actionFor "sequence_gap" = .recoverSequence ∨
      ∀ s packet, Meets cfg s packet →
        ¬ (depart cfg s packet).1.transport.OutOfSequence packet := by
  intro cfg
  constructor
  · intro hexecutes
    by_cases haction : policy.actionFor "sequence_gap" = .recoverSequence
    · exact .inl haction
    · apply Or.inr
      intro s packet hmeets hgap
      obtain ⟨s₁, hthrough⟩ := ingestOrRecover_gap hgap
      have hrefused := SimTransportEngine.outOfSequence_iff.mp hgap
      cases (hexecutes s packet hmeets hrefused haction s₁ true hthrough).2
  · intro hcondition s packet hmeets departed hrefused haction
    rcases hcondition with hrecover | hnone
    · exact absurd hrecover haction
    · have hgap := SimTransportEngine.outOfSequence_iff.mpr hrefused
      exact absurd hgap (hnone s packet hmeets)

/-- A policy that drops what causes a gap. -/
def droppingPolicy : RecoveryPolicy where
  actions := .insert .empty "sequence_gap" .recordAndDrop

/-- The lossy bench under it. -/
def droppingBench : BenchConfig := { lossyBench with recoveryPolicy := some droppingPolicy }

/-- The first packet the injector lets through is out of sequence, and gets through against the
policy. -/
theorem gap_recovered_against_policy :
    droppingPolicy.actionFor "sequence_gap" = .recordAndDrop ∧
      ¬ ExecutesPolicy droppingBench droppingPolicy := by
  have haction : droppingPolicy.actionFor "sequence_gap" = .recordAndDrop := by
    rw [RecoveryPolicy.actionFor, droppingPolicy, Table.get?_insert_self]
    rfl
  refine ⟨haction, ?_⟩
  intro hexecutes
  have hfirst : ((start droppingBench).toOption.any fun s ↦
      (offered droppingBench).head?.any fun packet ↦
        decide ((depart droppingBench s packet).1.transport.OutOfSequence packet)) = true := by rfl
  cases hstart : start droppingBench with
  | error e =>
    rw [hstart] at hfirst
    cases hfirst
  | ok s =>
    rw [hstart] at hfirst
    cases hoffered : offered droppingBench with
    | nil =>
      rw [hoffered] at hfirst
      cases hfirst
    | cons packet post =>
      rw [hoffered] at hfirst
      have hgap : (depart droppingBench s packet).1.transport.OutOfSequence packet :=
        of_decide_eq_true hfirst
      obtain ⟨s₁, hthrough⟩ := ingestOrRecover_gap hgap
      have hmeets : Meets droppingBench s packet := ⟨s, [], post, hstart, hoffered, rfl⟩
      have hother : droppingPolicy.actionFor "sequence_gap" ≠ .recoverSequence := by
        rw [haction]
        decide
      have hrefused := SimTransportEngine.outOfSequence_iff.mp hgap
      cases (hexecutes s packet hmeets hrefused hother s₁ true hthrough).2

end PipelineBench

end AetherRadio
