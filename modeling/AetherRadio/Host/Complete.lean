import AetherRadio.Host.Shared
import AetherRadio.Shm.Drain

/-!
# The receiver gets everything

Once the emitter has sent its last symbol, a receiver that is scheduled alone comes to have accepted
all symbols, or as many as it wants. It polls for bursts of 32, so each takes it further.
-/

namespace AetherRadio

open Verif Shm

variable {cfg : HostConfig} {tone : UInt64 → Nat → IQSample} {timing : RadioTimingConfig}
  {symbols : Nat} {g : Geometry}

namespace Dual

/-- The emitter has sent its last symbol. -/
structure Sent (d : Dual g) : Prop where
  sending : d.link.sending = none
  left : d.left = 0
  failed : d.failed = none

/-- The receiver has no part in the emitter's state. -/
theorem Sent.received {d : Dual g} (h : d.Sent) {r : Link g × LinkReply}
    (hframe : Link.ReceiverFrame d.link r.1 r.2) : (d.received cfg r).Sent := by
  have hsame : (d.received cfg r).left = d.left ∧ (d.received cfg r).failed = d.failed := by
    unfold Dual.received
    split <;> exact ⟨rfl, rfl⟩
  constructor
  · rw [link_received, hframe.sending, h.sending]
  · exact hsame.1.trans h.left
  · exact hsame.2.trans h.failed

theorem Sent.recv {d : Dual g} (h : d.Sent) : (d.recv cfg).Sent := by
  unfold Dual.recv
  cases d.link.polling with
  | some poll => exact h.received (Link.stepBurst_frame d.link)
  | none =>
    dsimp only
    split
    · exact h
    · split
      · exact h.received (Link.burst_frame d.link 32)
      · exact h

/-- The receiver alone. -/
def receiving (k : Nat) : List DualAct := .replicate k .recv

theorem Sent.run {d : Dual g} (h : d.Sent) (k : Nat) :
    ((dual cfg tone g).run d (receiving k)).Sent := by
  induction k generalizing d with
  | zero => exact h
  | succ k ih => exact ih h.recv

end Dual

/-- All symbols are sent, and the receiver has accepted those that it has got. -/
structure Heard (cfg : HostConfig) (tone : UInt64 → Nat → IQSample) (timing : RadioTimingConfig)
    (symbols : Nat) (g : Geometry) (sched : List DualAct) (s : HostState) : Prop where
  host : ((dual cfg tone g).run (Dual.start cfg g timing symbols) sched).host = .ok s
  handed : Shm.handedOut (linkTrace cfg tone timing symbols g sched) =
    (List.range s.accepted).map (symbolPacket cfg tone timing)
  sent : (sentOk (linkTrace cfg tone timing symbols g sched)).length = symbols
  most : s.accepted ≤ symbols
  gaps : s.transport.sequenceGaps =
    if cfg.deadline.startSequence = 0 ∨ s.accepted = 0 then 0 else 1
  late : s.transport.latePackets = 0

theorem Heard.accepted {sched : List DualAct} {s : HostState}
    (h : Heard cfg tone timing symbols g sched s) :
    s.accepted = (Shm.handedOut (linkTrace cfg tone timing symbols g sched)).length := by
  rw [h.handed, List.length_map, List.length_range]

end AetherRadio
