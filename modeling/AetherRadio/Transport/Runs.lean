import AetherRadio.Lib.Fifo
import AetherRadio.Lib.Machine
import AetherRadio.Transport.Ingest

/-!
# Runs of the transport engine

The engine as a machine that is offered its operations one after the other, each answered with
its result. The first consequences are about what no operation but a few can do: move the link,
and move packets into and out of the inbox.
-/

namespace AetherRadio

open Verif

/-- The operations of the engine. `setNow` is an assignment to the public clock field.
From `crates/aether-transport/src/lib.rs:18–21,24–29,32–37`. -/
inductive TransportOp where
  | linkUp
  | linkDown
  | reset
  | createStream (cfg : StreamConfig)
  | startStream (streamId : StreamId)
  | stopStream (streamId : StreamId)
  | queryStream (streamId : StreamId)
  | destroyStream (streamId : StreamId)
  | ingest (packet : Packet)
  | receive
  | send (packet : Packet)
  | advanceTime (deltaNs : UInt64)
  | setNow (nowNs : UInt64)
  | recoverSequence (streamId : StreamId) (nextSeq : UInt64)
  deriving DecidableEq

/-- `recover_sequence`, whatever its arguments. -/
def TransportOp.isRecover : TransportOp → Bool
  | .recoverSequence _ _ => true
  | _ => false

/-- The results of the operations. -/
inductive TransportReply where
  | done (result : Except TransportError Unit)
  | created (result : Except TransportError StreamId)
  | status (result : Except TransportError StreamStatus)
  | received (result : Except TransportError (Option Packet))
  deriving DecidableEq

namespace SimTransportEngine

/-- One operation. -/
def act (self : SimTransportEngine) : TransportOp → SimTransportEngine × TransportReply
  | .linkUp => self.linkUp.map id .done
  | .linkDown => self.linkDown.map id .done
  | .reset => self.reset.map id .done
  | .createStream cfg => (self.createStream cfg).map id .created
  | .startStream streamId => (self.startStream streamId).map id .done
  | .stopStream streamId => (self.stopStream streamId).map id .done
  | .queryStream streamId => (self, .status (self.queryStream streamId))
  | .destroyStream streamId => (self.destroyStream streamId).map id .done
  | .ingest packet => (self.ingest packet).map id .done
  | .receive => self.receive.map id .received
  | .send packet => (self.send packet).map id .done
  | .advanceTime deltaNs => (self.advanceTime deltaNs, .done (.ok ()))
  | .setNow nowNs => ({ self with nowNs }, .done (.ok ()))
  | .recoverSequence streamId nextSeq =>
    (self.recoverSequence streamId nextSeq, .done (.ok ()))

end SimTransportEngine

/-- The engine as a machine. -/
def transport : Machine SimTransportEngine TransportOp TransportReply where
  step := SimTransportEngine.act

namespace SimTransportEngine

variable (self : SimTransportEngine)

@[simp] theorem ingest_link (packet : Packet) : (self.ingest packet).1.link = self.link := by
  obtain ⟨_, _, _, heq⟩ | ⟨_, _, heq⟩ | ⟨_, _, _, heq⟩ | ⟨_, _, _, heq⟩ :=
    self.ingest_exit packet <;> rw [heq]

private theorem send_refused {self : SimTransportEngine} {packet : Packet} {e : TransportError}
    (h : self.admission packet = .error e) : self.send packet = (self, .error e) := by
  simp only [send, h]

@[simp] theorem send_link (packet : Packet) : (self.send packet).1.link = self.link := by
  unfold send
  split <;> rfl

@[simp] theorem receive_link : self.receive.1.link = self.link := by
  unfold receive
  split <;> rfl

@[simp] theorem createStream_link (cfg : StreamConfig) :
    (self.createStream cfg).1.link = self.link := by
  unfold createStream
  split <;> rfl

@[simp] theorem setStreamState_link (streamId : StreamId) (state : StreamState) :
    (self.setStreamState streamId state).1.link = self.link := by
  unfold setStreamState
  split <;> rfl

@[simp] theorem destroyStream_link (streamId : StreamId) :
    (self.destroyStream streamId).1.link = self.link := by
  unfold destroyStream
  split <;> rfl

/-- Only `link_up` and `recover_sequence` can bring up a link that is down. -/
private theorem act_link_init {op : TransportOp} (h : self.link = .init) (hup : op ≠ .linkUp)
    (hrecover : op.isRecover = false) : (self.act op).1.link = .init := by
  cases op with
  | linkUp => exact absurd rfl hup
  | linkDown | reset => rfl
  | startStream streamId => exact (self.setStreamState_link streamId .running).trans h
  | stopStream streamId => exact (self.setStreamState_link streamId .stopped).trans h
  | recoverSequence streamId nextSeq => cases hrecover
  | _ => simp [act, advanceTime, h]

/-- A link that is down refuses packets on either path. -/
private theorem act_refused {op : TransportOp} (h : self.link = .init) {packet : Packet}
    (hop : op = .ingest packet ∨ op = .send packet) :
    (self.act op).2 = .done (.error .linkNotReady) := by
  have hdown : self.link ≠ .running ∧ self.link ≠ .ready := by rw [h]; decide
  have hrefused := admission_of_link hdown packet
  rcases hop with rfl | rfl
  · exact congrArg (TransportReply.done ·.2) (ingest_refused hrefused)
  · exact congrArg (TransportReply.done ·.2) (send_refused hrefused)

/-- The engine a schedule leads to. -/
def after (deadline : TransportDeadlineConfig) (ops : List TransportOp) : SimTransportEngine :=
  transport.run (new deadline) ops

/-- After `link_down` or `reset`, every `ingest` and every `send` is refused until the next
`link_up` or `recover_sequence`. -/
theorem link_stays_down (deadline : TransportDeadlineConfig) (pre mid : List TransportOp)
    (down : TransportOp) (hdown : down = .linkDown ∨ down = .reset)
    (hmid : ∀ op ∈ mid, op ≠ .linkUp ∧ op.isRecover = false) :
    ∀ entry ∈ transport.trace (after deadline (pre ++ [down])) mid,
      (∃ packet, entry.1 = .ingest packet ∨ entry.1 = .send packet) →
        entry.2 = .done (.error .linkNotReady) := by
  rintro ⟨op, reply⟩ hentry ⟨packet, hop⟩
  have hstart : (after deadline (pre ++ [down])).link = .init := by
    rw [after, transport.run_append]
    rcases hdown with rfl | rfl <;> rfl
  obtain ⟨mid₁, mid₂, rfl, rfl⟩ := transport.mem_trace hentry
  refine act_refused _ ?_ hop
  exact transport.run_preserves (P := fun s ↦ s.link = .init) hstart
    (fun s op hs hok ↦ s.act_link_init hs hok.1 hok.2)
    (transport.permits_of_forall (fun op h ↦ hmid op (List.mem_append_left _ h)) _)

/-- A schedule that starts a stream and sends on it after the link was taken down. -/
theorem link_stays_down_started :
    let mid : List TransportOp := [.startStream ⟨1⟩, .send ⟨⟨1⟩, ⟨0⟩, ⟨0⟩, []⟩]
    let pre : List TransportOp := [.linkUp, .createStream ⟨⟨1⟩, 0, 0, 0, 10000⟩]
    ∀ entry ∈ transport.trace (after ⟨10000, false, 0⟩ (pre ++ [.linkDown])) mid,
      (∃ packet, entry.1 = .ingest packet ∨ entry.1 = .send packet) →
        entry.2 = .done (.error .linkNotReady) :=
  link_stays_down _ _ _ _ (.inl rfl) (by decide)

/-- `recover_sequence` on any stream brings up a link that was taken down. -/
theorem recoverSequence_brings_link_up :
    let packet : Packet := ⟨⟨1⟩, ⟨0⟩, ⟨0⟩, []⟩
    let pre : List TransportOp := [.linkUp, .createStream ⟨⟨1⟩, 0, 0, 0, 10000⟩, .startStream ⟨1⟩]
    (.ingest packet, .done (.ok ())) ∈
      transport.trace (after ⟨10000, false, 0⟩ (pre ++ [.linkDown]))
        [.recoverSequence ⟨2⟩ 7, .ingest packet] := by
  decide

end SimTransportEngine

end AetherRadio
