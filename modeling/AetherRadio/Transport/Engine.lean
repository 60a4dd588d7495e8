import AetherRadio.Transport.Check

/-!
# Simulation transport engine

`crates/aether-transport/src/sim.rs`: stream registry, link state, the checked receive path and
the send path. Every operation answers with the next engine and its result; the two counters are
naturals.
-/

namespace AetherRadio

open Verif

/-- Lifecycle of a stream. From `crates/aether-transport/src/lib.rs:49–54`. -/
inductive StreamState where
  | idle
  | running
  | stopped
  | error
  deriving DecidableEq, Repr

/-- Lifecycle of the link. From `crates/aether-transport/src/lib.rs:64–72`. -/
inductive LinkState where
  | init
  | discovery
  | ready
  | running
  | error
  | recovery
  deriving DecidableEq, Repr

/-- What a stream is created with. From `crates/aether-transport/src/lib.rs:40–46`. -/
structure StreamConfig where
  streamId : StreamId
  carrier : UInt16
  antenna : UInt16
  qos : UInt8
  deadlineNs : UInt64
  deriving DecidableEq, Repr

/-- What `query_stream` reports. From `crates/aether-transport/src/lib.rs:57–61`. -/
structure StreamStatus where
  streamId : StreamId
  state : StreamState
  lastSequence : UInt64
  deriving DecidableEq, Repr

/-- A registered stream. From `crates/aether-transport/src/sim.rs:12–15`. -/
structure StreamRuntime where
  cfg : StreamConfig
  state : StreamState
  deriving DecidableEq, Repr

/-- Transport engine of the simulation backend. From `crates/aether-transport/src/sim.rs:19–30`. -/
structure SimTransportEngine where
  streams : Table StreamId StreamRuntime
  inbox : List Packet
  outbox : List Packet
  link : LinkState
  seq : SequenceChecker
  ts : TimestampChecker
  nowNs : UInt64
  sequenceGaps : Nat
  latePackets : Nat

namespace SimTransportEngine

/-- An engine without streams whose link is not up.
From `crates/aether-transport/src/sim.rs:33–45`. -/
def new (deadline : TransportDeadlineConfig) : SimTransportEngine :=
  { streams := .empty
    inbox := []
    outbox := []
    link := .init
    seq := .fromConfig deadline
    ts := .fromConfig deadline
    nowNs := 0
    sequenceGaps := 0
    latePackets := 0 }

/-- The checks `ingest` and `send` share: the link first, then the packet's stream. -/
def admission (self : SimTransportEngine) (packet : Packet) : Except TransportError Unit :=
  if self.link ≠ .running ∧ self.link ≠ .ready then .error .linkNotReady
  else
    match self.streams.get? packet.streamId with
    | none => .error (.streamNotFound packet.streamId)
    | some runtime =>
      if runtime.state ≠ .running then .error (.streamNotRunning packet.streamId) else .ok ()

/-- `ingest`: the timestamp is checked before the sequence.
From `crates/aether-transport/src/sim.rs:52–79`. -/
def ingest (self : SimTransportEngine) (packet : Packet) :
    SimTransportEngine × Except TransportError Unit :=
  match self.admission packet with
  | .error e => (self, .error e)
  | .ok () =>
    match self.ts.check packet self.nowNs with
    | .error e => ({ self with latePackets := self.latePackets + 1 }, .error e)
    | .ok () =>
      match self.seq.check packet with
      | (seq, .ok ()) => ({ self with seq, inbox := self.inbox ++ [packet] }, .ok ())
      | (seq, .error (.sequenceGap expected got)) =>
        ({ self with seq, sequenceGaps := self.sequenceGaps + 1 },
          .error (.sequenceGap expected got))
      | (seq, .error e) => ({ self with seq }, .error e)

/-- `recover_sequence`: besides the expected number it sets the stream and the link running.
From `crates/aether-transport/src/sim.rs:82–88`. -/
def recoverSequence (self : SimTransportEngine) (streamId : StreamId) (nextSeq : UInt64) :
    SimTransportEngine :=
  { self with
    seq := self.seq.resync streamId nextSeq
    streams :=
      match self.streams.get? streamId with
      | some s => self.streams.insert streamId { s with state := .running }
      | none => self.streams
    link := .running }

/-- `advance_time`. From `crates/aether-transport/src/sim.rs:94–96`. -/
def advanceTime (self : SimTransportEngine) (deltaNs : UInt64) : SimTransportEngine :=
  { self with nowNs := satAdd self.nowNs deltaNs }

/-- `send`. From `crates/aether-transport/src/sim.rs:100–113`. -/
def send (self : SimTransportEngine) (packet : Packet) :
    SimTransportEngine × Except TransportError Unit :=
  match self.admission packet with
  | .error e => (self, .error e)
  | .ok () => ({ self with outbox := self.outbox ++ [packet] }, .ok ())

/-- `receive`. From `crates/aether-transport/src/sim.rs:115–121`. -/
def receive (self : SimTransportEngine) :
    SimTransportEngine × Except TransportError (Option Packet) :=
  match self.inbox with
  | [] => (self, .ok none)
  | packet :: inbox => ({ self with inbox }, .ok (some packet))

/-- `create_stream`. From `crates/aether-transport/src/sim.rs:125–139`. -/
def createStream (self : SimTransportEngine) (cfg : StreamConfig) :
    SimTransportEngine × Except TransportError StreamId :=
  match self.streams.get? cfg.streamId with
  | some _ => (self, .error (.streamExists cfg.streamId))
  | none =>
    ({ self with
        seq := self.seq.registerStream cfg.streamId
        streams := self.streams.insert cfg.streamId { cfg, state := .idle } },
      .ok cfg.streamId)

/-- `start_stream` and `stop_stream` differ in the state they set. -/
def setStreamState (self : SimTransportEngine) (streamId : StreamId) (state : StreamState) :
    SimTransportEngine × Except TransportError Unit :=
  match self.streams.get? streamId with
  | none => (self, .error (.streamNotFound streamId))
  | some s => ({ self with streams := self.streams.insert streamId { s with state } }, .ok ())

/-- `start_stream`. From `crates/aether-transport/src/sim.rs:141–148`. -/
def startStream (self : SimTransportEngine) (streamId : StreamId) :
    SimTransportEngine × Except TransportError Unit := self.setStreamState streamId .running

/-- `stop_stream`. From `crates/aether-transport/src/sim.rs:150–157`. -/
def stopStream (self : SimTransportEngine) (streamId : StreamId) :
    SimTransportEngine × Except TransportError Unit := self.setStreamState streamId .stopped

/-- `query_stream`. From `crates/aether-transport/src/sim.rs:159–169`. -/
def queryStream (self : SimTransportEngine) (streamId : StreamId) :
    Except TransportError StreamStatus :=
  match self.streams.get? streamId with
  | none => .error (.streamNotFound streamId)
  | some s =>
    .ok { streamId, state := s.state, lastSequence := self.seq.lastExpected streamId }

/-- `destroy_stream`. From `crates/aether-transport/src/sim.rs:173–179`. -/
def destroyStream (self : SimTransportEngine) (streamId : StreamId) :
    SimTransportEngine × Except TransportError Unit :=
  match self.streams.get? streamId with
  | none => (self, .error (.streamNotFound streamId))
  | some _ =>
    ({ self with
        streams := self.streams.remove streamId
        seq := self.seq.unregisterStream streamId }, .ok ())

/-- `link_up`. From `crates/aether-transport/src/sim.rs:194–197`. -/
def linkUp (self : SimTransportEngine) : SimTransportEngine × Except TransportError Unit :=
  ({ self with link := .running }, .ok ())

/-- `link_down`. From `crates/aether-transport/src/sim.rs:199–202`. -/
def linkDown (self : SimTransportEngine) : SimTransportEngine × Except TransportError Unit :=
  ({ self with link := .init }, .ok ())

/-- `reset` keeps the streams and their expected numbers.
From `crates/aether-transport/src/sim.rs:204–211`. -/
def reset (self : SimTransportEngine) : SimTransportEngine × Except TransportError Unit :=
  ({ self with link := .init, inbox := [], outbox := [], sequenceGaps := 0, latePackets := 0 },
    .ok ())

end SimTransportEngine

end AetherRadio
