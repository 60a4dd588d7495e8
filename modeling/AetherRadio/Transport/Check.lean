import AetherRadio.Lib.Table
import AetherRadio.Lib.Word
import AetherRadio.Types

/-!
# Sequence and timestamp checkers

`crates/aether-transport/src/check.rs`. A checker answers with its next state and the result of
the check; the sequence checker also moves on in one of its error exits.
-/

namespace AetherRadio

open Verif

/-- Failures of the transport. From `crates/aether-transport/src/lib.rs:75–90`. -/
inductive TransportError where
  | streamNotFound (streamId : StreamId)
  | streamExists (streamId : StreamId)
  | streamNotRunning (streamId : StreamId)
  | linkNotReady
  | sequenceGap (expected got : UInt64)
  | latePacket (latencyNs maxNs : UInt64)
  | config (message : String)
  deriving DecidableEq, Repr

/-- The deadline policy as parsed. From `crates/aether-transport/src/check.rs:9–15`. -/
structure TransportDeadlineConfig where
  maxLatencyNs : UInt64
  allowReorder : Bool
  startSequence : UInt64

/-- Tracks the expected sequence per stream. From `crates/aether-transport/src/check.rs:25–29`. -/
structure SequenceChecker where
  next : Table StreamId UInt64
  start : UInt64
  allowReorder : Bool

namespace SequenceChecker

/-- A checker without registered streams. From `crates/aether-transport/src/check.rs:32–38`. -/
def new (startSequence : UInt64) (allowReorder : Bool) : SequenceChecker :=
  { next := .empty, start := startSequence, allowReorder }

/-- `from_config`. From `crates/aether-transport/src/check.rs:40–42`. -/
def fromConfig (cfg : TransportDeadlineConfig) : SequenceChecker :=
  new cfg.startSequence cfg.allowReorder

/-- The number the next packet of a stream should carry. -/
def expected (self : SequenceChecker) (streamId : StreamId) : UInt64 :=
  (self.next.get? streamId).getD self.start

/-- `register_stream` keeps an entry that is already there.
From `crates/aether-transport/src/check.rs:44–46`. -/
def registerStream (self : SequenceChecker) (streamId : StreamId) : SequenceChecker :=
  match self.next.get? streamId with
  | some _ => self
  | none => { self with next := self.next.insert streamId self.start }

/-- `unregister_stream`. From `crates/aether-transport/src/check.rs:48–50`. -/
def unregisterStream (self : SequenceChecker) (streamId : StreamId) : SequenceChecker :=
  { self with next := self.next.remove streamId }

/-- `check`: with reordering allowed, a packet from ahead moves the expected number past itself and
is still refused. From `crates/aether-transport/src/check.rs:52–65`. -/
def check (self : SequenceChecker) (packet : Packet) :
    SequenceChecker × Except TransportError Unit :=
  let expected := self.expected packet.streamId
  let got := packet.sequence.val
  if got = expected then
    ({ self with next := self.next.insert packet.streamId (expected + 1) }, .ok ())
  else if self.allowReorder ∧ got > expected then
    ({ self with next := self.next.insert packet.streamId (got + 1) },
      .error (.sequenceGap expected got))
  else (self, .error (.sequenceGap expected got))

/-- `last_expected`. From `crates/aether-transport/src/check.rs:67–73`. -/
def lastExpected (self : SequenceChecker) (streamId : StreamId) : UInt64 :=
  satSub (self.expected streamId) 1

/-- `resync`. From `crates/aether-transport/src/check.rs:76–78`. -/
def resync (self : SequenceChecker) (streamId : StreamId) (nextSeq : UInt64) : SequenceChecker :=
  { self with next := self.next.insert streamId nextSeq }

@[simp] theorem expected_insert_self (self : SequenceChecker) (streamId : StreamId) (n : UInt64) :
    expected { self with next := self.next.insert streamId n } streamId = n := by
  simp [expected]

@[simp] theorem expected_insert_of_ne (self : SequenceChecker) {streamId id : StreamId}
    (n : UInt64) (h : id ≠ streamId) :
    expected { self with next := self.next.insert streamId n } id = self.expected id := by
  simp [expected, h]

@[simp] theorem expected_resync_self (self : SequenceChecker) (streamId : StreamId) (n : UInt64) :
    (self.resync streamId n).expected streamId = n := expected_insert_self ..

@[simp] theorem registerStream_allowReorder (self : SequenceChecker) (streamId : StreamId) :
    (self.registerStream streamId).allowReorder = self.allowReorder := by
  unfold registerStream
  split <;> rfl

@[simp] theorem registerStream_start (self : SequenceChecker) (streamId : StreamId) :
    (self.registerStream streamId).start = self.start := by
  unfold registerStream
  split <;> rfl

theorem get?_registerStream_of_ne (self : SequenceChecker) {streamId id : StreamId}
    (h : id ≠ streamId) :
    (self.registerStream streamId).next.get? id = self.next.get? id := by
  unfold registerStream
  split
  · rfl
  · exact Table.get?_insert_of_ne _ _ h

/-- A stream without an entry is registered at the start number. -/
theorem get?_registerStream_self {self : SequenceChecker} {streamId : StreamId}
    (h : self.next.get? streamId = none) :
    (self.registerStream streamId).next.get? streamId = some self.start := by
  unfold registerStream
  rw [h]
  exact Table.get?_insert_self ..

/-- Registration leaves every expected number as it is. -/
@[simp] theorem expected_registerStream (self : SequenceChecker) (streamId id : StreamId) :
    (self.registerStream streamId).expected id = self.expected id := by
  cases hnext : self.next.get? streamId with
  | some n => rw [registerStream, hnext]
  | none =>
    unfold expected
    rw [registerStream_start]
    by_cases hid : id = streamId
    · rw [hid, get?_registerStream_self hnext, hnext]
      rfl
    · rw [get?_registerStream_of_ne _ hid]

end SequenceChecker

/-- Checks the age of a packet against a receive time.
From `crates/aether-transport/src/check.rs:83–85`. -/
structure TimestampChecker where
  maxLatencyNs : UInt64

namespace TimestampChecker

/-- `from_config`. From `crates/aether-transport/src/check.rs:92–94`. -/
def fromConfig (cfg : TransportDeadlineConfig) : TimestampChecker := ⟨cfg.maxLatencyNs⟩

/-- `check`: a packet from the future has no age.
From `crates/aether-transport/src/check.rs:97–107`. -/
def check (self : TimestampChecker) (packet : Packet) (nowNs : UInt64) :
    Except TransportError Unit :=
  let latency := satSub nowNs packet.timestamp.val
  if latency > self.maxLatencyNs then .error (.latePacket latency self.maxLatencyNs)
  else .ok ()

/-- The packet is older than the checker allows. -/
def Late (self : TimestampChecker) (packet : Packet) (nowNs : UInt64) : Prop :=
  satSub nowNs packet.timestamp.val > self.maxLatencyNs

instance (self : TimestampChecker) (packet : Packet) (nowNs : UInt64) :
    Decidable (self.Late packet nowNs) := inferInstanceAs (Decidable (_ > _))

theorem check_of_late {self : TimestampChecker} {packet : Packet} {nowNs : UInt64}
    (h : self.Late packet nowNs) : self.check packet nowNs =
      .error (.latePacket (satSub nowNs packet.timestamp.val) self.maxLatencyNs) := if_pos h

theorem check_of_not_late {self : TimestampChecker} {packet : Packet} {nowNs : UInt64}
    (h : ¬ self.Late packet nowNs) : self.check packet nowNs = .ok () := if_neg h

end TimestampChecker

end AetherRadio
