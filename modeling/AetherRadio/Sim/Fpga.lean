import AetherRadio.Lib.LittleEndian
import AetherRadio.Lib.Word
import AetherRadio.Types

/-!
# FPGA emulator

`crates/fpga-emulator/src/lib.rs`: radio time, sequence numbers and packets, one per symbol. The
sine values of the samples enter as a function from time and sample index to bit patterns.
-/

namespace AetherRadio

open Verif

/-- The bit patterns of one complex sample. From `crates/aether-types/src/lib.rs:59–62`. -/
structure IQSample where
  i : UInt32
  q : UInt32
  deriving DecidableEq, Repr

/-- The radio timing as parsed. From `crates/fpga-emulator/src/lib.rs:31–40`. -/
structure RadioTimingConfig where
  slotsPerSfn : UInt16
  symbolsPerSlot : UInt8
  symbolDurationNs : UInt64
  samplesPerSymbol : Nat
  deriving DecidableEq, Repr

/-- Radio time of the next symbol. From `crates/fpga-emulator/src/lib.rs:56–62`. -/
structure TimestampGenerator where
  timing : RadioTimingConfig
  sfn : UInt32
  slot : UInt16
  symbol : UInt8
  ns : UInt64
  deriving DecidableEq, Repr

namespace TimestampGenerator

/-- Radio time zero. From `crates/fpga-emulator/src/lib.rs:65–73`. -/
def new (timing : RadioTimingConfig) : TimestampGenerator :=
  { timing, sfn := 0, slot := 0, symbol := 0, ns := 0 }

/-- `current`. From `crates/fpga-emulator/src/lib.rs:75–77`. -/
def current (self : TimestampGenerator) : RadioTimestamp :=
  { sfn := self.sfn, slot := self.slot, symbol := self.symbol, ns := self.ns }

/-- The carry of a full slot count into the frame number. -/
def carrySlot (self : TimestampGenerator) : TimestampGenerator :=
  let slot := satAdd16 self.slot 1
  if slot ≥ self.timing.slotsPerSfn then { self with slot := 0, sfn := self.sfn + 1 }
  else { self with slot }

/-- `tick_symbol` answers with the time before the tick.
From `crates/fpga-emulator/src/lib.rs:79–92`. -/
def tickSymbol (self : TimestampGenerator) : TimestampGenerator × RadioTimestamp :=
  let ns := satAdd self.ns self.timing.symbolDurationNs
  let symbol := satAdd8 self.symbol 1
  let next :=
    if symbol ≥ self.timing.symbolsPerSlot then { self with ns, symbol := 0 }.carrySlot
    else { self with ns, symbol }
  (next, self.current)

end TimestampGenerator

/-- Sequence counter of one stream. From `crates/fpga-emulator/src/lib.rs:104–106`. -/
structure SequenceGenerator where
  next : UInt64
  deriving DecidableEq, Repr

/-- `next_sequence`. From `crates/fpga-emulator/src/lib.rs:113–117`. -/
def SequenceGenerator.nextSequence (self : SequenceGenerator) : SequenceGenerator × Sequence :=
  (⟨self.next + 1⟩, ⟨self.next⟩)

/-- `MockIQSource::generate`, the samples of one symbol.
From `crates/fpga-emulator/src/lib.rs:169–176`. -/
def generate (tone : UInt64 → Nat → IQSample) (samplesPerSymbol : Nat)
    (timestamp : RadioTimestamp) : List IQSample :=
  (List.range samplesPerSymbol).map (tone timestamp.ns)

/-- `SimplePacketizer::packetize`: samples as interleaved little-endian words.
From `crates/fpga-emulator/src/lib.rs:231–244`. -/
def packetize (sequence : SequenceGenerator) (streamId : StreamId) (timestamp : RadioTimestamp)
    (samples : List IQSample) : SequenceGenerator × Packet :=
  let payload := samples.flatMap fun s ↦ leBytes 4 s.i.toNat ++ leBytes 4 s.q.toNat
  let (sequence, seq) := sequence.nextSequence
  (sequence, { streamId, sequence := seq, timestamp := ⟨timestamp.ns⟩, payload })

/-- Schedule, samples and packets of one stream. From `crates/fpga-emulator/src/lib.rs:249–254`. -/
structure FpgaEmulator where
  scheduler : TimestampGenerator
  samplesPerSymbol : Nat
  packetizer : SequenceGenerator
  streamId : StreamId
  deriving DecidableEq, Repr

namespace FpgaEmulator

/-- An emulator at radio time zero and sequence zero.
From `crates/fpga-emulator/src/lib.rs:257–265`. -/
def new (timing : RadioTimingConfig) (streamId : StreamId) : FpgaEmulator :=
  { scheduler := .new timing
    samplesPerSymbol := timing.samplesPerSymbol
    packetizer := ⟨0⟩
    streamId }

/-- `emit_symbol`. From `crates/fpga-emulator/src/lib.rs:268–272`. -/
def emitSymbol (tone : UInt64 → Nat → IQSample) (self : FpgaEmulator) : FpgaEmulator × Packet :=
  let (scheduler, ts) := self.scheduler.tickSymbol
  let samples := generate tone self.samplesPerSymbol ts
  let (packetizer, packet) := packetize self.packetizer self.streamId ts samples
  ({ self with scheduler, packetizer }, packet)

end FpgaEmulator

end AetherRadio
