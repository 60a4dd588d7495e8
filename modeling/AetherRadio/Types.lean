import Mathlib.Data.Nat.Notation

/-!
# Identity, timing and packet types

`crates/aether-types/src/lib.rs`. Machine integers keep their width; a `Vec<u8>` is a list of
bytes.
-/

namespace AetherRadio

/-- Opaque stream identifier. From `crates/aether-types/src/lib.rs:7`. -/
structure StreamId where
  val : UInt32
  deriving DecidableEq, Repr

/-- Packet sequence number within a stream. From `crates/aether-types/src/lib.rs:11`. -/
structure Sequence where
  val : UInt64
  deriving DecidableEq, Repr

/-- Absolute nanosecond timestamp. From `crates/aether-types/src/lib.rs:15`. -/
structure Timestamp where
  val : UInt64
  deriving DecidableEq, Repr

/-- Radio-domain timestamp combining frame timing and nanoseconds.
From `crates/aether-types/src/lib.rs:39–44`. -/
structure RadioTimestamp where
  sfn : UInt32
  slot : UInt16
  symbol : UInt8
  ns : UInt64
  deriving DecidableEq, Repr

/-- Packet owned by the data plane. From `crates/aether-types/src/lib.rs:72–77`. -/
structure Packet where
  streamId : StreamId
  sequence : Sequence
  timestamp : Timestamp
  payload : List UInt8
  deriving DecidableEq, Repr

end AetherRadio
