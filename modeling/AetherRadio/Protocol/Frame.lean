import AetherRadio.Lib.LittleEndian
import AetherRadio.Types

/-!
# Transport header and frames

`crates/aether-protocol/src/lib.rs`: a 32-byte little-endian header followed by the payload.
A byte range `bytes[lo..hi]` of the source is `slice bytes lo hi`.
-/

namespace AetherRadio

open Verif

/-- Wire magic, `AETHER_MAGIC`. From `crates/aether-protocol/src/lib.rs:8`. -/
def aetherMagic : UInt32 := 0x41544852

/-- Protocol version, `AETHER_VERSION`. From `crates/aether-protocol/src/lib.rs:11`. -/
def aetherVersion : UInt16 := 1

/-- The byte range `bytes[lo..hi]`. -/
def slice (bytes : List UInt8) (lo hi : Nat) : List UInt8 := (bytes.drop lo).take (hi - lo)

/-- Data-plane header. From `crates/aether-protocol/src/lib.rs:15–22`. -/
structure AetherHeader where
  magic : UInt32
  version : UInt16
  streamId : UInt32
  timestamp : UInt64
  sequence : UInt64
  payloadLen : UInt32
  deriving DecidableEq, Repr

/-- Why bytes are not a frame. From `crates/aether-protocol/src/lib.rs:93–102`. -/
inductive ProtocolError where
  | truncated (got need : Nat)
  | badMagic (magic : UInt32)
  | unsupportedVersion (version : UInt16)
  | payloadLenMismatch (header : UInt32) (body : Nat)
  deriving DecidableEq, Repr

namespace AetherHeader

/-- Header of a packet with the current magic and version.
From `crates/aether-protocol/src/lib.rs:25–39`. -/
def new (streamId : StreamId) (timestamp : Timestamp) (sequence : Sequence)
    (payloadLen : UInt32) : AetherHeader :=
  { magic := aetherMagic
    version := aetherVersion
    streamId := streamId.val
    timestamp := timestamp.val
    sequence := sequence.val
    payloadLen }

/-- The 32 header bytes; bytes 6 and 7 are reserved and stay zero.
From `crates/aether-protocol/src/lib.rs:42–52`. -/
def encode (self : AetherHeader) : List UInt8 :=
  leBytes 4 self.magic.toNat ++ leBytes 2 self.version.toNat ++ [0, 0] ++
    leBytes 4 self.streamId.toNat ++ leBytes 8 self.timestamp.toNat ++
    leBytes 8 self.sequence.toNat ++ leBytes 4 self.payloadLen.toNat

/-- Magic is checked before the version. From `crates/aether-protocol/src/lib.rs:81–89`. -/
def validate (self : AetherHeader) : Except ProtocolError Unit :=
  if self.magic ≠ aetherMagic then .error (.badMagic self.magic)
  else if self.version ≠ aetherVersion then .error (.unsupportedVersion self.version)
  else .ok ()

/-- The six fields at their offsets; the reserved bytes are not read. -/
def fields (bytes : List UInt8) : AetherHeader :=
  { magic := UInt32.ofNat (leValue (slice bytes 0 4))
    version := UInt16.ofNat (leValue (slice bytes 4 6))
    streamId := UInt32.ofNat (leValue (slice bytes 8 12))
    timestamp := UInt64.ofNat (leValue (slice bytes 12 20))
    sequence := UInt64.ofNat (leValue (slice bytes 20 28))
    payloadLen := UInt32.ofNat (leValue (slice bytes 28 32)) }

/-- Read a header from at least 32 bytes and validate it.
From `crates/aether-protocol/src/lib.rs:55–78`. -/
def decode (bytes : List UInt8) : Except ProtocolError AetherHeader :=
  if bytes.length < 32 then .error (.truncated bytes.length 32)
  else
    match (fields bytes).validate with
    | .error e => .error e
    | .ok () => .ok (fields bytes)

end AetherHeader

/-- Header and payload of a packet; the payload length is cast to `u32`.
From `crates/aether-protocol/src/lib.rs:105–116`. -/
def encodeFrame (packet : Packet) : List UInt8 :=
  (AetherHeader.new packet.streamId packet.timestamp packet.sequence
    (UInt32.ofNat packet.payload.length)).encode ++ packet.payload

/-- A frame's packet; the body must have exactly the announced length.
From `crates/aether-protocol/src/lib.rs:119–134`. -/
def decodeFrame (bytes : List UInt8) : Except ProtocolError Packet :=
  match AetherHeader.decode bytes with
  | .error e => .error e
  | .ok header =>
    let body := bytes.drop 32
    if body.length ≠ header.payloadLen.toNat then
      .error (.payloadLenMismatch header.payloadLen body.length)
    else .ok ⟨⟨header.streamId⟩, ⟨header.sequence⟩, ⟨header.timestamp⟩, body⟩

/-- A frame is its header and its payload. -/
theorem length_encodeFrame (packet : Packet) :
    (encodeFrame packet).length = 32 + packet.payload.length := by
  simp only [encodeFrame, AetherHeader.encode, List.length_append, length_leBytes,
    List.length_cons, List.length_nil]

end AetherRadio
