import AetherRadio.Protocol.Frame
import Mathlib.Logic.Function.Basic

/-!
# Shared-memory packet ring

`crates/shm-io/src/lib.rs`: the mapped header and slots, `init_ring`, `validate_header`, and
`try_push` and `try_pop` as one process runs them without interference. `usize` is 64 bits
wide; the process-local counters `pushed` and `popped` wrap as in a release build. A slice past
the end of a slot panics.
-/

namespace AetherRadio.Shm

open Verif

/-- The ring sizes `ShmPacketRing::open` accepts; the header stores both as `u32`, and a slot size
must fit there. From `crates/shm-io/src/lib.rs:63–68`. -/
structure Geometry where
  slotCount : Nat
  slotBytes : Nat
  slotCount_pos : 0 < slotCount
  slotCount_lt : slotCount < 2 ^ 64
  slotBytes_ge : 64 ≤ slotBytes
  slotBytes_lt : slotBytes < 2 ^ 32

/-- `MAGIC`, "SHM1" in little-endian order. From `crates/shm-io/src/lib.rs:15`. -/
def shmMagic : UInt32 := 0x314D4853

/-- `SLOT_STATE_EMPTY`. From `crates/shm-io/src/lib.rs:17`. -/
def slotStateEmpty : UInt32 := 0

/-- `SLOT_STATE_FULL`. From `crates/shm-io/src/lib.rs:18`. -/
def slotStateFull : UInt32 := 1

/-- Failures of the ring. From `crates/shm-io/src/lib.rs:37–50`. -/
inductive ShmIoError where
  | config (message : String)
  | io (message : String)
  | protocol (error : ProtocolError)
  | ringFull
  | badHeader
  | frameTooLarge
  deriving DecidableEq, Repr

/-- A call that comes back with a value, or panics. -/
inductive Outcome (α : Type) where
  | ret (value : α)
  | panic
  deriving DecidableEq, Repr

/-- What `try_pop` returns. -/
abbrev PopResult := Outcome (Except ShmIoError (Option Packet))

/-- One slot: two atomic words and the data bytes. -/
structure Slot (g : Geometry) where
  state : UInt32
  len : UInt32
  data : Fin g.slotBytes → UInt8

/-- The mapped file: header words, the two counters and the slots.
From `crates/shm-io/src/lib.rs:15–18,109–135`. -/
structure ShmMap (g : Geometry) where
  magic : UInt32
  version : UInt32
  slotCount : UInt32
  slotBytes : UInt32
  writePos : UInt64
  readPos : UInt64
  slots : Fin g.slotCount → Slot g

variable {g : Geometry}

/-- The bytes of a slot, `slot_data`. -/
def Slot.bytes (slot : Slot g) : List UInt8 := List.ofFn slot.data

/-- One byte store into the slot's data. -/
def Slot.setByte (slot : Slot g) (k : Nat) (b : UInt8) : Slot g :=
  if h : k < g.slotBytes then { slot with data := Function.update slot.data ⟨k, h⟩ b } else slot

/-- The store of the slot's length word. -/
def Slot.setLen (slot : Slot g) (len : UInt32) : Slot g := { slot with len }

/-- The store of the slot's state word. -/
def Slot.setState (slot : Slot g) (state : UInt32) : Slot g := { slot with state }

/-- Consecutive byte stores from position `k` on, `copy_from_slice`. -/
def Slot.copyFrom (slot : Slot g) (k : Nat) : List UInt8 → Slot g
  | [] => slot
  | b :: bytes => (slot.setByte k b).copyFrom (k + 1) bytes

/-- The slot index of a counter value. -/
def slotIdx (g : Geometry) (pos : UInt64) : Fin g.slotCount :=
  ⟨pos.toNat % g.slotCount, Nat.mod_lt _ g.slotCount_pos⟩

/-- Replace one slot. -/
def ShmMap.setSlot (map : ShmMap g) (idx : Fin g.slotCount) (slot : Slot g) : ShmMap g :=
  { map with slots := Function.update map.slots idx slot }

/-- `init_ring`: everything zero, then the header and empty slot states.
From `crates/shm-io/src/lib.rs:185–198`. -/
def initRing (g : Geometry) : ShmMap g :=
  { magic := shmMagic
    version := 1
    slotCount := UInt32.ofNat g.slotCount
    slotBytes := UInt32.ofNat g.slotBytes
    writePos := 0
    readPos := 0
    slots := fun _ ↦ { state := slotStateEmpty, len := 0, data := fun _ ↦ 0 } }

/-- `validate_header`: magic and version first, then the sizes.
From `crates/shm-io/src/lib.rs:200–212`. -/
def validateHeader (map : ShmMap g) (slotCount slotBytes : UInt32) : Except ShmIoError Unit :=
  if map.magic ≠ shmMagic ∨ map.version ≠ 1 then .error .badHeader
  else if map.slotCount ≠ slotCount ∨ map.slotBytes ≠ slotBytes then
    .error (.config "shm geometry mismatch vs config")
  else .ok ()

/-- A process's handle on the mapped ring. From `crates/shm-io/src/lib.rs:52–60`. -/
structure ShmPacketRing (g : Geometry) where
  map : ShmMap g
  pushed : UInt64
  popped : UInt64

namespace ShmPacketRing

/-- `try_push`: the size check, the counter check and the slot-state check, then bytes, length,
state and counter are stored in this order. From `crates/shm-io/src/lib.rs:137–159`. -/
def tryPush (self : ShmPacketRing g) (packet : Packet) :
    ShmPacketRing g × Except ShmIoError Unit :=
  let frame := encodeFrame packet
  if frame.length > g.slotBytes then (self, .error .frameTooLarge)
  else
    let w := self.map.writePos
    let r := self.map.readPos
    if w - r ≥ UInt64.ofNat g.slotCount then (self, .error .ringFull)
    else
      let idx := slotIdx g w
      let slot := self.map.slots idx
      if slot.state ≠ slotStateEmpty then (self, .error .ringFull)
      else
        let full := ((slot.copyFrom 0 frame).setLen (UInt32.ofNat frame.length)).setState
          slotStateFull
        ({ self with
            map := { self.map.setSlot idx full with writePos := w + 1 }
            pushed := self.pushed + 1 }, .ok ())

/-- `try_pop`: nothing when the counters agree or the slot is not full; otherwise the slot is
decoded before it is freed, and a decode error returns with the slot still full.
From `crates/shm-io/src/lib.rs:161–178`. -/
def tryPop (self : ShmPacketRing g) : ShmPacketRing g × PopResult :=
  let r := self.map.readPos
  let w := self.map.writePos
  if r = w then (self, .ret (.ok none))
  else
    let idx := slotIdx g r
    let slot := self.map.slots idx
    if slot.state ≠ slotStateFull then (self, .ret (.ok none))
    else
      let n := slot.len.toNat
      if n > g.slotBytes then (self, .panic)
      else
        match decodeFrame (slot.bytes.take n) with
        | .error e => (self, .ret (.error (.protocol e)))
        | .ok packet =>
          ({ self with
              map := { self.map.setSlot idx (slot.setState slotStateEmpty) with
                readPos := r + 1 }
              popped := self.popped + 1 }, .ret (.ok (some packet)))

end ShmPacketRing

/-- A packet whose frame a slot can hold. -/
def Fits (g : Geometry) (packet : Packet) : Prop := (encodeFrame packet).length ≤ g.slotBytes

instance (g : Geometry) (packet : Packet) : Decidable (Fits g packet) :=
  inferInstanceAs (Decidable (_ ≤ _))

@[simp] theorem Slot.setByte_state (slot : Slot g) (k : Nat) (b : UInt8) :
    (slot.setByte k b).state = slot.state := by
  unfold Slot.setByte
  split <;> rfl

/-- A byte store extends a written prefix by that byte. -/
theorem Slot.take_bytes_setByte (slot : Slot g) {k : Nat} (b : UInt8) (h : k < g.slotBytes) :
    (slot.setByte k b).bytes.take (k + 1) = slot.bytes.take k ++ [b] := by
  apply List.ext_getElem
  · simp only [bytes, List.length_take, List.length_ofFn, List.length_append,
      List.length_singleton]
    omega
  · intro i hi _
    simp only [bytes, List.length_take, List.length_ofFn] at hi
    simp only [bytes, setByte, dif_pos h, List.getElem_take, List.getElem_ofFn,
      List.getElem_append, List.length_take, List.length_ofFn, List.getElem_singleton]
    split
    · next hlt =>
      rw [Function.update_of_ne]
      intro he
      have := congrArg Fin.val he
      dsimp only at this
      omega
    · next hge =>
      have hik : i = k := by omega
      subst hik
      exact Function.update_self ..

end AetherRadio.Shm
