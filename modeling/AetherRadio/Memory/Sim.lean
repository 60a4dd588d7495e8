import AetherRadio.Lib.History
import AetherRadio.Lib.Machine
import Mathlib.Algebra.Group.Nat.Defs

/-!
# Simulated memory

`crates/memory-manager/src/lib.rs`: `SimMemory` keeps one byte vector for every identifier it handed
out, until that is freed. Sizes, offsets and lengths are 64-bit words.
-/

namespace AetherRadio

open Verif

/-- The identifier of a buffer. From `crates/memory-manager/src/lib.rs:6`. -/
abbrev BufferId := UInt64

/-- The address space of a buffer. From `crates/memory-manager/src/lib.rs:9–12`. -/
inductive MemoryKind where
  | host
  | gpu
  deriving DecidableEq, Repr

/-- Failures of the memory backends. From `crates/memory-manager/src/lib.rs:254–263`. -/
inductive MemoryError where
  | notFound (id : BufferId)
  | outOfBounds
  | poolExhausted
  | config (message : String)
  deriving DecidableEq, Repr

/-- A call that allocates returns, or ends the program because a vector cannot grow. -/
inductive Outcome (α : Type) where
  | returned (result : Except MemoryError α)
  | panicked
  deriving DecidableEq

/-- One buffer. From `crates/memory-manager/src/lib.rs:22–25`. -/
structure Buffer where
  kind : MemoryKind
  data : List UInt8
  deriving DecidableEq, Repr

/-- Host and GPU memory in one process. From `crates/memory-manager/src/lib.rs:29–32`. -/
structure SimMemory where
  nextId : BufferId
  buffers : List (Option Buffer)
  deriving DecidableEq, Repr

/-- No vector has more than `isize::MAX` bytes, so none has more elements. -/
def isizeMax : Nat := 2 ^ 63 - 1

/-- `checked_add` of a word and a length. -/
def checkedAdd (offset : UInt64) (len : Nat) : Option Nat :=
  if offset.toNat + len < 2 ^ 64 then some (offset.toNat + len) else none

/-- `copy_from_slice` at an offset. -/
def copyFromSlice (data : List UInt8) (offset : Nat) (bytes : List UInt8) : List UInt8 :=
  data.take offset ++ bytes ++ data.drop (offset + bytes.length)

/-- The calls of a memory backend. -/
inductive MemoryOp where
  | allocate (size : UInt64) (kind : MemoryKind)
  | write (id : BufferId) (offset : UInt64) (data : List UInt8)
  | read (id : BufferId) (offset len : UInt64)
  | free (id : BufferId)
  deriving DecidableEq

/-- The results of the calls. -/
inductive MemoryReply where
  | allocated (outcome : Outcome BufferId)
  | written (result : Except MemoryError Unit)
  | data (result : Except MemoryError (List UInt8))
  | freed (result : Except MemoryError Unit)
  deriving DecidableEq

/-- The call did not return. -/
def MemoryReply.panicked : MemoryReply → Bool
  | .allocated .panicked => true
  | _ => false

/-- The `MemoryBackend` trait. From `crates/memory-manager/src/lib.rs:14–19`. -/
structure MemoryBackend (σ : Type) where
  allocate : σ → UInt64 → MemoryKind → σ × Outcome BufferId
  write : σ → BufferId → UInt64 → List UInt8 → σ × Except MemoryError Unit
  read : σ → BufferId → UInt64 → UInt64 → Except MemoryError (List UInt8)
  free : σ → BufferId → σ × Except MemoryError Unit

/-- One call of a backend. -/
def MemoryBackend.act {σ : Type} (backend : MemoryBackend σ) (self : σ) :
    MemoryOp → σ × MemoryReply
  | .allocate size kind => (backend.allocate self size kind).map id .allocated
  | .write buffer offset data => (backend.write self buffer offset data).map id .written
  | .read buffer offset len => (self, .data (backend.read self buffer offset len))
  | .free buffer => (backend.free self buffer).map id .freed

namespace SimMemory

/-- A memory without buffers. From `crates/memory-manager/src/lib.rs:35–37`. -/
def new : SimMemory := { nextId := 0, buffers := [] }

/-- The live buffer of an identifier. -/
def buffer? (self : SimMemory) (id : BufferId) : Option Buffer := self.buffers[id.toNat]?.join

/-- `kind_of`. From `crates/memory-manager/src/lib.rs:39–45`. -/
def kindOf (self : SimMemory) (id : BufferId) : Except MemoryError MemoryKind :=
  match self.buffer? id with
  | some b => .ok b.kind
  | none => .error (.notFound id)

/-- `allocate` hands out the next identifier. It is counted before the vectors may panic.
From `crates/memory-manager/src/lib.rs:49–57`. -/
def allocate (self : SimMemory) (size : UInt64) (kind : MemoryKind) :
    SimMemory × Outcome BufferId :=
  let id := self.nextId
  let self := { self with nextId := self.nextId + 1 }
  if size.toNat > isizeMax ∨ self.buffers.length ≥ isizeMax then (self, .panicked)
  else
    let buffer : Buffer := { kind, data := List.replicate size.toNat 0 }
    ({ self with buffers := self.buffers ++ [some buffer] }, .returned (.ok id))

/-- `write`. From `crates/memory-manager/src/lib.rs:59–73`. -/
def write (self : SimMemory) (id : BufferId) (offset : UInt64) (data : List UInt8) :
    SimMemory × Except MemoryError Unit :=
  match self.buffer? id with
  | none => (self, .error (.notFound id))
  | some buf =>
    match checkedAdd offset data.length with
    | none => (self, .error .outOfBounds)
    | some stop =>
      if stop > buf.data.length then (self, .error .outOfBounds)
      else
        let buf := { buf with data := copyFromSlice buf.data offset.toNat data }
        ({ self with buffers := self.buffers.set id.toNat (some buf) }, .ok ())

/-- `read`. From `crates/memory-manager/src/lib.rs:75–86`. -/
def read (self : SimMemory) (id : BufferId) (offset len : UInt64) :
    Except MemoryError (List UInt8) :=
  match self.buffer? id with
  | none => .error (.notFound id)
  | some buf =>
    match checkedAdd offset len.toNat with
    | none => .error .outOfBounds
    | some stop =>
      if stop > buf.data.length then .error .outOfBounds
      else .ok ((buf.data.take stop).drop offset.toNat)

/-- `free` empties the slot and keeps it. From `crates/memory-manager/src/lib.rs:88–97`. -/
def free (self : SimMemory) (id : BufferId) : SimMemory × Except MemoryError Unit :=
  match self.buffers[id.toNat]? with
  | none => (self, .error (.notFound id))
  | some none => (self, .error (.notFound id))
  | some (some _) => ({ self with buffers := self.buffers.set id.toNat none }, .ok ())

/-- The memory as a backend. -/
def backend : MemoryBackend SimMemory := { allocate, write, read, free }

/-- One call. -/
def act : SimMemory → MemoryOp → SimMemory × MemoryReply := backend.act

/-- An allocation that finds no room. -/
theorem allocate_of_no_room {self : SimMemory} {size : UInt64}
    (h : size.toNat > isizeMax ∨ self.buffers.length ≥ isizeMax) (kind : MemoryKind) :
    self.allocate size kind = ({ self with nextId := self.nextId + 1 }, .panicked) :=
  if_pos h

/-- An allocation that finds room. -/
theorem allocate_of_room {self : SimMemory} {size : UInt64} (hsize : size.toNat ≤ isizeMax)
    (hroom : self.buffers.length < isizeMax) (kind : MemoryKind) :
    self.allocate size kind =
      ({ nextId := self.nextId + 1,
         buffers := self.buffers ++ [some { kind, data := List.replicate size.toNat 0 }] },
        .returned (.ok self.nextId)) :=
  if_neg (not_or.mpr ⟨Nat.not_lt.mpr hsize, Nat.not_le.mpr hroom⟩)

/-- A write to a dead identifier. -/
theorem write_of_dead {self : SimMemory} {id : BufferId} (h : self.buffer? id = none)
    (offset : UInt64) (data : List UInt8) :
    self.write id offset data = (self, .error (.notFound id)) := by
  rw [write, h]

/-- A write past the end. -/
theorem write_of_outside {self : SimMemory} {id : BufferId} {buf : Buffer}
    (h : self.buffer? id = some buf) {offset : UInt64} {data : List UInt8}
    (hout : buf.data.length < offset.toNat + data.length) :
    self.write id offset data = (self, .error .outOfBounds) := by
  rw [write, h]
  by_cases hadd : offset.toNat + data.length < 2 ^ 64
  · simp only [checkedAdd, if_pos hadd, gt_iff_lt, if_pos hout]
  · simp only [checkedAdd, if_neg hadd]

/-- A write within a live buffer. -/
theorem write_of_inside {self : SimMemory} {id : BufferId} {buf : Buffer}
    (h : self.buffer? id = some buf) (hsmall : buf.data.length ≤ isizeMax) {offset : UInt64}
    {data : List UInt8} (hin : offset.toNat + data.length ≤ buf.data.length) :
    self.write id offset data =
      ({ self with
          buffers := self.buffers.set id.toNat
            (some { buf with data := copyFromSlice buf.data offset.toNat data }) }, .ok ()) := by
  have hadd : offset.toNat + data.length < 2 ^ 64 := by
    rw [isizeMax] at hsmall
    omega
  rw [write, h]
  simp only [checkedAdd, if_pos hadd, gt_iff_lt, if_neg (Nat.not_lt.mpr hin)]

/-- A read of a dead identifier. -/
theorem read_of_dead {self : SimMemory} {id : BufferId} (h : self.buffer? id = none)
    (offset len : UInt64) : self.read id offset len = .error (.notFound id) := by
  rw [read, h]

/-- A read past the end. -/
theorem read_of_outside {self : SimMemory} {id : BufferId} {buf : Buffer}
    (h : self.buffer? id = some buf) {offset len : UInt64}
    (hout : buf.data.length < offset.toNat + len.toNat) :
    self.read id offset len = .error .outOfBounds := by
  rw [read, h]
  by_cases hadd : offset.toNat + len.toNat < 2 ^ 64
  · simp only [checkedAdd, if_pos hadd, gt_iff_lt, if_pos hout]
  · simp only [checkedAdd, if_neg hadd]

/-- A read within a live buffer. -/
theorem read_of_inside {self : SimMemory} {id : BufferId} {buf : Buffer}
    (h : self.buffer? id = some buf) (hsmall : buf.data.length ≤ isizeMax) {offset len : UInt64}
    (hin : offset.toNat + len.toNat ≤ buf.data.length) :
    self.read id offset len =
      .ok ((buf.data.take (offset.toNat + len.toNat)).drop offset.toNat) := by
  have hadd : offset.toNat + len.toNat < 2 ^ 64 := by
    rw [isizeMax] at hsmall
    omega
  rw [read, h]
  simp only [checkedAdd, if_pos hadd, gt_iff_lt, if_neg (Nat.not_lt.mpr hin)]

/-- Freeing a dead identifier. -/
theorem free_of_dead {self : SimMemory} {id : BufferId} (h : self.buffer? id = none) :
    self.free id = (self, .error (.notFound id)) := by
  rw [buffer?] at h
  cases hslot : self.buffers[id.toNat]? with
  | none => simp only [free, hslot]
  | some slot =>
    rw [hslot] at h
    cases h
    simp only [free, hslot]

/-- A live identifier names a slot of the table. -/
theorem slot_of_live {self : SimMemory} {id : BufferId} {buf : Buffer}
    (h : self.buffer? id = some buf) : self.buffers[id.toNat]? = some (some buf) := by
  rw [buffer?] at h
  exact Option.join_eq_some_iff.mp h

/-- Freeing a live one. -/
theorem free_of_live {self : SimMemory} {id : BufferId} {buf : Buffer}
    (h : self.buffer? id = some buf) :
    self.free id = ({ self with buffers := self.buffers.set id.toNat none }, .ok ()) := by
  simp only [free, slot_of_live h]

end SimMemory

/-- The memory as a process: a panic ends it. -/
def simMemory : Machine (Process SimMemory) MemoryOp (Option MemoryReply) :=
  Machine.process ⟨SimMemory.act⟩ MemoryReply.panicked

end AetherRadio
