import AetherRadio.Lib.Word
import AetherRadio.Memory.Sim

/-!
# Pooled memory

`crates/memory-manager/src/lib.rs`: `PooledMemory` limits the bytes of each address space and the
number of buffers, with a size table of its own beside the memory it wraps. The configured
bandwidths enter as the nanoseconds a copy of that many bytes takes on the wire.
-/

namespace AetherRadio

open Verif

/-- The pool configuration as parsed. From `crates/memory-manager/src/lib.rs:102–111`. -/
structure MemoryPoolConfig where
  hostPoolBytes : UInt64
  gpuPoolBytes : UInt64
  maxBuffers : UInt64
  h2dWireNs : UInt64 → UInt64
  d2hWireNs : UInt64 → UInt64
  fixedCopyLatencyNs : UInt64

/-- Simulated memory within the limits of its pools.
From `crates/memory-manager/src/lib.rs:120–129`. -/
structure PooledMemory where
  cfg : MemoryPoolConfig
  inner : SimMemory
  hostUsed : UInt64
  gpuUsed : UInt64
  bufferCount : UInt64
  sizes : List (Option (MemoryKind × UInt64))
  lastCopyNs : Option UInt64
  copyOps : UInt64

/-- The calls of the pool. -/
inductive PoolOp where
  | call (op : MemoryOp)
  | copy (src : BufferId) (offset len : UInt64) (dstKind : MemoryKind)

/-- The results of the calls. -/
inductive PoolReply where
  | call (reply : MemoryReply)
  | copied (outcome : Outcome (BufferId × UInt64))

/-- The call did not return. -/
def PoolReply.panicked : PoolReply → Bool
  | .call reply => reply.panicked
  | .copied .panicked => true
  | _ => false

namespace PooledMemory

/-- Empty pools. From `crates/memory-manager/src/lib.rs:132–143`. -/
def new (cfg : MemoryPoolConfig) : PooledMemory :=
  { cfg, inner := .new, hostUsed := 0, gpuUsed := 0, bufferCount := 0, sizes := [],
    lastCopyNs := none, copyOps := 0 }

/-- `copy_latency_ns`. From `crates/memory-manager/src/lib.rs:157–169`. -/
def copyLatencyNs (self : PooledMemory) (bytes : UInt64) (h2d : Bool) : UInt64 :=
  let wire := if h2d then self.cfg.h2dWireNs bytes else self.cfg.d2hWireNs bytes
  satAdd wire self.cfg.fixedCopyLatencyNs

/-- The pool of a kind has no room for that many bytes more. -/
def exhausted (self : PooledMemory) (size : UInt64) : MemoryKind → Bool
  | .host => satAdd self.hostUsed size > self.cfg.hostPoolBytes
  | .gpu => satAdd self.gpuUsed size > self.cfg.gpuPoolBytes

/-- `allocate`. The table of sizes is filled up to the new identifier.
From `crates/memory-manager/src/lib.rs:199–226`. -/
def allocate (self : PooledMemory) (size : UInt64) (kind : MemoryKind) :
    PooledMemory × Outcome BufferId :=
  if self.bufferCount ≥ self.cfg.maxBuffers then (self, .returned (.error .poolExhausted))
  else if self.exhausted size kind then (self, .returned (.error .poolExhausted))
  else
    match self.inner.allocate size kind with
    | (inner, .panicked) => ({ self with inner }, .panicked)
    | (inner, .returned (.error e)) => ({ self with inner }, .returned (.error e))
    | (inner, .returned (.ok id)) =>
      let filled := self.sizes ++ List.replicate (id.toNat + 1 - self.sizes.length) none
      let next := { self with
        inner
        sizes := filled.set id.toNat (some (kind, size))
        bufferCount := self.bufferCount + 1 }
      match kind with
      | .host => ({ next with hostUsed := self.hostUsed + size }, .returned (.ok id))
      | .gpu => ({ next with gpuUsed := self.gpuUsed + size }, .returned (.ok id))

/-- `write`. From `crates/memory-manager/src/lib.rs:228–230`. -/
def write (self : PooledMemory) (id : BufferId) (offset : UInt64) (data : List UInt8) :
    PooledMemory × Except MemoryError Unit :=
  let (inner, result) := self.inner.write id offset data
  ({ self with inner }, result)

/-- `read`. From `crates/memory-manager/src/lib.rs:232–234`. -/
def read (self : PooledMemory) (id : BufferId) (offset len : UInt64) :
    Except MemoryError (List UInt8) :=
  self.inner.read id offset len

/-- `free` looks the identifier up in the size table first.
From `crates/memory-manager/src/lib.rs:236–250`. -/
def free (self : PooledMemory) (id : BufferId) : PooledMemory × Except MemoryError Unit :=
  match self.sizes[id.toNat]?.join with
  | none => (self, .error (.notFound id))
  | some (kind, size) =>
    match self.inner.free id with
    | (inner, .error e) => ({ self with inner }, .error e)
    | (inner, .ok ()) =>
      let next := { self with
        inner
        sizes := self.sizes.set id.toNat none
        bufferCount := satSub self.bufferCount 1 }
      match kind with
      | .host => ({ next with hostUsed := satSub self.hostUsed size }, .ok ())
      | .gpu => ({ next with gpuUsed := satSub self.gpuUsed size }, .ok ())

/-- `copy` into a newly allocated buffer. From `crates/memory-manager/src/lib.rs:172–195`. -/
def copy (self : PooledMemory) (src : BufferId) (offset len : UInt64) (dstKind : MemoryKind) :
    PooledMemory × Outcome (BufferId × UInt64) :=
  match self.inner.kindOf src with
  | .error e => (self, .returned (.error e))
  | .ok srcKind =>
    match self.inner.read src offset len with
    | .error e => (self, .returned (.error e))
    | .ok data =>
      match self.allocate len dstKind with
      | (self, .panicked) => (self, .panicked)
      | (self, .returned (.error e)) => (self, .returned (.error e))
      | (self, .returned (.ok dst)) =>
        match self.write dst 0 data with
        | (self, .error e) => (self, .returned (.error e))
        | (self, .ok ()) =>
          let ns :=
            if srcKind = .host ∧ dstKind = .gpu then self.copyLatencyNs len true
            else if srcKind = .gpu ∧ dstKind = .host then self.copyLatencyNs len false
            else self.cfg.fixedCopyLatencyNs
          ({ self with lastCopyNs := some ns, copyOps := self.copyOps + 1 },
            .returned (.ok (dst, ns)))

/-- The pool as a backend. -/
def backend : MemoryBackend PooledMemory := { allocate, write, read, free }

/-- One call. -/
def act (self : PooledMemory) : PoolOp → PooledMemory × PoolReply
  | .call op => (backend.act self op).map id .call
  | .copy src offset len dstKind => (self.copy src offset len dstKind).map id .copied

end PooledMemory

/-- The pool as a process: a panic ends it. -/
def pooledMemory : Machine (Process PooledMemory) PoolOp (Option PoolReply) :=
  Machine.process ⟨PooledMemory.act⟩ PoolReply.panicked

end AetherRadio
