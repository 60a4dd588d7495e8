import AetherRadio.Lib.Machine
import AetherRadio.Shm.Ring

/-!
# Interleaved execution of the ring

`try_push` and `try_pop` cut at their shared-memory accesses: every load, every byte load or
store and every store is one sequentially consistent step. A scheduler picks the next action of
either process. A process may also stop after any step; a new one then re-attaches without
touching the mapping and starts with fresh local counters.
-/

namespace AetherRadio.Shm

open Verif

variable {g : Geometry}

/-- Where the producer stands in `try_push`, with the values it has loaded. `copy` has `k` bytes
behind it and `todo` ahead; without bytes ahead its next store is the length.
From `crates/shm-io/src/lib.rs:137–159`. -/
inductive PushPc where
  | idle
  | loadWrite (packet : Packet)
  | loadRead (packet : Packet) (w : UInt64)
  | loadState (packet : Packet) (w : UInt64)
  | copy (packet : Packet) (w : UInt64) (k : Nat) (todo : List UInt8)
  | storeFull (packet : Packet) (w : UInt64)
  | storeWrite (packet : Packet) (w : UInt64)
  | ret (packet : Packet) (result : Except ShmIoError Unit)
  deriving DecidableEq

/-- Where the consumer stands in `try_pop`. `loadBytes` has read `got` of the `n` bytes it hands to
the decoder. From `crates/shm-io/src/lib.rs:161–178`. -/
inductive PopPc where
  | idle
  | loadRead
  | loadWrite (r : UInt64)
  | loadState (r : UInt64)
  | loadLen (r : UInt64)
  | loadBytes (r : UInt64) (n : Nat) (got : List UInt8)
  | storeEmpty (r : UInt64) (packet : Packet)
  | storeRead (r : UInt64) (packet : Packet)
  | ret (result : PopResult)
  deriving DecidableEq

/-- The mapping, both processes and their local counters.
From `crates/shm-io/src/lib.rs:52–60,214–216,243–246`. -/
structure World (g : Geometry) where
  map : ShmMap g
  push : PushPc
  pop : PopPc
  pushed : UInt64
  popped : UInt64

/-- What the scheduler may do next. An action that does not fit the process's state is a
stutter. -/
inductive Act where
  | callPush (packet : Packet)
  | stepPush
  | callPop
  | stepPop
  | crashPush
  | crashPop
  deriving DecidableEq

/-- What a step makes observable: the two counter stores, and the returns of the calls. -/
inductive Event where
  | stored (packet : Packet)
  | pushReturned (packet : Packet) (result : Except ShmIoError Unit)
  | freed (packet : Packet)
  | popReturned (result : PopResult)

/-- One store into the slot of a counter value. -/
def World.storeSlot (s : World g) (pos : UInt64) (f : Slot g → Slot g) : World g :=
  { s with map := s.map.setSlot (slotIdx g pos) (f (s.map.slots (slotIdx g pos))) }

/-- Entering `try_push`: the size check precedes every shared access.
From `crates/shm-io/src/lib.rs:137–141`. -/
def World.callPush (s : World g) (packet : Packet) : World g :=
  match s.push with
  | .idle =>
    if (encodeFrame packet).length > g.slotBytes then
      { s with push := .ret packet (.error .frameTooLarge) }
    else { s with push := .loadWrite packet }
  | _ => s

/-- The next step of the producer's call. From `crates/shm-io/src/lib.rs:137–159`. -/
def World.stepPush (s : World g) : World g × Option Event :=
  match s.push with
  | .idle => (s, none)
  | .loadWrite packet => ({ s with push := .loadRead packet s.map.writePos }, none)
  | .loadRead packet w =>
    if w - s.map.readPos ≥ UInt64.ofNat g.slotCount then
      ({ s with push := .ret packet (.error .ringFull) }, none)
    else ({ s with push := .loadState packet w }, none)
  | .loadState packet w =>
    if (s.map.slots (slotIdx g w)).state ≠ slotStateEmpty then
      ({ s with push := .ret packet (.error .ringFull) }, none)
    else ({ s with push := .copy packet w 0 (encodeFrame packet) }, none)
  | .copy packet w k (b :: todo) =>
    ({ s.storeSlot w (Slot.setByte · k b) with push := .copy packet w (k + 1) todo }, none)
  | .copy packet w _ [] =>
    ({ s.storeSlot w (Slot.setLen · (UInt32.ofNat (encodeFrame packet).length)) with
        push := .storeFull packet w }, none)
  | .storeFull packet w =>
    ({ s.storeSlot w (Slot.setState · slotStateFull) with push := .storeWrite packet w }, none)
  | .storeWrite packet w =>
    ({ s with map := { s.map with writePos := w + 1 }, push := .ret packet (.ok ()) },
      some (.stored packet))
  | .ret packet (.ok ()) =>
    ({ s with push := .idle, pushed := s.pushed + 1 }, some (.pushReturned packet (.ok ())))
  | .ret packet (.error e) => ({ s with push := .idle }, some (.pushReturned packet (.error e)))

/-- Entering `try_pop`. From `crates/shm-io/src/lib.rs:161`. -/
def World.callPop (s : World g) : World g :=
  match s.pop with
  | .idle => { s with pop := .loadRead }
  | _ => s

/-- The next step of the consumer's call. Decoding is local: it follows the last byte load.
From `crates/shm-io/src/lib.rs:161–178`. -/
def World.stepPop (s : World g) : World g × Option Event :=
  match s.pop with
  | .idle => (s, none)
  | .loadRead => ({ s with pop := .loadWrite s.map.readPos }, none)
  | .loadWrite r =>
    if r = s.map.writePos then ({ s with pop := .ret (.ret (.ok none)) }, none)
    else ({ s with pop := .loadState r }, none)
  | .loadState r =>
    if (s.map.slots (slotIdx g r)).state ≠ slotStateFull then
      ({ s with pop := .ret (.ret (.ok none)) }, none)
    else ({ s with pop := .loadLen r }, none)
  | .loadLen r =>
    let n := (s.map.slots (slotIdx g r)).len.toNat
    if n > g.slotBytes then ({ s with pop := .ret .panic }, none)
    else ({ s with pop := .loadBytes r n [] }, none)
  | .loadBytes r n got =>
    if got.length < n then
      let byte := ((s.map.slots (slotIdx g r)).bytes.drop got.length).take 1
      ({ s with pop := .loadBytes r n (got ++ byte) }, none)
    else
      match decodeFrame got with
      | .error e => ({ s with pop := .ret (.ret (.error (.protocol e))) }, none)
      | .ok packet => ({ s with pop := .storeEmpty r packet }, none)
  | .storeEmpty r packet =>
    ({ s.storeSlot r (Slot.setState · slotStateEmpty) with pop := .storeRead r packet }, none)
  | .storeRead r packet =>
    ({ s with map := { s.map with readPos := r + 1 }, pop := .ret (.ret (.ok (some packet))) },
      some (.freed packet))
  | .ret (.ret (.ok (some packet))) =>
    ({ s with pop := .idle, popped := s.popped + 1 },
      some (.popReturned (.ret (.ok (some packet)))))
  | .ret result => ({ s with pop := .idle }, some (.popReturned result))

/-- One action of the scheduler. -/
def World.act (s : World g) : Act → World g × Option Event
  | .callPush packet => (s.callPush packet, none)
  | .stepPush => s.stepPush
  | .callPop => (s.callPop, none)
  | .stepPop => s.stepPop
  | .crashPush => ({ s with push := .idle, pushed := 0 }, none)
  | .crashPop => ({ s with pop := .idle, popped := 0 }, none)

/-- The ring machine. -/
def machine (g : Geometry) : Machine (World g) Act (Option Event) where
  step := World.act

/-- Both processes attached to a freshly initialised ring. -/
def World.init (g : Geometry) : World g :=
  { map := initRing g, push := .idle, pop := .idle, pushed := 0, popped := 0 }

/-- Neither process is inside a call. -/
def World.Quiet (s : World g) : Prop := s.push = .idle ∧ s.pop = .idle

instance (s : World g) : Decidable s.Quiet := inferInstanceAs (Decidable (_ ∧ _))

/-- The producer's handle when it is the only one running. -/
def World.producer (s : World g) : ShmPacketRing g := ⟨s.map, s.pushed, 0⟩

/-- The consumer's handle when it is the only one running. -/
def World.consumer (s : World g) : ShmPacketRing g := ⟨s.map, 0, s.popped⟩

/-- The events of a trace. -/
def events (t : List (Act × Option Event)) : List Event := t.filterMap Prod.snd

/-- Packets whose last store has been made, oldest first. -/
def stored (es : List Event) : List Packet :=
  es.filterMap fun | .stored packet => some packet | _ => none

/-- Packets whose slot has been given back, oldest first. -/
def freed (es : List Event) : List Packet :=
  es.filterMap fun | .freed packet => some packet | _ => none

/-- Packets for which `try_push` returned `Ok`, oldest first. -/
def accepted (es : List Event) : List Packet :=
  es.filterMap fun | .pushReturned packet (.ok ()) => some packet | _ => none

/-- Packets `try_pop` returned, oldest first. -/
def returned (es : List Event) : List Packet :=
  es.filterMap fun | .popReturned (.ret (.ok (some packet))) => some packet | _ => none

/-- The packet of a `try_push` past its last store. -/
def World.pastLastStore (s : World g) : List Packet :=
  match s.push with
  | .ret packet (.ok ()) => [packet]
  | _ => []

/-- The packet of a `try_pop` past its last store. -/
def World.aboutToReturn (s : World g) : List Packet :=
  match s.pop with
  | .ret (.ret (.ok (some packet))) => [packet]
  | _ => []

/-- A schedule in which no process stops midway. -/
def CrashFree (sched : List Act) : Prop := ∀ a ∈ sched, a ≠ .crashPush ∧ a ≠ .crashPop

instance (sched : List Act) : Decidable (CrashFree sched) :=
  inferInstanceAs (Decidable (∀ a ∈ sched, _))

end AetherRadio.Shm
