import AetherRadio.Lib.Word
import Mathlib.Data.List.Basic

/-!
# GPU memory ring

`crates/gpu-runtime/src/ring.rs`: every slot walks Free, Receiving, Ready, Processing, Done and
back. The configured kernel delay enters as the nanoseconds it is converted to.
-/

namespace AetherRadio

open Verif

/-- Life cycle of a ring slot. From `crates/gpu-runtime/src/lib.rs:15–21`. -/
inductive BufferState where
  | free
  | receiving
  | ready
  | processing
  | done
  deriving DecidableEq, Repr

/-- Failures of the GPU runtime. From `crates/gpu-runtime/src/lib.rs:70–83`. -/
inductive GpuError where
  | notFound (id : UInt64)
  | ringFull
  | invalidTransition (src dst : BufferState)
  | noSlot (state : BufferState)
  | config (message : String)
  | payloadTooLarge
  deriving DecidableEq, Repr

/-- The ring configuration as parsed; `kernelDelayNs` is `kernel_delay_ns()`.
From `crates/gpu-runtime/src/ring.rs:7–13`. -/
structure GpuRingConfig where
  slotCount : Nat
  slotBytes : Nat
  kernelDelayNs : UInt64

/-- One slot. From `crates/gpu-runtime/src/ring.rs:26–31`. -/
structure RingSlot where
  state : BufferState
  payload : List UInt8
  arriveNs : UInt64
  doneNs : UInt64
  deriving DecidableEq, Repr

/-- A slot that was never used. From `crates/gpu-runtime/src/ring.rs:34–41`. -/
def RingSlot.empty : RingSlot := { state := .free, payload := [], arriveNs := 0, doneNs := 0 }

/-- Fixed-size GPU ring. From `crates/gpu-runtime/src/ring.rs:46–50`. -/
structure GpuRingBuffer where
  slots : List RingSlot
  slotBytes : Nat
  kernelDelayNs : UInt64
  deriving DecidableEq, Repr

namespace GpuRingBuffer

/-- A ring of free slots. From `crates/gpu-runtime/src/ring.rs:53–62`. -/
def new (cfg : GpuRingConfig) : GpuRingBuffer :=
  { slots := List.replicate cfg.slotCount .empty
    slotBytes := cfg.slotBytes
    kernelDelayNs := cfg.kernelDelayNs }

/-- `slot_count`. From `crates/gpu-runtime/src/ring.rs:68–70`. -/
def slotCount (self : GpuRingBuffer) : Nat := self.slots.length

/-- `find_state`: the first slot in a state. From `crates/gpu-runtime/src/ring.rs:76–78`. -/
def findState (self : GpuRingBuffer) (state : BufferState) : Option Nat :=
  self.slots.findIdx? (·.state = state)

/-- `transition`: one step along the life cycle. From `crates/gpu-runtime/src/ring.rs:80–97`. -/
def transition (slot : RingSlot) (dst : BufferState) : Except GpuError RingSlot :=
  match slot.state, dst with
  | .free, .receiving | .receiving, .ready | .ready, .processing | .processing, .done
  | .done, .free => .ok { slot with state := dst }
  | src, dst => .error (.invalidTransition src dst)

/-- Put a slot back at its index. -/
def setSlot (self : GpuRingBuffer) (idx : Nat) (slot : RingSlot) : GpuRingBuffer :=
  { self with slots := self.slots.set idx slot }

/-- `begin_receive` takes the first free slot. From `crates/gpu-runtime/src/ring.rs:100–110`. -/
def beginReceive (self : GpuRingBuffer) (arriveNs : UInt64) : GpuRingBuffer × Except GpuError Nat :=
  match self.findState .free with
  | none => (self, .error .ringFull)
  | some idx =>
    match self.slots[idx]? with
    | none => (self, .error .ringFull)
    | some slot =>
      match transition slot .receiving with
      | .error e => (self, .error e)
      | .ok slot => (self.setSlot idx { slot with arriveNs, doneNs := 0, payload := [] }, .ok idx)

/-- `complete_receive` checks the state before the length.
From `crates/gpu-runtime/src/ring.rs:113–130`. -/
def completeReceive (self : GpuRingBuffer) (idx : Nat) (data : List UInt8) :
    GpuRingBuffer × Except GpuError Unit :=
  match self.slots[idx]? with
  | none => (self, .error (.noSlot .receiving))
  | some slot =>
    if slot.state ≠ .receiving then (self, .error (.invalidTransition slot.state .ready))
    else if data.length > self.slotBytes then (self, .error .payloadTooLarge)
    else
      match transition { slot with payload := data } .ready with
      | .error e => (self.setSlot idx { slot with payload := data }, .error e)
      | .ok slot => (self.setSlot idx slot, .ok ())

/-- `begin_process` takes the first ready slot and answers with its completion time.
From `crates/gpu-runtime/src/ring.rs:133–141`. -/
def beginProcess (self : GpuRingBuffer) (nowNs : UInt64) :
    GpuRingBuffer × Except GpuError (Nat × UInt64) :=
  match self.findState .ready with
  | none => (self, .error (.noSlot .ready))
  | some idx =>
    match self.slots[idx]? with
    | none => (self, .error (.noSlot .ready))
    | some slot =>
      match transition slot .processing with
      | .error e => (self, .error e)
      | .ok slot => (self.setSlot idx slot, .ok (idx, satAdd nowNs self.kernelDelayNs))

/-- `complete_process` answers with the time since the slot's arrival.
From `crates/gpu-runtime/src/ring.rs:144–159`. -/
def completeProcess (self : GpuRingBuffer) (idx : Nat) (doneNs : UInt64) :
    GpuRingBuffer × Except GpuError UInt64 :=
  match self.slots[idx]? with
  | none => (self, .error (.noSlot .processing))
  | some slot =>
    if slot.state ≠ .processing then (self, .error (.invalidTransition slot.state .done))
    else
      match transition { slot with doneNs } .done with
      | .error e => (self.setSlot idx { slot with doneNs }, .error e)
      | .ok slot => (self.setSlot idx slot, .ok (satSub doneNs slot.arriveNs))

/-- `release`. From `crates/gpu-runtime/src/ring.rs:162–175`. -/
def release (self : GpuRingBuffer) (idx : Nat) : GpuRingBuffer × Except GpuError Unit :=
  match self.slots[idx]? with
  | none => (self, .error (.noSlot .done))
  | some slot =>
    if slot.state ≠ .done then (self, .error (.invalidTransition slot.state .free))
    else
      match transition { slot with payload := [] } .free with
      | .error e => (self.setSlot idx { slot with payload := [] }, .error e)
      | .ok slot => (self.setSlot idx slot, .ok ())

/-- `process_packet`: the whole life cycle in one call. The slot that is completed and released is
the one `begin_process` answers with. From `crates/gpu-runtime/src/ring.rs:178–185`. -/
def processPacket (self : GpuRingBuffer) (data : List UInt8) (arriveNs : UInt64) :
    GpuRingBuffer × Except GpuError UInt64 :=
  match self.beginReceive arriveNs with
  | (ring, .error e) => (ring, .error e)
  | (ring, .ok idx) =>
    match ring.completeReceive idx data with
    | (ring, .error e) => (ring, .error e)
    | (ring, .ok ()) =>
      match ring.beginProcess arriveNs with
      | (ring, .error e) => (ring, .error e)
      | (ring, .ok (idx, doneAt)) =>
        match ring.completeProcess idx doneAt with
        | (ring, .error e) => (ring, .error e)
        | (ring, .ok latency) =>
          match ring.release idx with
          | (ring, .error e) => (ring, .error e)
          | (ring, .ok ()) => (ring, .ok latency)

/-- `count_state`. From `crates/gpu-runtime/src/ring.rs:187–189`. -/
def countState (self : GpuRingBuffer) (state : BufferState) : Nat :=
  self.slots.countP (·.state = state)

/-- `occupied`: slots that are not free. From `crates/gpu-runtime/src/ring.rs:192–197`. -/
def occupied (self : GpuRingBuffer) : Nat := self.slots.countP (·.state ≠ .free)

/-- Every slot is free. -/
def Idle (ring : GpuRingBuffer) : Prop := ∀ slot ∈ ring.slots, slot.state = .free

theorem idle_new (cfg : GpuRingConfig) : (new cfg).Idle := by
  intro slot hslot
  rw [List.eq_of_mem_replicate hslot]
  rfl

/-- An idle ring refuses a receive only for want of a slot. -/
theorem Idle.beginReceive_error {ring ring' : GpuRingBuffer} (h : ring.Idle) {arriveNs : UInt64}
    {e : GpuError} (hfail : ring.beginReceive arriveNs = (ring', .error e)) :
    ring' = ring ∧ e = .ringFull ∧ ring.slotCount = 0 := by
  obtain ⟨slots, slotBytes, kernelDelayNs⟩ := ring
  cases slots with
  | nil =>
    cases hfail
    exact ⟨rfl, rfl, rfl⟩
  | cons slot slots =>
    obtain ⟨state, payload, arrivedNs, doneNs⟩ := slot
    cases h _ (.head _)
    cases hfail

/-- An idle ring takes a payload through the life cycle of its first slot, with the kernel delay on
the clock, and is idle again. -/
theorem Idle.cycle {ring ring₁ ring₂ ring₃ ring₄ ring₅ : GpuRingBuffer} (h : ring.Idle)
    {idx idx' : Nat} {nowNs doneAt latency : UInt64} {data : List UInt8}
    (hbegin : ring.beginReceive nowNs = (ring₁, .ok idx))
    (hreceive : ring₁.completeReceive idx data = (ring₂, .ok ()))
    (hprocess : ring₂.beginProcess nowNs = (ring₃, .ok (idx', doneAt)))
    (hcomplete : ring₃.completeProcess idx' doneAt = (ring₄, .ok latency))
    (hrelease : ring₄.release idx' = (ring₅, .ok ())) :
    latency = satSub (satAdd nowNs ring.kernelDelayNs) nowNs ∧ 0 < ring.slotCount ∧ ring₅.Idle ∧
      ring₅.slotCount = ring.slotCount ∧ ring₅.kernelDelayNs = ring.kernelDelayNs := by
  obtain ⟨slots, slotBytes, kernelDelayNs⟩ := ring
  cases slots with
  | nil => cases hbegin
  | cons slot slots =>
    obtain ⟨state, payload, arrivedNs, wasDoneNs⟩ := slot
    cases h _ (.head _)
    cases hbegin
    change (if data.length > slotBytes then _ else _) = _ at hreceive
    by_cases hfits : data.length > slotBytes
    · rw [if_pos hfits] at hreceive
      cases hreceive
    · rw [if_neg hfits] at hreceive
      cases hreceive
      cases hprocess
      cases hcomplete
      cases hrelease
      refine ⟨rfl, Nat.zero_lt_succ _, ?_, rfl, rfl⟩
      intro slot hslot
      cases hslot with
      | head => rfl
      | tail _ hslot => exact h slot (.tail _ hslot)

/-- One slot of an idle ring is taken. -/
theorem Idle.occupied_beginReceive {ring ring₁ : GpuRingBuffer} (h : ring.Idle)
    {arriveNs : UInt64} {idx : Nat} (hbegin : ring.beginReceive arriveNs = (ring₁, .ok idx)) :
    ring₁.occupied = 1 := by
  obtain ⟨slots, slotBytes, kernelDelayNs⟩ := ring
  cases slots with
  | nil => cases hbegin
  | cons slot slots =>
    obtain ⟨state, payload, arrivedNs, doneNs⟩ := slot
    cases h _ (.head _)
    cases hbegin
    have hrest : slots.countP (·.state ≠ .free) = 0 := by
      apply List.countP_eq_zero.mpr
      intro slot hslot hbusy
      exact of_decide_eq_true hbusy (h slot (.tail _ hslot))
    show List.countP _ (_ :: slots) = 1
    rw [List.countP_cons_of_pos (by rfl), hrest]

/-- A payload that an idle ring has received goes through the rest of the life cycle in the slot
that received it. -/
theorem Idle.process {ring ring₁ ring₂ : GpuRingBuffer} (h : ring.Idle) {idx : Nat}
    {nowNs : UInt64} {data : List UInt8} (hbegin : ring.beginReceive nowNs = (ring₁, .ok idx))
    (hreceive : ring₁.completeReceive idx data = (ring₂, .ok ())) :
    ∃ ring₃ doneAt ring₄ latency ring₅, ring₂.beginProcess nowNs = (ring₃, .ok (idx, doneAt)) ∧
      ring₃.completeProcess idx doneAt = (ring₄, .ok latency) ∧
      ring₄.release idx = (ring₅, .ok ()) := by
  obtain ⟨slots, slotBytes, kernelDelayNs⟩ := ring
  cases slots with
  | nil => cases hbegin
  | cons slot slots =>
    obtain ⟨state, payload, arrivedNs, wasDoneNs⟩ := slot
    cases h _ (.head _)
    cases hbegin
    change (if data.length > slotBytes then _ else _) = _ at hreceive
    by_cases hfits : data.length > slotBytes
    · rw [if_pos hfits] at hreceive
      cases hreceive
    · rw [if_neg hfits] at hreceive
      cases hreceive
      exact ⟨_, _, _, _, _, rfl, rfl, rfl⟩

/-- A ring without slots is full. -/
theorem beginReceive_of_no_slots {ring : GpuRingBuffer} (h : ring.slotCount = 0)
    (arriveNs : UInt64) : ring.beginReceive arriveNs = (ring, .error .ringFull) := by
  obtain ⟨slots, slotBytes, kernelDelayNs⟩ := ring
  cases slots with
  | nil => rfl
  | cons slot slots => cases h

/-- An idle ring with slots receives into its first one whatever fits a slot. -/
theorem Idle.receives {ring : GpuRingBuffer} (h : ring.Idle) (hslots : 0 < ring.slotCount)
    (nowNs : UInt64) (data : List UInt8) :
    ∃ ring₁, ring.beginReceive nowNs = (ring₁, .ok 0) ∧
      if ring.slotBytes < data.length then
        ring₁.completeReceive 0 data = (ring₁, .error .payloadTooLarge)
      else ∃ ring₂, ring₁.completeReceive 0 data = (ring₂, .ok ()) ∧
        ring₂.slotBytes = ring.slotBytes := by
  obtain ⟨slots, slotBytes, kernelDelayNs⟩ := ring
  cases slots with
  | nil => cases hslots
  | cons slot slots =>
    obtain ⟨state, payload, arrivedNs, wasDoneNs⟩ := slot
    cases h _ (.head _)
    refine ⟨_, rfl, ?_⟩
    split
    · next hlarge => exact if_pos hlarge
    · next hfits => exact ⟨_, if_neg hfits, rfl⟩

/-- Nothing changes the size of a slot. -/
theorem slotBytes_beginProcess {ring ring' : GpuRingBuffer} {nowNs : UInt64}
    {r : Except GpuError (Nat × UInt64)} (h : ring.beginProcess nowNs = (ring', r)) :
    ring'.slotBytes = ring.slotBytes := by
  unfold beginProcess at h
  repeat' split at h
  all_goals cases h; rfl

theorem slotBytes_completeProcess {ring ring' : GpuRingBuffer} {idx : Nat} {doneNs : UInt64}
    {r : Except GpuError UInt64} (h : ring.completeProcess idx doneNs = (ring', r)) :
    ring'.slotBytes = ring.slotBytes := by
  unfold completeProcess at h
  repeat' split at h
  all_goals cases h; rfl

theorem slotBytes_release {ring ring' : GpuRingBuffer} {idx : Nat} {r : Except GpuError Unit}
    (h : ring.release idx = (ring', r)) : ring'.slotBytes = ring.slotBytes := by
  unfold release at h
  repeat' split at h
  all_goals cases h; rfl

end GpuRingBuffer

end AetherRadio
