import AetherRadio.Lib.History
import AetherRadio.Lib.Machine
import AetherRadio.Sim.GpuRing

/-!
# Runs of the GPU ring

Every call moves one slot one step along its life cycle or fails and leaves the ring as it is. What
a slot in use holds is read off the calls answered so far.
-/

namespace AetherRadio

open Verif

/-- The next state of the life cycle. -/
def BufferState.next : BufferState → BufferState
  | .free => .receiving
  | .receiving => .ready
  | .ready => .processing
  | .processing => .done
  | .done => .free

/-- The calls of the ring. -/
inductive RingOp where
  | beginReceive (arriveNs : UInt64)
  | completeReceive (idx : Nat) (data : List UInt8)
  | beginProcess (nowNs : UInt64)
  | completeProcess (idx : Nat) (doneNs : UInt64)
  | release (idx : Nat)

/-- The results of the calls. -/
inductive RingReply where
  | receiving (result : Except GpuError Nat)
  | received (result : Except GpuError Unit)
  | processing (result : Except GpuError (Nat × UInt64))
  | processed (result : Except GpuError UInt64)
  | released (result : Except GpuError Unit)

namespace RingReply

/-- The call returned `Ok`. -/
def isOk : RingReply → Bool
  | receiving result => result.isOk
  | received result => result.isOk
  | processing result => result.isOk
  | processed result => result.isOk
  | released result => result.isOk

end RingReply

namespace RingOp

/-- The state a call finds its slot in. -/
def source : RingOp → BufferState
  | beginReceive _ => .free
  | completeReceive _ _ => .receiving
  | beginProcess _ => .ready
  | completeProcess _ _ => .processing
  | release _ => .done

/-- What a call makes of its slot. -/
def updates (slot : RingSlot) : RingOp → RingSlot
  | beginReceive arriveNs => { state := .receiving, payload := [], arriveNs, doneNs := 0 }
  | completeReceive _ data => { slot with state := .ready, payload := data }
  | beginProcess _ => { slot with state := .processing }
  | completeProcess _ doneNs => { slot with state := .done, doneNs }
  | release _ => { slot with state := .free, payload := [] }

/-- The bytes a call brings. -/
def bytes : RingOp → List UInt8
  | completeReceive _ data => data
  | beginReceive _ | beginProcess _ | completeProcess _ _ | release _ => []

theorem updates_state (op : RingOp) (slot : RingSlot) :
    (op.updates slot).state = op.source.next := by
  cases op <;> rfl

end RingOp

namespace GpuRingBuffer

/-- One call. -/
def act (self : GpuRingBuffer) : RingOp → GpuRingBuffer × RingReply
  | .beginReceive arriveNs => (self.beginReceive arriveNs).map id .receiving
  | .completeReceive idx data => (self.completeReceive idx data).map id .received
  | .beginProcess nowNs => (self.beginProcess nowNs).map id .processing
  | .completeProcess idx doneNs => (self.completeProcess idx doneNs).map id .processed
  | .release idx => (self.release idx).map id .released

/-- What is found is in the state asked for. -/
theorem findState_spec {self : GpuRingBuffer} {state : BufferState} {idx : Nat}
    (h : self.findState state = some idx) :
    ∃ slot, self.slots[idx]? = some slot ∧ slot.state = state := by
  obtain ⟨hlt, hstate, -⟩ := List.findIdx?_eq_some_iff_getElem.mp h
  exact ⟨self.slots[idx], List.getElem?_eq_getElem hlt, of_decide_eq_true hstate⟩

/-- The transition to the next state succeeds. -/
theorem transition_next (slot : RingSlot) {state : BufferState} (h : slot.state = state) :
    transition slot state.next = .ok { slot with state := state.next } := by
  subst h
  obtain ⟨state, payload, arriveNs, doneNs⟩ := slot
  cases state <;> rfl

theorem findState_state {self : GpuRingBuffer} {state : BufferState} {idx : Nat} {slot : RingSlot}
    (h : self.findState state = some idx) (hslot : self.slots[idx]? = some slot) :
    slot.state = state := by
  obtain ⟨slot', hslot', hstate⟩ := findState_spec h
  rw [hslot] at hslot'
  cases hslot'
  exact hstate

/-- Of the slots in a state the first is found. -/
theorem findState_le {self : GpuRingBuffer} {state : BufferState} {idx j : Nat} {slot : RingSlot}
    (h : self.findState state = some idx) (hslot : self.slots[j]? = some slot)
    (hstate : slot.state = state) : idx ≤ j := by
  obtain ⟨_, _, hbefore⟩ := List.findIdx?_eq_some_iff_getElem.mp h
  by_contra hlt
  have hj := hbefore j (Nat.not_le.mp hlt)
  obtain ⟨hlen, rfl⟩ := List.getElem?_eq_some_iff.mp hslot
  simp [hstate] at hj

/-- A slot in a state is found. -/
theorem findState_isSome {self : GpuRingBuffer} {state : BufferState} {j : Nat} {slot : RingSlot}
    (hslot : self.slots[j]? = some slot) (hstate : slot.state = state) :
    ∃ idx, self.findState state = some idx := by
  apply Option.isSome_iff_exists.mp
  rw [findState, List.findIdx?_isSome, List.any_eq_true]
  exact ⟨slot, List.mem_of_getElem? hslot, decide_eq_true hstate⟩

/-- A slot is in a state. -/
def InState (self : GpuRingBuffer) (state : BufferState) (idx : Nat) : Prop :=
  (self.slots[idx]?).map (·.state) = some state

instance (self : GpuRingBuffer) (state : BufferState) (idx : Nat) :
    Decidable (self.InState state idx) :=
  inferInstanceAs (Decidable (_ = _))

section InState

variable {self : GpuRingBuffer} {state : BufferState} {idx j : Nat}

theorem inState_iff :
    self.InState state idx ↔ ∃ slot, self.slots[idx]? = some slot ∧ slot.state = state :=
  Option.map_eq_some_iff

theorem InState.lt_slotCount (h : self.InState state idx) : idx < self.slotCount := by
  obtain ⟨slot, hslot, -⟩ := inState_iff.mp h
  exact (List.getElem?_eq_some_iff.mp hslot).1

/-- Only the slot that is put back can change its state. -/
theorem inState_setSlot {slot : RingSlot} (found : self.slots[idx]? = some slot)
    (slot' : RingSlot) :
    (self.setSlot idx slot').InState state j ↔
      if j = idx then slot'.state = state else self.InState state j := by
  by_cases hj : j = idx
  · subst hj
    have hlt : j < self.slots.length := (List.getElem?_eq_some_iff.mp found).1
    rw [if_pos rfl, inState_iff, setSlot, List.getElem?_set_self hlt]
    simp
  · rw [if_neg hj, InState, setSlot, List.getElem?_set_ne (Ne.symm hj), InState]

theorem InState.unique {state' : BufferState} (h : self.InState state idx)
    (h' : self.InState state' idx) : state = state' :=
  Option.some.inj (h.symm.trans h')

/-- `find_state` finds the first slot in a state. -/
theorem findState_eq_some :
    self.findState state = some idx ↔
      self.InState state idx ∧ ∀ j, self.InState state j → idx ≤ j := by
  constructor
  · intro h
    refine ⟨inState_iff.mpr (findState_spec h), ?_⟩
    intro j hj
    obtain ⟨slot, hslot, hstate⟩ := inState_iff.mp hj
    exact findState_le h hslot hstate
  · rintro ⟨hidx, hfirst⟩
    obtain ⟨slot, hslot, hstate⟩ := inState_iff.mp hidx
    obtain ⟨k, hk⟩ := findState_isSome hslot hstate
    have hle : k ≤ idx := findState_le hk hslot hstate
    have hge : idx ≤ k := hfirst k (inState_iff.mpr (findState_spec hk))
    rw [hk, Nat.le_antisymm hle hge]

end InState

section Found

variable {self : GpuRingBuffer} {idx : Nat} {slot : RingSlot}

theorem beginReceive_found (hfind : self.findState .free = some idx)
    (hslot : self.slots[idx]? = some slot) (arriveNs : UInt64) :
    self.beginReceive arriveNs =
      (self.setSlot idx (RingOp.updates slot (.beginReceive arriveNs)), .ok idx) := by
  have hstate : slot.state = .free := findState_state hfind hslot
  have hnext : transition slot .receiving = _ := transition_next slot hstate
  simp only [beginReceive, hfind, hslot, hnext]
  rfl

theorem completeReceive_found (hslot : self.slots[idx]? = some slot)
    (hstate : slot.state = .receiving) {data : List UInt8} (hfits : data.length ≤ self.slotBytes) :
    self.completeReceive idx data =
      (self.setSlot idx (RingOp.updates slot (.completeReceive idx data)), .ok ()) := by
  simp only [completeReceive, hslot, hstate, ne_eq, not_true_eq_false, if_false, gt_iff_lt,
    Nat.not_lt.mpr hfits]
  rfl

/-- The length is checked once the slot is known to be receiving. -/
theorem completeReceive_tooLarge (hslot : self.slots[idx]? = some slot)
    (hstate : slot.state = .receiving) {data : List UInt8}
    (hfits : ¬ data.length ≤ self.slotBytes) :
    self.completeReceive idx data = (self, .error .payloadTooLarge) := by
  simp only [completeReceive, hslot, hstate, ne_eq, not_true_eq_false, if_false, gt_iff_lt,
    Nat.not_le.mp hfits, if_true]

theorem beginProcess_found (hfind : self.findState .ready = some idx)
    (hslot : self.slots[idx]? = some slot) (nowNs : UInt64) :
    self.beginProcess nowNs =
      (self.setSlot idx (RingOp.updates slot (.beginProcess nowNs)),
        .ok (idx, satAdd nowNs self.kernelDelayNs)) := by
  have hstate : slot.state = .ready := findState_state hfind hslot
  have hnext : transition slot .processing = _ := transition_next slot hstate
  simp only [beginProcess, hfind, hslot, hnext]
  rfl

theorem completeProcess_found (hslot : self.slots[idx]? = some slot)
    (hstate : slot.state = .processing) (doneNs : UInt64) :
    self.completeProcess idx doneNs =
      (self.setSlot idx (RingOp.updates slot (.completeProcess idx doneNs)),
        .ok (satSub doneNs slot.arriveNs)) := by
  simp only [completeProcess, hslot, hstate, ne_eq, not_true_eq_false, if_false]
  rfl

theorem release_found (hslot : self.slots[idx]? = some slot) (hstate : slot.state = .done) :
    self.release idx = (self.setSlot idx (RingOp.updates slot (.release idx)), .ok ()) := by
  simp only [release, hslot, hstate, ne_eq, not_true_eq_false, if_false]
  rfl

end Found

end GpuRingBuffer

/-- The payload a call completed on a slot. -/
def completedReceive : RingOp × RingReply → Nat → Option (List UInt8)
  | (.completeReceive idx data, .received (.ok ())), slot => if idx = slot then some data else none
  | _, _ => none

/-- The arrival a call began on a slot. -/
def begunReceive : RingOp × RingReply → Nat → Option UInt64
  | (.beginReceive arriveNs, .receiving (.ok idx)), slot =>
    if idx = slot then some arriveNs else none
  | _, _ => none

/-- The slot a call is about: the one it names, or the one it answers with. -/
def slotOf : RingOp × RingReply → Option Nat
  | (.beginReceive _, .receiving (.ok idx)) => some idx
  | (.beginProcess _, .processing (.ok (idx, _))) => some idx
  | (.completeReceive idx _, _) | (.completeProcess idx _, _) | (.release idx, _) => some idx
  | _ => none

/-- The ring as a machine. -/
def gpuRing : Machine GpuRingBuffer RingOp RingReply where
  step := GpuRingBuffer.act

namespace GpuRingBuffer

/-- What a call can do. -/
inductive RingStep (self : GpuRingBuffer) (op : RingOp) : Prop where
  | failed (isOk : (self.act op).2.isOk = false) (next : (self.act op).1 = self)
      (completed : completedReceive (op, (self.act op).2) = fun _ ↦ none)
      (begun : begunReceive (op, (self.act op).2) = fun _ ↦ none)
  | moved (idx : Nat) (slot : RingSlot) (isOk : (self.act op).2.isOk = true)
      (found : self.slots[idx]? = some slot) (source : slot.state = op.source)
      (fits : op.bytes.length ≤ self.slotBytes)
      (next : (self.act op).1 = self.setSlot idx (op.updates slot))
      (completed : completedReceive (op, (self.act op).2) = fun j ↦
        if op.source = .receiving then (if idx = j then some op.bytes else none) else none)
      (begun : begunReceive (op, (self.act op).2) = fun j ↦
        if op.source = .free then (if idx = j then some (op.updates slot).arriveNs else none)
        else none)
      (about : slotOf (op, (self.act op).2) = some idx)

private theorem beginReceive_step (self : GpuRingBuffer) (arriveNs : UInt64) :
    RingStep self (.beginReceive arriveNs) := by
  cases hfind : self.findState .free with
  | none =>
    have hact : self.act (.beginReceive arriveNs) = (self, .receiving (.error .ringFull)) := by
      simp only [act, beginReceive, hfind, Prod.map, id]
    apply RingStep.failed <;> rw [hact] <;> rfl
  | some idx =>
    obtain ⟨slot, hslot, hstate⟩ := findState_spec hfind
    have hact : self.act (.beginReceive arriveNs) =
        (self.setSlot idx (RingOp.updates slot (.beginReceive arriveNs)),
          .receiving (.ok idx)) := by
      rw [act, beginReceive_found hfind hslot]
      rfl
    refine .moved idx slot ?_ hslot hstate (Nat.zero_le _) ?_ ?_ ?_ ?_ <;> rw [hact] <;> rfl

private theorem completeReceive_step (self : GpuRingBuffer) (idx : Nat) (data : List UInt8) :
    RingStep self (.completeReceive idx data) := by
  cases hslot : self.slots[idx]? with
  | none =>
    have hact : self.act (.completeReceive idx data) =
        (self, .received (.error (.noSlot .receiving))) := by
      simp only [act, completeReceive, hslot, Prod.map, id]
    apply RingStep.failed <;> rw [hact] <;> rfl
  | some slot =>
    by_cases hstate : slot.state = .receiving
    · by_cases hfits : data.length ≤ self.slotBytes
      · have hact : self.act (.completeReceive idx data) =
            (self.setSlot idx (RingOp.updates slot (.completeReceive idx data)),
              .received (.ok ())) := by
          rw [act, completeReceive_found hslot hstate hfits]
          rfl
        refine .moved idx slot ?_ hslot hstate hfits ?_ ?_ ?_ ?_ <;> rw [hact] <;> rfl
      · have hact : self.act (.completeReceive idx data) =
            (self, .received (.error .payloadTooLarge)) := by
          rw [act, completeReceive_tooLarge hslot hstate hfits]
          rfl
        apply RingStep.failed <;> rw [hact] <;> rfl
    · have hact : self.act (.completeReceive idx data) =
          (self, .received (.error (.invalidTransition slot.state .ready))) := by
        simp only [act, completeReceive, hslot, ne_eq, hstate, not_false_eq_true, if_true,
          Prod.map, id]
      apply RingStep.failed <;> rw [hact] <;> rfl

private theorem beginProcess_step (self : GpuRingBuffer) (nowNs : UInt64) :
    RingStep self (.beginProcess nowNs) := by
  cases hfind : self.findState .ready with
  | none =>
    have hact : self.act (.beginProcess nowNs) =
        (self, .processing (.error (.noSlot .ready))) := by
      simp only [act, beginProcess, hfind, Prod.map, id]
    apply RingStep.failed <;> rw [hact] <;> rfl
  | some idx =>
    obtain ⟨slot, hslot, hstate⟩ := findState_spec hfind
    have hact : self.act (.beginProcess nowNs) =
        (self.setSlot idx (RingOp.updates slot (.beginProcess nowNs)),
          .processing (.ok (idx, satAdd nowNs self.kernelDelayNs))) := by
      rw [act, beginProcess_found hfind hslot]
      rfl
    refine .moved idx slot ?_ hslot hstate (Nat.zero_le _) ?_ ?_ ?_ ?_ <;> rw [hact] <;> rfl

private theorem completeProcess_step (self : GpuRingBuffer) (idx : Nat) (doneNs : UInt64) :
    RingStep self (.completeProcess idx doneNs) := by
  cases hslot : self.slots[idx]? with
  | none =>
    have hact : self.act (.completeProcess idx doneNs) =
        (self, .processed (.error (.noSlot .processing))) := by
      simp only [act, completeProcess, hslot, Prod.map, id]
    apply RingStep.failed <;> rw [hact] <;> rfl
  | some slot =>
    by_cases hstate : slot.state = .processing
    · have hact : self.act (.completeProcess idx doneNs) =
          (self.setSlot idx (RingOp.updates slot (.completeProcess idx doneNs)),
            .processed (.ok (satSub doneNs slot.arriveNs))) := by
        rw [act, completeProcess_found hslot hstate]
        rfl
      refine .moved idx slot ?_ hslot hstate (Nat.zero_le _) ?_ ?_ ?_ ?_ <;> rw [hact] <;> rfl
    · have hact : self.act (.completeProcess idx doneNs) =
          (self, .processed (.error (.invalidTransition slot.state .done))) := by
        simp only [act, completeProcess, hslot, ne_eq, hstate, not_false_eq_true, if_true,
          Prod.map, id]
      apply RingStep.failed <;> rw [hact] <;> rfl

private theorem release_step (self : GpuRingBuffer) (idx : Nat) : RingStep self (.release idx) := by
  cases hslot : self.slots[idx]? with
  | none =>
    have hact : self.act (.release idx) = (self, .released (.error (.noSlot .done))) := by
      simp only [act, release, hslot, Prod.map, id]
    apply RingStep.failed <;> rw [hact] <;> rfl
  | some slot =>
    by_cases hstate : slot.state = .done
    · have hact : self.act (.release idx) =
          (self.setSlot idx (RingOp.updates slot (.release idx)), .released (.ok ())) := by
        rw [act, release_found hslot hstate]
        rfl
      refine .moved idx slot ?_ hslot hstate (Nat.zero_le _) ?_ ?_ ?_ ?_ <;> rw [hact] <;> rfl
    · have hact : self.act (.release idx) =
          (self, .released (.error (.invalidTransition slot.state .free))) := by
        simp only [act, release, hslot, ne_eq, hstate, not_false_eq_true, if_true, Prod.map, id]
      apply RingStep.failed <;> rw [hact] <;> rfl

theorem act_step (self : GpuRingBuffer) (op : RingOp) : RingStep self op := by
  cases op with
  | beginReceive arriveNs => exact self.beginReceive_step arriveNs
  | completeReceive idx data => exact self.completeReceive_step idx data
  | beginProcess nowNs => exact self.beginProcess_step nowNs
  | completeProcess idx doneNs => exact self.completeProcess_step idx doneNs
  | release idx => exact self.release_step idx

end GpuRingBuffer

/-- What a slot holds, given its last payload and its last arrival. -/
structure SlotHolds (slotBytes : Nat) (payload : Option (List UInt8)) (arrival : Option UInt64)
    (slot : RingSlot) : Prop where
  empty : slot.state = .free → slot.payload = []
  arrived : slot.state ≠ .free → arrival = some slot.arriveNs
  filled : slot.state ≠ .free → slot.state ≠ .receiving →
    payload = some slot.payload ∧ slot.payload.length ≤ slotBytes

/-- The slot a call moves holds what the call brings, and otherwise what it held. -/
theorem SlotHolds.updates {slotBytes : Nat} {payload : Option (List UInt8)}
    {arrival : Option UInt64} {slot : RingSlot} (h : SlotHolds slotBytes payload arrival slot)
    {op : RingOp} (source : slot.state = op.source) (fits : op.bytes.length ≤ slotBytes) :
    SlotHolds slotBytes ((if op.source = .receiving then some op.bytes else none).or payload)
      ((if op.source = .free then some (op.updates slot).arriveNs else none).or arrival)
      (op.updates slot) := by
  cases op with
  | beginReceive arriveNs =>
    constructor
    · intro hfree
      cases hfree
    · intro _
      rfl
    · intro _ hreceiving
      exact absurd rfl hreceiving
  | completeReceive idx data =>
    constructor
    · intro hfree
      cases hfree
    · intro _
      exact h.arrived (by simp [source, RingOp.source])
    · intro _ _
      exact ⟨rfl, fits⟩
  | beginProcess nowNs =>
    constructor
    · intro hfree
      cases hfree
    · intro _
      exact h.arrived (by simp [source, RingOp.source])
    · intro _ _
      exact h.filled (by simp [source, RingOp.source]) (by simp [source, RingOp.source])
  | completeProcess idx doneNs =>
    constructor
    · intro hfree
      cases hfree
    · intro _
      exact h.arrived (by simp [source, RingOp.source])
    · intro _ _
      exact h.filled (by simp [source, RingOp.source]) (by simp [source, RingOp.source])
  | release idx =>
    constructor
    · intro _
      rfl
    · intro hfree
      exact absurd rfl hfree
    · intro hfree
      exact absurd rfl hfree

/-- What the slots hold after a run. -/
structure RingHolds (cfg : GpuRingConfig) (t : List (RingOp × RingReply)) (ring : GpuRingBuffer) :
    Prop where
  slotCount : ring.slotCount = cfg.slotCount
  slotBytes : ring.slotBytes = cfg.slotBytes
  holds : ∀ idx slot, ring.slots[idx]? = some slot →
    SlotHolds cfg.slotBytes (lastOf completedReceive t idx) (lastOf begunReceive t idx) slot

theorem RingHolds.new (cfg : GpuRingConfig) : RingHolds cfg [] (.new cfg) := by
  constructor
  · exact List.length_replicate
  · rfl
  · intro idx slot hslot
    have hempty : slot = .empty :=
      (List.mem_replicate.mp (List.mem_of_getElem? hslot)).2
    subst hempty
    constructor
    · intro _
      rfl
    · intro hfree
      exact absurd rfl hfree
    · intro hfree
      exact absurd rfl hfree

/-- Every call keeps it. -/
theorem RingHolds.act {cfg : GpuRingConfig} {t : List (RingOp × RingReply)} {ring : GpuRingBuffer}
    (h : RingHolds cfg t ring) (op : RingOp) :
    RingHolds cfg (t ++ [(op, (ring.act op).2)]) (ring.act op).1 := by
  cases ring.act_step op with
  | failed isOk next completed begun =>
    rw [next]
    refine ⟨h.slotCount, h.slotBytes, ?_⟩
    intro idx slot hslot
    rw [lastOf_skip (congrFun completed idx), lastOf_skip (congrFun begun idx)]
    exact h.holds idx slot hslot
  | moved idx slot isOk found source fits next completed begun about =>
    have hupdated := (h.holds idx slot found).updates source (h.slotBytes ▸ fits)
    rw [next]
    refine ⟨List.length_set.trans h.slotCount, h.slotBytes, ?_⟩
    intro j slot' hslot'
    rw [lastOf_concat, lastOf_concat, completed, begun]
    by_cases hj : idx = j
    · subst hj
      have hlt : idx < ring.slots.length := (List.getElem?_eq_some_iff.mp found).1
      rw [GpuRingBuffer.setSlot, List.getElem?_set_self hlt] at hslot'
      cases hslot'
      simpa only [if_true] using hupdated
    · rw [GpuRingBuffer.setSlot, List.getElem?_set_ne hj] at hslot'
      simpa only [hj, if_false, ite_self, Option.none_or] using h.holds j slot' hslot'

theorem ringHolds_run (cfg : GpuRingConfig) (ops : List RingOp) :
    RingHolds cfg (gpuRing.trace (.new cfg) ops) (gpuRing.run (.new cfg) ops) :=
  gpuRing.run_invariant (P := RingHolds cfg) (.new cfg) (fun _ _ op h _ ↦ h.act op)
    (gpuRing.permits_true _ _)

/-- For every configuration and every sequence of calls: a call fails and leaves the ring as it is,
or it succeeds and moves one slot, which it names or answers with, one step along the life cycle and
no other; the ring keeps its slots; a free slot is empty; and a slot that is ready, in processing or
done holds the bytes of the last receive completed on it, no longer than a slot, and the arrival
time of the last receive begun on it. -/
theorem ring_life_cycle (cfg : GpuRingConfig) (ops : List RingOp) :
    let ring := gpuRing.run (.new cfg) ops
    let t := gpuRing.trace (.new cfg) ops
    (∀ op,
      ((ring.act op).2.isOk = false ∧ (ring.act op).1 = ring) ∨
      ((ring.act op).2.isOk = true ∧ ∃ idx slot slot',
        slotOf (op, (ring.act op).2) = some idx ∧ ring.slots[idx]? = some slot ∧
        slot.state = op.source ∧ slot'.state = slot.state.next ∧
        (ring.act op).1 = { ring with slots := ring.slots.set idx slot' })) ∧
    ring.slotCount = cfg.slotCount ∧
    ∀ idx slot, ring.slots[idx]? = some slot →
      (slot.state = .free → slot.payload = []) ∧
      (slot.state = .ready ∨ slot.state = .processing ∨ slot.state = .done →
        lastOf completedReceive t idx = some slot.payload ∧
        slot.payload.length ≤ cfg.slotBytes ∧
        lastOf begunReceive t idx = some slot.arriveNs) := by
  intro ring t
  have hholds : RingHolds cfg t ring := ringHolds_run cfg ops
  refine ⟨?_, hholds.slotCount, ?_⟩
  · intro op
    cases ring.act_step op with
    | failed isOk next completed begun => exact .inl ⟨isOk, next⟩
    | moved idx slot isOk found source fits next completed begun about =>
      refine .inr ⟨isOk, idx, slot, op.updates slot, about, found, source, ?_, next⟩
      rw [RingOp.updates_state, source]
  · intro idx slot hslot
    have hslotHolds := hholds.holds idx slot hslot
    refine ⟨hslotHolds.empty, ?_⟩
    intro hused
    have hfree : slot.state ≠ .free := by
      intro hfree
      simp [hfree] at hused
    have hreceiving : slot.state ≠ .receiving := by
      intro hreceiving
      simp [hreceiving] at hused
    obtain ⟨hpayload, hlength⟩ := hslotHolds.filled hfree hreceiving
    exact ⟨hpayload, hlength, hslotHolds.arrived hfree⟩

end AetherRadio
