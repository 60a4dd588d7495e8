import AetherRadio.Sim.RingLife

/-!
# A packet through the ring in one call

`process_packet` chains the five calls of the life cycle. The third looks for a ready slot anew, and
a call that fails halfway leaves what the calls before it did.
-/

namespace AetherRadio

open Verif

namespace GpuRingBuffer

private theorem setSlot_setSlot (self : GpuRingBuffer) (idx : Nat) (slot slot' : RingSlot) :
    (self.setSlot idx slot).setSlot idx slot' = self.setSlot idx slot' := by
  simp only [setSlot, List.set_set]

private theorem getElem?_setSlot {self : GpuRingBuffer} {idx : Nat} {slot : RingSlot}
    (found : self.slots[idx]? = some slot) (slot' : RingSlot) :
    (self.setSlot idx slot').slots[idx]? = some slot' :=
  List.getElem?_set_self (List.getElem?_eq_some_iff.mp found).1

/-- The slot a packet is written to. -/
def filledSlot (data : List UInt8) (arriveNs : UInt64) : RingSlot :=
  { state := .ready, payload := data, arriveNs, doneNs := 0 }

/-- What `process_packet` can do. -/
inductive PacketStep (self : GpuRingBuffer) (data : List UInt8) (arriveNs : UInt64) : Prop where
  | full (none : self.findState .free = none)
      (result : self.processPacket data arriveNs = (self, .error .ringFull))
  | tooLarge (idx : Nat) (slot : RingSlot) (first : self.findState .free = some idx)
      (found : self.slots[idx]? = some slot) (large : ¬ data.length ≤ self.slotBytes)
      (result : self.processPacket data arriveNs =
        (self.setSlot idx { state := .receiving, payload := [], arriveNs, doneNs := 0 },
          .error .payloadTooLarge))
  | processed (idx k : Nat) (slot slot' : RingSlot) (first : self.findState .free = some idx)
      (found : self.slots[idx]? = some slot) (fits : data.length ≤ self.slotBytes)
      (next : (self.setSlot idx (filledSlot data arriveNs)).findState .ready = some k)
      (found' : (self.setSlot idx (filledSlot data arriveNs)).slots[k]? = some slot')
      (result : self.processPacket data arriveNs =
        ((self.setSlot idx (filledSlot data arriveNs)).setSlot k
          { state := .free, payload := [], arriveNs := slot'.arriveNs
            doneNs := satAdd arriveNs self.kernelDelayNs },
          .ok (satSub (satAdd arriveNs self.kernelDelayNs) slot'.arriveNs)))

private theorem processPacket_step (self : GpuRingBuffer) (data : List UInt8) (arriveNs : UInt64) :
    PacketStep self data arriveNs := by
  cases hfirst : self.findState .free with
  | none =>
    apply PacketStep.full hfirst
    simp only [processPacket, beginReceive, hfirst]
  | some idx =>
    obtain ⟨slot, found, -⟩ := findState_spec hfirst
    have hbegin := beginReceive_found hfirst found arriveNs
    have hreceiving := getElem?_setSlot found (RingOp.updates slot (.beginReceive arriveNs))
    by_cases hfits : data.length ≤ self.slotBytes
    · have hcomplete :
          (self.setSlot idx (RingOp.updates slot (.beginReceive arriveNs))).completeReceive idx
            data = (self.setSlot idx (filledSlot data arriveNs), .ok ()) := by
        rw [completeReceive_found hreceiving rfl hfits, setSlot_setSlot]
        rfl
      obtain ⟨k, hnext⟩ := findState_isSome (getElem?_setSlot found (filledSlot data arriveNs)) rfl
      obtain ⟨slot', found', -⟩ := findState_spec hnext
      have hprocess := beginProcess_found hnext found' arriveNs
      have hdone := completeProcess_found
        (getElem?_setSlot found' (RingOp.updates slot' (.beginProcess arriveNs))) rfl
        (satAdd arriveNs (self.setSlot idx (filledSlot data arriveNs)).kernelDelayNs)
      rw [setSlot_setSlot] at hdone
      have hrelease := release_found (getElem?_setSlot found' (RingOp.updates
        (RingOp.updates slot' (.beginProcess arriveNs)) (.completeProcess k
          (satAdd arriveNs (self.setSlot idx (filledSlot data arriveNs)).kernelDelayNs)))) rfl
      rw [setSlot_setSlot] at hrelease
      apply PacketStep.processed idx k slot slot' hfirst found hfits hnext found'
      simp only [processPacket, hbegin, hcomplete, hprocess, hdone, hrelease]
      rfl
    · apply PacketStep.tooLarge idx slot hfirst found hfits
      unfold processPacket
      rw [hbegin]
      dsimp only
      rw [completeReceive_tooLarge hreceiving rfl hfits]
      rfl

/-- State and payload of a slot. -/
def slotView (self : GpuRingBuffer) (idx : Nat) : Option (BufferState × List UInt8) :=
  (self.slots[idx]?).map fun slot ↦ (slot.state, slot.payload)

private theorem slotView_setSlot {self : GpuRingBuffer} {idx : Nat} {slot : RingSlot}
    (found : self.slots[idx]? = some slot) (slot' : RingSlot) (j : Nat) :
    (self.setSlot idx slot').slotView j =
      if j = idx then some (slot'.state, slot'.payload) else self.slotView j := by
  by_cases hj : j = idx
  · subst hj
    rw [if_pos rfl, slotView, getElem?_setSlot found]
    rfl
  · rw [if_neg hj, slotView, setSlot, List.getElem?_set_ne (Ne.symm hj), slotView]

/-- Of the slots that were not just filled, none is ready before the first ready one. -/
private theorem next_le {self : GpuRingBuffer} {idx k j : Nat} {slot slot' : RingSlot}
    (found : self.slots[idx]? = some slot)
    (next : (self.setSlot idx slot').findState .ready = some k) (hready : self.InState .ready j)
    (hne : j ≠ idx) : k ≤ j := by
  apply (findState_eq_some.mp next).2
  rw [inState_setSlot found, if_neg hne]
  exact hready

/-- A slot other than the one just filled is processed when it is ready and comes first. -/
theorem overtaken {self : GpuRingBuffer} {idx k : Nat} {slot slot' : RingSlot}
    (found : self.slots[idx]? = some slot)
    (next : (self.setSlot idx slot').findState .ready = some k) (hne : k ≠ idx) :
    self.InState .ready k := by
  have hk := (findState_eq_some.mp next).1
  rwa [inState_setSlot found, if_neg hne] at hk

/-- With a free slot and a payload that fits, the packet goes through and the other slots stay as
they are exactly when no slot is ready before the first free one. -/
theorem processPacket_frames_iff {self : GpuRingBuffer}
    (hempty : ∀ (idx : Nat) (slot : RingSlot), self.slots[idx]? = some slot →
      slot.state = .free → slot.payload = [])
    (hfree : ∃ j, self.InState .free j) {data : List UInt8} (hdata : data.length ≤ self.slotBytes)
    (arriveNs : UInt64) :
    ((self.processPacket data arriveNs).2 =
        .ok (satSub (satAdd arriveNs self.kernelDelayNs) arriveNs) ∧
      ∀ idx, (self.processPacket data arriveNs).1.slotView idx = self.slotView idx) ↔
    ∀ i, self.InState .ready i → ∃ j, j < i ∧ self.InState .free j := by
  cases self.processPacket_step data arriveNs with
  | full none result =>
    obtain ⟨j, hj⟩ := hfree
    obtain ⟨slot, hslot, hstate⟩ := inState_iff.mp hj
    obtain ⟨idx, hidx⟩ := findState_isSome hslot hstate
    cases none.symm.trans hidx
  | tooLarge idx slot first found large result => exact absurd hdata large
  | processed idx k slot slot' first found fits next found' result =>
    obtain ⟨hidx, hfirst⟩ := findState_eq_some.mp first
    have hslot : slot.state = .free := findState_state first found
    have hfound' := getElem?_setSlot found (filledSlot data arriveNs)
    rw [result]
    constructor
    · rintro ⟨-, hsame⟩ i hi
      refine ⟨idx, ?_, hidx⟩
      by_contra hge
      have hne : i ≠ idx := by
        rintro rfl
        cases hidx.unique hi
      have hk : k ≠ idx := by
        have hle := next_le found next hi hne
        omega
      -- the slot processed instead was ready before the call and is free after it
      have hready := overtaken found next hk
      obtain ⟨slotK, hslotK, hstateK⟩ := inState_iff.mp hready
      have hview := hsame k
      rw [slotView_setSlot found', if_pos rfl, slotView, hslotK] at hview
      have hstate : BufferState.free = slotK.state := congrArg Prod.fst (Option.some.inj hview)
      cases hstate.trans hstateK
    · intro hbefore
      have hk : k = idx := by
        by_contra hne
        obtain ⟨j, hlt, hj⟩ := hbefore k (overtaken found next hne)
        have hle := hfirst j hj
        have hle' : k ≤ idx := (findState_eq_some.mp next).2 idx (by
          rw [inState_setSlot found, if_pos rfl]
          rfl)
        omega
      subst hk
      cases hfound'.symm.trans found'
      refine ⟨rfl, ?_⟩
      intro j
      rw [setSlot_setSlot, slotView_setSlot found]
      by_cases hj : j = k
      · subst hj
        rw [if_pos rfl, slotView, found]
        change some (BufferState.free, []) = some (slot.state, slot.payload)
        rw [hslot, hempty j slot found hslot]
      · rw [if_neg hj]

/-- Every slot is in the state it was in. -/
def SameStates (ring ring' : GpuRingBuffer) : Prop :=
  ∀ idx : Nat, (ring'.slots[idx]?).map (·.state) = (ring.slots[idx]?).map (·.state)

/-- A refused packet leaves the states as they are exactly when no slot is free or the payload
fits. -/
theorem processPacket_error_iff (self : GpuRingBuffer) (data : List UInt8) (arriveNs : UInt64) :
    (∀ e, (self.processPacket data arriveNs).2 = .error e →
      SameStates self (self.processPacket data arriveNs).1) ↔
    (∀ j, ¬ self.InState .free j) ∨ data.length ≤ self.slotBytes := by
  cases self.processPacket_step data arriveNs with
  | full none result =>
    rw [result]
    refine ⟨fun _ ↦ .inl ?_, fun _ _ _ _ ↦ rfl⟩
    intro j hj
    obtain ⟨slot, hslot, hstate⟩ := inState_iff.mp hj
    obtain ⟨idx, hidx⟩ := findState_isSome hslot hstate
    cases none.symm.trans hidx
  | tooLarge idx slot first found large result =>
    have hidx := (findState_eq_some.mp first).1
    rw [result]
    constructor
    · intro h
      have hstate := h _ rfl idx
      rw [getElem?_setSlot found, hidx] at hstate
      cases hstate
    · rintro (hnone | hfits)
      · exact absurd hidx (hnone idx)
      · exact absurd hfits large
  | processed idx k slot slot' first found fits next found' result =>
    rw [result]
    exact ⟨fun _ ↦ .inr fits, fun _ e he ↦ by cases he⟩

/-- The packet is refused. -/
def Refused (self : GpuRingBuffer) (packet : List UInt8 × UInt64) : Prop :=
  ∃ e, (self.processPacket packet.1 packet.2).2 = .error e

/-- A refused packet takes a free slot out of the ring, if there is one. -/
theorem Refused.countState {self : GpuRingBuffer} {packet : List UInt8 × UInt64}
    (h : self.Refused packet) :
    (self.processPacket packet.1 packet.2).1.countState .free = self.countState .free - 1 := by
  obtain ⟨e, he⟩ := h
  cases self.processPacket_step packet.1 packet.2 with
  | full none result =>
    have hzero : self.countState .free = 0 := by
      apply List.countP_eq_zero.mpr
      intro slot hslot
      exact Bool.not_eq_true _ ▸ List.findIdx?_eq_none_iff.mp none slot hslot
    rw [result, hzero]
  | tooLarge idx slot first found large result =>
    obtain ⟨hlt, hget⟩ := List.getElem?_eq_some_iff.mp found
    have hslot : slot.state = .free := findState_state first found
    rw [result]
    change (self.slots.set idx _).countP _ = self.slots.countP _ - 1
    rw [List.countP_set hlt, hget]
    simp [hslot]
  | processed idx k slot slot' first found fits next found' result =>
    rw [result] at he
    cases he

end GpuRingBuffer

/-- The ring under calls of `process_packet`. -/
def gpuPackets : Machine GpuRingBuffer (List UInt8 × UInt64) (Except GpuError UInt64) where
  step ring packet := ring.processPacket packet.1 packet.2

/-- Refused packets take the free slots one by one. -/
private theorem countState_refused {ring : GpuRingBuffer} {packets : List (List UInt8 × UInt64)}
    (h : gpuPackets.Permits GpuRingBuffer.Refused ring packets) :
    (gpuPackets.run ring packets).countState .free = ring.countState .free - packets.length := by
  induction packets generalizing ring with
  | nil => rfl
  | cons packet packets ih =>
    have hstep := h.1.countState
    rw [Machine.run_cons, ih h.2, List.length_cons]
    change (ring.processPacket packet.1 packet.2).1.countState .free - _ = _
    omega

/-- For every reachable ring with a free slot, every payload that fits and every arrival: the answer
is the packet's own latency and every slot has the state and the payload it had, if and only if each
ready slot has a free slot before it. -/
theorem process_packet_frames_iff (cfg : GpuRingConfig) (ops : List RingOp) (data : List UInt8)
    (arriveNs : UInt64) (hfree : ∃ j, (gpuRing.run (.new cfg) ops).InState .free j)
    (hdata : data.length ≤ (gpuRing.run (.new cfg) ops).slotBytes) :
    ((∃ latency, ((gpuRing.run (.new cfg) ops).processPacket data arriveNs).2 = .ok latency ∧
        latency.toNat = min (arriveNs.toNat + (gpuRing.run (.new cfg) ops).kernelDelayNs.toNat)
          (2 ^ 64 - 1) - arriveNs.toNat) ∧
      ∀ idx, ((gpuRing.run (.new cfg) ops).processPacket data arriveNs).1.slotView idx =
        (gpuRing.run (.new cfg) ops).slotView idx) ↔
    ∀ i, (gpuRing.run (.new cfg) ops).InState .ready i →
      ∃ j, j < i ∧ (gpuRing.run (.new cfg) ops).InState .free j := by
  rw [← GpuRingBuffer.processPacket_frames_iff (fun idx slot hslot ↦
    ((ringHolds_run cfg ops).holds idx slot hslot).empty) hfree hdata arriveNs]
  apply and_congr_left
  intro _
  constructor
  · rintro ⟨latency, hresult, hlatency⟩
    rw [hresult, Except.ok.injEq]
    apply UInt64.toNat_inj.mp
    rw [hlatency, toNat_satSub, toNat_satAdd]
  · intro hresult
    refine ⟨_, hresult, ?_⟩
    rw [toNat_satSub, toNat_satAdd]

/-- Slot 1 became ready while slot 0 was in use, which is free again. -/
def readyBehindFree : List RingOp :=
  [.beginReceive 0, .completeReceive 0 [5], .beginProcess 0, .beginReceive 0,
    .completeReceive 1 [7], .completeProcess 0 0, .release 0]

theorem process_packet_behind_free :
    let ring := gpuRing.run (.new { slotCount := 2, slotBytes := 64, kernelDelayNs := 2000 })
      readyBehindFree
    ring.InState .ready 1 ∧
      ((∃ latency, (ring.processPacket [1, 2, 3] 100).2 = .ok latency ∧
          latency.toNat = min (100 + 2000) (2 ^ 64 - 1) - 100) ∧
        ∀ idx, (ring.processPacket [1, 2, 3] 100).1.slotView idx = ring.slotView idx) := by
  intro ring
  have hfree : ring.InState .free 0 := by decide
  have hready : ring.InState .ready 1 := by decide
  refine ⟨hready,
    (process_packet_frames_iff _ readyBehindFree [1, 2, 3] 100 ⟨0, hfree⟩ (by decide)).mpr ?_⟩
  intro i hi
  refine ⟨0, Nat.pos_of_ne_zero ?_, hfree⟩
  rintro rfl
  revert hi
  decide

/-- Slot 0 is ready when the packet arrives; it is processed in the packet's place. -/
theorem process_packet_takes_other_slot :
    let ring := gpuRing.run (.new { slotCount := 2, slotBytes := 64, kernelDelayNs := 2000 })
      [.beginReceive 0, .completeReceive 0 [7]]
    ¬ ((∃ latency, (ring.processPacket [1, 2, 3] 100).2 = .ok latency ∧
        latency.toNat = min (100 + 2000) (2 ^ 64 - 1) - 100) ∧
      ∀ idx, (ring.processPacket [1, 2, 3] 100).1.slotView idx = ring.slotView idx) := by
  intro ring h
  exact absurd (h.2 0) (by decide)

/-- For every reachable ring: whatever the packet, a refusal leaves every slot in its state if and
only if no slot is free or the payload fits; and a row of refused packets takes as many slots out of
the free ones as it has packets. -/
theorem process_packet_failure_iff (cfg : GpuRingConfig) (ops : List RingOp) :
    (∀ data arriveNs,
      (∀ e, ((gpuRing.run (.new cfg) ops).processPacket data arriveNs).2 = .error e →
        GpuRingBuffer.SameStates (gpuRing.run (.new cfg) ops)
          ((gpuRing.run (.new cfg) ops).processPacket data arriveNs).1) ↔
      (∀ j, ¬ (gpuRing.run (.new cfg) ops).InState .free j) ∨
        data.length ≤ (gpuRing.run (.new cfg) ops).slotBytes) ∧
    ∀ packets, gpuPackets.Permits GpuRingBuffer.Refused (gpuRing.run (.new cfg) ops) packets →
      (gpuPackets.run (gpuRing.run (.new cfg) ops) packets).countState .free =
        (gpuRing.run (.new cfg) ops).countState .free - packets.length := by
  constructor
  · intro data arriveNs
    exact GpuRingBuffer.processPacket_error_iff _ data arriveNs
  · intro packets h
    exact countState_refused h

/-- A payload one byte too long leaves the only slot receiving. -/
theorem process_packet_leaks_slot :
    let ring := gpuRing.run (.new { slotCount := 1, slotBytes := 64, kernelDelayNs := 2000 }) []
    ¬ ∀ e, (ring.processPacket (List.replicate 65 0) 100).2 = .error e →
      GpuRingBuffer.SameStates ring (ring.processPacket (List.replicate 65 0) 100).1 := by
  intro ring h
  exact absurd (h .payloadTooLarge rfl 0) (by decide)

end AetherRadio
