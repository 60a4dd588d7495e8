import AetherRadio.Shm.Refinement

/-!
# Processes that stop midway

A process that stops inside a call leaves the mapping as it is, and its successor attaches with
`open(create = false)`, which only checks the header. Stopping between the slot-state store and
the counter store leaves state and counter in disagreement for good; stopping anywhere else is
harmless.
-/

namespace AetherRadio.Shm

open Verif

variable {g : Geometry}

/-- The consumer finds nothing while the producer is refused for a packet that fits. -/
def World.Wedged (s : World g) : Prop :=
  s.consumer.tryPop.2 = .ret (.ok none) ∧
    ∃ packet, Fits g packet ∧ (s.producer.tryPush packet).2 = .error .ringFull

/-- The header words of a mapping. -/
def ShmMap.header (map : ShmMap g) : UInt32 × UInt32 × UInt32 × UInt32 :=
  (map.magic, map.version, map.slotCount, map.slotBytes)

/-- No step of either process touches the header words. -/
theorem header_act (s : World g) (a : Act) : (s.act a).1.map.header = s.map.header := by
  cases a with
  | callPush packet =>
    show (s.callPush packet).map.header = _
    unfold World.callPush
    split
    · split <;> rfl
    · rfl
  | stepPush =>
    show s.stepPush.1.map.header = _
    cases hpc : s.push with
    | loadRead packet w | loadState packet w =>
      simp only [World.stepPush, hpc]
      split <;> rfl
    | copy packet w k todo => cases todo <;> simp only [World.stepPush, hpc] <;> rfl
    | ret packet result => cases result <;> simp only [World.stepPush, hpc]
    | _ => simp only [World.stepPush, hpc] <;> rfl
  | callPop =>
    show s.callPop.map.header = _
    unfold World.callPop
    split <;> rfl
  | stepPop =>
    show s.stepPop.1.map.header = _
    cases hpc : s.pop with
    | loadWrite r | loadState r | loadLen r =>
      simp only [World.stepPop, hpc]
      split <;> rfl
    | loadBytes r n got =>
      simp only [World.stepPop, hpc]
      split
      · rfl
      · split <;> rfl
    | ret result =>
      rcases result with (_ | _ | _) | _ <;> simp only [World.stepPop, hpc]
    | _ => simp only [World.stepPop, hpc] <;> rfl
  | crashPush => rfl
  | crashPop => rfl

/-- A new process can attach to the mapping at any time. -/
theorem validateHeader_run (g : Geometry) (sched : List Act) :
    validateHeader ((machine g).run (World.init g) sched).map (UInt32.ofNat g.slotCount)
      (UInt32.ofNat g.slotBytes) = .ok () := by
  have hheader : ((machine g).run (World.init g) sched).map.header = (initRing g).header :=
    (machine g).run_preserves (G := fun _ _ ↦ True)
      (P := fun s ↦ s.map.header = (initRing g).header) rfl
      (fun s a hs _ ↦ (header_act s a).trans hs)
      ((machine g).permits_true _ sched)
  simp only [ShmMap.header, Prod.mk.injEq] at hheader
  obtain ⟨hmagic, hversion, hcount, hbytes⟩ := hheader
  simp [validateHeader, hmagic, hversion, hcount, hbytes, initRing]

/-- If no process stops between its slot-state store and its counter store, the ring is never
wedged between calls, and a new process can always attach. -/
theorem ring_survives_safe_stops (g : Geometry) (sched : List Act)
    (h : (machine g).Permits SafeStop (World.init g) sched) :
    let s := (machine g).run (World.init g) sched
    validateHeader s.map (UInt32.ofNat g.slotCount) (UInt32.ofNat g.slotBytes) = .ok () ∧
    (s.Quiet → ¬ s.Wedged) := by
  refine ⟨validateHeader_run g sched, ?_⟩
  rintro hquiet ⟨hpop, packet, hfits, hpush⟩
  obtain ⟨q, hinv, -⟩ := run_inv (g := g) h
  rw [hinv.tryPop hquiet] at hpop
  have hq : q = [] := by
    injection hpop with hpop
    injection hpop with hpop
    exact List.head?_eq_none_iff.mp hpop
  subst hq
  -- with nothing queued every slot is empty, wherever the counters stand
  have hempty := (hinv.slots_of_quiet hquiet).empty
  rw [hinv.tryPush_of_empty (fun _ ↦ hempty _ nofun) hfits] at hpush
  have hpos := g.slotCount_pos
  rw [if_neg (by rw [List.length_nil]; omega)] at hpush
  cases hpush

/-- A producer and a consumer that stop where it does no harm, one mid-copy, one mid-read. -/
theorem ring_survives_safe_stops_midway :
    let sched : List Act := .callPush emptyPacket :: List.replicate 20 .stepPush ++
      [.crashPush, .callPop, .stepPop, .crashPop]
    (machine oneSlot).Permits SafeStop (World.init oneSlot) sched ∧
      (((machine oneSlot).run (World.init oneSlot) sched).Quiet →
        ¬ ((machine oneSlot).run (World.init oneSlot) sched).Wedged) := by
  refine ⟨?_, (ring_survives_safe_stops oneSlot _ ?_).2⟩ <;> decide

/-- A producer that stops right after its slot-state store. -/
def stopAfterFull : List Act :=
  .callPush emptyPacket :: List.replicate (5 + (encodeFrame emptyPacket).length) .stepPush ++
    [.crashPush]

/-- A consumer that stops right after its slot-state store, on a full ring. -/
def stopAfterEmpty : List Act :=
  .callPush emptyPacket :: List.replicate (7 + (encodeFrame emptyPacket).length) .stepPush ++
    .callPop :: List.replicate (6 + (encodeFrame emptyPacket).length) .stepPop ++ [.crashPop]

/-- Either process can wedge the ring by stopping after its slot-state store, before it stores its
counter. -/
theorem ring_wedged_by_crash :
    (∃ g sched, .crashPop ∉ sched ∧ ((machine g).run (World.init g) sched).Quiet ∧
      ((machine g).run (World.init g) sched).Wedged) ∧
    (∃ g sched, .crashPush ∉ sched ∧ ((machine g).run (World.init g) sched).Quiet ∧
      ((machine g).run (World.init g) sched).Wedged) := by
  constructor
  · exact ⟨oneSlot, stopAfterFull, by decide, by decide, by decide, emptyPacket, by decide,
      by decide⟩
  · exact ⟨oneSlot, stopAfterEmpty, by decide, by decide +kernel, by decide +kernel, emptyPacket,
      by decide, by decide +kernel⟩

end AetherRadio.Shm
