import AetherRadio.Lib.HoldLine
import AetherRadio.Sim.Fault
import Mathlib.Data.List.Count

/-!
# What the fault injector lets through

The injector is a line that holds one packet back, fed with the mutated packets: a push offers its
packet to the line, or loses it. So every packet comes out once, is held or is counted as dropped,
and the line says which one comes out when.
-/

namespace AetherRadio

open Verif HoldLine

/-- How many pushes a packet is held for; nothing is held when the faults are disabled. -/
def FaultInjectionConfig.distance (self : FaultInjectionConfig) : Nat :=
  if self.enabled then self.reorderDistance.toNat else 0

namespace FaultInjector

/-- The injector as a line. -/
def line (self : FaultInjector) : Line Packet := ⟨self.held, self.heldCountdown.toNat⟩

/-- What a push does to the line. -/
def event (cfg : FaultInjectionConfig) (packet : Packet) : Event Packet :=
  if cfg.shouldDrop (cfg.mutatePacket packet).sequence.val then .lose
  else .offer (cfg.mutatePacket packet)

private theorem tickHold_line (self : FaultInjector) :
    self.line.tick = (self.tickHold.1.line, self.tickHold.2) := by
  unfold tickHold
  split
  · next h => exact Line.tick_of_none h
  · next packet h =>
    split
    · next hzero =>
      rw [Line.tick_of_due h (by rw [line, hzero]; exact Nat.zero_le 1)]
      simp [line, hzero]
    · next hpos =>
      have hpos' : self.heldCountdown.toNat ≠ 0 := fun h ↦ hpos (UInt32.toNat_inj.mp h)
      have hsub : (self.heldCountdown - 1).toNat = self.heldCountdown.toNat - 1 := by
        rw [UInt32.toNat_sub_of_le]
        · rfl
        · rw [UInt32.le_iff_toNat_le]
          show 1 ≤ _
          omega
      dsimp only
      split
      · next hone =>
        have hone' := congrArg UInt32.toNat hone
        rw [hsub] at hone'
        rw [Line.tick_of_due h (by rw [line]; dsimp only; exact Nat.sub_eq_zero_iff_le.mp hone')]
        simp [line, hone]
      · next hfar =>
        have hfar' : self.heldCountdown.toNat - 1 ≠ 0 := by
          intro h
          exact hfar (UInt32.toNat_inj.mp (hsub.trans h))
        rw [Line.tick_of_not_due h (by rw [line]; dsimp only; omega)]
        simp [line, h, hsub]

private theorem distance_pos (cfg : FaultInjectionConfig) :
    0 < cfg.distance ↔ cfg.enabled = true ∧ cfg.reorderDistance > 0 := by
  unfold FaultInjectionConfig.distance
  cases cfg.enabled with
  | false => simp
  | true =>
    rw [if_pos rfl, gt_iff_lt, UInt32.lt_iff_toNat_lt]
    simp

/-- A packet is held when nothing is, also before the tick. -/
theorem holds_iff (self : FaultInjector) :
    (self.tickHold.1.cfg.enabled ∧ self.tickHold.1.cfg.reorderDistance > 0 ∧
      self.tickHold.1.held = none ∧ ¬ (self.held.isSome ∧ self.heldCountdown ≤ 1)) ↔
    0 < self.cfg.distance ∧ self.line.held = none := by
  rw [tickHold_cfg, distance_pos, and_assoc]
  apply and_congr_right
  intro _
  apply and_congr_right
  intro _
  cases hheld : self.held with
  | none => simp [tickHold, line, hheld]
  | some packet =>
    have hfull : self.line.held ≠ none := by simp [line, hheld]
    refine iff_of_false ?_ hfull
    rintro ⟨hempty, hnot⟩
    have hlate : ¬ self.line.countdown ≤ 1 := by
      intro hdue
      exact hnot ⟨rfl, UInt32.le_iff_toNat_le.mpr hdue⟩
    have htick := self.tickHold_line
    rw [Line.tick_of_not_due hheld hlate, Prod.mk.injEq] at htick
    have hkept := congrArg Line.held htick.1
    rw [show self.tickHold.1.line.held = none from hempty] at hkept
    cases hkept

/-- A push is a step of the line. -/
theorem push_line (self : FaultInjector) (packet : Packet) :
    self.line.step self.cfg.distance (event self.cfg packet) =
      ((self.push packet).1.line, (self.push packet).2) := by
  unfold event push
  dsimp only
  split
  · have htick := tickHold_line { self with dropped := self.dropped + 1 }
    rw [Line.step, show self.line.tick = _ from htick]
  · rw [Line.step]
    by_cases hholds : 0 < self.cfg.distance ∧ self.line.held = none
    · rw [if_pos hholds, if_pos (self.holds_iff.mpr hholds)]
      have hdistance : self.cfg.distance = self.cfg.reorderDistance.toNat :=
        if_pos ((distance_pos self.cfg).mp hholds.1).1
      have htick : self.tickHold = (self, none) := by
        simp only [tickHold, show self.held = none from hholds.2]
      rw [htick, hdistance]
      rfl
    · rw [if_neg hholds, if_neg (mt self.holds_iff.mp hholds), self.tickHold_line]

@[simp] theorem tickHold_reordered (self : FaultInjector) :
    self.tickHold.1.reordered = self.reordered := by
  unfold tickHold
  split
  · rfl
  · split
    · rfl
    · dsimp only
      split <;> rfl

/-- A push counts its packet as dropped. -/
private theorem push_dropped (self : FaultInjector) (packet : Packet) :
    (self.push packet).1.dropped =
    self.dropped + (self.cfg.shouldDrop (self.cfg.mutatePacket packet).sequence.val).toNat := by
  unfold push
  dsimp only
  cases self.cfg.shouldDrop (self.cfg.mutatePacket packet).sequence.val with
  | true => exact tickHold_dropped _
  | false =>
    rw [if_neg (by decide)]
    split <;> exact tickHold_dropped _

/-- A push counts its packet as held exactly when nothing comes out although the packet was not
lost. -/
private theorem push_reordered (self : FaultInjector) (packet : Packet) :
    self.reordered < (self.push packet).1.reordered ↔
      self.cfg.shouldDrop (self.cfg.mutatePacket packet).sequence.val = false ∧
        0 < self.cfg.distance ∧ self.line.held = none := by
  unfold push
  dsimp only
  cases self.cfg.shouldDrop (self.cfg.mutatePacket packet).sequence.val with
  | true =>
    rw [if_pos rfl, tickHold_reordered]
    simp
  | false =>
    rw [if_neg (by decide)]
    by_cases hholds : 0 < self.cfg.distance ∧ self.line.held = none
    · rw [if_pos (self.holds_iff.mpr hholds)]
      simpa using hholds
    · rw [if_neg (mt self.holds_iff.mp hholds)]
      simpa using hholds

/-- What comes out of a list of pushes and what is held then are the packets that were not lost. -/
theorem pushAll_perm (self : FaultInjector) (packets : List Packet) :
    ((self.pushAll packets).2 ++ (self.pushAll packets).1.held.toList).Perm (self.held.toList ++
      (packets.map self.cfg.mutatePacket).filter (! self.cfg.shouldDrop ·.sequence.val)) := by
  induction packets generalizing self with
  | nil => simp [pushAll]
  | cons packet packets ih =>
    have hstep := self.line.step_perm self.cfg.distance (event self.cfg packet)
    rw [push_line] at hstep
    have hevent : (event self.cfg packet).toList =
        [self.cfg.mutatePacket packet].filter (! self.cfg.shouldDrop ·.sequence.val) := by
      unfold event
      cases hlost : self.cfg.shouldDrop (self.cfg.mutatePacket packet).sequence.val <;>
        simp [Event.toList, hlost]
    have hrest := ih (self.push packet).1
    rw [push_cfg] at hrest
    show ((self.push packet).2 ++ ((self.push packet).1.pushAll packets).2 ++
      ((self.push packet).1.pushAll packets).1.held.toList).Perm _
    rw [List.map_cons, ← List.singleton_append, List.filter_append, ← hevent, List.append_assoc]
    apply (hrest.append_left _).trans
    rw [← List.append_assoc, ← List.append_assoc]
    exact hstep.append_right _

/-- The drop counter after a list of pushes. -/
private theorem pushAll_dropped (self : FaultInjector) (packets : List Packet) :
    (self.pushAll packets).1.dropped = self.dropped +
      (packets.map self.cfg.mutatePacket).countP (self.cfg.shouldDrop ·.sequence.val) := by
  induction packets generalizing self with
  | nil => rfl
  | cons packet packets ih =>
    rw [pushAll, ih, push_dropped, push_cfg, List.map_cons, List.countP_cons]
    cases self.cfg.shouldDrop (self.cfg.mutatePacket packet).sequence.val <;> simp
    omega

section Positions

variable (cfg : FaultInjectionConfig) (packets : List Packet)

/-- The injector before the push of a position. -/
def before (k : Nat) : FaultInjector := ((new cfg).pushAll (packets.take k)).1

/-- The mutated packet of a position. -/
def image (k : Nat) : Option Packet := packets[k]?.map cfg.mutatePacket

/-- The packet of a position is lost. -/
def lost (k : Nat) : Bool := (image cfg packets k).any (cfg.shouldDrop ·.sequence.val)

/-- The packet of a position is held back: its push is counted as a reordering. -/
def reorders (k : Nat) : Bool :=
  (before cfg packets k).reordered < (before cfg packets (k + 1)).reordered

private theorem before_succ {k : Nat} {packet : Packet} (h : packets[k]? = some packet) :
    before cfg packets (k + 1) = ((before cfg packets k).push packet).1 := by
  rw [before, List.take_add_one, h, pushAll_append]
  rfl

private theorem pushAll_cfg (self : FaultInjector) (packets : List Packet) :
    (self.pushAll packets).1.cfg = self.cfg := by
  induction packets generalizing self with
  | nil => rfl
  | cons packet packets ih => rw [pushAll, ih, push_cfg]

private theorem before_cfg (k : Nat) : (before cfg packets k).cfg = cfg := pushAll_cfg ..

/-- The event of a push is the event of its position. -/
private theorem event_map {k : Nat} {packet : Packet} (h : packets[k]? = some packet) :
    (event cfg packet).map some = (eventAt (lost cfg packets) k).map (image cfg packets) := by
  have himage : image cfg packets k = some (cfg.mutatePacket packet) := by rw [image, h]; rfl
  unfold event eventAt lost
  rw [himage, Option.any_some]
  split
  · rfl
  · rw [HoldLine.Event.map, HoldLine.Event.map, himage]

/-- A push of the injector is a step of the line of positions. -/
theorem push_at {k : Nat} {packet : Packet} (h : packets[k]? = some packet)
    (hline : (before cfg packets k).line.map some =
      (lineAt cfg.distance (lost cfg packets) k).map (image cfg packets)) :
    (((before cfg packets k).push packet).1.line.map some,
        ((before cfg packets k).push packet).2.map some) =
      ((lineAt cfg.distance (lost cfg packets) (k + 1)).map (image cfg packets),
        (outAt cfg.distance (lost cfg packets) k).map (image cfg packets)) := by
  have hpush := (before cfg packets k).push_line packet
  rw [before_cfg] at hpush
  have hstep := Line.step_map cfg.distance some (before cfg packets k).line (event cfg packet)
  rw [hpush] at hstep
  rw [← hstep, hline, event_map cfg packets h, Line.step_map]
  rfl

/-- The injector runs as the line of its positions. -/
theorem before_line {k : Nat} (hk : k ≤ packets.length) :
    (before cfg packets k).line.map some =
      (lineAt cfg.distance (lost cfg packets) k).map (image cfg packets) := by
  induction k with
  | zero => rfl
  | succ k ih =>
    have hpacket : packets[k]? = some packets[k] := List.getElem?_eq_getElem hk
    rw [before_succ cfg packets hpacket]
    exact congrArg Prod.fst (push_at cfg packets hpacket (ih (by omega)))

/-- What a push lets out. -/
theorem push_out {k : Nat} {packet : Packet} (h : packets[k]? = some packet) :
    ((before cfg packets k).push packet).2.map some =
      (outAt cfg.distance (lost cfg packets) k).map (image cfg packets) := by
  have hk : k < packets.length := (List.getElem?_eq_some_iff.mp h).1
  exact congrArg Prod.snd (push_at cfg packets h (before_line cfg packets (Nat.le_of_lt hk)))

/-- A position is held when its push lets nothing of its own out although it was not lost. -/
theorem reorders_iff {k : Nat} (hk : k < packets.length) : reorders cfg packets k = true ↔
    lost cfg packets k = false ∧ passes cfg.distance (lost cfg packets) k = false := by
  have hpacket : packets[k]? = some packets[k] := List.getElem?_eq_getElem hk
  have hlost : lost cfg packets k = cfg.shouldDrop (cfg.mutatePacket packets[k]).sequence.val := by
    rw [lost, image, hpacket]
    rfl
  have hheld : (before cfg packets k).line.held = none ↔
      (lineAt cfg.distance (lost cfg packets) k).held = none := by
    have hline := congrArg Line.held (before_line cfg packets (Nat.le_of_lt hk))
    rw [← Option.map_eq_none_iff (f := some), ← Option.map_eq_none_iff (f := image cfg packets)]
    exact Eq.congr hline rfl
  rw [reorders, decide_eq_true_eq, before_succ cfg packets hpacket, push_reordered, before_cfg,
    ← hlost, hheld]
  exact and_congr_right fun hkept ↦ (passes_eq_false_iff _ _ hkept).symm

/-- The positions that come out at each push, and at the flush after the last. -/
def order (k : Nat) : List Nat :=
  if k < packets.length then outAt cfg.distance (lost cfg packets) k
  else (lineAt cfg.distance (lost cfg packets) packets.length).held.toList

theorem order_of_lt {k : Nat} (hk : k < packets.length) :
    order cfg packets k = outAt cfg.distance (lost cfg packets) k := if_pos hk

theorem order_length : order cfg packets packets.length =
    (lineAt cfg.distance (lost cfg packets) packets.length).held.toList :=
  if_neg (Nat.lt_irrefl _)

/-- All that comes out. -/
theorem flatMap_order : (List.range (packets.length + 1)).flatMap (order cfg packets) =
    (List.range packets.length).flatMap (outAt cfg.distance (lost cfg packets)) ++
      (lineAt cfg.distance (lost cfg packets) packets.length).held.toList := by
  rw [List.range_succ, List.flatMap_append, List.flatMap_singleton, order_length]
  congr 1
  exact List.flatMap_congr fun k hk ↦ order_of_lt cfg packets (List.mem_range.mp hk)

/-- The packets that are not held come out in the order they went in. -/
private theorem filter_order :
    ((List.range (packets.length + 1)).flatMap (order cfg packets)).filter
      (! reorders cfg packets ·) =
    (List.range packets.length).filter (passes cfg.distance (lost cfg packets)) := by
  have hperm := out_perm cfg.distance (lost cfg packets) packets.length
  rw [← flatMap_order] at hperm
  have hpasses : ∀ i ∈ (List.range (packets.length + 1)).flatMap (order cfg packets),
      (! reorders cfg packets i) = passes cfg.distance (lost cfg packets) i := by
    intro i hi
    have hi' := List.mem_filter.mp (hperm.mem_iff.mp hi)
    have hreorders := reorders_iff cfg packets (List.mem_range.mp hi'.1)
    rw [Bool.not_eq_eq_eq_not, Bool.not_true] at hi'
    cases hp : passes cfg.distance (lost cfg packets) i with
    | false => rw [hreorders.mpr ⟨hi'.2, hp⟩, Bool.not_true]
    | true =>
      cases hr : reorders cfg packets i with
      | false => rfl
      | true =>
        rw [(hreorders.mp hr).2] at hp
        cases hp
  rw [List.filter_congr hpasses, flatMap_order, List.filter_append, filter_passes]
  have hheld : (lineAt cfg.distance (lost cfg packets) packets.length).held.toList.filter
      (passes cfg.distance (lost cfg packets)) = [] := by
    apply List.filter_eq_nil_iff.mpr
    intro i hi
    rw [not_passes_of_held _ _ (Option.mem_toList.mp hi)]
    decide
  rw [hheld, List.append_nil]

/-- When a position comes out. -/
theorem order_time {k i : Nat} (hk : k ≤ packets.length) (hi : i ∈ order cfg packets k) :
    i ≤ k ∧ k ≤ i + cfg.distance ∧ (reorders cfg packets i = false → k = i) := by
  -- a held position leaves by the time its countdown is over
  have hheld : ∀ k, k ≤ packets.length →
      (lineAt cfg.distance (lost cfg packets) k).held = some i →
      i ≤ k ∧ k ≤ i + cfg.distance ∧ (reorders cfg packets i = false → k = i) := by
    intro k hk hi
    obtain ⟨hlt, hsum, hpos, hkept, hout⟩ := held_spec _ _ hi
    have hreorders := (reorders_iff cfg packets (Nat.lt_of_lt_of_le hlt hk)).mpr
      ⟨hkept, not_passes_of_nil _ _ hout⟩
    refine ⟨by omega, by omega, fun h ↦ ?_⟩
    rw [hreorders] at h
    cases h
  by_cases hlast : k < packets.length
  · rw [order_of_lt cfg packets hlast] at hi
    rcases mem_outAt _ _ hi with rfl | ⟨hi, -⟩
    · exact ⟨Nat.le_refl _, Nat.le_add_right _ _, fun _ ↦ rfl⟩
    · exact hheld k hk hi
  · obtain rfl : k = packets.length := by omega
    rw [order_length] at hi
    exact hheld _ hk (Option.mem_toList.mp hi)

end Positions

/-- For every configuration and every list of packets pushed into a fresh injector, with one flush
at the end: what comes out are the mutated packets that are not dropped, each once; the others are
counted; a push lets out two packets at most; and with the positions of what comes out by `order`,
the packets that are not held come out in the order they went in, each at its own push, and a held
packet comes out at most `reorder_distance` pushes after its own. -/
theorem injector_conserves (cfg : FaultInjectionConfig) (packets : List Packet) :
    let fin := (new cfg).pushAll packets
    (fin.2 ++ fin.1.flush.2.toList).Perm
      ((packets.map cfg.mutatePacket).filter (! cfg.shouldDrop ·.sequence.val)) ∧
    fin.1.dropped = (packets.map cfg.mutatePacket).countP (cfg.shouldDrop ·.sequence.val) ∧
    (∀ k packet, packets[k]? = some packet →
      ((before cfg packets k).push packet).2.length ≤ 2) ∧
    ∃ order : Nat → List Nat,
      (∀ k packet, packets[k]? = some packet →
        ((before cfg packets k).push packet).2.map some = (order k).map (image cfg packets)) ∧
      fin.1.flush.2.toList.map some = (order packets.length).map (image cfg packets) ∧
      ((List.range (packets.length + 1)).flatMap order).Perm
        ((List.range packets.length).filter (! lost cfg packets ·)) ∧
      (((List.range (packets.length + 1)).flatMap order).filter
        (! reorders cfg packets ·)).Pairwise (· < ·) ∧
      ∀ k ≤ packets.length, ∀ i ∈ order k, i ≤ k ∧ k ≤ i + cfg.reorderDistance.toNat ∧
        (reorders cfg packets i = false → k = i) := by
  intro fin
  have hfin : before cfg packets packets.length = fin.1 := by rw [before, List.take_length]
  have hdistance : cfg.distance ≤ cfg.reorderDistance.toNat := by
    unfold FaultInjectionConfig.distance
    split
    · exact Nat.le_refl _
    · exact Nat.zero_le _
  have hflush : fin.1.flush.2.toList.map some =
      (order cfg packets packets.length).map (image cfg packets) := by
    have hline := congrArg (·.held.toList) (before_line cfg packets (Nat.le_refl _))
    rw [hfin] at hline
    rw [order_length]
    simpa [Line.map, line, flush, Option.toList_map] using hline
  refine ⟨(new cfg).pushAll_perm packets, ?_, ?_, order cfg packets, ?_, hflush, ?_, ?_, ?_⟩
  · exact (pushAll_dropped (new cfg) packets).trans (Nat.zero_add _)
  · intro k packet hpacket
    rw [← List.length_map some, push_out cfg packets hpacket, List.length_map]
    exact length_outAt ..
  · intro k packet hpacket
    have hk : k < packets.length := (List.getElem?_eq_some_iff.mp hpacket).1
    rw [push_out cfg packets hpacket, order_of_lt cfg packets hk]
  · rw [flatMap_order]
    exact out_perm ..
  · rw [filter_order]
    exact List.pairwise_lt_range.filter _
  · intro k hk i hi
    obtain ⟨hle, hdue, hown⟩ := order_time cfg packets hk hi
    exact ⟨hle, by omega, hown⟩

/-- At distance 2 the first packet is overtaken by the second and comes out before the third. -/
example :
    let cfg : FaultInjectionConfig := ⟨true, none, 0, 0, 0, 0, 2, 0, 0⟩
    let packet (n : UInt64) : Packet := ⟨⟨1⟩, ⟨n⟩, ⟨0⟩, []⟩
    ((new cfg).pushAll [packet 0, packet 1, packet 2]).2 = [packet 1, packet 0, packet 2] := by
  decide

end FaultInjector

end AetherRadio
