import AetherRadio.Sim.Injector

/-!
# Which packets overtake a held one

The injector lets a held packet go at the push that ends its countdown, before the packet of that
push. So one packet fewer than `reorder_distance` overtakes it, and at distance 1 none does.
-/

namespace AetherRadio

open Verif HoldLine

namespace FaultInjector

/-- In a list an element stands before a later one. -/
theorem pair_sublist_iff {α : Type} {before after : List α} {x y : α} (hy : y ∉ after) :
    [x, y].Sublist (before ++ y :: after) ↔ x ∈ before := by
  constructor
  · intro h
    obtain ⟨front, back, hsplit, hfront, hback⟩ := List.sublist_append_iff.mp h
    cases front with
    | nil =>
      rw [List.nil_append] at hsplit
      rw [← hsplit] at hback
      have htail : [y].Sublist after := by
        cases hback with
        | cons _ hrest => exact (List.sublist_cons_self x [y]).trans hrest
        | cons_cons _ hrest => exact hrest
      exact absurd (htail.subset (List.mem_singleton_self y)) hy
    | cons z front =>
      rw [List.cons_append, List.cons.injEq] at hsplit
      rw [hsplit.1]
      exact hfront.subset List.mem_cons_self
  · intro h
    exact (List.singleton_sublist.mpr h).append (List.singleton_sublist.mpr List.mem_cons_self)

variable (cfg : FaultInjectionConfig) (packets : List Packet)

/-- The positions of all that comes out, the flush included. -/
def outOrder : List Nat := (List.range (packets.length + 1)).flatMap (order cfg packets)

/-- What the pushes let out is what the line lets out. -/
private theorem pushAll_take_out {k : Nat} (hk : k ≤ packets.length) :
    ((new cfg).pushAll (packets.take k)).2.map some =
      ((List.range k).flatMap (order cfg packets)).map (image cfg packets) := by
  induction k with
  | zero => rfl
  | succ k ih =>
    have hpacket : packets[k]? = some packets[k] := List.getElem?_eq_getElem hk
    have hpush := push_out cfg packets hpacket
    rw [List.take_add_one, hpacket, pushAll_append, List.map_append, ih (by omega),
      List.range_succ, List.flatMap_append, List.map_append, List.flatMap_singleton,
      order_of_lt cfg packets hk, ← hpush]
    simp [pushAll, before]

/-- The packets that come out, in the order of their positions. -/
private theorem map_outOrder :
    (((new cfg).pushAll packets).2 ++ ((new cfg).pushAll packets).1.flush.2.toList).map some =
      (outOrder cfg packets).map (image cfg packets) := by
  have hpushed := pushAll_take_out cfg packets (Nat.le_refl _)
  have hline := congrArg (·.held.toList) (before_line cfg packets (Nat.le_refl _))
  rw [List.take_length] at hpushed
  rw [outOrder, List.range_succ, List.flatMap_append, List.map_append, List.map_append, hpushed,
    List.flatMap_singleton, order_length]
  congr 1
  simpa [Line.map, line, flush, Option.toList_map, before, List.take_length] using hline

/-- Every packet that is held and let go by a later push comes out after exactly the `m` packets
pushed right after it. -/
def OvertakenBy (m : Nat) : Prop :=
  ∀ i k, reorders cfg packets i = true → i < k → k < packets.length → i ∈ order cfg packets k →
    ∀ j, i < j ∧ [j, i].Sublist (outOrder cfg packets) ↔ i < j ∧ j ≤ i + m

/-- A packet pushed after this one comes out before it. -/
def Displaced (i : Nat) : Prop := ∃ j, i < j ∧ [j, i].Sublist (outOrder cfg packets)

/-- The output around a packet that is let go by a push. -/
private theorem outOrder_split {i k : Nat} (hik : i < k) (hk : k < packets.length)
    (hi : i ∈ order cfg packets k) :
    ∃ after, i ∉ after ∧
      outOrder cfg packets = (List.range k).flatMap (order cfg packets) ++ i :: after := by
  have hne : i ≠ k := Nat.ne_of_lt hik
  have hi' := hi
  rw [order_of_lt cfg packets hk] at hi'
  obtain ⟨-, htime, hout⟩ := released _ _ hi' hne
  have hrange : List.range (packets.length + 1) =
      List.range k ++ k :: (List.range (packets.length - k)).map (k + 1 + ·) := by
    have hlength : packets.length + 1 = k + (1 + (packets.length - k)) := by omega
    rw [hlength, List.range_add, List.range_add]
    simp [Nat.add_assoc]
  -- after push `k` the packet does not come out again
  have hlater : i ∉ ((List.range (packets.length - k)).map (k + 1 + ·)).flatMap
      (order cfg packets) := by
    intro hmem
    obtain ⟨n, hn, hin⟩ := List.mem_flatMap.mp hmem
    obtain ⟨d, hd, rfl⟩ := List.mem_map.mp hn
    have hd' := List.mem_range.mp hd
    obtain ⟨-, hdue, -⟩ := order_time cfg packets (by omega) hin
    omega
  unfold outOrder
  rw [hrange, List.flatMap_append, List.flatMap_cons, order_of_lt cfg packets hk, hout]
  cases hlost : lost cfg packets k with
  | true => exact ⟨_, hlater, rfl⟩
  | false =>
    refine ⟨k :: _, ?_, rfl⟩
    intro hmem
    rcases List.mem_cons.mp hmem with h | h
    · exact hne h
    · exact hlater h

variable {cfg packets}

/-- Without losses one packet fewer than the distance overtakes. -/
theorem overtakenBy_pred (hkept : ∀ k, lost cfg packets k = false) :
    OvertakenBy cfg packets (cfg.distance - 1) := by
  intro i k _ hik hk hi j
  obtain ⟨after, hafter, hsplit⟩ := outOrder_split cfg packets hik hk hi
  rw [order_of_lt cfg packets hk] at hi
  obtain ⟨hheld, htime, -⟩ := released _ _ hi (Nat.ne_of_lt hik)
  rw [hsplit, pair_sublist_iff hafter]
  apply and_congr_right
  intro hij
  constructor
  · intro hmem
    obtain ⟨n, hn, hjn⟩ := List.mem_flatMap.mp hmem
    have hnk := List.mem_range.mp hn
    obtain ⟨hle, -, -⟩ := order_time cfg packets (by omega) hjn
    omega
  · intro hle
    have hjk : j < k := by omega
    apply List.mem_flatMap.mpr
    refine ⟨j, List.mem_range.mpr hjk, ?_⟩
    rw [order_of_lt cfg packets (by omega), outAt_between _ _ hheld hij hjk, hkept j]
    exact List.mem_singleton_self j

/-- So what is held and let go by a push changes its place from a distance of two on. -/
private theorem displaced_iff (hkept : ∀ k, lost cfg packets k = false) {i k : Nat}
    (hreorders : reorders cfg packets i = true) (hik : i < k) (hk : k < packets.length)
    (hi : i ∈ order cfg packets k) : Displaced cfg packets i ↔ 2 ≤ cfg.distance := by
  have hovertaken := overtakenBy_pred hkept i k hreorders hik hk hi
  constructor
  · rintro ⟨j, hpair⟩
    have hj := (hovertaken j).mp hpair
    omega
  · intro hfar
    exact ⟨i + 1, (hovertaken (i + 1)).mpr (by omega)⟩

/-- The first of enough packets is held and let go by a push. -/
private theorem first_released (hkept : ∀ k, lost cfg packets k = false) (hfar : 0 < cfg.distance)
    (hmany : cfg.distance < packets.length) :
    reorders cfg packets 0 = true ∧ 0 ∈ order cfg packets cfg.distance := by
  constructor
  · rw [reorders_iff cfg packets (by omega)]
    exact ⟨hkept 0, (passes_eq_false_iff _ _ (hkept 0)).mpr ⟨hfar, rfl⟩⟩
  · have hline := first_held cfg.distance (lost cfg packets) hfar (hkept 0)
      (n := cfg.distance - 1) (by omega)
    have hlast : cfg.distance - 1 + 1 = cfg.distance := by omega
    rw [hlast] at hline
    rw [order_of_lt cfg packets hmany]
    cases stepAt cfg.distance (lost cfg packets) cfg.distance with
    | hold kept far before line out | pass before free line out =>
      rw [hline] at before
      cases before
    | keep i before early line out =>
      rw [hline] at early
      dsimp only at early
      omega
    | release i before due line out =>
      rw [hline] at before
      obtain rfl := Option.some.inj before
      rw [out, hkept]
      exact List.mem_cons_self

/-- Exactly the packets of the distance overtake only when nothing is let go by a push at all. -/
theorem overtakenBy_distance_iff (hkept : ∀ k, lost cfg packets k = false)
    (hfar : 0 < cfg.distance) :
    OvertakenBy cfg packets cfg.distance ↔ packets.length ≤ cfg.distance := by
  constructor
  · intro hovertaken
    by_contra hmany
    obtain ⟨hreorders, hmem⟩ := first_released hkept hfar (Nat.not_le.mp hmany)
    have hdistance := hovertaken 0 cfg.distance hreorders hfar (Nat.not_le.mp hmany) hmem
      cfg.distance
    rw [overtakenBy_pred hkept 0 cfg.distance hreorders hfar (Nat.not_le.mp hmany) hmem
      cfg.distance] at hdistance
    omega
  · intro hfew i k _ hik hk hi
    rw [order_of_lt cfg packets hk] at hi
    obtain ⟨-, htime, -⟩ := released _ _ hi (Nat.ne_of_lt hik)
    omega

/-- For every enabled configuration that reorders and every list of packets none of which it drops:
what comes out is `outOrder`, every packet held and let go by a push is overtaken by one packet
fewer than `reorder_distance`, so that it changes its place from a distance of two on. It is
overtaken by as many as `reorder_distance` only if no packet is let go by a push. -/
theorem reorder_distance_iff (cfg : FaultInjectionConfig) (packets : List Packet)
    (henabled : cfg.enabled = true) (hdistance : cfg.reorderDistance ≥ 1)
    (hkept : ∀ packet ∈ packets, cfg.shouldDrop (cfg.mutatePacket packet).sequence.val = false) :
    (((new cfg).pushAll packets).2 ++ ((new cfg).pushAll packets).1.flush.2.toList).map some =
        (outOrder cfg packets).map (image cfg packets) ∧
      OvertakenBy cfg packets (cfg.reorderDistance.toNat - 1) ∧
      (∀ i k, reorders cfg packets i = true → i < k → k < packets.length →
        i ∈ order cfg packets k →
        (Displaced cfg packets i ↔ 2 ≤ cfg.reorderDistance.toNat)) ∧
      (OvertakenBy cfg packets cfg.reorderDistance.toNat ↔
        packets.length ≤ cfg.reorderDistance.toNat) := by
  have hlost : ∀ k, lost cfg packets k = false := by
    intro k
    unfold lost image
    cases hpacket : packets[k]? with
    | none => rfl
    | some packet => exact hkept packet (List.mem_of_getElem? hpacket)
  have heq : cfg.distance = cfg.reorderDistance.toNat := if_pos henabled
  have hfar : 0 < cfg.distance := by
    rw [heq]
    exact UInt32.le_iff_toNat_le.mp hdistance
  rw [← heq]
  exact ⟨map_outOrder cfg packets, overtakenBy_pred hlost,
    fun _ _ hreorders hik hk hi ↦ displaced_iff hlost hreorders hik hk hi,
    overtakenBy_distance_iff hlost hfar⟩

/-- A configuration that only reorders, at a distance of one packet. -/
def reorderOne : FaultInjectionConfig := ⟨true, none, 0, 0, 0, 0, 1, 0, 0⟩

/-- Two packets. -/
def twoPackets : List Packet := [⟨⟨1⟩, ⟨0⟩, ⟨0⟩, [1]⟩, ⟨⟨1⟩, ⟨1⟩, ⟨1000⟩, [1]⟩]

theorem reorder_distance_iff_two :
    (((new reorderOne).pushAll twoPackets).2 ++
          ((new reorderOne).pushAll twoPackets).1.flush.2.toList).map some =
        (outOrder reorderOne twoPackets).map (image reorderOne twoPackets) ∧
      OvertakenBy reorderOne twoPackets 0 ∧
      (∀ i k, reorders reorderOne twoPackets i = true → i < k → k < twoPackets.length →
        i ∈ order reorderOne twoPackets k → (Displaced reorderOne twoPackets i ↔ 2 ≤ 1)) ∧
      (OvertakenBy reorderOne twoPackets 1 ↔ twoPackets.length ≤ 1) :=
  reorder_distance_iff reorderOne twoPackets rfl (by decide) (by decide)

/-- At distance 1 a packet is counted as reordered and the order does not change. -/
theorem reorder_one_keeps_order :
    ((new reorderOne).pushAll twoPackets).2 = twoPackets ∧
      ((new reorderOne).pushAll twoPackets).1.reordered = 1 ∧
      ¬ OvertakenBy reorderOne twoPackets 1 := by
  have hreorders : reorders reorderOne twoPackets 0 = true := by decide
  refine ⟨by decide, by decide, ?_⟩
  intro hovertaken
  have hpair := (hovertaken 0 1 hreorders (by decide) (by decide) (by decide) 1).mpr (by decide)
  exact absurd hpair.2 (by decide)

end FaultInjector

end AetherRadio
