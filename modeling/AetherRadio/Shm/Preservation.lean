import AetherRadio.Shm.Invariant

/-!
# Every step keeps the ring invariant

One lemma per process: its next step leads from a ring that holds `q` to a ring that holds what
the step's queue event makes of `q`.
-/

namespace AetherRadio.Shm

open Verif

variable {g : Geometry} {s : World g} {r : Nat} {q : List Packet}

namespace Inv

/-- The producer moves on without a store. -/
theorem setPush (h : Inv s r q) {pc : PushPc} (hfill : pc.filling = s.push.filling)
    (hok : pc.Ok s.map.slots (r + q.length) (q.length < g.slotCount)) :
    Inv { s with push := pc } r q :=
  { h with
    slots := by
      show SlotsHold s.map.slots _ (_ ++ pc.filling)
      rw [hfill]
      exact h.slots
    push := hok }

/-- The consumer moves on without a store. -/
theorem setPop (h : Inv s r q) {pc : PopPc} (hfree : pc.freeing = s.pop.freeing)
    (hok : pc.Ok r q) : Inv { s with pop := pc } r q :=
  { h with
    slots := by
      show SlotsHold s.map.slots (r + pc.freeing) (q.drop pc.freeing ++ _)
      rw [hfree]
      exact h.slots
    pop := hok }

/-- The producer stores into the empty slot of the next position, which stays empty. -/
theorem storeEmptySlot (h : Inv s r q) {pc : PushPc} {f : Slot g → Slot g}
    (hfill : pc.filling = s.push.filling)
    (he : (s.map.slots (slotAt g (r + q.length))).state = slotStateEmpty)
    (he' : (f (s.map.slots (slotAt g (r + q.length)))).state = slotStateEmpty)
    (hok : pc.Ok (Function.update s.map.slots (slotAt g (r + q.length))
      (f (s.map.slots (slotAt g (r + q.length))))) (r + q.length) (q.length < g.slotCount)) :
    Inv { s.storeSlot (UInt64.ofNat (r + q.length)) f with push := pc } r q :=
  { h with
    slots := by
      show SlotsHold (Function.update s.map.slots _ _) _ (_ ++ pc.filling)
      rw [hfill]
      exact h.slots.update_empty he he'
    push := hok }

/-- When the consumer is between its last stores, the queue is not empty. -/
theorem freeing_le_length (h : Inv s r q) : s.pop.freeing ≤ q.length := by
  have hpop := h.pop
  cases hpc : s.pop with
  | storeRead r' p =>
    rw [hpc] at hpop
    cases q with
    | nil => cases hpop.2
    | cons _ _ => exact Nat.succ_le_succ (Nat.zero_le _)
  | _ => exact Nat.zero_le _

/-- The position after the occupied slots is the one the producer pushes to. -/
theorem base_add_length (h : Inv s r q) :
    r + s.pop.freeing + (q.drop s.pop.freeing).length = r + q.length := by
  have := h.freeing_le_length
  rw [List.length_drop]
  omega

/-- Outside the window between its stores the producer occupies no extra slot. -/
theorem slots_of_not_filling (h : Inv s r q) (hfill : s.push.filling = []) :
    SlotsHold s.map.slots (r + s.pop.freeing) (q.drop s.pop.freeing) := by
  have := h.slots
  rwa [hfill, List.append_nil] at this

/-- The producer marks its slot full. -/
private theorem fillSlot (h : Inv s r q) {packet : Packet} (hfill : s.push.filling = [])
    (hroom : q.length < g.slotCount)
    (hempty : (s.map.slots (slotAt g (r + q.length))).state = slotStateEmpty)
    (hcontains : (s.map.slots (slotAt g (r + q.length))).Contains packet) :
    Inv { s.storeSlot (UInt64.ofNat (r + q.length)) (Slot.setState · slotStateFull) with
      push := .storeWrite packet (UInt64.ofNat (r + q.length)) } r q := by
  have hslots := h.slots_of_not_filling hfill
  refine { h with slots := ?_, push := ⟨rfl, hroom⟩ }
  rw [← h.base_add_length] at hempty hcontains
  have hfilled := hslots.fill hempty hcontains
  rw [h.base_add_length] at hfilled
  exact hfilled

/-- The producer's last store makes the packet part of the queue. -/
private theorem publish (h : Inv s r q) {packet : Packet} {w : UInt64}
    (hpc : s.push = .storeWrite packet w) (hroom : q.length < g.slotCount) :
    Inv { s with
      map := { s.map with writePos := UInt64.ofNat (r + q.length) + 1 }
      push := .ret packet (.ok ()) } r (q ++ [packet]) := by
  have hfree := h.freeing_le_length
  refine
    { room := by rw [List.length_append, List.length_singleton]; exact hroom
      writePos := by
        rw [List.length_append, List.length_singleton, ← Nat.add_assoc]
        exact ofNat_add_one _
      readPos := h.readPos
      slots := ?_
      push := True.intro
      pop := h.pop.concat packet }
  have hslots := h.slots
  rw [hpc] at hslots
  show SlotsHold s.map.slots _ ((q ++ [packet]).drop s.pop.freeing ++ [])
  rw [List.append_nil, List.drop_append_of_le_length hfree]
  exact hslots

/-- The consumer marks the slot of the oldest packet empty. -/
private theorem emptySlot {packet : Packet} (h : Inv s r (packet :: q))
    (hfree : s.pop.freeing = 0) :
    Inv { s.storeSlot (UInt64.ofNat r) (Slot.setState · slotStateEmpty) with
      pop := .storeRead (UInt64.ofNat r) packet } r (packet :: q) := by
  have hslots := h.slots
  rw [hfree] at hslots
  have hfull : (s.map.slots (slotAt g r)).state = slotStateFull := hslots.head.1
  refine { h with slots := hslots.free, push := ?_, pop := ⟨rfl, rfl⟩ }
  -- the producer's slot is empty while the freed one was full, so they differ
  refine h.push.congr_slots (fun he ↦ Function.update_of_ne ?_ ..)
  intro hsame
  have hsame' : slotAt g (r + (packet :: q).length) = slotAt g r := hsame
  rw [hsame', hfull] at he
  exact absurd he (by decide)

/-- The consumer's last store takes the packet off the queue. -/
theorem release {packet : Packet} {w : UInt64} (h : Inv s r (packet :: q))
    (hpc : s.pop = .storeRead w packet) :
    Inv { s with
      map := { s.map with readPos := UInt64.ofNat r + 1 }
      pop := .ret (.ret (.ok (some packet))) } (r + 1) q := by
  have hpos : r + 1 + q.length = r + (packet :: q).length := by
    rw [List.length_cons]
    omega
  have hroom := h.room
  rw [List.length_cons] at hroom
  refine
    { room := by omega
      writePos := by rw [hpos]; exact h.writePos
      readPos := ofNat_add_one r
      slots := ?_
      push := ?_
      pop := ⟨_, rfl⟩ }
  · have hslots := h.slots
    rw [hpc] at hslots
    exact hslots
  · rw [hpos]
    exact h.push.mono_room (fun _ ↦ by omega)

end Inv

private theorem push_stutter (h : Inv s r q) {pc : PushPc} (hfill : pc.filling = s.push.filling)
    (hok : pc.Ok s.map.slots (r + q.length) (q.length < g.slotCount)) :
    ∃ r' q', Inv { s with push := pc } r' q' ∧ Moves g none r q r' q' :=
  ⟨r, q, h.setPush hfill hok, moves_stutter r q rfl⟩

/-- A byte store moves one byte from what is ahead to what is written. -/
private theorem take_setByte_append {slot : Slot g} {k : Nat} {b : UInt8} {todo frame : List UInt8}
    (hk : k < g.slotBytes) (h : slot.bytes.take k ++ b :: todo = frame) :
    (slot.setByte k b).bytes.take (k + 1) ++ todo = frame := by
  rw [Slot.take_bytes_setByte slot b hk, List.append_assoc, List.singleton_append, h]

/-- The producer's step keeps the invariant. -/
private theorem stepPush_inv (h : Inv s r q) :
    ∃ r' q', Inv s.stepPush.1 r' q' ∧ Moves g s.stepPush.2 r q r' q' := by
  have hok := h.push
  cases hpc : s.push with
  | idle =>
    simp only [World.stepPush, hpc]
    exact ⟨r, q, h, moves_stutter r q rfl⟩
  | loadWrite packet =>
    simp only [World.stepPush, hpc] at hok ⊢
    exact push_stutter h (by rw [hpc]; rfl) ⟨h.writePos, hok⟩
  | loadRead packet w =>
    simp only [World.stepPush, hpc] at hok ⊢
    obtain ⟨rfl, hfits⟩ := hok
    split
    · exact push_stutter h (by rw [hpc]; rfl) True.intro
    · next hroom =>
      refine push_stutter h (by rw [hpc]; rfl) ⟨rfl, hfits, ?_⟩
      -- the loaded counters are exact here, so the comparison is about the queue length
      have hdist := toNat_ofNat_sub (r := r) (w := r + q.length) (by omega)
        (by have := h.room; have := g.slotCount_lt; omega)
      rw [ge_iff_le, UInt64.le_iff_toNat_le, h.readPos, hdist, UInt64.toNat_ofNat',
        Nat.mod_eq_of_lt g.slotCount_lt] at hroom
      omega
  | loadState packet w =>
    simp only [World.stepPush, hpc] at hok ⊢
    obtain ⟨rfl, hfits, hroom⟩ := hok
    split
    · exact push_stutter h (by rw [hpc]; rfl) True.intro
    · next hstate =>
      refine push_stutter h (by rw [hpc]; rfl) ⟨rfl, hfits, hroom, not_not.mp hstate, ?_, ?_⟩
      · exact Nat.zero_add _
      · rw [List.take_zero, List.nil_append]
  | copy packet w k todo =>
    rw [hpc] at hok
    obtain ⟨rfl, hfits, hroom, hempty, hlen, hbytes⟩ := hok
    cases todo with
    | nil =>
      simp only [World.stepPush, hpc]
      refine ⟨r, q, h.storeEmptySlot (by rw [hpc]; rfl) hempty hempty ?_, moves_stutter r q rfl⟩
      refine ⟨rfl, hroom, ?_, hfits, ?_, ?_⟩
      · rw [Function.update_self]
        exact hempty
      · rw [Function.update_self]
        rfl
      · rw [List.length_nil, Nat.add_zero] at hlen
        rw [List.append_nil, hlen] at hbytes
        rw [Function.update_self]
        exact hbytes
    | cons b todo =>
      simp only [World.stepPush, hpc]
      have hk : k < g.slotBytes := by
        rw [List.length_cons] at hlen
        unfold Fits at hfits
        omega
      have hempty' : ((s.map.slots (slotAt g (r + q.length))).setByte k b).state =
          slotStateEmpty := by rw [Slot.setByte_state, hempty]
      refine ⟨r, q, h.storeEmptySlot (f := (Slot.setByte · k b)) (by rw [hpc]; rfl) hempty hempty'
        ?_, moves_stutter r q rfl⟩
      refine ⟨rfl, hfits, hroom, ?_, ?_, ?_⟩
      · rw [Function.update_self]
        exact hempty'
      · rw [List.length_cons] at hlen
        omega
      · rw [Function.update_self]
        exact take_setByte_append hk hbytes
  | storeFull packet w =>
    simp only [World.stepPush, hpc] at hok ⊢
    obtain ⟨rfl, hroom, hempty, hcontains⟩ := hok
    exact ⟨r, q, h.fillSlot (by rw [hpc]; rfl) hroom hempty hcontains, moves_stutter r q rfl⟩
  | storeWrite packet w =>
    simp only [World.stepPush, hpc] at hok ⊢
    obtain ⟨rfl, hroom⟩ := hok
    exact ⟨r, q ++ [packet], h.publish hpc hroom, moves_stored r hroom⟩
  | ret packet result =>
    cases result with
    | ok _ =>
      simp only [World.stepPush, hpc]
      refine ⟨r, q, { h with slots := ?_, push := True.intro }, moves_stutter r q rfl⟩
      have := h.slots
      rwa [hpc] at this
    | error e =>
      simp only [World.stepPush, hpc]
      exact ⟨r, q, h.setPush (by rw [hpc]; rfl) True.intro, moves_stutter r q rfl⟩

private theorem pop_stutter (h : Inv s r q) {pc : PopPc} (hfree : pc.freeing = s.pop.freeing)
    (hok : pc.Ok r q) : ∃ r' q', Inv { s with pop := pc } r' q' ∧ Moves g none r q r' q' :=
  ⟨r, q, h.setPop hfree hok, moves_stutter r q rfl⟩

/-- While the consumer is not between its last stores, the head of the queue sits in its
slot. -/
theorem Inv.head_holds (h : Inv s r q) (hfree : s.pop.freeing = 0) {p : Packet}
    (hp : q.head? = some p) : (s.map.slots (slotAt g r)).Holds p := by
  have hslots := h.slots
  cases q with
  | nil => cases hp
  | cons p' q =>
    cases hp
    rw [hfree] at hslots
    exact hslots.head

/-- One byte load extends what has been read of a frame. -/
private theorem got_append_byte {frame bytes got : List UInt8}
    (hframe : bytes.take frame.length = frame) (hgot : got <+: frame)
    (hlt : got.length < frame.length) : got ++ (bytes.drop got.length).take 1 <+: frame := by
  obtain ⟨rest, rfl⟩ := hgot
  rw [List.length_append] at hframe hlt
  have hdrop := congrArg (List.drop got.length) hframe
  rw [List.drop_left, List.drop_take, Nat.add_sub_cancel_left] at hdrop
  refine ⟨rest.drop 1, ?_⟩
  rw [List.append_assoc]
  congr 1
  have hbyte : (bytes.drop got.length).take 1 = rest.take 1 := by
    rw [← hdrop, List.take_take, Nat.min_eq_left (by omega)]
  rw [hbyte, List.take_append_drop]

/-- The consumer's step keeps the invariant. -/
private theorem stepPop_inv (h : Inv s r q) :
    ∃ r' q', Inv s.stepPop.1 r' q' ∧ Moves g s.stepPop.2 r q r' q' := by
  have hok := h.pop
  cases hpc : s.pop with
  | idle =>
    simp only [World.stepPop, hpc]
    exact ⟨r, q, h, moves_stutter r q rfl⟩
  | loadRead =>
    simp only [World.stepPop, hpc]
    exact pop_stutter h (by rw [hpc]; rfl) h.readPos
  | loadWrite r' =>
    simp only [World.stepPop, hpc] at hok ⊢
    cases hok
    split
    · exact pop_stutter h (by rw [hpc]; rfl) ⟨_, rfl⟩
    · next hne =>
      refine pop_stutter h (by rw [hpc]; rfl) ⟨rfl, ?_⟩
      rintro rfl
      exact hne h.writePos.symm
  | loadState r' =>
    simp only [World.stepPop, hpc] at hok ⊢
    split
    · exact pop_stutter h (by rw [hpc]; rfl) ⟨_, rfl⟩
    · exact pop_stutter h (by rw [hpc]; rfl) hok
  | loadLen r' =>
    simp only [World.stepPop, hpc] at hok ⊢
    obtain ⟨rfl, hne⟩ := hok
    obtain ⟨p, hp⟩ : ∃ p, q.head? = some p := by
      cases q with
      | nil => exact absurd rfl hne
      | cons p q => exact ⟨p, rfl⟩
    obtain ⟨-, hfits, hlen, -⟩ := h.head_holds (by rw [hpc]; rfl) hp
    have hn : (s.map.slots (slotIdx g (UInt64.ofNat r))).len.toNat = (encodeFrame p).length := by
      show (s.map.slots (slotAt g r)).len.toNat = _
      have hlt := g.slotBytes_lt
      unfold Fits at hfits
      rw [hlen, UInt32.toNat_ofNat']
      omega
    rw [hn, if_neg (by unfold Fits at hfits; omega)]
    exact pop_stutter h (by rw [hpc]; rfl) ⟨rfl, p, hp, rfl, List.nil_prefix⟩
  | loadBytes r' n got =>
    simp only [World.stepPop, hpc] at hok ⊢
    obtain ⟨rfl, p, hp, rfl, hgot⟩ := hok
    obtain ⟨-, hfits, -, hbytes⟩ := h.head_holds (by rw [hpc]; rfl) hp
    split
    · next hlt =>
      exact pop_stutter h (by rw [hpc]; rfl) ⟨rfl, p, hp, rfl, got_append_byte hbytes hgot hlt⟩
    · next hge =>
      have hall : got = encodeFrame p := hgot.eq_of_length_le (Nat.le_of_not_lt hge)
      have hpayload : p.payload.length < 2 ^ 32 := by
        have hlt := g.slotBytes_lt
        unfold Fits at hfits
        rw [length_encodeFrame] at hfits
        omega
      rw [hall, decodeFrame_encodeFrame hpayload]
      exact pop_stutter h (by rw [hpc]; rfl) ⟨rfl, hp⟩
  | storeEmpty r' packet =>
    simp only [World.stepPop, hpc] at hok ⊢
    obtain ⟨rfl, hp⟩ := hok
    cases q with
    | nil => cases hp
    | cons p q =>
      cases hp
      exact ⟨r, packet :: q, h.emptySlot (by rw [hpc]; rfl), moves_stutter r _ rfl⟩
  | storeRead r' packet =>
    simp only [World.stepPop, hpc] at hok ⊢
    obtain ⟨rfl, hp⟩ := hok
    cases q with
    | nil => cases hp
    | cons p q =>
      cases hp
      exact ⟨r + 1, q, h.release hpc, moves_freed packet r q⟩
  | ret result =>
    rw [hpc] at hok
    obtain ⟨o, rfl⟩ := hok
    cases o with
    | none =>
      simp only [World.stepPop, hpc]
      exact ⟨r, q, h.setPop (by rw [hpc]; rfl) True.intro, moves_stutter r q rfl⟩
    | some packet =>
      simp only [World.stepPop, hpc]
      refine ⟨r, q, { h with slots := ?_, pop := True.intro }, moves_stutter r q rfl⟩
      have := h.slots
      rwa [hpc] at this

/-- Every action that stops no process between its last two stores keeps the invariant. -/
theorem act_inv (h : Inv s r q) {a : Act} (ha : SafeStop s a) :
    ∃ r' q', Inv (s.act a).1 r' q' ∧ Moves g (s.act a).2 r q r' q' := by
  cases a with
  | callPush packet =>
    refine ⟨r, q, ?_, moves_stutter r q rfl⟩
    show Inv (s.callPush packet) r q
    unfold World.callPush
    split
    · next hpc =>
      split
      · exact h.setPush (by rw [hpc]; rfl) True.intro
      · next hfits => exact h.setPush (by rw [hpc]; rfl) (Nat.le_of_not_lt hfits)
    · exact h
  | stepPush => exact stepPush_inv h
  | callPop =>
    refine ⟨r, q, ?_, moves_stutter r q rfl⟩
    show Inv s.callPop r q
    unfold World.callPop
    split
    · next hpc => exact h.setPop (by rw [hpc]; rfl) True.intro
    · exact h
  | stepPop => exact stepPop_inv h
  | crashPush =>
    refine ⟨r, q, { h with slots := ?_, push := True.intro }, moves_stutter r q rfl⟩
    show SlotsHold s.map.slots _ (_ ++ [])
    rw [List.append_nil]
    exact h.slots_of_not_filling ha
  | crashPop =>
    refine ⟨r, q, { h with slots := ?_, pop := True.intro }, moves_stutter r q rfl⟩
    have := h.slots
    change s.pop.freeing = 0 at ha
    rwa [ha] at this

end AetherRadio.Shm
