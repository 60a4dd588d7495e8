import AetherRadio.Lib.Fifo
import AetherRadio.Lib.Word
import AetherRadio.Protocol.Codec
import AetherRadio.Shm.Steps

/-!
# The ring invariant

The ring holds a queue `q` of packets at the consecutive positions from `r` on. The two
counters are the residues of the ends; every held packet sits in a full slot of its own, and
all other slots are empty. Between its two last stores the producer has one slot more filled,
and the consumer one slot less, than the counters say. No fact about how positions map to
slots is used: a slot is written only while it is empty, so the invariant survives the wrap of
the counters for every slot count.
-/

namespace AetherRadio.Shm

open Verif

variable {g : Geometry}

/-- The slot a position falls on. -/
def slotAt (g : Geometry) (n : Nat) : Fin g.slotCount := slotIdx g (UInt64.ofNat n)

/-- The slot's length word and bytes spell the packet's frame. -/
def Slot.Contains (slot : Slot g) (packet : Packet) : Prop :=
  Fits g packet ∧ slot.len = UInt32.ofNat (encodeFrame packet).length ∧
    slot.bytes.take (encodeFrame packet).length = encodeFrame packet

/-- The slot is full and contains the packet. -/
def Slot.Holds (slot : Slot g) (packet : Packet) : Prop :=
  slot.state = slotStateFull ∧ slot.Contains packet

/-- The packets `ps` sit in the slots of the positions from `base` on, in distinct slots, and
every other slot is empty. -/
structure SlotsHold (slots : Fin g.slotCount → Slot g) (base : Nat) (ps : List Packet) : Prop where
  holds : ∀ j (h : j < ps.length), (slots (slotAt g (base + j))).Holds ps[j]
  distinct : ∀ i j, i < j → j < ps.length → slotAt g (base + i) ≠ slotAt g (base + j)
  empty : ∀ idx, (∀ j < ps.length, idx ≠ slotAt g (base + j)) → (slots idx).state = slotStateEmpty

namespace SlotsHold

variable {slots : Fin g.slotCount → Slot g} {base : Nat} {ps : List Packet}

/-- An empty slot is not one of the occupied ones. -/
theorem ne_of_empty (h : SlotsHold slots base ps) {idx : Fin g.slotCount}
    (he : (slots idx).state = slotStateEmpty) : ∀ j < ps.length, idx ≠ slotAt g (base + j) := by
  rintro j hj rfl
  have hfull := (h.holds j hj).1
  rw [he] at hfull
  exact absurd hfull (by decide)

/-- Stores into an empty slot that leave it empty disturb nothing. -/
theorem update_empty (h : SlotsHold slots base ps) {idx : Fin g.slotCount} {slot : Slot g}
    (he : (slots idx).state = slotStateEmpty) (he' : slot.state = slotStateEmpty) :
    SlotsHold (Function.update slots idx slot) base ps where
  holds j hj := by
    rw [Function.update_of_ne (h.ne_of_empty he j hj).symm]
    exact h.holds j hj
  distinct := h.distinct
  empty i hi := by
    by_cases hidx : i = idx
    · rw [hidx, Function.update_self, he']
    · rw [Function.update_of_ne hidx]
      exact h.empty i hi

/-- Marking the next position's empty slot as full adds its packet at the end. -/
theorem fill (h : SlotsHold slots base ps) {p : Packet}
    (he : (slots (slotAt g (base + ps.length))).state = slotStateEmpty)
    (hc : (slots (slotAt g (base + ps.length))).Contains p) :
    SlotsHold (Function.update slots (slotAt g (base + ps.length))
      ((slots (slotAt g (base + ps.length))).setState slotStateFull)) base (ps ++ [p]) where
  holds j hj := by
    rw [List.length_append, List.length_singleton] at hj
    by_cases hlast : j < ps.length
    · rw [Function.update_of_ne (h.ne_of_empty he j hlast).symm, List.getElem_append_left hlast]
      exact h.holds j hlast
    · have hj' : j = ps.length := by omega
      subst hj'
      rw [Function.update_self, List.getElem_concat_length rfl]
      exact ⟨rfl, hc⟩
  distinct i j hij hj := by
    rw [List.length_append, List.length_singleton] at hj
    by_cases hlast : j < ps.length
    · exact h.distinct i j hij hlast
    · have hj' : j = ps.length := by omega
      subst hj'
      exact (h.ne_of_empty he i hij).symm
  empty idx hidx := by
    rw [List.length_append, List.length_singleton] at hidx
    rw [Function.update_of_ne (hidx _ (Nat.lt_succ_self _))]
    exact h.empty idx (fun j hj ↦ hidx j (Nat.lt_succ_of_lt hj))

/-- The first packet sits in the slot of the first position. -/
theorem head {p : Packet} (h : SlotsHold slots base (p :: ps)) :
    (slots (slotAt g base)).Holds p := h.holds 0 (Nat.zero_lt_succ _)

/-- Marking the first position's slot as empty removes its packet. -/
theorem free {p : Packet} (h : SlotsHold slots base (p :: ps)) :
    SlotsHold (Function.update slots (slotAt g base)
      ((slots (slotAt g base)).setState slotStateEmpty)) (base + 1) ps where
  holds j hj := by
    have hne := h.distinct 0 (j + 1) (Nat.zero_lt_succ _) (Nat.succ_lt_succ hj)
    rw [Nat.add_zero, ← Nat.add_assoc, Nat.add_right_comm] at hne
    rw [Function.update_of_ne hne.symm]
    have := h.holds (j + 1) (Nat.succ_lt_succ hj)
    rwa [← Nat.add_assoc, Nat.add_right_comm, List.getElem_cons_succ] at this
  distinct i j hij hj := by
    have := h.distinct (i + 1) (j + 1) (Nat.succ_lt_succ hij) (Nat.succ_lt_succ hj)
    rwa [← Nat.add_assoc, ← Nat.add_assoc, Nat.add_right_comm, Nat.add_right_comm base j] at this
  empty idx hidx := by
    by_cases hfirst : idx = slotAt g base
    · rw [hfirst, Function.update_self]
      rfl
    · rw [Function.update_of_ne hfirst]
      apply h.empty
      intro j hj
      cases j with
      | zero => exact hfirst
      | succ j =>
        have := hidx j (Nat.lt_of_succ_lt_succ hj)
        rwa [Nat.add_right_comm, Nat.add_assoc] at this

/-- While positions have not wrapped and there is room, the next position's slot is empty. -/
theorem next_empty (h : SlotsHold slots base ps) (hroom : ps.length < g.slotCount)
    (hwrap : base + ps.length < 2 ^ 64) :
    (slots (slotAt g (base + ps.length))).state = slotStateEmpty := by
  apply h.empty
  intro j hj he
  have hval := congrArg Fin.val he
  simp only [slotAt, slotIdx, UInt64.toNat_ofNat', Nat.mod_eq_of_lt hwrap,
    Nat.mod_eq_of_lt (show base + j < 2 ^ 64 by omega)] at hval
  have hdvd : g.slotCount ∣ (base + ps.length) - (base + j) :=
    Nat.dvd_of_mod_eq_zero (Nat.sub_mod_eq_zero_of_mod_eq hval)
  have := Nat.le_of_dvd (by omega) hdvd
  omega

end SlotsHold

/-- One while the consumer stands between its two last stores. -/
def PopPc.freeing : PopPc → Nat
  | .storeRead _ _ => 1
  | _ => 0

/-- The packet of a producer between its two last stores. -/
def PushPc.filling : PushPc → List Packet
  | .storeWrite packet _ => [packet]
  | _ => []

/-- What the producer knows at each point, `w` being the position it pushes to. -/
def PushPc.Ok (slots : Fin g.slotCount → Slot g) (w : Nat) (room : Prop) : PushPc → Prop
  | .idle | .ret _ _ => True
  | .loadWrite packet => Fits g packet
  | .loadRead packet w' => w' = UInt64.ofNat w ∧ Fits g packet
  | .loadState packet w' => w' = UInt64.ofNat w ∧ Fits g packet ∧ room
  | .copy packet w' k todo => w' = UInt64.ofNat w ∧ Fits g packet ∧ room ∧
      (slots (slotAt g w)).state = slotStateEmpty ∧ k + todo.length = (encodeFrame packet).length ∧
      (slots (slotAt g w)).bytes.take k ++ todo = encodeFrame packet
  | .storeFull packet w' => w' = UInt64.ofNat w ∧ room ∧
      (slots (slotAt g w)).state = slotStateEmpty ∧ (slots (slotAt g w)).Contains packet
  | .storeWrite _ w' => w' = UInt64.ofNat w ∧ room

/-- What the consumer knows at each point, `r` being the position of the head of `q`. -/
def PopPc.Ok (r : Nat) (q : List Packet) : PopPc → Prop
  | .idle | .loadRead => True
  | .loadWrite r' => r' = UInt64.ofNat r
  | .loadState r' | .loadLen r' => r' = UInt64.ofNat r ∧ q ≠ []
  | .loadBytes r' n got => r' = UInt64.ofNat r ∧
      ∃ p, q.head? = some p ∧ n = (encodeFrame p).length ∧ got <+: encodeFrame p
  | .storeEmpty r' packet | .storeRead r' packet => r' = UInt64.ofNat r ∧ q.head? = some packet
  | .ret result => ∃ o, result = .ret (.ok o)

/-- The producer's knowledge concerns its own slot, and only while that slot is empty. -/
theorem PushPc.Ok.congr_slots {slots slots' : Fin g.slotCount → Slot g} {w : Nat} {room : Prop}
    {pc : PushPc} (h : pc.Ok slots w room)
    (hsame : (slots (slotAt g w)).state = slotStateEmpty →
      slots' (slotAt g w) = slots (slotAt g w)) : pc.Ok slots' w room := by
  cases pc with
  | copy packet w' k todo =>
    obtain ⟨hw, hfits, hroom, hempty, hlen, hbytes⟩ := h
    have heq := hsame hempty
    exact ⟨hw, hfits, hroom, by rw [heq]; exact hempty, hlen, by rw [heq]; exact hbytes⟩
  | storeFull packet w' =>
    obtain ⟨hw, hroom, hempty, hcontains⟩ := h
    have heq := hsame hempty
    exact ⟨hw, hroom, by rw [heq]; exact hempty, by rw [heq]; exact hcontains⟩
  | _ => exact h

/-- Room that is left is not taken by the consumer. -/
theorem PushPc.Ok.mono_room {slots : Fin g.slotCount → Slot g} {w : Nat} {room room' : Prop}
    {pc : PushPc} (h : pc.Ok slots w room) (hroom : room → room') : pc.Ok slots w room' := by
  cases pc with
  | loadState packet w' => exact ⟨h.1, h.2.1, hroom h.2.2⟩
  | copy packet w' k todo => exact ⟨h.1, h.2.1, hroom h.2.2.1, h.2.2.2⟩
  | storeFull packet w' => exact ⟨h.1, hroom h.2.1, h.2.2⟩
  | storeWrite packet w' => exact ⟨h.1, hroom h.2⟩
  | _ => exact h

/-- The consumer's knowledge concerns the head of the queue, not what joins at its end. -/
theorem PopPc.Ok.concat {r : Nat} {q : List Packet} {pc : PopPc} (h : pc.Ok r q) (p : Packet) :
    pc.Ok r (q ++ [p]) := by
  have hhead : ∀ p', q.head? = some p' → (q ++ [p]).head? = some p' := by
    intro p' hp
    cases q with
    | nil => cases hp
    | cons _ _ => exact hp
  cases pc with
  | loadState r' | loadLen r' => exact ⟨h.1, by simp⟩
  | loadBytes r' n got =>
    obtain ⟨hr, p', hp, hrest⟩ := h
    exact ⟨hr, p', hhead p' hp, hrest⟩
  | storeEmpty r' p' | storeRead r' p' => exact ⟨h.1, hhead p' h.2⟩
  | _ => exact h

/-- The ring holds the queue `q`, whose head has position `r`. -/
structure Inv (s : World g) (r : Nat) (q : List Packet) : Prop where
  room : q.length ≤ g.slotCount
  writePos : s.map.writePos = UInt64.ofNat (r + q.length)
  readPos : s.map.readPos = UInt64.ofNat r
  slots : SlotsHold s.map.slots (r + s.pop.freeing) (q.drop s.pop.freeing ++ s.push.filling)
  push : s.push.Ok s.map.slots (r + q.length) (q.length < g.slotCount)
  pop : s.pop.Ok r q

/-- A freshly initialised ring holds nothing. -/
theorem inv_init (g : Geometry) : Inv (World.init g) 0 [] where
  room := Nat.zero_le _
  writePos := rfl
  readPos := rfl
  slots :=
    { holds := fun j hj ↦ absurd hj (Nat.not_lt_zero j)
      distinct := fun _ j _ hj ↦ absurd hj (Nat.not_lt_zero j)
      empty := fun _ _ ↦ rfl }
  push := True.intro
  pop := True.intro

/-- The queue event of a step: the producer's last store enqueues, the consumer's dequeues. -/
def fifoEvent : Option Event → List (Fifo.Event Packet)
  | some (.stored packet) => [.enq packet]
  | some (.freed packet) => [.deq packet]
  | _ => []

/-- No process stops between its slot-state store and its counter store. -/
def SafeStop (s : World g) : Act → Prop
  | .crashPush => s.push.filling = []
  | .crashPop => s.pop.freeing = 0
  | _ => True

instance (s : World g) : ∀ a, Decidable (SafeStop s a)
  | .crashPush => inferInstanceAs (Decidable (_ = _))
  | .crashPop => inferInstanceAs (Decidable (_ = _))
  | .callPush _ | .stepPush | .callPop | .stepPop => isTrue True.intro

/-- How a step moves the queue and the position of its head. -/
def Moves (g : Geometry) (e : Option Event) (r : Nat) (q : List Packet) (r' : Nat)
    (q' : List Packet) : Prop :=
  Fifo.Path g.slotCount q (fifoEvent e) q' ∧ r' = r + (Fifo.deqs (fifoEvent e)).length

theorem moves_stutter {e : Option Event} (r : Nat) (q : List Packet) (he : fifoEvent e = []) :
    Moves g e r q r q := by
  rw [Moves, he]
  exact ⟨.nil q, rfl⟩

theorem moves_stored {p : Packet} (r : Nat) {q : List Packet} (h : q.length < g.slotCount) :
    Moves g (some (.stored p)) r q r (q ++ [p]) :=
  ⟨.snoc (.nil q) (.enq p (by exact_mod_cast h)), rfl⟩

theorem moves_freed (p : Packet) (r : Nat) (q : List Packet) :
    Moves g (some (.freed p)) r (p :: q) (r + 1) q :=
  ⟨.snoc (.nil _) (.deq p q), rfl⟩

end AetherRadio.Shm
