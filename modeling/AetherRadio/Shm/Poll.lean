import AetherRadio.Lib.Distinct
import AetherRadio.Lib.Word
import AetherRadio.Shm.Image

/-!
# Polling the ring

`ShmPacketIO` in `crates/shm-io/src/lib.rs`: `poll_rx` pops until the ring answers with nothing or
with an error, `rx_burst` hands out what is queued. A frame that does not decode stays in its slot.
-/

namespace AetherRadio.Shm

open Verif

variable {l : Layout}

/-- The consumer: its handle and the packets it has queued.
From `crates/shm-io/src/lib.rs:243–246`. -/
structure ShmPacketIO (l : Layout) where
  ring : MappedRing l
  rx : List Packet

namespace ShmPacketIO

/-- The loop of `poll_rx` with `n` packets got and `left` to go. -/
def pollLoop (self : ShmPacketIO l) (n : Nat) :
    (left : Nat) → ShmPacketIO l × Outcome (Except ShmIoError Nat)
  | 0 => (self, .ret (.ok n))
  | left + 1 =>
    match self.ring.tryPop with
    | (ring, .panic) => ({ self with ring }, .panic)
    | (ring, .ret (.error e)) => ({ self with ring }, .ret (.error e))
    | (ring, .ret (.ok none)) => ({ self with ring }, .ret (.ok n))
    | (ring, .ret (.ok (some pkt))) => pollLoop { ring, rx := self.rx ++ [pkt] } (n + 1) left

/-- `poll_rx`. From `crates/shm-io/src/lib.rs:258–270`. -/
def pollRx (self : ShmPacketIO l) (max : Nat) : ShmPacketIO l × Outcome (Except ShmIoError Nat) :=
  self.pollLoop 0 max

/-- `rx_burst`: an error of `poll_rx` is dropped. From `crates/shm-io/src/lib.rs:278–282`. -/
def rxBurst (self : ShmPacketIO l) (max : Nat) : ShmPacketIO l × Outcome (List Packet) :=
  match self.pollRx max with
  | (io, .panic) => (io, .panic)
  | (io, .ret _) =>
    let n := min max io.rx.length
    ({ io with rx := io.rx.drop n }, .ret (io.rx.take n))

variable {self : ShmPacketIO l} {ring : MappedRing l}

/-- A pop that answers without a packet ends the loop. -/
private theorem pollLoop_of_nothing {result : Except ShmIoError (Option Packet)}
    (heq : self.ring.tryPop = (ring, .ret result))
    (hnothing : ∀ packet, result ≠ .ok (some packet)) (n left : Nat) :
    (self.pollLoop n (left + 1)).1 = { self with ring } := by
  rw [pollLoop, heq]
  rcases result with e | _ | packet
  · rfl
  · rfl
  · exact absurd rfl (hnothing packet)

/-- A pop that answers with a packet queues it, and the loop goes on. -/
private theorem pollLoop_of_packet {packet : Packet}
    (heq : self.ring.tryPop = (ring, .ret (.ok (some packet)))) (n left : Nat) :
    self.pollLoop n (left + 1) =
      pollLoop { ring, rx := self.rx ++ [packet] } (n + 1) left := by
  rw [pollLoop, heq]

end ShmPacketIO

/-- The calls of a consumer. -/
inductive RxCall where
  | pollRx (max : Nat)
  | rxBurst (max : Nat)

/-- The number of packets a call asks for. -/
def RxCall.max : RxCall → Nat
  | pollRx max => max
  | rxBurst max => max

/-- A consumer with the packets its bursts have handed out. -/
structure Receiver (l : Layout) where
  io : ShmPacketIO l
  out : List Packet

namespace Receiver

/-- One call. -/
def call (self : Receiver l) : RxCall → Receiver l
  | .pollRx max => { self with io := (self.io.pollRx max).1 }
  | .rxBurst max =>
    match self.io.rxBurst max with
    | (io, .panic) => { self with io }
    | (io, .ret packets) => { io, out := self.out ++ packets }

/-- The calls in turn. -/
def calls (self : Receiver l) : List RxCall → Receiver l
  | [] => self
  | c :: cs => (self.call c).calls cs

/-- The packets delivered so far: handed out, then queued. -/
def delivered (self : Receiver l) : List Packet := self.out ++ self.io.rx

end Receiver

/-- The number of packets a row of calls asks for. -/
def askedFor : List RxCall → Nat
  | [] => 0
  | c :: cs => c.max + askedFor cs

namespace ShmImage

/-- The slots between the counters, in the order of the positions. -/
def window (self : ShmImage l) : List (Fin l.slotCount) :=
  (List.range (self.writePos - self.readPos).toNat).map
    fun i ↦ l.slotIdx (self.readPos + UInt64.ofNat i)

/-- The packet in a slot, if its bytes decode. -/
def packetAt (self : ShmImage l) (idx : Fin l.slotCount) : Option Packet :=
  (decodeFrame ((self.slotData idx).take (self.slotLen idx).toNat)).toOption

/-- The slots between the counters whose bytes decode, each where it comes up first. -/
def goodSlots (self : ShmImage l) : List (Fin l.slotCount) :=
  self.window.eraseDups.filter fun idx ↦ (self.packetAt idx).isSome

/-- Every slot between the counters is full and no longer than a slot. -/
def WindowFull (self : ShmImage l) : Prop :=
  ∀ idx ∈ self.window,
    self.slotState idx = slotStateFull ∧ (self.slotLen idx).toNat ≤ l.slotBytes

private theorem length_window (self : ShmImage l) :
    self.window.length = (self.writePos - self.readPos).toNat := by
  rw [window, List.length_map, List.length_range]

private theorem getElem_window (self : ShmImage l) {k : Nat} (h : k < self.window.length) :
    self.window[k] = l.slotIdx (self.readPos + UInt64.ofNat k) := by
  simp only [window, List.getElem_map, List.getElem_range]

private theorem mem_goodSlots {self : ShmImage l} {idx : Fin l.slotCount} :
    idx ∈ self.goodSlots ↔ idx ∈ self.window ∧ (self.packetAt idx).isSome := by
  rw [goodSlots, List.mem_filter, List.mem_eraseDups]

private theorem nodup_goodSlots (self : ShmImage l) : self.goodSlots.Nodup :=
  (nodup_eraseDups self.window).filter _

/-- Where every frame decodes all slots are good. -/
private theorem goodSlots_eq {self : ShmImage l}
    (hdecode : ∀ idx ∈ self.window, (self.packetAt idx).isSome) :
    self.goodSlots = self.window.eraseDups := by
  apply List.filter_eq_self.mpr
  intro idx hidx
  exact hdecode idx (List.mem_eraseDups.mp hidx)

private theorem filterMap_goodSlots (self : ShmImage l) :
    self.goodSlots.filterMap self.packetAt = self.window.eraseDups.filterMap self.packetAt := by
  rw [goodSlots, List.filterMap_filter]
  congr
  funext idx
  cases self.packetAt idx <;> rfl

end ShmImage

/-- After `k` pops: the first `k` slots of the window are decoded and empty, the others are as
before. -/
structure Consumed (start : ShmImage l) (k : Nat) (map : ShmImage l) : Prop where
  le : k ≤ start.window.length
  readPos : map.readPos = start.readPos + UInt64.ofNat k
  writePos : map.writePos = start.writePos
  emptied : ∀ idx ∈ start.window.take k, map.slotState idx = slotStateEmpty
  kept : ∀ idx, idx ∉ start.window.take k → map.slotState idx = start.slotState idx
  len : ∀ idx : Fin l.slotCount, map.slotLen idx = start.slotLen idx
  data : ∀ idx : Fin l.slotCount, map.slotData idx = start.slotData idx
  decoded : ∀ idx ∈ start.window.take k, (start.packetAt idx).isSome
  distinct : (start.window.take k).Nodup

namespace Consumed

variable {start map : ShmImage l} {k : Nat}

theorem refl (start : ShmImage l) : Consumed start 0 start where
  le := Nat.zero_le _
  readPos := (UInt64.add_zero _).symm
  writePos := rfl
  emptied := nofun
  kept _ _ := rfl
  len _ := rfl
  data _ := rfl
  decoded := nofun
  distinct := .nil

/-- The counters meet at the end of the window only. -/
theorem readPos_eq_writePos (h : Consumed start k map) :
    map.readPos = map.writePos ↔ k = start.window.length := by
  rw [h.readPos, h.writePos, ShmImage.length_window]
  constructor
  · intro heq
    by_contra hne
    have hle := h.le
    rw [ShmImage.length_window] at hle
    exact add_ofNat_ne (by omega) heq
  · rintro rfl
    exact add_distance _ _

private theorem next_eq {ring : MappedRing l} (h : Consumed start k ring.map)
    (hlt : k < start.window.length) : ring.next = start.window[k] := by
  rw [MappedRing.next, h.readPos, ShmImage.getElem_window]

private theorem frame_eq {ring : MappedRing l} (h : Consumed start k ring.map)
    (hlt : k < start.window.length) : ring.frame.toOption = start.packetAt start.window[k] := by
  rw [MappedRing.frame, h.next_eq hlt, h.len, h.data, ShmImage.packetAt]

/-- One more pop. -/
theorem advance {ring : MappedRing l} (h : Consumed start k ring.map)
    (hlt : k < start.window.length) (hfresh : start.window[k] ∉ start.window.take k)
    (hpacket : (start.packetAt start.window[k]).isSome) :
    Consumed start (k + 1) ring.advance.map := by
  have htake := List.take_succ_eq_append_getElem hlt
  have hnext := h.next_eq hlt
  constructor
  · exact hlt
  · rw [MappedRing.advance, ShmImage.readPos_storeReadPos, h.readPos, UInt64.add_assoc,
      ofNat_add_one]
  · rw [MappedRing.advance, ShmImage.writePos_storeReadPos, ShmImage.writePos_storeState,
      h.writePos]
  · intro idx hidx
    rw [MappedRing.advance, ShmImage.slotState_storeReadPos, ShmImage.slotState_storeState, hnext]
    by_cases heq : start.window[k] = idx
    · rw [if_pos heq]
    · rw [if_neg heq]
      rw [htake, List.mem_append, List.mem_singleton] at hidx
      exact h.emptied idx (hidx.resolve_right (Ne.symm heq))
  · intro idx hidx
    rw [htake, List.mem_append, List.mem_singleton, not_or] at hidx
    rw [MappedRing.advance, ShmImage.slotState_storeReadPos, ShmImage.slotState_storeState, hnext,
      if_neg (Ne.symm hidx.2), h.kept idx hidx.1]
  · intro idx
    rw [MappedRing.advance, ShmImage.slotLen_storeReadPos, ShmImage.slotLen_storeState, h.len]
  · intro idx
    rw [MappedRing.advance, ShmImage.slotData_storeReadPos, ShmImage.slotData_storeState, h.data]
  · intro idx hidx
    rw [htake, List.mem_append, List.mem_singleton] at hidx
    rcases hidx with hidx | rfl
    · exact h.decoded idx hidx
    · exact hpacket
  · rw [htake]
    apply List.nodup_append.mpr
    refine ⟨h.distinct, List.nodup_singleton _, ?_⟩
    intro a ha b hb
    rw [List.mem_singleton.mp hb]
    rintro rfl
    exact hfresh ha

/-- The ring answers with nothing more to come from this position. -/
def Stuck (start : ShmImage l) (k : Nat) : Prop :=
  ∀ h : k < start.window.length,
    start.window[k] ∈ start.window.take k ∨ start.packetAt start.window[k] = none

/-- The packets of the first `k` slots. -/
def packets (start : ShmImage l) (k : Nat) : List Packet :=
  (start.window.take k).filterMap start.packetAt

/-- What `try_pop` does in a full window. -/
inductive PopStep (start : ShmImage l) (k : Nat) (ring : MappedRing l) : Prop where
  | stuck (why : Stuck start k) (result : Except ShmIoError (Option Packet))
      (nothing : ∀ packet, result ≠ .ok (some packet))
      (eq : ring.tryPop = (ring, .ret result))
  | popped (packet : Packet) (next : Consumed start (k + 1) ring.advance.map)
      (more : packets start (k + 1) = packets start k ++ [packet])
      (eq : ring.tryPop = (ring.advance, .ret (.ok (some packet))))

private theorem tryPop_step {ring : MappedRing l} (h : Consumed start k ring.map)
    (hfull : start.WindowFull) : PopStep start k ring := by
  by_cases hend : k = start.window.length
  · refine .stuck (fun hlt ↦ by omega) (.ok none) nofun ?_
    exact MappedRing.tryPop_none (.inl (h.readPos_eq_writePos.mpr hend))
  have hlt : k < start.window.length := Nat.lt_of_le_of_ne h.le hend
  have hne : ring.map.readPos ≠ ring.map.writePos := fun heq ↦ hend (h.readPos_eq_writePos.mp heq)
  have hnext := h.next_eq hlt
  by_cases hfresh : start.window[k] ∈ start.window.take k
  · -- the position names a slot that was taken before
    refine .stuck (fun _ ↦ .inl hfresh) (.ok none) nofun ?_
    apply MappedRing.tryPop_none
    rw [hnext, h.emptied _ hfresh]
    exact .inr (by decide)
  · obtain ⟨hstate, hlen⟩ := hfull start.window[k] (List.getElem_mem hlt)
    have hstate' : ring.map.slotState ring.next = slotStateFull := by
      rw [hnext, h.kept _ hfresh, hstate]
    have hlen' : (ring.map.slotLen ring.next).toNat ≤ l.slotBytes := by
      rw [hnext, h.len]
      exact hlen
    have hframe := h.frame_eq hlt
    cases hdecode : ring.frame with
    | error e =>
      rw [hdecode] at hframe
      refine .stuck (fun _ ↦ .inr hframe.symm) (.error (.protocol e)) nofun ?_
      exact MappedRing.tryPop_error hne hstate' hlen' hdecode
    | ok packet =>
      rw [hdecode] at hframe
      refine .popped packet (h.advance hlt hfresh ?_) ?_
        (MappedRing.tryPop_packet hne hstate' hlen' hdecode)
      · rw [← hframe]
        rfl
      · rw [packets, List.take_succ_eq_append_getElem hlt, List.filterMap_append,
          List.filterMap_cons_some hframe.symm]
        rfl

/-- What is behind the position was not stuck. -/
private theorem not_stuck (h : Consumed start k map) {j : Nat} (hj : j < k) : ¬ Stuck start j := by
  intro hstuck
  have hlt : j < start.window.length := Nat.lt_of_lt_of_le hj h.le
  have htake : start.window.take j ++ [start.window[j]] <+: start.window.take k := by
    rw [← List.take_succ_eq_append_getElem hlt]
    exact List.take_prefix_take_left hj
  rcases hstuck hlt with hmem | hnone
  · have hnodup := h.distinct.sublist htake.sublist
    exact (List.nodup_append.mp hnodup).2.2 _ hmem _ (.head _) rfl
  · have hsome := h.decoded _ (htake.subset (List.mem_append_right _ (.head _)))
    rw [hnone] at hsome
    cases hsome

/-- Where the slots that decode stand in front, the ring is stuck after the last of them only. -/
private theorem eq_of_stuck (h : Consumed start k map) (hfront : start.goodSlots <+: start.window)
    (hstuck : Stuck start k) : k = start.goodSlots.length := by
  have hle := le_length_filter_eraseDups h.distinct h.decoded h.le
  change k ≤ start.goodSlots.length at hle
  by_contra hne
  have hlt : k < start.goodSlots.length := by omega
  have hlt' : k < start.window.length := Nat.lt_of_lt_of_le hlt hfront.length_le
  rcases hstuck hlt' with hmem | hnone
  · exact getElem_notMem_take hfront start.nodup_goodSlots hlt' hlt hmem
  · have hgood : start.window[k] ∈ start.goodSlots := by
      rw [← hfront.getElem hlt]
      exact List.getElem_mem hlt
    have hsome := (ShmImage.mem_goodSlots.mp hgood).2
    rw [hnone] at hsome
    cases hsome

/-- A slot that was full and is empty has been consumed: the slots that decode are all free when
they are the ones consumed. -/
private theorem freed_iff (h : Consumed start k map) (hfull : start.WindowFull) :
    (∀ idx ∈ start.window, (start.packetAt idx).isSome → map.slotState idx = slotStateEmpty) ↔
      start.goodSlots = start.window.take k := by
  constructor
  · intro hfreed
    refine filter_eraseDups_eq_take h.distinct h.decoded ?_
    intro idx hidx hsome
    by_contra hnot
    have hempty := hfreed idx hidx hsome
    rw [h.kept idx hnot, (hfull idx hidx).1] at hempty
    exact absurd hempty (by decide)
  · intro heq idx hidx hsome
    have hgood := ShmImage.mem_goodSlots.mpr ⟨hidx, hsome⟩
    rw [heq] at hgood
    exact h.emptied idx hgood

/-- What a call leads to: `k'` slots are consumed and the packets from `k` on are delivered. It
stops early only where the ring is stuck. -/
structure Progress (start : ShmImage l) (k asked k' : Nat) (more : List Packet)
    (map : ShmImage l) : Prop where
  le : k ≤ k'
  consumed : Consumed start k' map
  packets : packets start k' = packets start k ++ more
  enough : k + asked ≤ k' ∨ Stuck start k'

/-- What decodes and stands in front is consumed when enough is asked for. -/
private theorem Progress.goodSlots_eq {asked : Nat} {more : List Packet}
    (h : Progress start 0 asked k more map) (hasked : start.window.eraseDups.length ≤ asked)
    (hfront : start.goodSlots <+: start.window) : start.goodSlots = start.window.take k := by
  have hconsumed := h.consumed
  have hle := le_length_filter_eraseDups hconsumed.distinct hconsumed.decoded hconsumed.le
  change k ≤ start.goodSlots.length at hle
  have hshort : start.goodSlots.length ≤ asked :=
    Nat.le_trans (List.length_filter_le _ _) hasked
  have hk : k = start.goodSlots.length := by
    rcases h.enough with hasked' | hstuck
    · omega
    · exact hconsumed.eq_of_stuck hfront hstuck
  rw [hk]
  exact List.prefix_iff_eq_take.mp hfront

theorem pollLoop (hfull : start.WindowFull) {io : ShmPacketIO l} (h : Consumed start k io.ring.map)
    (n left : Nat) :
    ∃ k' more, Progress start k left k' more (io.pollLoop n left).1.ring.map ∧
      (io.pollLoop n left).1.rx = io.rx ++ more := by
  induction left generalizing io k n with
  | zero =>
    refine ⟨k, [], ⟨Nat.le_refl k, h, (List.append_nil _).symm, .inl (Nat.le_refl k)⟩, ?_⟩
    exact (List.append_nil _).symm
  | succ left ih =>
    cases h.tryPop_step hfull with
    | stuck why result nothing eq =>
      have hloop : (io.pollLoop n (left + 1)).1 = io := io.pollLoop_of_nothing eq nothing n left
      refine ⟨k, [], ⟨Nat.le_refl k, ?_, (List.append_nil _).symm, .inr why⟩, ?_⟩
      · rw [hloop]
        exact h
      · rw [hloop, List.append_nil]
    | popped packet next more eq =>
      rw [io.pollLoop_of_packet eq]
      have hnext : Consumed start (k + 1)
          ({ ring := io.ring.advance, rx := io.rx ++ [packet] } : ShmPacketIO l).ring.map := next
      obtain ⟨k', rest, hprogress, hrx⟩ := ih hnext (n + 1)
      refine ⟨k', packet :: rest, ⟨?_, hprogress.consumed, ?_, ?_⟩, ?_⟩
      · exact Nat.le_of_succ_le hprogress.le
      · rw [hprogress.packets, more, List.append_assoc]
        rfl
      · have henough := hprogress.enough
        rw [Nat.succ_add_eq_add_succ] at henough
        exact henough
      · rw [hrx, List.append_assoc]
        rfl

theorem call (hfull : start.WindowFull) {receiver : Receiver l}
    (h : Consumed start k receiver.io.ring.map) (c : RxCall) :
    ∃ k' more, Progress start k c.max k' more (receiver.call c).io.ring.map ∧
      (receiver.call c).delivered = receiver.delivered ++ more := by
  cases c with
  | pollRx max =>
    obtain ⟨k', more, hprogress, hrx⟩ := h.pollLoop hfull 0 max
    refine ⟨k', more, hprogress, ?_⟩
    change receiver.out ++ (receiver.io.pollLoop 0 max).1.rx = _
    rw [hrx, ← List.append_assoc, Receiver.delivered]
  | rxBurst max =>
    obtain ⟨k', more, hprogress, hrx⟩ := h.pollLoop hfull 0 max
    have hcall : (receiver.call (.rxBurst max)).io.ring = (receiver.io.pollLoop 0 max).1.ring ∧
        (receiver.call (.rxBurst max)).delivered =
          receiver.out ++ (receiver.io.pollLoop 0 max).1.rx := by
      rcases hanswer : receiver.io.pollLoop 0 max with ⟨io, _ | _⟩
      · simp only [Receiver.call, ShmPacketIO.rxBurst, ShmPacketIO.pollRx, hanswer,
          Receiver.delivered, List.append_assoc, List.take_append_drop, and_self]
      · simp only [Receiver.call, ShmPacketIO.rxBurst, ShmPacketIO.pollRx, hanswer,
          Receiver.delivered, and_self]
    refine ⟨k', more, ?_, ?_⟩
    · rw [hcall.1]
      exact hprogress
    · rw [hcall.2, hrx, ← List.append_assoc, Receiver.delivered]

theorem calls (hfull : start.WindowFull) {receiver : Receiver l}
    (h : Consumed start k receiver.io.ring.map) (cs : List RxCall) :
    ∃ k' more, Progress start k (askedFor cs) k' more (receiver.calls cs).io.ring.map ∧
      (receiver.calls cs).delivered = receiver.delivered ++ more := by
  induction cs generalizing receiver k with
  | nil =>
    refine ⟨k, [], ⟨Nat.le_refl k, h, (List.append_nil _).symm, .inl (Nat.le_refl k)⟩, ?_⟩
    exact (List.append_nil _).symm
  | cons c cs ih =>
    obtain ⟨k₁, first, hfirst, hdelivered⟩ := h.call hfull c
    obtain ⟨k₂, rest, hrest, hdelivered'⟩ := ih hfirst.consumed
    refine ⟨k₂, first ++ rest, ⟨Nat.le_trans hfirst.le hrest.le, hrest.consumed, ?_, ?_⟩, ?_⟩
    · rw [hrest.packets, hfirst.packets, List.append_assoc]
    · rcases hfirst.enough with hasked | hstuck
      · apply hrest.enough.imp_left
        intro hle
        rw [askedFor]
        omega
      · have hsame : k₂ = k₁ := by
          have hle := hrest.le
          have hnot : ¬ k₁ < k₂ := fun hlt ↦ hrest.consumed.not_stuck hlt hstuck
          omega
        exact .inr (hsame ▸ hstuck)
    · rw [Receiver.calls, hdelivered', hdelivered, List.append_assoc]

end Consumed

instance (map : ShmImage l) : Decidable map.WindowFull :=
  inferInstanceAs (Decidable (∀ idx ∈ map.window, _))

/-- What is asked of a consumer that is polled: it has delivered the packets of the slots between
the counters whose bytes decode, in the order of the slots and each once, and each of these slots is
free for the producer. -/
structure Drained (start after : Receiver l) : Prop where
  delivered : after.delivered = start.delivered ++
    start.io.ring.map.window.eraseDups.filterMap start.io.ring.map.packetAt
  freed : ∀ idx ∈ start.io.ring.map.window, (start.io.ring.map.packetAt idx).isSome →
    after.io.ring.map.slotState idx = slotStateEmpty

/-- The frames that do not decode are skipped as well: every slot between the counters is free, and
`read_pos` has moved past it. -/
structure Skipped (start after : Receiver l) : Prop extends Drained start after where
  emptied : ∀ idx ∈ start.io.ring.map.window, after.io.ring.map.slotState idx = slotStateEmpty
  readPos : after.io.ring.map.readPos =
    start.io.ring.map.readPos + UInt64.ofNat start.io.ring.map.window.eraseDups.length

/-- Between counters that have not wrapped the slots are taken in turn. -/
theorem getElem_window_val {map : ShmImage l} (hle : map.readPos ≤ map.writePos) {k : Nat}
    (hk : k < map.window.length) :
    (map.window[k] : Nat) = (map.readPos.toNat + k) % l.slotCount := by
  rw [ShmImage.getElem_window]
  show (map.readPos + UInt64.ofNat k).toNat % l.slotCount = _
  rw [ShmImage.length_window, UInt64.toNat_sub_of_le _ _ hle] at hk
  have hmax := map.writePos.toNat_lt
  rw [UInt64.toNat_add, UInt64.toNat_ofNat', Nat.mod_eq_of_lt (a := k) (by omega),
    Nat.mod_eq_of_lt (a := map.readPos.toNat + k) (by omega)]

/-- Between counters that have not wrapped all slots come up before one does so again. -/
theorem eraseDups_window_prefix {map : ShmImage l} (hle : map.readPos ≤ map.writePos) :
    map.window.eraseDups <+: map.window := by
  have hnodup : (map.window.take l.slotCount).Nodup := by
    rw [List.nodup_iff_injective_getElem]
    intro ⟨i, hi⟩ ⟨j, hj⟩ heq
    rw [List.length_take] at hi hj
    have hval := congrArg Fin.val heq
    simp only [List.getElem_take, getElem_window_val hle] at hval
    have hij := Nat.ModEq.add_left_cancel' map.readPos.toNat hval
    rw [Nat.ModEq, Nat.mod_eq_of_lt (by omega), Nat.mod_eq_of_lt (by omega)] at hij
    exact Fin.ext hij
  have hall : ∀ idx ∈ map.window, idx ∈ map.window.take l.slotCount := by
    intro idx hidx
    obtain ⟨k, hk, rfl⟩ := List.mem_iff_getElem.mp hidx
    have hmod := Nat.mod_lt k l.slotCount_pos
    have hlt : k % l.slotCount < map.window.length := Nat.lt_of_le_of_lt (Nat.mod_le _ _) hk
    refine List.mem_take_iff_getElem.mpr ⟨k % l.slotCount, by omega, ?_⟩
    apply Fin.ext
    rw [getElem_window_val hle, getElem_window_val hle, Nat.add_mod_mod]
  rw [eraseDups_eq_take hnodup hall]
  exact List.take_prefix _ _

/-- Between such counters the slots that decode stand in front when none of them lies behind one
that does not decode. -/
theorem goodSlots_prefix_iff {map : ShmImage l} (hle : map.readPos ≤ map.writePos) :
    map.goodSlots <+: map.window ↔ map.window.eraseDups.Pairwise fun front behind ↦
      (map.packetAt behind).isSome → (map.packetAt front).isSome := by
  have hwindow := eraseDups_window_prefix hle
  rw [← filter_prefix_iff]
  constructor
  · intro hfront
    exact List.prefix_of_prefix_length_le hfront hwindow (List.length_filter_le _ _)
  · intro hfront
    exact hfront.trans hwindow

/-- For every content of the mapping in which the slots between the counters are full and no longer
than a slot, and every row of calls that asks for at least as many packets as there are slots: the
packets of the slots that decode are delivered and these slots freed if and only if they stand in
front. The slots that do not decode are freed as well if and only if there are none, and no slot
comes up again before all slots have come up. -/
theorem poll_rx_drains_iff {l : Layout} (receiver : Receiver l) (cs : List RxCall)
    (hfull : receiver.io.ring.map.WindowFull)
    (hasked : receiver.io.ring.map.window.eraseDups.length ≤ askedFor cs) :
    (Drained receiver (receiver.calls cs) ↔
      receiver.io.ring.map.goodSlots <+: receiver.io.ring.map.window) ∧
    (Skipped receiver (receiver.calls cs) ↔
      (∀ idx ∈ receiver.io.ring.map.window, (receiver.io.ring.map.packetAt idx).isSome) ∧
        receiver.io.ring.map.window.eraseDups <+: receiver.io.ring.map.window) := by
  obtain ⟨k, more, hprogress, hdelivered⟩ := (Consumed.refl receiver.io.ring.map).calls hfull cs
  have hconsumed := hprogress.consumed
  have hfreed := hconsumed.freed_iff hfull
  have hpackets := hprogress.packets
  have hend := hprogress.goodSlots_eq hasked
  have hdrained : Drained receiver (receiver.calls cs) ↔
      receiver.io.ring.map.goodSlots <+: receiver.io.ring.map.window := by
    constructor
    · intro hdrained
      rw [hfreed.mp hdrained.freed]
      exact List.take_prefix k _
    · intro hfront
      refine ⟨?_, hfreed.mpr (hend hfront)⟩
      rw [hdelivered, ← ShmImage.filterMap_goodSlots, hend hfront]
      exact congrArg _ hpackets.symm
  refine ⟨hdrained, ?_⟩
  constructor
  · intro hskipped
    have hfront := hdrained.mp hskipped.toDrained
    have hdecode : ∀ idx ∈ receiver.io.ring.map.window,
        (receiver.io.ring.map.packetAt idx).isSome := by
      intro idx hidx
      apply hconsumed.decoded
      by_contra hnot
      have hempty := hskipped.emptied idx hidx
      rw [hconsumed.kept idx hnot, (hfull idx hidx).1] at hempty
      exact absurd hempty (by decide)
    exact ⟨hdecode, ShmImage.goodSlots_eq hdecode ▸ hfront⟩
  · rintro ⟨hdecode, hfront⟩
    have hgood := ShmImage.goodSlots_eq hdecode
    have hd := hdrained.mpr (hgood ▸ hfront)
    have htake := hend (hgood ▸ hfront)
    refine ⟨hd, fun idx hidx ↦ hd.freed idx hidx (hdecode idx hidx), ?_⟩
    rw [hconsumed.readPos, ← hgood, htake, List.length_take_of_le hconsumed.le]

/-- Two full slots of 64 bytes with an empty packet in each, the first in the given version. -/
def twoFrames (version : UInt16) :
    ShmImage { slotCount := 2, slotBytes := 64, slotCount_pos := Nat.two_pos,
               slotBytes_ge := slotBytes_min, total_lt := by decide } where
  bytes := leBytes 4 shmMagic.toNat ++ leBytes 4 1 ++ leBytes 4 2 ++ leBytes 4 64 ++ leBytes 8 2 ++
    leBytes 8 0 ++ List.replicate 32 0 ++
    (leBytes 4 slotStateFull.toNat ++ leBytes 4 32 ++
      { AetherHeader.new ⟨1⟩ ⟨0⟩ ⟨0⟩ 0 with version }.encode ++ List.replicate 32 0) ++
    (leBytes 4 slotStateFull.toNat ++ leBytes 4 32 ++
      (AetherHeader.new ⟨1⟩ ⟨0⟩ ⟨1⟩ 0).encode ++ List.replicate 32 0)
  length_eq := rfl

/-- A consumer that has just attached. -/
def Receiver.attached (map : ShmImage l) : Receiver l where
  io := { ring := { map, pushed := 0, popped := 0 }, rx := [] }
  out := []

theorem poll_rx_drains_current_version :
    let receiver := Receiver.attached (twoFrames 1)
    (Drained receiver (receiver.calls [.pollRx 32, .rxBurst 32]) ↔
      receiver.io.ring.map.goodSlots <+: receiver.io.ring.map.window) ∧
    (Skipped receiver (receiver.calls [.pollRx 32, .rxBurst 32]) ↔
      (∀ idx ∈ receiver.io.ring.map.window, (receiver.io.ring.map.packetAt idx).isSome) ∧
        receiver.io.ring.map.window.eraseDups <+: receiver.io.ring.map.window) :=
  poll_rx_drains_iff (Receiver.attached (twoFrames 1)) [.pollRx 32, .rxBurst 32]
    (by decide +kernel) (by decide +kernel)

/-- A frame of another version in slot 0 keeps the packet in slot 1 from being delivered. -/
theorem poll_rx_blocks :
    let receiver := Receiver.attached (twoFrames 2)
    receiver.io.ring.map.WindowFull ∧
      ¬ Drained receiver (receiver.calls [.pollRx 32, .pollRx 32]) := by
  refine ⟨by decide +kernel, ?_⟩
  intro hdrained
  have hempty := hdrained.freed ⟨1, by decide⟩ (by decide +kernel) (by decide +kernel)
  revert hempty
  decide +kernel

end AetherRadio.Shm
