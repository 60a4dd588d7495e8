import AetherRadio.Host.Receive
import AetherRadio.Lib.Machine
import Mathlib.Data.List.Chain

/-!
# Duplicates at the receiver

The recovery after a gap takes any number the receiver did not expect for the next one, an old or
repeated number as well. So packets are delivered once and in order exactly when they arrive once
and in order.
-/

namespace AetherRadio

open Verif

namespace HostRecv

/-- The receive path of the receiver, packet after packet. -/
def receiver (cfg : HostConfig) :
    Machine HostState Packet (Except TransportError (Option Packet)) := ⟨receiveOne cfg⟩

/-- The packets handed on to the card, oldest first. -/
def deliveries (t : List (Packet × Except TransportError (Option Packet))) : List Packet :=
  t.filterMap fun | (_, .ok (some pkt)) => some pkt | _ => none

/-- The number the receiver's stream expects after some packets. -/
def expectedAfter (cfg : HostConfig) (s : HostState) (pkts : List Packet) : UInt64 :=
  ((receiver cfg).run s pkts).transport.seq.expected cfg.streamId

/-- An expected number moves back, other than from the last word to zero. -/
def MovesBack (before after : UInt64) : Prop := after < before ∧ after ≠ 0

instance (before after : UInt64) : Decidable (MovesBack before after) :=
  inferInstanceAs (Decidable (_ ∧ _))

/-- Numbers that never fall behind: the first is not before the number ahead of `start`, and each
is not before the last one. The last word may stand anywhere, and anything may follow it. -/
def Advancing (start : UInt64) (numbers : List UInt64) : Prop :=
  (∀ n ∈ numbers.head?, start ≤ n + 1 ∨ n + 1 = 0) ∧
    numbers.IsChain fun m n ↦ m ≤ n ∨ m + 1 = 0 ∨ n + 1 = 0

/-- The numbers of the packets that arrive. -/
def arrivals (cfg : HostConfig) (pkts : List Packet) : List UInt64 :=
  (pkts.filter (Arrives cfg ·)).map (·.sequence.val)

variable {cfg : HostConfig} {s : HostState}

/-- Whatever arrives is delivered. -/
private theorem deliveries_trace (h : Listening cfg s) (pkts : List Packet) :
    deliveries ((receiver cfg).trace s pkts) = pkts.filter (Arrives cfg ·) := by
  induction pkts generalizing s with
  | nil => rfl
  | cons pkt pkts ih =>
    have hstep := h.receiveOne pkt
    have hrest := ih hstep.listening
    have houtput : ((receiver cfg).step s pkt).2 =
        .ok (if Arrives cfg pkt then some pkt else none) := hstep.received
    rw [Machine.trace_cons, deliveries, List.filterMap_cons, List.filter_cons, houtput]
    by_cases harrives : Arrives cfg pkt
    · simp only [harrives, if_true, decide_true]
      exact congrArg (pkt :: ·) hrest
    · simp only [harrives, if_false, decide_false]
      exact hrest

private theorem not_movesBack_start {start n : UInt64} :
    ¬ MovesBack start (n + 1) ↔ start ≤ n + 1 ∨ n + 1 = 0 := by
  rw [MovesBack, not_and_or, UInt64.not_lt, not_not]

private theorem not_movesBack_next {m n : UInt64} :
    ¬ MovesBack (m + 1) (n + 1) ↔ m ≤ n ∨ m + 1 = 0 ∨ n + 1 = 0 := by
  have hm := m.toNat_lt
  have hn := n.toNat_lt
  simp only [MovesBack, ne_eq, UInt64.lt_iff_toNat_lt, UInt64.le_iff_toNat_le, ← UInt64.toNat_inj,
    UInt64.toNat_add, UInt64.toNat_one, UInt64.toNat_zero]
  omega

/-- A condition on every element and what comes before it, from the front. -/
private theorem forall_split_cons {α : Type} {P : List α → α → Prop} {x : α} {xs : List α} :
    (∀ pre a post, x :: xs = pre ++ a :: post → P pre a) ↔
      P [] x ∧ ∀ pre a post, xs = pre ++ a :: post → P (x :: pre) a := by
  constructor
  · intro h
    exact ⟨h [] x xs rfl, fun pre a post hxs ↦ h (x :: pre) a post (by rw [hxs]; rfl)⟩
  · rintro ⟨hfirst, hrest⟩ pre a post heq
    cases pre with
    | nil =>
      cases heq
      exact hfirst
    | cons y pre =>
      cases heq
      exact hrest pre a post rfl

/-- The expected number never moves back exactly when the arriving numbers advance. -/
theorem steady_iff (h : Listening cfg s) (pkts : List Packet) :
    (∀ pre pkt post, pkts = pre ++ pkt :: post →
      ¬ MovesBack (expectedAfter cfg s pre) (expectedAfter cfg s (pre ++ [pkt]))) ↔
    (s.transport.seq.expected cfg.streamId :: (arrivals cfg pkts).map (· + 1)).IsChain
      fun m n ↦ ¬ MovesBack m n := by
  induction pkts generalizing s with
  | nil => simp [arrivals]
  | cons pkt pkts ih =>
    have hstep := h.receiveOne pkt
    have hrest := ih hstep.listening
    rw [forall_split_cons]
    have hfirst : expectedAfter cfg s ([] ++ [pkt]) = if Arrives cfg pkt then pkt.sequence.val + 1
        else s.transport.seq.expected cfg.streamId := hstep.expected
    rw [hfirst]
    apply (and_congr_right fun _ ↦ hrest).trans
    rw [hstep.expected, arrivals, arrivals, List.filter_cons]
    by_cases harrives : Arrives cfg pkt
    · simp only [harrives, if_true, decide_true, List.map_cons, List.isChain_cons_cons]
      rfl
    · simp only [harrives, if_false, decide_false]
      apply and_iff_right
      exact fun hback ↦ UInt64.lt_irrefl _ hback.1

/-- The receiver never fails. It delivers no number twice and its expected number never moves back
exactly when the numbers of the packets on its stream and on time are different from each other
and advance from the configured start. -/
theorem delivers_at_most_once_iff (cfg : HostConfig) (pkts : List Packet) :
    ∃ s, start cfg = .ok s ∧
      (((deliveries ((receiver cfg).trace s pkts)).map (·.sequence.val)).Nodup ∧
          (∀ pre pkt post, pkts = pre ++ pkt :: post →
            ¬ MovesBack (expectedAfter cfg s pre) (expectedAfter cfg s (pre ++ [pkt]))) ↔
        (arrivals cfg pkts).Nodup ∧ Advancing cfg.deadline.startSequence (arrivals cfg pkts)) := by
  obtain ⟨s, hstart, hlistening, hexpected, -⟩ := exists_start cfg
  refine ⟨s, hstart, ?_⟩
  have hnext : (fun m n ↦ ¬ MovesBack (m + 1) (n + 1)) =
      fun m n ↦ m ≤ n ∨ m + 1 = 0 ∨ n + 1 = 0 := by
    funext m n
    exact propext not_movesBack_next
  rw [deliveries_trace hlistening, steady_iff hlistening, hexpected, List.isChain_cons,
    List.isChain_map, hnext]
  simp only [List.head?_map, Option.mem_map, forall_exists_index, and_imp,
    forall_apply_eq_imp_iff₂, not_movesBack_start]
  rfl

/-- A receiver of stream 1 that allows an age of ten milliseconds. -/
def strictHost : HostConfig :=
  { streamId := ⟨1⟩
    symbols := 64
    deadline := ⟨10_000_000, false, 0⟩
    nic := ⟨100, 8, 8⟩
    gpuRing := ⟨4, 64, 200⟩
    recoveryPolicy := none }

/-- A first packet that arrives again after the second one is delivered twice, and takes the
expected number back from 2 to 1. -/
theorem duplicate_delivered_twice :
    let first : Packet := ⟨⟨1⟩, ⟨0⟩, ⟨0⟩, []⟩
    let second : Packet := ⟨⟨1⟩, ⟨1⟩, ⟨1000⟩, []⟩
    ∃ s, start strictHost = .ok s ∧
      deliveries ((receiver strictHost).trace s [first, second, first]) =
        [first, second, first] ∧
      expectedAfter strictHost s [first, second] = 2 ∧
      expectedAfter strictHost s [first, second, first] = 1 := by
  refine ⟨_, rfl, ?_⟩
  decide

end HostRecv

end AetherRadio
