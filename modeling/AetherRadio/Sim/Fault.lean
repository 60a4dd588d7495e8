import AetherRadio.Lib.Word
import AetherRadio.Types
import Mathlib.Data.List.Basic

/-!
# Fault injection

`crates/fault-injection/src/lib.rs`: losses by period and by burst, sequence jumps, timestamp skew
and a buffer that holds one packet back. Rates and delays enter as the integers they are
converted to; the end of a burst wraps as in a release build.
-/

namespace AetherRadio

open Verif

/-- The fault configuration as parsed. A positive `loss_rate` gives a period of `(1.0 /
loss_rate).round().max(1.0) as u64`; the two delays are `(us * 1_000.0) as u64`.
From `crates/fault-injection/src/lib.rs:8–28`. -/
structure FaultInjectionConfig where
  enabled : Bool
  lossPeriod : Option { period : UInt64 // 0 < period }
  configuredLatencyNs : UInt64
  burstLength : UInt32
  configuredKernelNs : UInt64
  burstStart : UInt64
  reorderDistance : UInt32
  sequenceJump : UInt64
  timestampSkewNs : Int64

namespace FaultInjectionConfig

/-- `should_drop_deterministic`. From `crates/fault-injection/src/lib.rs:36–42`. -/
def shouldDropDeterministic (self : FaultInjectionConfig) (sequence : UInt64) : Bool :=
  match self.enabled, self.lossPeriod with
  | true, some period => sequence % period.val = 0
  | _, _ => false

/-- `should_drop_burst`. From `crates/fault-injection/src/lib.rs:45–50`. -/
def shouldDropBurst (self : FaultInjectionConfig) (sequence burstStart : UInt64) : Bool :=
  if ¬ self.enabled ∨ self.burstLength = 0 then false
  else sequence ≥ burstStart ∧ sequence < burstStart + self.burstLength.toUInt64

/-- `should_drop`. From `crates/fault-injection/src/lib.rs:52–55`. -/
def shouldDrop (self : FaultInjectionConfig) (sequence : UInt64) : Bool :=
  self.shouldDropDeterministic sequence || self.shouldDropBurst sequence self.burstStart

/-- `extra_latency_ns`. From `crates/fault-injection/src/lib.rs:57–62`. -/
def extraLatencyNs (self : FaultInjectionConfig) : UInt64 :=
  if self.enabled then self.configuredLatencyNs else 0

/-- `kernel_delay_ns`. From `crates/fault-injection/src/lib.rs:64–69`. -/
def kernelDelayNs (self : FaultInjectionConfig) : UInt64 :=
  if self.enabled then self.configuredKernelNs else 0

/-- `mutate_packet`: the sequence saturates; the skewed time is clamped below and truncated above.
From `crates/fault-injection/src/lib.rs:72–84`. -/
def mutatePacket (self : FaultInjectionConfig) (packet : Packet) : Packet :=
  if ¬ self.enabled then packet
  else
    { packet with
      sequence :=
        if self.sequenceJump > 0 then ⟨satAdd packet.sequence.val self.sequenceJump⟩
        else packet.sequence
      timestamp :=
        if self.timestampSkewNs ≠ 0 then
          ⟨UInt64.ofInt (max (packet.timestamp.val.toNat + self.timestampSkewNs.toInt) 0)⟩
        else packet.timestamp }

end FaultInjectionConfig

/-- Losses and the buffer of one held packet. From `crates/fault-injection/src/lib.rs:89–95`. -/
structure FaultInjector where
  cfg : FaultInjectionConfig
  held : Option Packet
  heldCountdown : UInt32
  dropped : Nat
  reordered : Nat

namespace FaultInjector

/-- An injector that holds nothing. From `crates/fault-injection/src/lib.rs:98–106`. -/
def new (cfg : FaultInjectionConfig) : FaultInjector :=
  { cfg, held := none, heldCountdown := 0, dropped := 0, reordered := 0 }

/-- `tick_hold`: one packet has passed the held one.
From `crates/fault-injection/src/lib.rs:143–153`. -/
def tickHold (self : FaultInjector) : FaultInjector × Option Packet :=
  match self.held with
  | none => (self, none)
  | some packet =>
    if self.heldCountdown = 0 then ({ self with held := none }, some packet)
    else
      let heldCountdown := self.heldCountdown - 1
      if heldCountdown = 0 then ({ self with held := none, heldCountdown }, some packet)
      else ({ self with heldCountdown }, none)

/-- `push`: the mutated sequence decides about the loss; a packet is held only when none was
released. From `crates/fault-injection/src/lib.rs:113–141`. -/
def push (self : FaultInjector) (packet : Packet) : FaultInjector × List Packet :=
  let packet := self.cfg.mutatePacket packet
  if self.cfg.shouldDrop packet.sequence.val then
    let (inj, out) := { self with dropped := self.dropped + 1 }.tickHold
    (inj, out.toList)
  else
    let didRelease := self.held.isSome ∧ self.heldCountdown ≤ 1
    let (inj, out) := self.tickHold
    if inj.cfg.enabled ∧ inj.cfg.reorderDistance > 0 ∧ inj.held = none ∧ ¬ didRelease then
      ({ inj with
          held := some packet
          heldCountdown := inj.cfg.reorderDistance
          reordered := inj.reordered + 1 }, out.toList)
    else (inj, out.toList ++ [packet])

/-- `flush`. From `crates/fault-injection/src/lib.rs:156–159`. -/
def flush (self : FaultInjector) : FaultInjector × Option Packet :=
  ({ self with held := none, heldCountdown := 0 }, self.held)

/-- Push a list of packets one by one. -/
def pushAll (self : FaultInjector) : List Packet → FaultInjector × List Packet
  | [] => (self, [])
  | packet :: packets =>
    let (inj, out) := self.push packet
    let (inj, outs) := inj.pushAll packets
    (inj, out ++ outs)

@[simp] theorem tickHold_cfg (self : FaultInjector) : self.tickHold.1.cfg = self.cfg := by
  unfold tickHold
  split
  · rfl
  · split
    · rfl
    · dsimp only
      split <;> rfl

@[simp] theorem tickHold_dropped (self : FaultInjector) :
    self.tickHold.1.dropped = self.dropped := by
  unfold tickHold
  split
  · rfl
  · split
    · rfl
    · dsimp only
      split <;> rfl

/-- A tick releases the held packet or keeps it. -/
theorem tickHold_conserves (self : FaultInjector) :
    self.tickHold.2.toList ++ self.tickHold.1.held.toList = self.held.toList := by
  unfold tickHold
  split
  · next h => simp [h]
  · next packet h =>
    split
    · simp [h]
    · dsimp only
      split <;> simp [h]

@[simp] theorem push_cfg (self : FaultInjector) (packet : Packet) :
    (self.push packet).1.cfg = self.cfg := by
  unfold push
  dsimp only
  split
  · exact tickHold_cfg _
  · split <;> exact tickHold_cfg _

/-- Every packet pushed comes out, is held or is counted as dropped. -/
private theorem push_conserves (self : FaultInjector) (packet : Packet) :
    (self.push packet).2.length + (self.push packet).1.held.toList.length +
      (self.push packet).1.dropped = self.held.toList.length + self.dropped + 1 := by
  unfold push
  dsimp only
  split
  · have htick := congrArg List.length
      (tickHold_conserves { self with dropped := self.dropped + 1 })
    rw [List.length_append] at htick
    dsimp only at htick ⊢
    rw [tickHold_dropped]
    dsimp only
    omega
  · have htick := congrArg List.length self.tickHold_conserves
    rw [List.length_append] at htick
    split
    · next hhold =>
      rw [hhold.2.2.1] at htick
      simp only [Option.toList_some, Option.toList_none, List.length_cons, List.length_nil,
        tickHold_dropped] at htick ⊢
      omega
    · dsimp only
      rw [List.length_append, List.length_singleton, tickHold_dropped]
      omega

/-- Two lists pushed in turn. -/
theorem pushAll_append (self : FaultInjector) (packets more : List Packet) :
    self.pushAll (packets ++ more) =
      (((self.pushAll packets).1.pushAll more).1,
        (self.pushAll packets).2 ++ ((self.pushAll packets).1.pushAll more).2) := by
  induction packets generalizing self with
  | nil => rfl
  | cons packet packets ih => simp only [List.cons_append, pushAll, ih, List.append_assoc]

/-- So do lists of packets. -/
theorem pushAll_conserves (self : FaultInjector) (packets : List Packet) :
    (self.pushAll packets).2.length + (self.pushAll packets).1.held.toList.length +
      (self.pushAll packets).1.dropped =
        self.held.toList.length + self.dropped + packets.length := by
  induction packets generalizing self with
  | nil => simp [pushAll]
  | cons packet packets ih =>
    have hpush := self.push_conserves packet
    have hrest := ih (self.push packet).1
    simp only [pushAll, List.length_append, List.length_cons]
    omega

/-- Without reordering a push lets the mutated packet through or drops it. -/
private theorem push_of_not_reordering {self : FaultInjector} (hheld : self.held = none)
    (hdist : self.cfg.reorderDistance = 0) (packet : Packet) :
    (self.push packet).1.held = none ∧
      (self.push packet).2 =
        if self.cfg.shouldDrop (self.cfg.mutatePacket packet).sequence.val then []
        else [self.cfg.mutatePacket packet] := by
  have htick : ∀ inj : FaultInjector, inj.held = none → inj.tickHold = (inj, none) := by
    intro inj h
    simp only [tickHold, h]
  unfold push
  dsimp only
  rw [htick _ hheld, htick _ (by exact hheld)]
  split
  · exact ⟨hheld, rfl⟩
  · simp [hdist, hheld]

/-- Without reordering the output is the mutated input without the dropped packets. -/
theorem pushAll_of_not_reordering {self : FaultInjector} (hheld : self.held = none)
    (hdist : self.cfg.reorderDistance = 0) (packets : List Packet) :
    (self.pushAll packets).1.held = none ∧
      (self.pushAll packets).2 = (packets.map self.cfg.mutatePacket).filter
        (fun packet ↦ ¬ self.cfg.shouldDrop packet.sequence.val) := by
  induction packets generalizing self with
  | nil => exact ⟨hheld, rfl⟩
  | cons packet packets ih =>
    obtain ⟨hheld', hout⟩ := push_of_not_reordering hheld hdist packet
    obtain ⟨hrest, houts⟩ := ih hheld' (by rw [push_cfg, hdist])
    refine ⟨hrest, ?_⟩
    simp only [pushAll, hout, houts, push_cfg, List.map_cons, List.filter_cons]
    split <;> simp_all

end FaultInjector

end AetherRadio
