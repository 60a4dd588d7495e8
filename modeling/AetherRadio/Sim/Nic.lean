import AetherRadio.Lib.Word
import AetherRadio.Types

/-!
# CX5 network card

`crates/cx5-emulator/src/lib.rs`: received packets wait for their DMA completion time, then for
`rx_burst`. The configured latency enters as the nanoseconds it is converted to.
-/

namespace AetherRadio

open Verif

/-- The DMA configuration as parsed; `dmaLatencyNs` is `dma_latency_ns()`.
From `crates/cx5-emulator/src/lib.rs:8–15`. -/
structure NicDmaConfig where
  dmaLatencyNs : UInt64
  rxQueueDepth : Nat
  txQueueDepth : Nat

/-- Failures of the card. From `crates/cx5-emulator/src/lib.rs:160–169`. -/
inductive Cx5Error where
  | config (message : String)
  | queueFull
  | backendUnavailable (message : String)
  | mbufExhausted
  deriving DecidableEq, Repr

/-- A packet in the DMA pipeline. From `crates/cx5-emulator/src/lib.rs:53–56`. -/
structure PendingRx where
  readyAtNs : UInt64
  packet : Packet
  deriving DecidableEq, Repr

/-- The card: DMA pipeline, host-visible completions and the send queue.
From `crates/cx5-emulator/src/lib.rs:60–67`. -/
structure Cx5Nic where
  cfg : NicDmaConfig
  nowNs : UInt64
  pending : List PendingRx
  rxReady : List Packet
  tx : List Packet
  completions : Nat

namespace Cx5Nic

/-- A card with empty queues. From `crates/cx5-emulator/src/lib.rs:70–79`. -/
def new (cfg : NicDmaConfig) : Cx5Nic :=
  { cfg, nowNs := 0, pending := [], rxReady := [], tx := [], completions := 0 }

/-- `poll_completions`: everything whose time has come moves to the ready queue, in order.
From `crates/cx5-emulator/src/lib.rs:117–129`. -/
def pollCompletions (self : Cx5Nic) : Cx5Nic :=
  let done := self.pending.filter (·.readyAtNs ≤ self.nowNs)
  { self with
    pending := self.pending.filter (¬ ·.readyAtNs ≤ self.nowNs)
    rxReady := self.rxReady ++ done.map (·.packet)
    completions := self.completions + done.length }

/-- `advance_time` sets the clock, forwards or backwards.
From `crates/cx5-emulator/src/lib.rs:89–92`. -/
def advanceTime (self : Cx5Nic) (nowNs : UInt64) : Cx5Nic :=
  { self with nowNs }.pollCompletions

/-- `submit_rx_ready_at`. From `crates/cx5-emulator/src/lib.rs:105–115`. -/
def submitRxReadyAt (self : Cx5Nic) (packet : Packet) (readyAtNs : UInt64) :
    Cx5Nic × Except Cx5Error Unit :=
  if self.pending.length + self.rxReady.length ≥ self.cfg.rxQueueDepth then
    (self, .error .queueFull)
  else
    let pending := self.pending ++ [PendingRx.mk readyAtNs packet]
    ({ self with pending }.pollCompletions, .ok ())

/-- `submit_rx`. From `crates/cx5-emulator/src/lib.rs:99–102`. -/
def submitRx (self : Cx5Nic) (packet : Packet) : Cx5Nic × Except Cx5Error Unit :=
  self.submitRxReadyAt packet (satAdd self.nowNs self.cfg.dmaLatencyNs)

/-- `rx_burst`. From `crates/cx5-emulator/src/lib.rs:141–145`. -/
def rxBurst (self : Cx5Nic) (max : Nat) : Cx5Nic × List Packet :=
  let polled := self.pollCompletions
  ({ polled with rxReady := polled.rxReady.drop max }, polled.rxReady.take max)

@[simp] theorem submitRxReadyAt_cfg (self : Cx5Nic) (packet : Packet) (readyAtNs : UInt64) :
    (self.submitRxReadyAt packet readyAtNs).1.cfg = self.cfg := by
  unfold submitRxReadyAt
  split <;> rfl

@[simp] theorem submitRx_cfg (self : Cx5Nic) (packet : Packet) :
    (self.submitRx packet).1.cfg = self.cfg := self.submitRxReadyAt_cfg ..

/-- Nothing is in flight. -/
structure Idle (nic : Cx5Nic) : Prop where
  pending : nic.pending = []
  rxReady : nic.rxReady = []

/-- Setting the clock of an idle card only sets the clock. -/
theorem Idle.advanceTime {nic : Cx5Nic} (h : nic.Idle) (nowNs : UInt64) :
    nic.advanceTime nowNs = { nic with nowNs } := by
  simp [Cx5Nic.advanceTime, pollCompletions, h.pending, h.rxReady]

/-- One packet is in flight: in the DMA pipeline until `readyAtNs`, or ready. -/
def Carries (nic : Cx5Nic) (packet : Packet) (readyAtNs : UInt64) : Prop :=
  (nic.pending = [⟨readyAtNs, packet⟩] ∧ nic.rxReady = []) ∨
    (nic.pending = [] ∧ nic.rxReady = [packet])

private theorem Carries.pollCompletions {nic : Cx5Nic} {packet : Packet} {readyAtNs : UInt64}
    (h : nic.Carries packet readyAtNs) : nic.pollCompletions.Carries packet readyAtNs ∧
      (readyAtNs ≤ nic.nowNs → nic.pollCompletions.pending = [] ∧
        nic.pollCompletions.rxReady = [packet]) := by
  obtain ⟨hpending, hready⟩ | ⟨hpending, hready⟩ := h
  · by_cases hdue : readyAtNs ≤ nic.nowNs
    · simp [Carries, Cx5Nic.pollCompletions, hpending, hready, hdue]
    · simp [Carries, Cx5Nic.pollCompletions, hpending, hready, hdue, UInt64.not_le.mp hdue]
  · simp [Carries, Cx5Nic.pollCompletions, hpending, hready]

/-- What an idle card accepts is what it carries. -/
theorem Idle.submit {nic nic' : Cx5Nic} (h : nic.Idle) {packet : Packet} {readyAtNs : UInt64}
    (hsubmit : nic.submitRxReadyAt packet readyAtNs = (nic', .ok ())) :
    nic'.Carries packet readyAtNs ∧ nic'.nowNs = nic.nowNs ∧ nic'.cfg = nic.cfg := by
  unfold submitRxReadyAt at hsubmit
  split at hsubmit
  · cases hsubmit
  · cases hsubmit
    refine ⟨?_, rfl, rfl⟩
    rw [h.pending, List.nil_append]
    have hcarries : Carries { nic with pending := [⟨readyAtNs, packet⟩] } packet readyAtNs :=
      .inl ⟨rfl, h.rxReady⟩
    exact hcarries.pollCompletions.1

/-- The clock moves a carried packet along at most. -/
theorem Carries.advanceTime {nic : Cx5Nic} {packet : Packet} {readyAtNs : UInt64}
    (h : nic.Carries packet readyAtNs) (nowNs : UInt64) :
    (nic.advanceTime nowNs).Carries packet readyAtNs := by
  have hcarries : Carries { nic with nowNs } packet readyAtNs := h
  exact hcarries.pollCompletions.1

/-- Once its time has come, the carried packet is all the next burst returns. -/
theorem Carries.rxBurst {nic : Cx5Nic} {packet : Packet} {readyAtNs : UInt64}
    (h : nic.Carries packet readyAtNs) (hdue : readyAtNs ≤ nic.nowNs) {max : Nat} (hmax : 0 < max) :
    (nic.rxBurst max).2 = [packet] ∧ (nic.rxBurst max).1.Idle := by
  obtain ⟨hpending, hready⟩ := h.pollCompletions.2 hdue
  obtain ⟨max, rfl⟩ := Nat.exists_eq_succ_of_ne_zero (Nat.pos_iff_ne_zero.mp hmax)
  simp only [Cx5Nic.rxBurst, hready, List.take_succ_cons, List.take_nil, List.drop_succ_cons,
    List.drop_nil, true_and]
  exact ⟨hpending, rfl⟩

/-- Submitting to an idle card and waiting for the DMA delivers the packet. -/
theorem Idle.submitRx_burst {nic nic' : Cx5Nic} (h : nic.Idle) {packet : Packet} {nowNs : UInt64}
    (hsubmit : (nic.advanceTime nowNs).submitRx packet = (nic', .ok ())) {max : Nat}
    (hmax : 0 < max) :
    let waited := nic'.advanceTime (satAdd nowNs nic'.cfg.dmaLatencyNs)
    (waited.rxBurst max).2 = [packet] ∧ (waited.rxBurst max).1.Idle := by
  rw [h.advanceTime] at hsubmit
  have hidle : Idle { nic with nowNs } := ⟨h.pending, h.rxReady⟩
  obtain ⟨hcarries, -, hcfg⟩ := hidle.submit hsubmit
  refine (hcarries.advanceTime _).rxBurst ?_ hmax
  show satAdd nowNs nic.cfg.dmaLatencyNs ≤ satAdd nowNs nic'.cfg.dmaLatencyNs
  rw [hcfg]
  exact UInt64.le_refl _

/-- Submitting to an idle card with the current time as completion time delivers the packet at
once. -/
theorem Idle.submitRxReadyAt_burst {nic nic' : Cx5Nic} (h : nic.Idle) {packet : Packet}
    {nowNs : UInt64}
    (hsubmit : (nic.advanceTime nowNs).submitRxReadyAt packet nowNs = (nic', .ok ())) {max : Nat}
    (hmax : 0 < max) : (nic'.rxBurst max).2 = [packet] ∧ (nic'.rxBurst max).1.Idle := by
  rw [h.advanceTime] at hsubmit
  have hidle : Idle { nic with nowNs } := ⟨h.pending, h.rxReady⟩
  obtain ⟨hcarries, hnow, -⟩ := hidle.submit hsubmit
  refine hcarries.rxBurst ?_ hmax
  rw [hnow]
  exact UInt64.le_refl _

end Cx5Nic

end AetherRadio
