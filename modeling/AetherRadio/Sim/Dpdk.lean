import AetherRadio.Lib.Machine
import AetherRadio.Sim.Nic

/-!
# DPDK packet buffers

`crates/cx5-emulator/src/lib.rs`, `DpdkPacketIO`: a mock of the DPDK packet interface. Received
packets hold a buffer of the pool until `rx_burst` returns them, sent ones only during `tx_burst`.
-/

namespace AetherRadio

open Verif

/-- The part of the configuration that the mock reads.
From `crates/cx5-emulator/src/lib.rs:177–198`. -/
structure DpdkBackendConfig where
  backend : String
  enabled : Bool
  mbufPoolSize : UInt64
  burstSize : UInt64
  pollCostNs : UInt64
  deriving DecidableEq, Repr

/-- The mock: packets received and sent, and the number of buffers in use.
From `crates/cx5-emulator/src/lib.rs:221–228`. -/
structure DpdkPacketIO where
  cfg : DpdkBackendConfig
  rx : List Packet
  tx : List Packet
  mbufsInUse : UInt64
  pollCycles : Nat
  lastPollCostNs : UInt64
  deriving DecidableEq, Repr

/-- The calls on an open backend. -/
inductive DpdkOp where
  | injectRx (packets : List Packet)
  | rxBurst (max : Nat)
  | txBurst (packets : List Packet)

/-- The results of the calls. -/
inductive DpdkReply where
  | injected (result : Except Cx5Error Unit)
  | received (packets : List Packet)
  | sent (count : Nat)

namespace DpdkPacketIO

/-- `open_config`: only the mock can be opened. From `crates/cx5-emulator/src/lib.rs:236–255`. -/
def openConfig (cfg : DpdkBackendConfig) : Except Cx5Error DpdkPacketIO :=
  let mode := cfg.backend.toLower
  if (mode = "hardware" ∨ mode = "libdpdk" ∨ mode = "real") ∨ ¬ cfg.enabled then
    .error (.backendUnavailable ("DPDK backend=" ++ mode ++ " enabled=" ++ toString cfg.enabled ++
      " is not available in this build; use backend=mock"))
  else if ¬ (mode = "mock" ∨ mode = "simulation" ∨ mode = "sim") then
    .error (.config ("unknown DPDK backend '" ++ mode ++ "'"))
  else .ok { cfg, rx := [], tx := [], mbufsInUse := 0, pollCycles := 0, lastPollCostNs := 0 }

/-- `inject_rx` stops at the first packet without a buffer and keeps the ones before it.
From `crates/cx5-emulator/src/lib.rs:264–273`. -/
def injectRx (self : DpdkPacketIO) : List Packet → DpdkPacketIO × Except Cx5Error Unit
  | [] => (self, .ok ())
  | p :: packets =>
    if self.mbufsInUse ≥ self.cfg.mbufPoolSize then (self, .error .mbufExhausted)
    else
      { self with rx := self.rx ++ [p], mbufsInUse := self.mbufsInUse + 1 }.injectRx packets

/-- `rx_burst`. From `crates/cx5-emulator/src/lib.rs:293–300`. -/
def rxBurst (self : DpdkPacketIO) (max : Nat) : DpdkPacketIO × List Packet :=
  let n := min (min max self.cfg.burstSize.toNat) self.rx.length
  let out := self.rx.take n
  ({ self with
      rx := self.rx.drop n
      mbufsInUse := satSub self.mbufsInUse (.ofNat out.length)
      pollCycles := self.pollCycles + 1
      lastPollCostNs := self.cfg.pollCostNs }, out)

/-- `tx_burst`: the buffers return to the pool when the packets are sent.
From `crates/cx5-emulator/src/lib.rs:302–318`. -/
def txBurst (self : DpdkPacketIO) (packets : List Packet) : DpdkPacketIO × Nat :=
  let room := min (min (satSub self.cfg.mbufPoolSize self.mbufsInUse).toNat
    self.cfg.burstSize.toNat) packets.length
  let taken := packets.take room
  let n := taken.length
  let mbufsInUse := self.mbufsInUse + .ofNat n
  ({ self with
      tx := self.tx ++ taken
      mbufsInUse := satSub mbufsInUse (.ofNat n)
      pollCycles := self.pollCycles + 1
      lastPollCostNs := self.cfg.pollCostNs }, n)

/-- One call. -/
def act (self : DpdkPacketIO) : DpdkOp → DpdkPacketIO × DpdkReply
  | .injectRx packets => (self.injectRx packets).map id .injected
  | .rxBurst max => (self.rxBurst max).map id .received
  | .txBurst packets => (self.txBurst packets).map id .sent

/-- The open backend as a machine. -/
def dpdk : Machine DpdkPacketIO DpdkOp DpdkReply where
  step := act

/-- The longest prefix of a batch for which there are buffers. -/
def fitting (self : DpdkPacketIO) (packets : List Packet) : List Packet :=
  packets.take (self.cfg.mbufPoolSize.toNat - self.mbufsInUse.toNat)

/-- The packets a call accepts. -/
def accepts (self : DpdkPacketIO) : DpdkOp → List Packet
  | .injectRx packets => self.fitting packets
  | .rxBurst _ | .txBurst _ => []

/-- The packets a call returns. -/
def returns (self : DpdkPacketIO) (op : DpdkOp) : List Packet :=
  match (self.act op).2 with
  | .received packets => packets
  | .injected _ | .sent _ => []

/-- One buffer of the pool is in use for every waiting packet. -/
structure Accounts (io : DpdkPacketIO) : Prop where
  inUse : io.mbufsInUse.toNat = io.rx.length
  pool : io.mbufsInUse.toNat ≤ io.cfg.mbufPoolSize.toNat

variable {self : DpdkPacketIO}

private theorem Accounts.ofNat_length (h : self.Accounts) :
    UInt64.ofNat self.rx.length = self.mbufsInUse := by
  rw [← h.inUse, UInt64.ofNat_toNat]

private theorem fitting_of_full (h : self.mbufsInUse ≥ self.cfg.mbufPoolSize)
    (packets : List Packet) :
    self.fitting packets = [] := by
  rw [fitting, Nat.sub_eq_zero_of_le (UInt64.le_iff_toNat_le.mp h), List.take_zero]

/-- A packet that gets a buffer leaves one less for those after it. -/
theorem Accounts.accept (h : self.Accounts) (hroom : ¬ self.mbufsInUse ≥ self.cfg.mbufPoolSize)
    (p : Packet) :
    let next := { self with rx := self.rx ++ [p], mbufsInUse := self.mbufsInUse + 1 }
    next.Accounts ∧ ∀ packets, self.fitting (p :: packets) = p :: next.fitting packets := by
  have hlt := UInt64.lt_iff_toNat_lt.mp (UInt64.not_le.mp hroom)
  have hpool := self.cfg.mbufPoolSize.toNat_lt
  have hone : (self.mbufsInUse + 1).toNat = self.mbufsInUse.toNat + 1 := by
    rw [UInt64.toNat_add, UInt64.toNat_one]
    omega
  refine ⟨⟨?_, ?_⟩, ?_⟩
  · rw [List.length_append, ← h.inUse]
    exact hone
  · rw [hone]
    exact hlt
  · intro packets
    have hless : self.cfg.mbufPoolSize.toNat - self.mbufsInUse.toNat =
        self.cfg.mbufPoolSize.toNat - (self.mbufsInUse + 1).toNat + 1 := by omega
    rw [fitting, hless, List.take_succ_cons, fitting]

/-- What `inject_rx` does: it accepts the packets that fit. -/
theorem injectRx_eq (h : self.Accounts) (packets : List Packet) :
    self.injectRx packets = ({ self with
      rx := self.rx ++ self.fitting packets
      mbufsInUse := .ofNat (self.rx ++ self.fitting packets).length },
      if self.fitting packets = packets then .ok () else .error .mbufExhausted) := by
  induction packets generalizing self with
  | nil => rw [injectRx, fitting, List.take_nil, List.append_nil, h.ofNat_length, if_pos rfl]
  | cons p packets ih =>
    rw [injectRx]
    by_cases hfull : self.mbufsInUse ≥ self.cfg.mbufPoolSize
    · rw [if_pos hfull, fitting_of_full hfull, List.append_nil, h.ofNat_length,
        if_neg (List.cons_ne_nil _ _).symm]
    · obtain ⟨hnext, hfitting⟩ := h.accept hfull p
      rw [if_neg hfull, ih hnext, hfitting]
      simp

private theorem Accounts.injectRx (h : self.Accounts) (packets : List Packet) :
    (self.injectRx packets).1.Accounts := by
  have hlength : (self.rx ++ self.fitting packets).length ≤ self.cfg.mbufPoolSize.toNat := by
    have hpool := h.pool
    rw [List.length_append, ← h.inUse, fitting, List.length_take]
    omega
  have hcount := UInt64.toNat_ofNat_of_lt'
    (Nat.lt_of_le_of_lt hlength self.cfg.mbufPoolSize.toNat_lt)
  rw [injectRx_eq h]
  exact ⟨hcount, hcount.trans_le hlength⟩

/-- How many packets `rx_burst` returns. -/
def burst (self : DpdkPacketIO) (max : Nat) : Nat :=
  min (min max self.cfg.burstSize.toNat) self.rx.length

private theorem length_rxBurst (self : DpdkPacketIO) (max : Nat) :
    (self.rxBurst max).2.length = self.burst max := by
  rw [rxBurst, List.length_take, burst]
  omega

/-- The packets of a burst hold buffers. -/
theorem Accounts.burst_le (h : self.Accounts) (max : Nat) :
    self.burst max ≤ self.mbufsInUse.toNat := by
  rw [h.inUse]
  exact Nat.min_le_right ..

/-- They are given back. -/
theorem Accounts.toNat_rxBurst (h : self.Accounts) (max : Nat) :
    (self.rxBurst max).1.mbufsInUse.toNat = self.mbufsInUse.toNat - self.burst max := by
  have hsmall : self.burst max < 2 ^ 64 :=
    Nat.lt_of_le_of_lt (h.burst_le max) self.mbufsInUse.toNat_lt
  show (satSub self.mbufsInUse (.ofNat (self.rxBurst max).2.length)).toNat = _
  rw [toNat_satSub, length_rxBurst, UInt64.toNat_ofNat_of_lt' hsmall]

theorem Accounts.rxBurst (h : self.Accounts) (max : Nat) : (self.rxBurst max).1.Accounts := by
  constructor
  · rw [h.toNat_rxBurst, h.inUse]
    exact List.length_drop.symm
  · rw [h.toNat_rxBurst]
    exact Nat.le_trans (Nat.sub_le ..) h.pool

/-- How many packets `tx_burst` sends. -/
def sends (self : DpdkPacketIO) (packets : List Packet) : Nat :=
  min packets.length
    (min self.cfg.burstSize.toNat (self.cfg.mbufPoolSize.toNat - self.mbufsInUse.toNat))

/-- What `tx_burst` does: the buffers it takes are given back. -/
theorem txBurst_eq (h : self.Accounts) (packets : List Packet) :
    self.txBurst packets = ({ self with
      tx := self.tx ++ packets.take (self.sends packets)
      pollCycles := self.pollCycles + 1
      lastPollCostNs := self.cfg.pollCostNs }, self.sends packets) := by
  have hpool := h.pool
  have hlt := self.cfg.mbufPoolSize.toNat_lt
  have hroom : min (min (satSub self.cfg.mbufPoolSize self.mbufsInUse).toNat
      self.cfg.burstSize.toNat) packets.length = self.sends packets := by
    rw [toNat_satSub, sends]
    omega
  have hlength : (packets.take (self.sends packets)).length = self.sends packets := by
    rw [List.length_take, sends]
    omega
  have hback : satSub (self.mbufsInUse + .ofNat (self.sends packets))
      (.ofNat (self.sends packets)) = self.mbufsInUse := by
    have hsends : self.sends packets ≤ self.cfg.mbufPoolSize.toNat - self.mbufsInUse.toNat := by
      rw [sends]
      omega
    apply UInt64.toNat_inj.mp
    rw [toNat_satSub, UInt64.toNat_add, UInt64.toNat_ofNat']
    omega
  simp only [txBurst, hroom, hlength, hback]

private theorem Accounts.txBurst (h : self.Accounts) (packets : List Packet) :
    (self.txBurst packets).1.Accounts := by
  rw [txBurst_eq h]
  exact ⟨h.inUse, h.pool⟩

/-- Every call keeps the accounts. -/
theorem Accounts.act (h : self.Accounts) (op : DpdkOp) : (self.act op).1.Accounts := by
  cases op with
  | injectRx packets => exact h.injectRx packets
  | rxBurst max => exact h.rxBurst max
  | txBurst packets => exact h.txBurst packets

/-- Every call returns waiting packets from the front and appends what it accepts. -/
private theorem act_conserves (h : self.Accounts) (op : DpdkOp) :
    self.returns op ++ (self.act op).1.rx = self.rx ++ self.accepts op := by
  cases op with
  | injectRx packets => exact congrArg (·.1.rx) (injectRx_eq h packets)
  | rxBurst max => exact (List.take_append_drop ..).trans (List.append_nil _).symm
  | txBurst packets =>
    exact (congrArg (·.1.rx) (txBurst_eq h packets)).trans (List.append_nil _).symm

/-- No call changes the configuration. -/
private theorem act_cfg (h : self.Accounts) (op : DpdkOp) : (self.act op).1.cfg = self.cfg := by
  cases op with
  | injectRx packets => exact congrArg (·.1.cfg) (injectRx_eq h packets)
  | rxBurst max => rfl
  | txBurst packets => rfl

/-- What opens is an empty mock. -/
private theorem openConfig_eq_ok {cfg : DpdkBackendConfig} {io : DpdkPacketIO}
    (h : openConfig cfg = .ok io) : io.cfg = cfg ∧ io.rx = [] ∧ io.Accounts := by
  unfold openConfig at h
  dsimp only at h
  split at h
  · cases h
  · split at h
    · cases h
    · obtain rfl := Except.ok.inj h
      exact ⟨rfl, rfl, rfl, Nat.zero_le _⟩

/-- A batch is accepted up to the first packet that has no buffer. -/
structure Injects (io : DpdkPacketIO) (packets : List Packet) : Prop where
  rx : (io.injectRx packets).1.rx = io.rx ++ io.fitting packets
  result : (io.injectRx packets).2 =
    if io.fitting packets = packets then .ok () else .error .mbufExhausted

/-- A burst is of the first packets, which hold buffers. -/
structure Receives (io : DpdkPacketIO) (max : Nat) : Prop where
  packets : (io.rxBurst max).2 = io.rx.take (min max io.cfg.burstSize.toNat)
  rx : (io.rxBurst max).1.rx = io.rx.drop (io.rxBurst max).2.length
  length : (io.rxBurst max).2.length ≤ min max io.cfg.burstSize.toNat
  held : (io.rxBurst max).2.length ≤ io.mbufsInUse.toNat
  inUse : (io.rxBurst max).1.mbufsInUse.toNat =
    io.mbufsInUse.toNat - (io.rxBurst max).2.length

/-- The first packets are sent, in free buffers that are given back. -/
structure Transmits (io : DpdkPacketIO) (packets : List Packet) : Prop where
  count : (io.txBurst packets).2 = min packets.length
    (min io.cfg.burstSize.toNat (io.cfg.mbufPoolSize.toNat - io.mbufsInUse.toNat))
  tx : (io.txBurst packets).1.tx = io.tx ++ packets.take (io.txBurst packets).2
  rx : (io.txBurst packets).1.rx = io.rx
  free : io.mbufsInUse.toNat + (io.txBurst packets).2 ≤ io.cfg.mbufPoolSize.toNat
  inUse : (io.txBurst packets).1.mbufsInUse = io.mbufsInUse

private theorem Accounts.injects (h : self.Accounts) (packets : List Packet) :
    self.Injects packets := by
  constructor
  · rw [injectRx_eq h]
  · rw [injectRx_eq h]

theorem Accounts.receives (h : self.Accounts) (max : Nat) : self.Receives max := by
  have hlength := self.length_rxBurst max
  constructor
  · apply List.take_eq_take_iff.mpr
    omega
  · rw [hlength]
    rfl
  · rw [hlength]
    exact Nat.min_le_left ..
  · rw [hlength]
    exact h.burst_le max
  · rw [hlength]
    exact h.toNat_rxBurst max

private theorem Accounts.transmits (h : self.Accounts) (packets : List Packet) :
    self.Transmits packets := by
  have hpool := h.pool
  constructor <;> rw [txBurst_eq h]
  · rfl
  · rw [sends]
    omega

/-- In every state that calls on an open mock lead to, as many buffers of the pool are in use as
packets wait, and the packets returned followed by the waiting ones are those accepted. The next
call accepts what fits, returns no more than a burst and sends as many as there are free buffers;
no subtraction saturates. -/
theorem mbuf_accounting {cfg : DpdkBackendConfig} {opened : DpdkPacketIO}
    (h : openConfig cfg = .ok opened) (ops : List DpdkOp) :
    let io := dpdk.run opened ops
    io.cfg = cfg ∧ io.mbufsInUse.toNat = io.rx.length ∧
      io.mbufsInUse.toNat ≤ io.cfg.mbufPoolSize.toNat ∧
      dpdk.collect returns opened ops ++ io.rx = dpdk.collect accepts opened ops ∧
      (∀ packets, io.Injects packets) ∧ (∀ max, io.Receives max) ∧
      ∀ packets, io.Transmits packets := by
  intro io
  obtain ⟨hcfg, hempty, hstart⟩ := openConfig_eq_ok h
  have hreached : io.cfg = cfg ∧ io.Accounts :=
    dpdk.run_preserves (P := fun s ↦ s.cfg = cfg ∧ s.Accounts) ⟨hcfg, hstart⟩
      (fun s op hs _ ↦ ⟨(act_cfg hs.2 op).trans hs.1, hs.2.act op⟩) (dpdk.permits_true ..)
  obtain ⟨hcfg, haccounts⟩ := hreached
  have hconserves := dpdk.collect_conserves (P := Accounts) (fun s op hs ↦ hs.act op)
    (fun s op hs ↦ act_conserves hs op) hstart ops
  rw [hempty, List.nil_append] at hconserves
  exact ⟨hcfg, haccounts.inUse, haccounts.pool, hconserves, haccounts.injects,
    haccounts.receives, haccounts.transmits⟩

/-- A pool of three buffers and bursts of two. -/
def smallMock : DpdkBackendConfig := ⟨"mock", true, 3, 2, 10⟩

private theorem openConfig_smallMock : openConfig smallMock = .ok ⟨smallMock, [], [], 0, 0, 0⟩ := by
  have hmode : smallMock.backend.toLower = "mock" := by
    apply String.toList_inj.mp
    show (smallMock.backend.map Char.toLower).toList = _
    rw [String.toList_map]
    decide
  rw [openConfig, hmode]
  rfl

/-- Of four packets three are accepted, and two of them are returned. -/
theorem mbuf_accounting_smallMock :
    let packet (n : UInt64) : Packet := ⟨⟨1⟩, ⟨n⟩, ⟨0⟩, []⟩
    let ops : List DpdkOp := [.injectRx [packet 0, packet 1, packet 2, packet 3], .rxBurst 8,
      .txBurst [packet 0]]
    let opened : DpdkPacketIO := ⟨smallMock, [], [], 0, 0, 0⟩
    dpdk.collect accepts opened ops = [packet 0, packet 1, packet 2] ∧
      dpdk.collect returns opened ops ++ (dpdk.run opened ops).rx =
        dpdk.collect accepts opened ops ∧
      (dpdk.run opened ops).rx = [packet 2] := by
  intro packet ops opened
  exact ⟨by decide, (mbuf_accounting openConfig_smallMock ops).2.2.2.1, by decide⟩

end DpdkPacketIO

end AetherRadio
