import AetherRadio.Host.Receive

/-!
# What the receiver delivers

Every packet that arrives goes through the idle card to the delivery loop, all by itself. Over a
whole run the send counter counts the accepted packets and the receive counter counts each of them
twice.
-/

namespace AetherRadio

open Verif

namespace HostRecv

variable {cfg : HostConfig} {s s' : HostState} {pkt : Packet}

/-- What the delivery of `n` packets changes. -/
structure DeliverStep (s s' : HostState) (n : Nat) : Prop where
  transport : s'.transport = s.transport
  nic : s'.nic = s.nic
  accepted : s'.accepted = s.accepted + n
  rx : s'.metrics.tally.rx = s.metrics.tally.rx + 2 * n
  tx : s'.metrics.tally.tx = s.metrics.tally.tx + n

/-- The GPU stage delivers nothing. -/
theorem gpuKernel_step {payload : List UInt8} (h : gpuKernel s payload = .ok s') :
    DeliverStep s s' 0 := by
  unfold gpuKernel at h
  split at h
  · next ring idx hreceive =>
    simp only [bind_eq_ok] at h
    obtain ⟨⟨ring₁, _⟩, -, ⟨ring₂, idx₂, doneAt⟩, -, ⟨ring₃, lat⟩, -, ⟨ring₄, _⟩, -, hs'⟩ := h
    cases hs'
    exact ⟨rfl, rfl, rfl, rfl, rfl⟩
  · next ring hreceive =>
    cases h
    exact ⟨rfl, rfl, rfl, rfl, rfl⟩
  · cases h

/-- The delivery of one packet counts it twice as received. -/
theorem deliver_step (h : deliver s pkt = .ok s') : DeliverStep s s' 1 := by
  rw [deliver, bind_eq_ok] at h
  obtain ⟨s₁, hgpu, hs'⟩ := h
  obtain ⟨htransport, hnic, haccepted, hrx, htx⟩ := gpuKernel_step hgpu
  cases hs'
  exact ⟨htransport, hnic, congrArg (· + 1) haccepted, hrx, congrArg (· + 1) htx⟩

/-- A packet that goes into the idle card comes out of it after the DMA, all by itself. -/
theorem forward_eq_ok (hidle : s.nic.Idle) (h : forward cfg s pkt = .ok s') :
    ∃ nic, nic.Idle ∧ nic.cfg = s.nic.cfg ∧
      deliver { s with nowNs := satAdd s.nowNs s.nic.cfg.dmaLatencyNs, nic } pkt = .ok s' := by
  rw [forward, bind_eq_ok] at h
  obtain ⟨⟨nic, _⟩, hnic, h⟩ := h
  have hsubmit := orFail_eq_ok.mp hnic
  have hcfg : nic.cfg = s.nic.cfg := by
    have hkept := (s.nic.advanceTime s.nowNs).submitRx_cfg pkt
    rwa [hsubmit] at hkept
  obtain ⟨hburst, hidle'⟩ := hidle.submitRx_burst hsubmit (by decide : 0 < 32)
  change deliverLoop cfg
    ((nic.advanceTime (satAdd s.nowNs nic.cfg.dmaLatencyNs)).rxBurst 32).2 _ = _ at h
  rw [hburst, deliverLoop, bind_eq_ok] at h
  obtain ⟨s₁, hdeliver, h⟩ := h
  have hs' : s₁ = s' := by
    split at h <;> exact Except.ok.inj h
  subst hs'
  rw [← hcfg]
  exact ⟨_, hidle', rfl, hdeliver⟩

/-- It is delivered, and the card is idle again. -/
theorem forward_step (hidle : s.nic.Idle) (h : forward cfg s pkt = .ok s') :
    s'.nic.Idle ∧ DeliverStep { s with nic := s'.nic } s' 1 := by
  obtain ⟨nic, hidle', -, hdeliver⟩ := forward_eq_ok hidle h
  obtain ⟨htransport, hnic', haccepted, hrx, htx⟩ := deliver_step hdeliver
  exact ⟨hnic' ▸ hidle', htransport, rfl, haccepted, hrx, htx⟩

/-- The receiver between two packets: it listens, nothing is in flight, and the counters agree with
the number of accepted packets. -/
structure Counted (cfg : HostConfig) (s : HostState) : Prop where
  listening : Listening cfg s
  nic : s.nic.Idle
  rx : s.metrics.tally.rx = 2 * s.accepted
  tx : s.metrics.tally.tx = s.accepted

/-- A packet that arrives is forwarded, any other one is done with after the receive path. -/
theorem Listening.processPacket_eq_ok (h : Listening cfg s)
    (hprocess : processPacket cfg s pkt = .ok s') :
    if Arrives cfg pkt then forward cfg (HostRecv.receiveOne cfg s pkt).1 pkt = .ok s'
    else s' = (HostRecv.receiveOne cfg s pkt).1 := by
  have hreceived := (h.receiveOne pkt).received
  rw [HostRecv.processPacket, bind_eq_ok] at hprocess
  obtain ⟨⟨s₁, received⟩, hreceive, hprocess⟩ := hprocess
  rw [orFail_eq_ok.mp hreceive] at hreceived ⊢
  cases hreceived
  by_cases harrives : Arrives cfg pkt
  · rw [if_pos harrives] at hprocess ⊢
    exact hprocess
  · rw [if_neg harrives] at hprocess ⊢
    exact (Except.ok.inj hprocess).symm

/-- A packet is accepted exactly when it arrives. -/
theorem Counted.processPacket (h : Counted cfg s) (hprocess : processPacket cfg s pkt = .ok s') :
    Counted cfg s' ∧ s'.accepted = s.accepted + if Arrives cfg pkt then 1 else 0 := by
  have hstep := h.listening.receiveOne pkt
  have hprocess := h.listening.processPacket_eq_ok hprocess
  have hidle : (receiveOne cfg s pkt).1.nic.Idle := hstep.nic ▸ h.nic
  have hrx := hstep.rx.trans h.rx
  have htx := hstep.tx.trans h.tx
  have haccepted := hstep.accepted
  by_cases harrives : Arrives cfg pkt
  · rw [if_pos harrives] at hprocess ⊢
    obtain ⟨hnic, htransport, -, hcount, hrx', htx'⟩ := forward_step hidle hprocess
    dsimp only at htransport hcount hrx' htx'
    exact ⟨⟨hstep.listening.of_transport htransport, hnic, by omega, by omega⟩, by omega⟩
  · rw [if_neg harrives] at hprocess ⊢
    subst hprocess
    exact ⟨⟨hstep.listening, hidle, by rw [hrx, haccepted], by rw [htx, haccepted]⟩, haccepted⟩

/-- A burst accepts what arrives in it. -/
theorem Counted.burst (h : Counted cfg s) {burst : List Packet}
    (hburst : burst.foldlM (HostRecv.processPacket cfg) s = .ok s') :
    Counted cfg s' ∧ s'.accepted = s.accepted + burst.countP (Arrives cfg ·) := by
  refine foldlM_invariant (P := fun seen s₁ ↦ Counted cfg s₁ ∧
    s₁.accepted = s.accepted + seen.countP (Arrives cfg ·)) hburst ⟨h, rfl⟩ ?_
  rintro pre pkt post s₁ s₂ - ⟨hcounted, haccepted⟩ hprocess
  obtain ⟨hcounted', haccepted'⟩ := hcounted.processPacket hprocess
  refine ⟨hcounted', ?_⟩
  rw [haccepted', haccepted, List.countP_append, List.countP_singleton, Nat.add_assoc]
  simp only [decide_eq_true_eq]

/-- The bursts of a run accept nothing exactly when nothing is asked for or nothing arrives. -/
theorem Counted.recvLoop {bursts : List (List Packet)} (h : Counted cfg s)
    (hloop : recvLoop cfg bursts s = .ok s') :
    Counted cfg s' ∧ (s'.accepted = 0 ↔ s.accepted = 0 ∧
      (cfg.symbols = 0 ∨ ∀ pkt ∈ bursts.flatten, ¬ Arrives cfg pkt)) := by
  induction bursts generalizing s with
  | nil =>
    cases hloop
    exact ⟨h, by simp⟩
  | cons burst bursts ih =>
    rw [HostRecv.recvLoop] at hloop
    split at hloop
    · next hmore =>
      rw [bind_eq_ok] at hloop
      obtain ⟨s₁, hburst, hrest⟩ := hloop
      obtain ⟨hcounted, haccepted⟩ := h.burst hburst
      obtain ⟨hcounted', hzero⟩ := ih hcounted hrest
      refine ⟨hcounted', hzero.trans ?_⟩
      have hsymbols : cfg.symbols ≠ 0 := by
        intro hnone
        rw [hnone] at hmore
        exact Nat.not_lt_zero _ hmore
      rw [haccepted, Nat.add_eq_zero_iff, List.countP_eq_zero, List.flatten_cons,
        List.forall_mem_append]
      simp only [hsymbols, false_or, decide_eq_true_eq, and_assoc]
    · next henough =>
      cases hloop
      refine ⟨h, ⟨fun hnone ↦ ⟨hnone, .inl ?_⟩, fun hnone ↦ hnone.1⟩⟩
      exact UInt64.toNat_inj.mp (by rw [UInt64.toNat_zero]; omega)

/-- Over a whole run. -/
theorem run_counted {bursts : List (List Packet)} {r : HostResult} (h : run cfg bursts = .ok r) :
    r.metrics.tally.rx = 2 * r.accepted ∧ r.metrics.tally.tx = r.accepted ∧
      (r.accepted = 0 ↔ cfg.symbols = 0 ∨ ∀ pkt ∈ bursts.flatten, ¬ Arrives cfg pkt) := by
  obtain ⟨s₀, hstart, hlistening, -, hidle, haccepted, hrx, htx⟩ := exists_start cfg
  rw [run, hstart] at h
  obtain ⟨_, hstarted, h⟩ := bind_eq_ok.mp h
  cases hstarted
  obtain ⟨s, hloop, hr⟩ := bind_eq_ok.mp h
  have hcounted : Counted cfg s₀ :=
    ⟨hlistening, hidle, by rw [hrx, haccepted], by rw [htx, haccepted]⟩
  obtain ⟨hcounted', hzero⟩ := hcounted.recvLoop hloop
  cases hr
  refine ⟨hcounted'.rx, hcounted'.tx, hzero.trans ?_⟩
  rw [haccepted]
  exact and_iff_right rfl

end HostRecv

end AetherRadio
