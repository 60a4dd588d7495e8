import AetherRadio.Host.Udp
import AetherRadio.Shm.Progress

/-!
# From the emulator to the receiver over shared memory

`fpga-emit` and `host-recv` over one ring, as two processes whose steps interleave: the emitter
sends a symbol with `send_packet`, the receiver polls for bursts of 32 packets and processes them.
-/

namespace AetherRadio

open Verif Shm

/-- Both programs. `left` are the symbols the emitter has still to send; `failed` is the error it
has given up with. -/
structure Dual (g : Geometry) where
  link : Link g
  fpga : FpgaEmulator
  left : Nat
  failed : Option ShmIoError
  host : Except RuntimeError HostState

/-- Which of the two takes the next step. -/
inductive DualAct where
  | emit
  | recv
  deriving DecidableEq

namespace Dual

variable {g : Geometry}

/-- Where the emitter goes on after a step of `send_packet`: it gives up at the first error. -/
def sent (d : Dual g) : Link g × LinkReply → Dual g
  | (link, .sent _ (.error e)) => { d with link, left := 0, failed := some e }
  | (link, _) => { d with link }

variable (cfg : HostConfig) (tone : UInt64 → Nat → IQSample)

/-- Where the receiver goes on after a step of `rx_burst`: it processes the burst. -/
def received (d : Dual g) : Link g × LinkReply → Dual g
  | (link, .handedOut _ burst) =>
    { d with link, host := d.host.bind (burst.foldlM (HostRecv.processPacket cfg)) }
  | (link, _) => { d with link }

/-- A step of the emitter. -/
def emit (d : Dual g) : Dual g :=
  match d.link.sending with
  | some _ => d.sent d.link.stepSend
  | none =>
    if d.left = 0 then d
    else
      let (fpga, pkt) := d.fpga.emitSymbol tone
      { d with link := (d.link.send pkt).1, fpga, left := d.left - 1 }

/-- A step of the receiver, which goes on until it has accepted enough or failed. -/
def recv (d : Dual g) : Dual g :=
  match d.link.polling with
  | some _ => d.received cfg d.link.stepBurst
  | none =>
    match d.host with
    | .error _ => d
    | .ok s => if s.accepted < cfg.symbols.toNat then d.received cfg (d.link.burst 32) else d

/-- One step. -/
def act (d : Dual g) : DualAct → Dual g
  | .emit => d.emit tone
  | .recv => d.recv cfg

/-- Both programs at the head of their loops, attached to a freshly initialised ring. -/
def start (g : Geometry) (timing : RadioTimingConfig) (symbols : Nat) : Dual g :=
  { link := Link.init g
    fpga := .new timing cfg.streamId
    left := symbols
    failed := none
    host := HostRecv.start cfg }

/-- The steps of the link that a step takes. -/
def linkActs (d : Dual g) : DualAct → List LinkAct
  | .emit =>
    match d.link.sending with
    | some _ => [.stepSend]
    | none => if d.left = 0 then [] else [.send (d.fpga.emitSymbol tone).2]
  | .recv =>
    match d.link.polling with
    | some _ => [.stepBurst]
    | none =>
      match d.host with
      | .error _ => []
      | .ok s => if s.accepted < cfg.symbols.toNat then [.burst 32] else []

@[simp] theorem link_sent (d : Dual g) (r : Link g × LinkReply) : (d.sent r).link = r.1 := by
  unfold sent
  split <;> rfl

@[simp] theorem link_received (d : Dual g) (r : Link g × LinkReply) :
    (d.received cfg r).link = r.1 := by
  unfold received
  split <;> rfl

private theorem link_act (d : Dual g) (a : DualAct) :
    (d.act cfg tone a).link = (Shm.link g).run d.link (d.linkActs cfg tone a) := by
  cases a with
  | emit =>
    unfold act emit linkActs
    cases d.link.sending with
    | some left => exact link_sent ..
    | none =>
      dsimp only
      split <;> rfl
  | recv =>
    unfold act recv linkActs
    cases d.link.polling with
    | some poll => exact link_received ..
    | none =>
      cases d.host with
      | error e => rfl
      | ok s =>
        dsimp only
        split
        · exact link_received ..
        · rfl

end Dual

/-- The machine of both programs. -/
def dual (cfg : HostConfig) (tone : UInt64 → Nat → IQSample) (g : Geometry) :
    Machine (Dual g) DualAct Unit where
  step d a := (d.act cfg tone a, ())

/-- It runs on the link. -/
def dualUses (cfg : HostConfig) (tone : UInt64 → Nat → IQSample) (g : Geometry) :
    (dual cfg tone g).Uses (Shm.link g) where
  part := Dual.link
  calls := Dual.linkActs cfg tone
  step := Dual.link_act cfg tone

/-- The trace of the link in a run of both programs. -/
abbrev linkTrace (cfg : HostConfig) (tone : UInt64 → Nat → IQSample) (timing : RadioTimingConfig)
    (symbols : Nat) (g : Geometry) (sched : List DualAct) : List (LinkAct × LinkReply) :=
  (Shm.link g).trace (Link.init g)
    ((dualUses cfg tone g).schedule (Dual.start cfg g timing symbols) sched)

section Holds

variable (cfg : HostConfig) (tone : UInt64 → Nat → IQSample) (timing : RadioTimingConfig)
  (symbols : Nat) {g : Geometry}

/-- The packet of a symbol on the receiver's stream. -/
def symbolPacket (k : Nat) : Packet := FpgaEmulator.packetAt tone timing cfg.streamId k

/-- The emitter has sent `m` symbols, and is between two of them, sending the next one, or given
up on it. -/
inductive EmitterAt (m : Nat) (d : Dual g) : Prop where
  | between (free : d.link.sending = none) (running : d.failed = none)
      (fpga : d.fpga.Emits timing cfg.streamId m) (left : m + d.left = symbols)
  | sending (sending : d.link.SendingOf (symbolPacket cfg tone timing m))
      (running : d.failed = none) (fpga : d.fpga.Emits timing cfg.streamId (m + 1))
      (left : m + 1 + d.left = symbols)
  | gaveUp (e : ShmIoError) (free : d.link.sending = none) (failed : d.failed = some e)
      (answer : Shm.Answers g (symbolPacket cfg tone timing m) (.error e)) (done : d.left = 0)
      (left : m < symbols)

/-- The receiver has processed what the link has handed out. -/
def ReceiverAt (t : List (LinkAct × LinkReply)) (d : Dual g) : Prop :=
  EndsIn d.host ((Shm.handedOut t).findSome? (HostRecv.refusal cfg))
    (HostRecv.Sound cfg (Shm.handedOut t))

variable {cfg tone timing symbols}

private theorem sentOk_append (t t' : List (LinkAct × LinkReply)) :
    sentOk (t ++ t') = sentOk t ++ sentOk t' := List.flatMap_append

theorem Shm.handedOut_append (t t' : List (LinkAct × LinkReply)) :
    Shm.handedOut (t ++ t') = Shm.handedOut t ++ Shm.handedOut t' := List.flatMap_append

/-- The receiver processes the packets of an answer, if it has any. -/
private theorem Dual.host_received (d : Dual g) (r : Link g × LinkReply) :
    (d.received cfg r).host = d.host >>= r.2.packets.foldlM (HostRecv.processPacket cfg) := by
  obtain ⟨link, reply⟩ := r
  cases reply with
  | handedOut max burst => rfl
  | _ => cases hhost : d.host <;> simp [Dual.received, hhost, LinkReply.packets]

theorem ReceiverAt.received {t : List (LinkAct × LinkReply)} {d : Dual g}
    (h : ReceiverAt cfg t d) (a : LinkAct) (r : Link g × LinkReply) :
    ReceiverAt cfg (t ++ [(a, r.2)]) (d.received cfg r) := by
  have hout : Shm.handedOut (t ++ [(a, r.2)]) = Shm.handedOut t ++ r.2.packets := by
    rw [Shm.handedOut_append]
    exact congrArg _ (List.append_nil _)
  unfold ReceiverAt
  rw [hout, List.findSome?_append, Dual.host_received]
  apply EndsIn.bind h
  intro s hsound
  exact .foldlM (fun pre pkt s h ↦ HostRecv.processPacket_ends pre pkt s h) _ hsound

/-- A step of the receiver leaves the emitter where it is. -/
theorem EmitterAt.received {m : Nat} {d : Dual g} (h : EmitterAt cfg tone timing symbols m d)
    {r : Link g × LinkReply} (hframe : Link.ReceiverFrame d.link r.1 r.2) :
    EmitterAt cfg tone timing symbols m (d.received cfg r) := by
  have hlink := d.link_received cfg r
  have hsame : (d.received cfg r).fpga = d.fpga ∧ (d.received cfg r).left = d.left ∧
      (d.received cfg r).failed = d.failed := by
    unfold Dual.received
    split <;> exact ⟨rfl, rfl, rfl⟩
  obtain ⟨hfpga, hleft, hfailed⟩ := hsame
  cases h with
  | between free running fpga left =>
    refine .between ?_ (hfailed.trans running) (hfpga ▸ fpga) (hleft ▸ left)
    rw [hlink, hframe.sending, free]
  | sending sending running fpga left =>
    refine .sending ⟨?_, ?_⟩ (hfailed.trans running) (hfpga ▸ fpga) (hleft ▸ left)
    · rw [hlink, hframe.sending]
      exact sending.1
    · rw [hlink, hframe.push]
      exact sending.2
  | gaveUp e free failed answer done left =>
    refine .gaveUp e ?_ (hfailed.trans failed) answer (hleft.trans done) left
    rw [hlink, hframe.sending, free]

/-- A step of the emitter sends the next symbol, goes on with it, or is done with it. -/
theorem EmitterAt.emit {m : Nat} {d : Dual g} (h : EmitterAt cfg tone timing symbols m d)
    {sched : List LinkAct} (hlink : d.link = (Shm.link g).run (Link.init g) sched)
    {t : List (LinkAct × LinkReply)}
    (hsent : sentOk t = (List.range m).map (symbolPacket cfg tone timing)) :
    ∃ m', EmitterAt cfg tone timing symbols m' (d.emit tone) ∧
      sentOk (t ++ (Shm.link g).trace d.link (d.linkActs cfg tone .emit)) =
        (List.range m').map (symbolPacket cfg tone timing) := by
  cases h with
  | between free running fpga left =>
    obtain ⟨hpacket, hnext⟩ := fpga.emitSymbol tone
    have hpush : d.link.world.push = .idle := by
      have htidy := Link.tidy_run (g := g) sched
      rw [← hlink] at htidy
      exact htidy.push.mp free
    simp only [Dual.emit, Dual.linkActs, free]
    by_cases hdone : d.left = 0
    · rw [if_pos hdone, if_pos hdone]
      refine ⟨m, .between free running fpga left, ?_⟩
      rw [Machine.trace_nil, List.append_nil, hsent]
    · rw [if_neg hdone, if_neg hdone, hpacket]
      refine ⟨m, .sending ?_ running hnext ?_, ?_⟩
      · show (d.link.send _).1.SendingOf _
        rw [Link.send, free]
        exact ⟨rfl, packet?_callPush hpush _⟩
      · show m + 1 + (d.left - 1) = symbols
        omega
      · rw [sentOk_append, hsent]
        have hsilent : (d.link.send (FpgaEmulator.packetAt tone timing cfg.streamId m)).2 =
            .silent := by rw [Link.send, free]
        show _ ++ (LinkReply.sentOk (d.link.send _).2 ++ []) = _
        rw [hsilent]
        exact List.append_nil _
  | sending sending running fpga left =>
    obtain ⟨tries, htries⟩ := Option.isSome_iff_exists.mp sending.1
    have hemit : d.emit tone = d.sent d.link.stepSend := by rw [Dual.emit, htries]
    have hacts : d.linkActs cfg tone .emit = [.stepSend] := by rw [Dual.linkActs, htries]
    rw [hemit, hacts, sentOk_append, hsent]
    have hreplies : sentOk ((Shm.link g).trace d.link [.stepSend]) = d.link.stepSend.2.sentOk :=
      List.append_nil _
    rw [hreplies]
    by_cases hanswer : ∃ result, d.link.stepSend.2 = .sent (symbolPacket cfg tone timing m) result
    · obtain ⟨result, hresult⟩ := hanswer
      have hfree := sending_of_sent hresult
      rw [hresult]
      generalize hr : d.link.stepSend = r at hresult hfree
      obtain ⟨link, reply⟩ := r
      dsimp only at hresult hfree
      subst hresult
      cases result with
      | ok _ =>
        refine ⟨m + 1, .between hfree running fpga left, ?_⟩
        rw [List.range_succ, List.map_append]
        rfl
      | error e =>
        have hexplained := Link.act_explained d.link .stepSend
        rw [show (Link.act d.link .stepSend).2 = _ from congrArg Prod.snd hr] at hexplained
        have hanswers := Link.sized_run (g := g) sched
        rw [← hlink, pushReturned_of_step hexplained] at hanswers
        refine ⟨m, .gaveUp e hfree rfl hanswers rfl (by omega), ?_⟩
        exact List.append_nil _
    · obtain ⟨hgoes, -⟩ := Link.stepSend_closer sending fun result h ↦ hanswer ⟨result, h⟩
      have hsilent : ∀ packet result, d.link.stepSend.2 ≠ .sent packet result := by
        intro packet result hresult
        have hexplained := Link.act_explained d.link .stepSend
        rw [show (Link.act d.link .stepSend).2 = _ from hresult] at hexplained
        have hpacket := sending.2
        rw [pushReturned_of_step hexplained] at hpacket
        exact hanswer ⟨result, by rw [hresult, Option.some.inj hpacket]⟩
      generalize d.link.stepSend = r at hgoes hsilent
      obtain ⟨link, reply⟩ := r
      cases reply with
      | sent packet result => exact absurd rfl (hsilent packet result)
      | _ => exact ⟨m, .sending hgoes running fpga left, List.append_nil _⟩
  | gaveUp e free failed answer done left =>
    have hsame : d.emit tone = d := by
      simp only [Dual.emit, free]
      exact if_pos done
    have hacts : d.linkActs cfg tone .emit = [] := by
      simp only [Dual.linkActs, free]
      exact if_pos done
    rw [hsame, hacts, Machine.trace_nil, List.append_nil]
    exact ⟨m, .gaveUp e free failed answer done left, hsent⟩

/-- A step of the receiver. -/
theorem ReceiverAt.recv {m : Nat} {d : Dual g} {t : List (LinkAct × LinkReply)}
    (hemitter : EmitterAt cfg tone timing symbols m d) (h : ReceiverAt cfg t d) :
    EmitterAt cfg tone timing symbols m (d.recv cfg) ∧
      sentOk (t ++ (Shm.link g).trace d.link (d.linkActs cfg tone .recv)) = sentOk t ∧
      ReceiverAt cfg (t ++ (Shm.link g).trace d.link (d.linkActs cfg tone .recv))
        (d.recv cfg) := by
  have hstays : EmitterAt cfg tone timing symbols m d ∧ sentOk (t ++ []) = sentOk t ∧
      ReceiverAt cfg (t ++ []) d := by
    rw [List.append_nil]
    exact ⟨hemitter, rfl, h⟩
  have hgoes (a : LinkAct) (r : Link g × LinkReply)
      (hframe : Link.ReceiverFrame d.link r.1 r.2) :
      EmitterAt cfg tone timing symbols m (d.received cfg r) ∧
        sentOk (t ++ [(a, r.2)]) = sentOk t ∧
        ReceiverAt cfg (t ++ [(a, r.2)]) (d.received cfg r) := by
    refine ⟨hemitter.received hframe, ?_, h.received a r⟩
    rw [sentOk_append]
    show _ ++ (r.2.sentOk ++ []) = _
    rw [hframe.sentOk]
    exact List.append_nil _
  unfold Dual.recv Dual.linkActs
  cases d.link.polling with
  | some poll => exact hgoes .stepBurst _ (Link.stepBurst_frame d.link)
  | none =>
    dsimp only
    split
    · exact hstays
    · split
      · exact hgoes (.burst 32) _ (Link.burst_frame d.link 32)
      · exact hstays

/-- A step of the emitter is none of the receiver's. -/
theorem ReceiverAt.emit {d : Dual g} {t : List (LinkAct × LinkReply)} (h : ReceiverAt cfg t d) :
    ReceiverAt cfg (t ++ (Shm.link g).trace d.link (d.linkActs cfg tone .emit))
      (d.emit tone) := by
  have hsent (r : Link g × LinkReply) : (d.sent r).host = d.host := by
    unfold Dual.sent
    split <;> rfl
  have hhost : (d.emit tone).host = d.host := by
    unfold Dual.emit
    cases d.link.sending with
    | some tries => exact hsent _
    | none =>
      dsimp only
      split <;> rfl
  have hout : Shm.handedOut ((Shm.link g).trace d.link (d.linkActs cfg tone .emit)) = [] := by
    unfold Dual.linkActs
    cases d.link.sending with
    | some tries => exact congrArg (· ++ []) (Link.stepSend_frame d.link).packets
    | none =>
      dsimp only
      split
      · rfl
      · exact congrArg (· ++ []) (Link.send_frame d.link _).packets
  unfold ReceiverAt
  rw [hhost, Shm.handedOut_append, hout, List.append_nil]
  exact h

end Holds

/-- Consecutive numbers have no breaks. -/
private theorem breaks_consecutive (a n : Nat) :
    breaks (· + 1) (UInt64.ofNat a) ((List.range n).map fun i ↦ UInt64.ofNat (a + i)) = 0 := by
  induction n generalizing a with
  | zero => rfl
  | succ n ih =>
    have hshift (i : Nat) : a + (i + 1) = a + 1 + i := by omega
    rw [List.range_succ_eq_map, List.map_cons, List.map_map, breaks, Nat.add_zero, if_pos rfl,
      Nat.zero_add, ofNat_add_one]
    have hrest := ih (a + 1)
    simp only [← hshift] at hrest
    exact hrest

/-- So a receiver of the first symbols counts a gap only if it does not start at zero. -/
private theorem breaks_range (start : UInt64) (n : Nat) :
    breaks (· + 1) start ((List.range n).map UInt64.ofNat) =
      if start = 0 ∨ n = 0 then 0 else 1 := by
  cases n with
  | zero =>
    rw [if_pos (.inr rfl)]
    rfl
  | succ n =>
    have hrest := breaks_consecutive 1 n
    have hshift (i : Nat) : 1 + i = i + 1 := Nat.add_comm 1 i
    simp only [hshift] at hrest
    rw [List.range_succ_eq_map, List.map_cons, List.map_map, breaks]
    have hzero : breaks (· + 1) (UInt64.ofNat 0 + 1) ((List.range n).map
        (UInt64.ofNat ∘ Nat.succ)) = 0 := hrest
    rw [hzero, Nat.add_zero]
    by_cases hstart : start = 0
    · subst hstart
      rfl
    · rw [if_neg (fun h ↦ hstart h.symm), if_neg]
      rintro (h | h)
      · exact hstart h
      · cases h

/-- A push that has made its last store carries the packet it has stored. -/
private theorem pastLastStore_eq {g : Geometry} (s : World g) :
    s.pastLastStore = [] ∨
      ∃ packet, s.push.packet? = some packet ∧ s.pastLastStore = [packet] := by
  unfold World.pastLastStore
  split
  · next packet hpc => exact .inr ⟨packet, by rw [hpc]; rfl, rfl⟩
  · exact .inl rfl

section Order

variable {cfg : HostConfig} {tone : UInt64 → Nat → IQSample} {timing : RadioTimingConfig}
  {symbols : Nat} {g : Geometry}

/-- The symbols that have been sent, with the one whose push has stored it. -/
theorem EmitterAt.stored {m : Nat} {d : Dual g} (h : EmitterAt cfg tone timing symbols m d)
    (htidy : d.link.Tidy) :
    ∃ n, m ≤ n ∧ n ≤ m + 1 ∧ n ≤ symbols ∧
      (List.range m).map (symbolPacket cfg tone timing) ++ d.link.world.pastLastStore =
        (List.range n).map (symbolPacket cfg tone timing) := by
  have hidle (free : d.link.sending = none) : d.link.world.pastLastStore = [] := by
    rw [World.pastLastStore, htidy.push.mp free]
  cases h with
  | between free running fpga left =>
    refine ⟨m, Nat.le_refl m, Nat.le_succ m, by omega, ?_⟩
    rw [hidle free, List.append_nil]
  | sending sending running fpga left =>
    rcases pastLastStore_eq d.link.world with hnone | ⟨packet, hpacket, hstored⟩
    · refine ⟨m, Nat.le_refl m, Nat.le_succ m, by omega, ?_⟩
      rw [hnone, List.append_nil]
    · refine ⟨m + 1, Nat.le_succ m, Nat.le_refl _, by omega, ?_⟩
      rw [sending.2] at hpacket
      rw [hstored, ← Option.some.inj hpacket, List.range_succ, List.map_append]
      rfl
  | gaveUp e free failed answer done left =>
    refine ⟨m, Nat.le_refl m, Nat.le_succ m, Nat.le_of_lt left, ?_⟩
    rw [hidle free, List.append_nil]

/-- An emitter that is done has sent all symbols, or given up for a reason. -/
theorem EmitterAt.outcome {m : Nat} {d : Dual g} (h : EmitterAt cfg tone timing symbols m d) :
    (d.link.sending = none → d.left = 0 → d.failed = none → m = symbols) ∧
      ∀ e, d.failed = some e →
        m < symbols ∧ Shm.Answers g (symbolPacket cfg tone timing m) (.error e) := by
  cases h with
  | between free running fpga left =>
    rw [running]
    exact ⟨fun _ _ _ ↦ by omega, nofun⟩
  | sending sending running fpga left =>
    rw [running]
    refine ⟨fun hfree ↦ ?_, nofun⟩
    have hsome := sending.1
    rw [hfree] at hsome
    cases hsome
  | gaveUp e free failed answer done left =>
    rw [failed]
    refine ⟨nofun, fun e' he ↦ ?_⟩
    cases he
    exact ⟨left, answer⟩

/-- A receiver that has got the first symbols of an emulator has accepted them all. -/
theorem ReceiverAt.accepts {n : Nat} {d : Dual g} {t : List (LinkAct × LinkReply)}
    (h : ReceiverAt cfg t d) (hage : 1_000_000 ≤ cfg.deadline.maxLatencyNs)
    (hout : Shm.handedOut t = (List.range n).map (symbolPacket cfg tone timing)) :
    EndsIn d.host
      ((List.range n).head?.bind fun k ↦ HostRecv.refusal cfg (symbolPacket cfg tone timing k))
      fun s ↦ s.accepted = n ∧
        s.transport.sequenceGaps = (if cfg.deadline.startSequence = 0 ∨ n = 0 then 0 else 1) ∧
        s.transport.latePackets = 0 := by
  have harrives (k : Nat) : HostRecv.Arrives cfg (symbolPacket cfg tone timing k) :=
    HostRecv.arrives_of_stream hage rfl
  have hall : ∀ pkt ∈ (List.range n).map (symbolPacket cfg tone timing),
      HostRecv.Arrives cfg pkt := by
    intro pkt hpkt
    obtain ⟨k, -, rfl⟩ := List.mem_map.mp hpkt
    exact harrives k
  unfold ReceiverAt at h
  rw [hout] at h
  have hrefusal := HostRecv.refusal_packetAt tone timing cfg.streamId (List.range n) harrives
  change EndsIn d.host (((List.range n).map
    (FpgaEmulator.packetAt tone timing cfg.streamId)).findSome? _) _ at h
  rw [hrefusal] at h
  apply h.mono
  intro s hsound
  have htallied := hsound.tallied
  refine ⟨?_, ?_, ?_⟩
  · rw [htallied.accepted, List.countP_eq_length.mpr fun pkt hpkt ↦
      decide_eq_true (hall pkt hpkt), List.length_map, List.length_range]
  · have harrivals := HostRecv.arrivals_packetAt tone timing cfg.streamId (List.range n) harrives
    rw [htallied.gaps]
    exact (congrArg _ harrivals).trans (breaks_range _ n)
  · rw [htallied.late, List.countP_eq_zero]
    intro pkt hpkt hlate
    exact (hall pkt hpkt).2 (of_decide_eq_true hlate).2

end Order

end AetherRadio
