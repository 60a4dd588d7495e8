import AetherRadio.Shm.Retry

/-!
# Sends that come back

A `send_packet` gives up only on a ring that stays full, and comes back when it runs alone.
-/

namespace AetherRadio.Shm

open Verif

variable {g : Geometry}

/-- Steps of a push still to come. -/
def PushPc.distance : PushPc → Nat
  | .idle => 0
  | .ret _ _ => 1
  | .storeWrite _ _ => 2
  | .storeFull _ _ => 3
  | .copy _ _ _ todo => 4 + todo.length
  | .loadState packet _ => 5 + (encodeFrame packet).length
  | .loadRead packet _ => 6 + (encodeFrame packet).length
  | .loadWrite packet => 7 + (encodeFrame packet).length

private theorem distance_stepPush {s : World g} (h : s.push ≠ .idle) :
    s.stepPush.1.push.distance < s.push.distance := by
  cases hpc : s.push with
  | idle => exact absurd hpc h
  | loadRead packet w | loadState packet w =>
    rw [World.stepPush, hpc]
    dsimp only
    split <;> simp only [PushPc.distance] <;> omega
  | copy packet w k todo =>
    rw [World.stepPush, hpc]
    cases todo <;> simp only [PushPc.distance, List.length_cons, List.length_nil] <;> omega
  | ret packet result =>
    rw [World.stepPush, hpc]
    cases result <;> exact Nat.zero_lt_one
  | _ =>
    rw [World.stepPush, hpc]
    simp only [PushPc.distance]
    omega

/-- Until the write counter wraps, only a ring that holds `slot_count` packets refuses. -/
private theorem Inv.full_of_refuses {s : World g} {r : Nat} {q : List Packet} (h : Inv s r q)
    (hwrap : r + q.length < 2 ^ 64) (hrefuses : s.refuses = true) : q.length = g.slotCount := by
  have hpush := h.push
  have hroom := h.room
  rw [World.refuses] at hrefuses
  split at hrefuses
  · next packet w hpc =>
    rw [hpc] at hpush
    have hlt := g.slotCount_lt
    have hge : UInt64.ofNat g.slotCount ≤ w - s.map.readPos := of_decide_eq_true hrefuses
    rw [hpush.1, h.readPos, UInt64.le_iff_toNat_le, toNat_ofNat_sub (by omega) (by omega),
      UInt64.toNat_ofNat', Nat.mod_eq_of_lt hlt] at hge
    omega
  · next packet w hpc =>
    rw [hpc] at hpush
    obtain ⟨hw, -, hspace⟩ := hpush
    have hslots := h.slots_of_not_filling (by rw [hpc]; rfl)
    have hfree := h.freeing_le_length
    have hbase := h.base_add_length
    have hempty := hslots.next_empty (by rw [List.length_drop]; omega) (by rw [hbase]; exact hwrap)
    rw [hbase] at hempty
    rw [hw] at hrefuses
    exact absurd hempty (of_decide_eq_true hrefuses)
  · cases hrefuses

/-- The packets sent whose slot has not been given back. -/
def inRing (g : Geometry) (sched : List LinkAct) : List Packet :=
  let s := (link g).run (Link.init g) sched
  let t := (link g).trace (Link.init g) sched
  (sentOk t).drop (handedOut t ++ s.rx ++ s.world.aboutToReturn).length

/-- While no push is past its last store, they are what the ring holds. -/
theorem inRing_holds (g : Geometry) {sched : List LinkAct}
    (hpush : ((link g).run (Link.init g) sched).world.pastLastStore = []) :
    let s := (link g).run (Link.init g) sched
    let t := (link g).trace (Link.init g) sched
    let out := handedOut t ++ s.rx ++ s.world.aboutToReturn
    Inv s.world out.length (inRing g sched) ∧ sentOk t = out ++ inRing g sched := by
  intro s t out
  obtain ⟨q, hinv, hq⟩ := link_holds g sched
  rw [hpush, List.append_nil] at hq
  have hring : inRing g sched = q := by
    show (sentOk t).drop out.length = q
    rw [hq, List.drop_left]
  rw [hring]
  exact ⟨hinv, hq⟩

namespace Link

/-- What the sink's steps leave to the receiver. -/
private theorem sink_frame (s : Link g) (k : Nat) :
    ((link g).run s (.replicate k .stepSend)).polling = s.polling ∧
      ((link g).run s (.replicate k .stepSend)).world.pop = s.world.pop ∧
      ((link g).run s (.replicate k .stepSend)).rx = s.rx ∧
      handedOut ((link g).trace s (.replicate k .stepSend)) = [] := by
  induction k generalizing s with
  | zero => exact ⟨rfl, rfl, rfl, rfl⟩
  | succ k ih =>
    have hframe := stepSend_frame s
    obtain ⟨hpolling, hpop, hrx, hout⟩ := ih s.stepSend.1
    refine ⟨hpolling.trans hframe.polling, hpop.trans hframe.pop, hrx.trans hframe.rx, ?_⟩
    show s.stepSend.2.packets ++ handedOut ((link g).trace s.stepSend.1 _) = []
    rw [hframe.packets, hout]
    rfl

/-- What the receiver's steps leave to the sink. -/
theorem receiver_frame (s : Link g) (k : Nat) :
    ((link g).run s (.replicate k .stepBurst)).sending = s.sending ∧
      ((link g).run s (.replicate k .stepBurst)).world.push = s.world.push ∧
      sentOk ((link g).trace s (.replicate k .stepBurst)) = [] := by
  induction k generalizing s with
  | zero => exact ⟨rfl, rfl, rfl⟩
  | succ k ih =>
    have hframe := stepBurst_frame s
    obtain ⟨hsending, hpush, hsent⟩ := ih s.stepBurst.1
    refine ⟨hsending.trans hframe.sending, hpush.trans hframe.push, ?_⟩
    show s.stepBurst.2.sentOk ++ sentOk ((link g).trace s.stepBurst.1 _) = []
    rw [hframe.sentOk, hsent]
    rfl

end Link

/-- The packet of a push. -/
def PushPc.packet? : PushPc → Option Packet
  | .idle => none
  | .loadWrite packet | .loadRead packet _ | .loadState packet _ | .copy packet _ _ _
  | .storeFull packet _ | .storeWrite packet _ | .ret packet _ => some packet

theorem packet?_callPush {s : World g} (h : s.push = .idle) (packet : Packet) :
    (s.callPush packet).push.packet? = some packet := by
  simp only [World.callPush, h]
  split <;> rfl

/-- A push keeps its packet until it returns. -/
private theorem packet?_stepPush {s : World g} {packet : Packet} (h : s.push.packet? = some packet)
    (hret : ∀ result, s.push ≠ .ret packet result) :
    s.stepPush.1.push.packet? = some packet ∧
      ∀ p result, s.stepPush.2 ≠ some (.pushReturned p result) := by
  constructor
  · cases hpc : s.push with
    | loadRead p w | loadState p w =>
      rw [hpc] at h
      rw [World.stepPush, hpc]
      dsimp only
      split <;> exact h
    | copy p w k todo =>
      rw [hpc] at h
      rw [World.stepPush, hpc]
      cases todo <;> exact h
    | ret p result =>
      rw [hpc] at h
      cases h
      exact absurd hpc (hret result)
    | idle =>
      rw [hpc] at h
      cases h
    | _ =>
      rw [hpc] at h
      rw [World.stepPush, hpc]
      exact h
  · intro p result he
    have hpc := pushReturned_of_step he
    rw [hpc] at h
    cases h
    exact hret result hpc

private theorem stepPush_of_ret {s : World g} {packet : Packet} {result : Except ShmIoError Unit}
    (h : s.push = .ret packet result) :
    s.stepPush.2 = some (.pushReturned packet result) ∧ s.stepPush.1.push = .idle := by
  rw [World.stepPush, h]
  cases result <;> exact ⟨rfl, rfl⟩

namespace Link

private theorem sendEvent_silent (s : Link g) (left : Nat) {e : Option Event}
    (he : ∀ packet result, e ≠ some (.pushReturned packet result)) :
    s.sendEvent left e = (s, .silent) := by
  rcases e with _ | _ | ⟨packet, result⟩ | _ | _
  case some.pushReturned => exact absurd rfl (he packet result)
  all_goals rfl

/-- A send of the packet is in progress. -/
def SendingOf (packet : Packet) (s : Link g) : Prop :=
  s.sending.isSome ∧ s.world.push.packet? = some packet

/-- How far a send is from its answer: first the tries left, then the steps of the try. -/
def sendDistance (s : Link g) : Nat × Nat := (s.sending.getD 0, s.world.push.distance)

/-- A step of the sink that does not answer comes closer to the answer. -/
theorem stepSend_closer {s : Link g} {packet : Packet} (h : s.SendingOf packet)
    (hsent : ∀ result, s.stepSend.2 ≠ .sent packet result) :
    s.stepSend.1.SendingOf packet ∧
      Prod.Lex (· < ·) (· < ·) s.stepSend.1.sendDistance s.sendDistance := by
  obtain ⟨hsome, hpacket⟩ := h
  obtain ⟨left, hsending⟩ := Option.isSome_iff_exists.mp hsome
  by_cases hret : ∃ result, s.world.push = .ret packet result
  · obtain ⟨result, hpc⟩ := hret
    obtain ⟨he, hidle⟩ := stepPush_of_ret hpc
    rw [stepSend_of_some hsending, he] at hsent ⊢
    rcases result with error | _
    · cases error with
      | ringFull =>
        cases left with
        | zero => exact absurd rfl (hsent (.error .ringFull))
        | succ left =>
          refine ⟨⟨rfl, packet?_callPush hidle packet⟩, ?_⟩
          unfold sendDistance
          rw [hsending]
          exact .left _ _ (Nat.lt_succ_self left)
      | _ => exact absurd rfl (hsent _)
    · exact absurd rfl (hsent _)
  · obtain ⟨hnext, he⟩ := packet?_stepPush hpacket (fun result hr ↦ hret ⟨result, hr⟩)
    rw [stepSend_of_some hsending, sendEvent_silent _ _ he]
    refine ⟨⟨hsome, hnext⟩, .right _ (distance_stepPush ?_)⟩
    intro hidle
    rw [hidle] at hpacket
    cases hpacket

/-- An answer of the sink. -/
def IsSent (reply : LinkReply) : Prop := ∃ packet result, reply = .sent packet result

/-- A send that runs alone answers. -/
private theorem exists_sent {s : Link g} (hsending : s.sending = none)
    (hpush : s.world.push = .idle)
    (packet : Packet) : ∃ k result,
      ((link g).run (s.send packet).1 (.replicate k .stepSend)).stepSend.2 = .sent packet result ∧
      ∀ entry ∈ (link g).trace (s.send packet).1 (.replicate k .stepSend), ¬ IsSent entry.2 := by
  have hstart : (s.send packet).1.SendingOf packet := by
    rw [send, hsending]
    exact ⟨rfl, packet?_callPush hpush packet⟩
  obtain ⟨k, hlast, ⟨packet', result, hresult⟩, hsilent⟩ := (link g).exists_answer
    (Nat.lt_wfRel.wf.prod_lex Nat.lt_wfRel.wf) (P := SendingOf packet) (D := IsSent)
    sendDistance .stepSend
    (fun s hs hdone ↦ stepSend_closer hs (fun result hr ↦ hdone ⟨packet, result, hr⟩)) hstart
  refine ⟨k, result, ?_, hsilent⟩
  have hexplained := act_explained ((link g).run (s.send packet).1 (.replicate k .stepSend))
    .stepSend
  rw [show (act _ .stepSend).2 = _ from hresult] at hexplained
  have hpacket := hlast.2
  rw [pushReturned_of_step hexplained] at hpacket
  obtain rfl : packet' = packet := Option.some.inj hpacket
  exact hresult

end Link

private theorem sentOk_of_silent {t : List (LinkAct × LinkReply)}
    (h : ∀ entry ∈ t, ¬ Link.IsSent entry.2) : sentOk t = [] := by
  apply List.flatMap_eq_nil_iff.mpr
  intro entry hentry
  have hsilent := h entry hentry
  cases hreply : entry.2 with
  | sent packet result => exact absurd ⟨packet, result, hreply⟩ hsilent
  | _ => rfl

/-- The schedule of a send that runs alone, up to `k` steps of it. -/
def sendAlone (packet : Packet) (k : Nat) : List LinkAct := .send packet :: .replicate k .stepSend

/-- What a send answers that meets no other process, with so many packets in the ring. -/
def sendResult (g : Geometry) (queued : Nat) (packet : Packet) : Except ShmIoError Unit :=
  if ¬ Fits g packet then .error .frameTooLarge
  else if queued = g.slotCount then .error .ringFull
  else .ok ()

section Alone

variable {sched : List LinkAct} {packet : Packet} {k : Nat}

/-- Until it answers, a send that runs alone changes nothing but the sink. -/
theorem alone_frame
    (hsilent : ∀ entry ∈ (link g).trace (((link g).run (Link.init g) sched).send packet).1
      (.replicate k .stepSend), ¬ Link.IsSent entry.2) :
    let s := (link g).run (Link.init g) sched
    let t := (link g).trace (Link.init g) sched
    let s' := (link g).run (Link.init g) (sched ++ sendAlone packet k)
    let t' := (link g).trace (Link.init g) (sched ++ sendAlone packet k)
    s'.rx = s.rx ∧ s'.world.pop = s.world.pop ∧ sentOk t' = sentOk t ∧
      handedOut t' = handedOut t := by
  intro s t s' t'
  have hcall := Link.send_frame s packet
  obtain ⟨-, hpop, hrx, hout⟩ := Link.sink_frame (s.send packet).1 k
  have hrun : s' = (link g).run (s.send packet).1 (.replicate k .stepSend) :=
    (link g).run_append _ _ _
  have htrace : t' = t ++ (.send packet, (s.send packet).2) ::
      (link g).trace (s.send packet).1 (.replicate k .stepSend) := (link g).trace_append _ _ _
  have hsilentCall : (s.send packet).2 = .silent := by
    rw [Link.send]
    cases s.sending <;> rfl
  rw [hrun, htrace]
  refine ⟨hrx.trans hcall.rx, hpop.trans hcall.pop, ?_, ?_⟩
  · rw [sentOk, List.flatMap_append, List.flatMap_cons, hsilentCall]
    show sentOk t ++ ([] ++ sentOk _) = sentOk t
    rw [sentOk_of_silent hsilent, List.append_nil, List.append_nil]
  · rw [handedOut, List.flatMap_append, List.flatMap_cons, hcall.packets]
    show handedOut t ++ ([] ++ handedOut _) = handedOut t
    rw [hout, List.append_nil, List.append_nil]

private theorem alone_inRing
    (hsilent : ∀ entry ∈ (link g).trace (((link g).run (Link.init g) sched).send packet).1
      (.replicate k .stepSend), ¬ Link.IsSent entry.2) :
    inRing g (sched ++ sendAlone packet k) = inRing g sched := by
  obtain ⟨hrx, hpop, hsent, hout⟩ := alone_frame hsilent
  unfold inRing
  dsimp only
  rw [hrx, hsent, hout, World.aboutToReturn, hpop, World.aboutToReturn]

/-- A ring that refuses a try holds `slot_count` packets. -/
theorem inRing_of_refusal {a : LinkAct}
    (hrefusal : ((link g).run (Link.init g) sched).refusals a ≠ [])
    (hwrap : (sentOk ((link g).trace (Link.init g) sched)).length < 2 ^ 64) :
    (inRing g sched).length = g.slotCount := by
  have hrefuses : ((link g).run (Link.init g) sched).world.refuses = true := by
    unfold Link.refusals at hrefusal
    split at hrefusal
    · split at hrefusal
      · next hboth => exact (Bool.and_eq_true_iff.mp hboth).2
      · exact absurd rfl hrefusal
    · exact absurd rfl hrefusal
  have hpast : ((link g).run (Link.init g) sched).world.pastLastStore = [] := by
    unfold World.refuses at hrefuses
    unfold World.pastLastStore
    split at hrefuses
    · next hpc => rw [hpc]
    · next hpc => rw [hpc]
    · cases hrefuses
  obtain ⟨hinv, hsent⟩ := inRing_holds g hpast
  apply hinv.full_of_refuses _ hrefuses
  rwa [← List.length_append, ← hsent]

/-- A send that has been told that the ring is full while it ran alone found it full. -/
private theorem alone_full (hsending : ((link g).run (Link.init g) sched).sending = none)
    (hwrap : (sentOk ((link g).trace (Link.init g) sched)).length < 2 ^ 64)
    (hsilent : ∀ entry ∈ (link g).trace (((link g).run (Link.init g) sched).send packet).1
      (.replicate k .stepSend), ¬ Link.IsSent entry.2)
    (hfull : ((link g).run (((link g).run (Link.init g) sched).send packet).1
      (.replicate k .stepSend)).stepSend.2 = .sent packet (.error .ringFull)) :
    (inRing g sched).length = g.slotCount := by
  have hcalled := Link.sending_send hsending ((Link.tidy_run sched).push.mp hsending) packet
  have hrefused := Link.sending_run hcalled
    (fun a p result hmem ↦ hsilent _ hmem ⟨p, result, rfl⟩)
  have hcount := Link.sending_gives_up hrefused hfull
  obtain ⟨c, hc⟩ := List.exists_mem_of_length_pos
    (l := (link g).collect Link.refusals (((link g).run (Link.init g) sched).send packet).1
      (.replicate k .stepSend)) (by rw [Nat.zero_add] at hcount; rw [hcount]; decide)
  obtain ⟨pre, a, post, hsplit, hrefusal⟩ := (link g).exists_of_mem_collect hc
  obtain ⟨i, rfl⟩ : ∃ i, pre = .replicate i .stepSend :=
    ⟨_, (List.append_eq_replicate_iff.mp hsplit.symm).2.1⟩
  have hrun : (link g).run (Link.init g) (sched ++ sendAlone packet i) =
      (link g).run (((link g).run (Link.init g) sched).send packet).1 (.replicate i .stepSend) :=
    (link g).run_append _ _ _
  have hbefore : ∀ entry ∈ (link g).trace (((link g).run (Link.init g) sched).send packet).1
      (.replicate i .stepSend), ¬ Link.IsSent entry.2 := by
    intro entry hentry
    apply hsilent
    rw [hsplit, (link g).trace_append]
    exact List.mem_append_left _ hentry
  obtain ⟨-, -, hsent, -⟩ := alone_frame hbefore
  rw [← alone_inRing hbefore]
  apply inRing_of_refusal (a := a)
  · rw [hrun]
    exact List.ne_nil_of_mem hrefusal
  · rwa [hsent]

/-- A push that has returned `Ok` found room. -/
private theorem alone_room
    (hsilent : ∀ entry ∈ (link g).trace (((link g).run (Link.init g) sched).send packet).1
      (.replicate k .stepSend), ¬ Link.IsSent entry.2)
    (hok : ((link g).run (((link g).run (Link.init g) sched).send packet).1
      (.replicate k .stepSend)).stepSend.2 = .sent packet (.ok ())) :
    (inRing g sched).length < g.slotCount := by
  have hrun : (link g).run (Link.init g) (sched ++ sendAlone packet k) =
      (link g).run (((link g).run (Link.init g) sched).send packet).1 (.replicate k .stepSend) :=
    (link g).run_append _ _ _
  obtain ⟨hrx, hpop, hsent, hout⟩ := alone_frame hsilent
  rw [← alone_inRing hsilent]
  rw [← hrun] at hok
  have hexplained := Link.act_explained ((link g).run (Link.init g) (sched ++ sendAlone packet k))
    .stepSend
  rw [show (Link.act _ .stepSend).2 = _ from hok] at hexplained
  have hpc := pushReturned_of_step hexplained
  obtain ⟨q, hinv, hq⟩ := link_holds g (sched ++ sendAlone packet k)
  rw [World.pastLastStore, hpc] at hq
  have hroom := hinv.room
  have hpos := g.slotCount_pos
  have hlength := congrArg List.length hq
  rw [List.length_append, List.length_append, List.length_singleton] at hlength
  rw [inRing, List.length_drop]
  omega

/-- The answer of a send that runs alone. -/
private theorem exists_sendResult (hsending : ((link g).run (Link.init g) sched).sending = none)
    (hwrap : (sentOk ((link g).trace (Link.init g) sched)).length < 2 ^ 64) (packet : Packet) :
    ∃ k, ((link g).run (Link.init g) (sched ++ sendAlone packet k)).stepSend.2 =
        .sent packet (sendResult g (inRing g sched).length packet) ∧
      ∀ entry ∈ (link g).trace (((link g).run (Link.init g) sched).send packet).1
        (.replicate k .stepSend), ¬ Link.IsSent entry.2 := by
  obtain ⟨k, result, hresult, hsilent⟩ :=
    Link.exists_sent hsending ((Link.tidy_run sched).push.mp hsending) packet
  refine ⟨k, ?_, hsilent⟩
  have hrun : (link g).run (Link.init g) (sched ++ sendAlone packet k) =
      (link g).run (((link g).run (Link.init g) sched).send packet).1 (.replicate k .stepSend) :=
    (link g).run_append _ _ _
  rw [hrun, hresult]
  have hexplained := Link.act_explained ((link g).run (Link.init g) (sched ++ sendAlone packet k))
    .stepSend
  rw [hrun, show (Link.act _ .stepSend).2 = _ from hresult, ← hrun] at hexplained
  have hanswers := Link.sized_run (g := g) (sched ++ sendAlone packet k)
  rw [pushReturned_of_step hexplained] at hanswers
  rw [sendResult]
  rcases result with error | _
  · rcases hanswers with ⟨rfl, hfits⟩ | ⟨rfl, hlarge⟩
    · rw [if_neg (not_not.mpr hfits), if_pos (alone_full hsending hwrap hsilent hresult)]
    · rw [if_pos hlarge]
  · have hfits : Fits g packet := hanswers
    have hroom := alone_room hsilent hresult
    rw [if_neg (not_not.mpr hfits), if_neg (by omega)]

/-- What a send that runs alone leaves behind. -/
structure SentAlone (g : Geometry) (sched : List LinkAct) (packet : Packet) (k : Nat) : Prop where
  reply : ((link g).run (Link.init g) (sched ++ sendAlone packet k)).stepSend.2 =
    .sent packet (sendResult g (inRing g sched).length packet)
  silent : ∀ entry ∈ (link g).trace (((link g).run (Link.init g) sched).send packet).1
    (.replicate k .stepSend), ¬ Link.IsSent entry.2
  sending : ((link g).run (Link.init g) (sched ++ sendAlone packet k ++ [.stepSend])).sending = none
  sentOk : sentOk ((link g).trace (Link.init g) (sched ++ sendAlone packet k ++ [.stepSend])) =
    sentOk ((link g).trace (Link.init g) sched) ++
      (LinkReply.sent packet (sendResult g (inRing g sched).length packet)).sentOk
  inRing : inRing g (sched ++ sendAlone packet k ++ [.stepSend]) = inRing g sched ++
    (LinkReply.sent packet (sendResult g (inRing g sched).length packet)).sentOk

/-- A send that has answered is over. -/
theorem sending_of_sent {s : Link g} {result : Except ShmIoError Unit}
    (h : s.stepSend.2 = .sent packet result) : s.stepSend.1.sending = none := by
  cases hsending : s.sending with
  | none =>
    rw [Link.stepSend_of_none hsending] at h
    cases h
  | some left =>
    rw [Link.stepSend_of_some hsending] at h ⊢
    generalize s.world.stepPush.2 = e at h ⊢
    rcases e with _ | _ | ⟨p, error | _⟩ | _ | _
    case some.pushReturned.ok => rfl
    case some.pushReturned.error =>
      cases error with
      | ringFull =>
        cases left with
        | zero => rfl
        | succ left => cases h
      | _ => rfl
    all_goals cases h

private theorem exists_sentAlone (hsending : ((link g).run (Link.init g) sched).sending = none)
    (hwrap : (sentOk ((link g).trace (Link.init g) sched)).length < 2 ^ 64) (packet : Packet) :
    ∃ k, SentAlone g sched packet k := by
  obtain ⟨k, hreply, hsilent⟩ := exists_sendResult hsending hwrap packet
  obtain ⟨hrx, hpop, hsent, hout⟩ := alone_frame hsilent
  have hframe := Link.stepSend_frame
    ((link g).run (Link.init g) (sched ++ sendAlone packet k))
  have hrun : (link g).run (Link.init g) (sched ++ sendAlone packet k ++ [.stepSend]) =
      ((link g).run (Link.init g) (sched ++ sendAlone packet k)).stepSend.1 :=
    (link g).run_append _ _ _
  have htrace : (link g).trace (Link.init g) (sched ++ sendAlone packet k ++ [.stepSend]) =
      (link g).trace (Link.init g) (sched ++ sendAlone packet k) ++ [(.stepSend,
        .sent packet (sendResult g (inRing g sched).length packet))] := by
    rw [(link g).trace_append, ← hreply]
    rfl
  have hsentLater : sentOk ((link g).trace (Link.init g)
      (sched ++ sendAlone packet k ++ [.stepSend])) =
        sentOk ((link g).trace (Link.init g) sched) ++
          (LinkReply.sent packet (sendResult g (inRing g sched).length packet)).sentOk := by
    rw [htrace, ← hsent, sentOk, List.flatMap_append]
    simp [sentOk]
  refine ⟨k, hreply, hsilent, ?_, hsentLater, ?_⟩
  · rw [hrun]
    exact sending_of_sent hreply
  · have hpush : ((link g).run (Link.init g) sched).world.pastLastStore = [] := by
      rw [World.pastLastStore, (Link.tidy_run sched).push.mp hsending]
    have hholds := (inRing_holds g hpush).2
    have houtLater : handedOut ((link g).trace (Link.init g)
        (sched ++ sendAlone packet k ++ [.stepSend])) =
          handedOut ((link g).trace (Link.init g) sched) := by
      rw [htrace, ← hout, handedOut, List.flatMap_append]
      simp [handedOut, LinkReply.packets]
    have habout : World.aboutToReturn
        ((link g).run (Link.init g) (sched ++ sendAlone packet k)).stepSend.1.world =
          ((link g).run (Link.init g) sched).world.aboutToReturn := by
      rw [World.aboutToReturn, hframe.pop, hpop, World.aboutToReturn]
    conv_lhs => unfold AetherRadio.Shm.inRing
    dsimp only
    rw [hsentLater, houtLater, hrun, habout, hframe.rx, hrx, List.drop_append_of_le_length]
    · rfl
    · rw [hholds]
      exact (List.prefix_append _ _).length_le

end Alone

/-- A `send_packet` that answers `RingFull`, whatever the receiver did meanwhile, has been refused
in each of its 10 000 tries, and each time the ring held `slot_count` packets, until the write
counter wraps. -/
theorem send_gives_up_when_full (g : Geometry) (sched mid : List LinkAct) (packet : Packet)
    (hsending : ((link g).run (Link.init g) sched).sending = none)
    (hsilent : ∀ entry ∈ (link g).trace (((link g).run (Link.init g) sched).send packet).1 mid,
      ¬ Link.IsSent entry.2)
    (hfails : ((link g).run (Link.init g) (sched ++ .send packet :: mid)).stepSend.2 =
      .sent packet (.error .ringFull)) :
    ((link g).collect Link.refusals (((link g).run (Link.init g) sched).send packet).1 mid).length =
      sendTries ∧
    ∀ before a, before ++ [a] <+: mid →
      let now := sched ++ .send packet :: before
      ((link g).run (Link.init g) now).refusals a ≠ [] →
      (sentOk ((link g).trace (Link.init g) now)).length < 2 ^ 64 →
      (inRing g now).length = g.slotCount := by
  have hrun : (link g).run (Link.init g) (sched ++ .send packet :: mid) =
      (link g).run (((link g).run (Link.init g) sched).send packet).1 mid :=
    (link g).run_append _ _ _
  rw [hrun] at hfails
  have hcalled := Link.sending_send hsending ((Link.tidy_run sched).push.mp hsending) packet
  have hrefused := Link.sending_run hcalled
    (fun a p result hmem ↦ hsilent _ hmem ⟨p, result, rfl⟩)
  have hcount := Link.sending_gives_up hrefused hfails
  rw [Nat.zero_add] at hcount
  exact ⟨hcount, fun before a _ hrefusal hwrap ↦ inRing_of_refusal hrefusal hwrap⟩

/-- Two sends into the smallest ring, which nobody empties. -/
theorem send_gives_up_when_full_alone : ∃ sched mid : List LinkAct,
    ((link oneSlot).run (Link.init oneSlot) (sched ++ .send emptyPacket :: mid)).stepSend.2 =
      .sent emptyPacket (.error .ringFull) ∧
    ((link oneSlot).collect Link.refusals
      (((link oneSlot).run (Link.init oneSlot) sched).send emptyPacket).1 mid).length =
        sendTries := by
  obtain ⟨k, hfirst⟩ := @exists_sentAlone oneSlot [] rfl (by decide) emptyPacket
  have hone := hfirst.inRing
  have hsent := hfirst.sentOk
  have hempty : inRing oneSlot [] = [] := rfl
  rw [hempty] at hone hsent
  obtain ⟨k', hsecond⟩ := exists_sentAlone hfirst.sending (by rw [hsent]; decide) emptyPacket
  have hreply := hsecond.reply
  rw [hone, show sendResult oneSlot _ emptyPacket = .error .ringFull by decide] at hreply
  exact ⟨_, _, hreply, (send_gives_up_when_full _ _ _ _ hfirst.sending hsecond.silent hreply).1⟩

/-- A `send_packet` during which the receiver stands still comes back: with an error when the packet
does not fit a slot or the ring holds `slot_count` packets, otherwise with the packet behind those
in the ring. -/
theorem send_alone (g : Geometry) (sched : List LinkAct)
    (hsending : ((link g).run (Link.init g) sched).sending = none)
    (hwrap : (sentOk ((link g).trace (Link.init g) sched)).length < 2 ^ 64) (packet : Packet) :
    let queue := inRing g sched
    let result : Except ShmIoError Unit :=
      if ¬ Fits g packet then .error .frameTooLarge
      else if queue.length = g.slotCount then .error .ringFull
      else .ok ()
    ∃ k, let calling := sched ++ .send packet :: .replicate k .stepSend
      ((link g).run (Link.init g) calling).stepSend.2 = .sent packet result ∧
      ((link g).run (Link.init g) (calling ++ [.stepSend])).sending = none ∧
      inRing g (calling ++ [.stepSend]) =
        queue ++ (LinkReply.sent packet result).sentOk := by
  intro queue result
  obtain ⟨k, hsent⟩ := exists_sentAlone hsending hwrap packet
  exact ⟨k, hsent.reply, hsent.sending, hsent.inRing⟩

theorem send_alone_first :
    let result : Except ShmIoError Unit :=
      if ¬ Fits oneSlot emptyPacket then .error .frameTooLarge
      else if ([] : List Packet).length = oneSlot.slotCount then .error .ringFull
      else .ok ()
    result = .ok () ∧ ∃ k, let calling := .send emptyPacket :: .replicate k .stepSend
      ((link oneSlot).run (Link.init oneSlot) calling).stepSend.2 = .sent emptyPacket result := by
  obtain ⟨k, hreply, -, -⟩ := send_alone oneSlot [] rfl (by decide) emptyPacket
  exact ⟨by decide, k, hreply⟩

end AetherRadio.Shm
