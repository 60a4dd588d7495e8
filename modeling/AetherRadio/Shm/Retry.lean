import AetherRadio.Shm.Delivery

/-!
# Retries of the sink

`send_packet` tries again while the ring is full. A send that gives up has been refused in every one
of its tries, and a ring that refuses holds `slot_count` packets.
-/

namespace AetherRadio.Shm

open Verif

variable {g : Geometry}

private theorem callPush_ne_idle (s : World g) (packet : Packet) :
    (s.callPush packet).push ≠ .idle := by
  cases hpc : s.push with
  | idle =>
    simp only [World.callPush, hpc]
    split <;> simp
  | _ => simp [World.callPush, hpc]

private theorem callPop_ne_idle (s : World g) : s.callPop.pop ≠ .idle := by
  cases hpc : s.pop <;> simp [World.callPop, hpc]

/-- A push is over when it returns. -/
theorem stepPush_idle {s : World g} (h : s.push ≠ .idle) :
    s.stepPush.1.push = .idle ↔
      ∃ packet result, s.stepPush.2 = some (.pushReturned packet result) := by
  cases hpc : s.push with
  | idle => exact absurd hpc h
  | loadRead packet w | loadState packet w =>
    rw [World.stepPush, hpc]
    dsimp only
    split <;> simp
  | copy packet w k todo =>
    rw [World.stepPush, hpc]
    cases todo <;> simp
  | ret packet result =>
    rw [World.stepPush, hpc]
    cases result <;> simp
  | _ =>
    rw [World.stepPush, hpc]
    simp

/-- A pop is over when it returns. -/
private theorem stepPop_idle {s : World g} (h : s.pop ≠ .idle) :
    s.stepPop.1.pop = .idle ↔ ∃ result, s.stepPop.2 = some (.popReturned result) := by
  cases hpc : s.pop with
  | idle => exact absurd hpc h
  | loadWrite r | loadState r | loadLen r =>
    rw [World.stepPop, hpc]
    dsimp only
    split <;> simp
  | loadBytes r n got =>
    rw [World.stepPop, hpc]
    dsimp only
    split
    · simp
    · split <;> simp
  | ret result =>
    rw [World.stepPop, hpc]
    rcases result with (_ | _ | _) | _ <;> simp
  | _ =>
    rw [World.stepPop, hpc]
    simp

namespace Link

/-- What the receiver's loop leaves to the sink. -/
structure ReceiverFrame (s s' : Link g) (reply : LinkReply) : Prop where
  sending : s'.sending = s.sending
  push : s'.world.push = s.world.push
  sentOk : reply.sentOk = []

private theorem pollNext_frame (s : Link g) (max n : Nat) :
    ReceiverFrame s (s.pollNext max n).1 (s.pollNext max n).2 := by
  unfold pollNext
  split
  · exact ⟨rfl, (callPop_frame s.world).1, rfl⟩
  · exact ⟨rfl, rfl, rfl⟩

private theorem pollEvent_frame (s : Link g) (max n : Nat) (e : Option Event) :
    ReceiverFrame s (s.pollEvent max n e).1 (s.pollEvent max n e).2 := by
  rcases e with _ | _ | _ | _ | ⟨_ | _ | _⟩ | _
  case some.popReturned.ret.ok.some pkt =>
    have hframe := pollNext_frame { s with rx := s.rx ++ [pkt] } max (n + 1)
    exact ⟨hframe.sending, hframe.push, hframe.sentOk⟩
  all_goals exact ⟨rfl, rfl, rfl⟩

theorem burst_frame (s : Link g) (max : Nat) :
    ReceiverFrame s (s.burst max).1 (s.burst max).2 := by
  rw [burst]
  cases s.polling with
  | none => exact pollNext_frame ..
  | some _ => exact ⟨rfl, rfl, rfl⟩

theorem stepBurst_frame (s : Link g) : ReceiverFrame s s.stepBurst.1 s.stepBurst.2 := by
  cases hpolling : s.polling with
  | none =>
    rw [stepBurst_of_none hpolling]
    exact ⟨rfl, rfl, rfl⟩
  | some poll =>
    rw [stepBurst_of_some hpolling]
    have hframe := pollEvent_frame { s with world := s.world.stepPop.1 } poll.1 poll.2
      s.world.stepPop.2
    exact { hframe with push := hframe.push.trans (pop_frame s.world).1 }

/-- What the sink's loop leaves to the receiver. -/
structure SinkFrame (s s' : Link g) (reply : LinkReply) : Prop where
  polling : s'.polling = s.polling
  pop : s'.world.pop = s.world.pop
  rx : s'.rx = s.rx
  packets : reply.packets = []

private theorem sendEvent_frame (s : Link g) (left : Nat) (e : Option Event) :
    SinkFrame s (s.sendEvent left e).1 (s.sendEvent left e).2 := by
  rcases e with _ | _ | ⟨packet, error | _⟩ | _ | _
  case some.pushReturned.error =>
    cases error with
    | ringFull =>
      cases left with
      | zero => exact ⟨rfl, rfl, rfl, rfl⟩
      | succ left => exact ⟨rfl, (callPush_frame s.world packet).1, rfl, rfl⟩
    | _ => exact ⟨rfl, rfl, rfl, rfl⟩
  all_goals exact ⟨rfl, rfl, rfl, rfl⟩

theorem send_frame (s : Link g) (packet : Packet) :
    SinkFrame s (s.send packet).1 (s.send packet).2 := by
  rw [send]
  cases s.sending with
  | none => exact ⟨rfl, (callPush_frame s.world packet).1, rfl, rfl⟩
  | some _ => exact ⟨rfl, rfl, rfl, rfl⟩

theorem stepSend_frame (s : Link g) : SinkFrame s s.stepSend.1 s.stepSend.2 := by
  cases hsending : s.sending with
  | none =>
    rw [stepSend_of_none hsending]
    exact ⟨rfl, rfl, rfl, rfl⟩
  | some left =>
    rw [stepSend_of_some hsending]
    have hframe := sendEvent_frame { s with world := s.world.stepPush.1 } left s.world.stepPush.2
    exact { hframe with pop := hframe.pop.trans (push_frame s.world).1 }

/-- Each loop is in a call of the ring exactly while it runs. -/
structure Tidy (s : Link g) : Prop where
  push : s.sending = none ↔ s.world.push = .idle
  pop : s.polling = none ↔ s.world.pop = .idle

/-- After a step of a push the sink's loop is over exactly when the push is and is not tried
again. -/
private theorem sendEvent_idle {s : Link g} {left : Nat} {e : Option Event}
    (hs : s.sending = some left)
    (h : s.world.push = .idle ↔ ∃ packet result, e = some (.pushReturned packet result)) :
    (s.sendEvent left e).1.sending = none ↔ (s.sendEvent left e).1.world.push = .idle := by
  have hover (packet : Packet) (result : Except ShmIoError Unit)
      (he : e = some (.pushReturned packet result)) :
      (none : Option Nat) = none ↔ s.world.push = .idle :=
    iff_of_true rfl (h.mpr ⟨packet, result, he⟩)
  have hgoes (he : ∀ packet result, e ≠ some (.pushReturned packet result)) :
      s.sending = none ↔ s.world.push = .idle := by
    rw [hs, h]
    exact iff_of_false (by simp) (fun ⟨packet, result, hr⟩ ↦ he packet result hr)
  rcases e with _ | _ | ⟨packet, error | _⟩ | _ | _
  case some.pushReturned.error =>
    cases error with
    | ringFull =>
      cases left with
      | zero => exact hover _ _ rfl
      | succ left => exact iff_of_false (by simp [sendEvent]) (callPush_ne_idle s.world packet)
    | _ => exact hover _ _ rfl
  case some.pushReturned.ok => exact hover _ _ rfl
  all_goals exact hgoes (by simp)

private theorem pollNext_idle {s : Link g} (max n : Nat) (h : s.world.pop = .idle) :
    (s.pollNext max n).1.polling = none ↔ (s.pollNext max n).1.world.pop = .idle := by
  unfold pollNext
  split
  · exact iff_of_false (by simp) (callPop_ne_idle s.world)
  · exact iff_of_true rfl h

/-- After a step of a pop the receiver's loop is over exactly when the pop is and no other
follows. -/
private theorem pollEvent_idle {s : Link g} {max n : Nat} {e : Option Event}
    (hs : s.polling = some (max, n)) (hpanic : e ≠ some (.popReturned .panic))
    (h : s.world.pop = .idle ↔ ∃ result, e = some (.popReturned result)) :
    (s.pollEvent max n e).1.polling = none ↔ (s.pollEvent max n e).1.world.pop = .idle := by
  have hgoes (he : ∀ result, e ≠ some (.popReturned result)) :
      s.polling = none ↔ s.world.pop = .idle := by
    rw [hs, h]
    exact iff_of_false (by simp) (fun ⟨result, hr⟩ ↦ he result hr)
  rcases e with _ | _ | _ | _ | ⟨_ | _ | _⟩ | _
  case some.popReturned.ret.ok.some pkt => exact pollNext_idle _ _ (h.mpr ⟨_, rfl⟩)
  case some.popReturned.ret.error | some.popReturned.ret.ok.none =>
    exact iff_of_true rfl (h.mpr ⟨_, rfl⟩)
  case some.popReturned.panic => exact absurd rfl hpanic
  all_goals exact hgoes (by simp)

private theorem tidy_act {s : Link g} (h : s.Tidy) {a : LinkAct}
    (hpanic : (s.act a).2 ≠ .panicked) :
    (s.act a).1.Tidy := by
  cases a with
  | send packet =>
    have hframe := send_frame s packet
    refine ⟨?_, ?_⟩
    · rw [act, send]
      cases hsending : s.sending with
      | none => exact iff_of_false (by simp) (callPush_ne_idle s.world packet)
      | some left => exact h.push
    · show (s.send packet).1.polling = none ↔ (s.send packet).1.world.pop = .idle
      rw [hframe.polling, hframe.pop]
      exact h.pop
  | stepSend =>
    have hframe := stepSend_frame s
    refine ⟨?_, ?_⟩
    · show s.stepSend.1.sending = none ↔ s.stepSend.1.world.push = .idle
      cases hsending : s.sending with
      | none =>
        rw [stepSend_of_none hsending]
        exact h.push
      | some left =>
        rw [stepSend_of_some hsending]
        apply sendEvent_idle (s := { s with world := s.world.stepPush.1 }) hsending
        apply stepPush_idle
        intro hidle
        rw [h.push.mpr hidle] at hsending
        cases hsending
    · show s.stepSend.1.polling = none ↔ s.stepSend.1.world.pop = .idle
      rw [hframe.polling, hframe.pop]
      exact h.pop
  | burst max =>
    have hframe := burst_frame s max
    refine ⟨?_, ?_⟩
    · show (s.burst max).1.sending = none ↔ (s.burst max).1.world.push = .idle
      rw [hframe.sending, hframe.push]
      exact h.push
    · rw [act, burst]
      cases hpolling : s.polling with
      | none => exact pollNext_idle _ _ (h.pop.mp hpolling)
      | some poll => exact h.pop
  | stepBurst =>
    have hframe := stepBurst_frame s
    refine ⟨?_, ?_⟩
    · show s.stepBurst.1.sending = none ↔ s.stepBurst.1.world.push = .idle
      rw [hframe.sending, hframe.push]
      exact h.push
    · show s.stepBurst.1.polling = none ↔ s.stepBurst.1.world.pop = .idle
      cases hpolling : s.polling with
      | none =>
        rw [stepBurst_of_none hpolling]
        exact h.pop
      | some poll =>
        rw [act, stepBurst_of_some hpolling] at hpanic
        rw [stepBurst_of_some hpolling]
        apply pollEvent_idle (s := { s with world := s.world.stepPop.1 }) hpolling
        · intro he
          rw [he] at hpanic
          exact hpanic rfl
        · apply stepPop_idle
          intro hidle
          rw [h.pop.mpr hidle] at hpolling
          cases hpolling

theorem tidy_run (sched : List LinkAct) : ((link g).run (Link.init g) sched).Tidy := by
  induction sched using List.reverseRecOn with
  | nil => exact ⟨iff_of_true rfl rfl, iff_of_true rfl rfl⟩
  | append_singleton sched a ih =>
    rw [(link g).run_append]
    exact tidy_act ih (not_panicked a)

end Link

/-- A try that has just been refused. -/
def PushPc.refused : PushPc → Nat
  | .ret _ (.error .ringFull) => 1
  | _ => 0

/-- The next step of the producer finds the ring full. -/
def World.refuses (s : World g) : Bool :=
  match s.push with
  | .loadRead _ w => w - s.map.readPos ≥ UInt64.ofNat g.slotCount
  | .loadState _ w => (s.map.slots (slotIdx g w)).state ≠ slotStateEmpty
  | _ => false

/-- A refusal is what lets a push return `RingFull`. -/
private theorem refused_stepPush (s : World g) : s.stepPush.1.push.refused = s.refuses.toNat := by
  cases hpc : s.push with
  | idle =>
    rw [World.stepPush, World.refuses, hpc]
    show s.push.refused = 0
    rw [hpc]
    rfl
  | loadRead packet w | loadState packet w =>
    rw [World.stepPush, World.refuses, hpc]
    dsimp only
    split
    · next hfull =>
      rw [decide_eq_true hfull]
      rfl
    · next hroom =>
      rw [decide_eq_false hroom]
      rfl
  | copy packet w k todo =>
    rw [World.stepPush, World.refuses, hpc]
    cases todo <;> rfl
  | ret packet result =>
    rw [World.stepPush, World.refuses, hpc]
    cases result <;> rfl
  | _ =>
    rw [World.stepPush, World.refuses, hpc]
    rfl

/-- A refused try returns at its next step. -/
private theorem stepPush_of_refused {s : World g} (h : s.push.refused ≠ 0) :
    ∃ packet, s.stepPush.2 = some (.pushReturned packet (.error .ringFull)) := by
  unfold PushPc.refused at h
  split at h
  · next packet hpc =>
    refine ⟨packet, ?_⟩
    rw [World.stepPush, hpc]
  · exact absurd rfl h

private theorem refused_callPush {s : World g} (h : s.push = .idle) (packet : Packet) :
    (s.callPush packet).push.refused = 0 := by
  simp only [World.callPush, h]
  split <;> rfl

namespace Link

/-- The refusals in a step of the link. -/
def refusals (s : Link g) : LinkAct → List Unit
  | .stepSend => if s.sending.isSome && s.world.refuses then [()] else []
  | _ => []

/-- A `send_packet` is in progress whose tries have been refused `n` times. -/
def Sending (s : Link g) (n : Nat) : Prop :=
  ∃ left, s.sending = some left ∧ n + left + 1 = sendTries + s.world.push.refused

theorem sending_send {s : Link g} (hidle : s.sending = none) (hpush : s.world.push = .idle)
    (packet : Packet) : (s.send packet).1.Sending 0 := by
  rw [send, hidle]
  refine ⟨_, rfl, ?_⟩
  show _ = sendTries + (s.world.callPush packet).push.refused
  rw [refused_callPush hpush]
  rfl

/-- Until it answers, a send goes on and counts its refusals. -/
theorem sending_act {s : Link g} {n : Nat} (h : s.Sending n) {a : LinkAct}
    (hsent : ∀ packet result, (s.act a).2 ≠ .sent packet result) :
    (s.act a).1.Sending (n + (s.refusals a).length) := by
  obtain ⟨left, hsending, hn⟩ := h
  cases a with
  | send packet =>
    rw [act, send, hsending]
    exact ⟨left, hsending, hn⟩
  | burst max =>
    have hframe := burst_frame s max
    refine ⟨left, hframe.sending.trans hsending, ?_⟩
    rw [act, hframe.push]
    exact hn
  | stepBurst =>
    have hframe := stepBurst_frame s
    refine ⟨left, hframe.sending.trans hsending, ?_⟩
    rw [act, hframe.push]
    exact hn
  | stepSend =>
    have hrefusals : (s.refusals .stepSend).length = s.world.refuses.toNat := by
      rw [refusals, hsending]
      cases s.world.refuses <;> rfl
    rw [act, stepSend_of_some hsending] at hsent ⊢
    rw [hrefusals, ← refused_stepPush]
    have hgoes (he : ∀ packet,
        s.world.stepPush.2 ≠ some (.pushReturned packet (.error .ringFull))) :
        Sending { s with world := s.world.stepPush.1 } (n + s.world.stepPush.1.push.refused) := by
      have hrefused : s.world.push.refused = 0 := by
        by_contra hne
        obtain ⟨packet, hpacket⟩ := stepPush_of_refused hne
        exact he packet hpacket
      refine ⟨left, hsending, ?_⟩
      show _ = sendTries + s.world.stepPush.1.push.refused
      omega
    cases he : s.world.stepPush.2 with
    | none => exact hgoes (by simp [he])
    | some e =>
      cases e with
      | pushReturned packet result =>
        rw [he] at hsent
        obtain hpc := pushReturned_of_step he
        rcases result with error | _
        · cases error with
          | ringFull =>
            cases left with
            | zero => exact absurd rfl (hsent packet (.error .ringFull))
            | succ left =>
              have hidle : s.world.stepPush.1.push = .idle := by
                apply (stepPush_idle _).mpr ⟨packet, _, he⟩
                simp [hpc]
              refine ⟨left, rfl, ?_⟩
              show _ = sendTries + (s.world.stepPush.1.callPush packet).push.refused
              rw [refused_callPush hidle, hidle]
              rw [hpc] at hn
              simp only [PushPc.refused] at hn ⊢
              omega
          | _ => exact absurd rfl (hsent packet _)
        · exact absurd rfl (hsent packet _)
      | _ => exact hgoes (by simp [he])

/-- A send that answers that the ring is full has been refused in all its tries. -/
theorem sending_gives_up {s : Link g} {n : Nat} (h : s.Sending n) {packet : Packet}
    (hsent : (s.act .stepSend).2 = .sent packet (.error .ringFull)) : n = sendTries := by
  obtain ⟨left, hsending, hn⟩ := h
  have hexplained := act_explained s .stepSend
  rw [hsent] at hexplained
  have hpc := pushReturned_of_step hexplained
  have he : s.world.stepPush.2 = some (.pushReturned packet (.error .ringFull)) := hexplained
  rw [act, stepSend_of_some hsending, he] at hsent
  cases left with
  | zero =>
    rw [hpc] at hn
    simp only [PushPc.refused] at hn
    omega
  | succ left => cases hsent

/-- So does a whole run. -/
theorem sending_run {s : Link g} {n : Nat} (h : s.Sending n) {acts : List LinkAct}
    (hsent : ∀ a packet result, (a, .sent packet result) ∉ (link g).trace s acts) :
    ((link g).run s acts).Sending (n + ((link g).collect refusals s acts).length) := by
  induction acts generalizing s n with
  | nil => exact h
  | cons a acts ih =>
    have hfirst := sending_act h (a := a)
      (fun packet result hr ↦ hsent a packet result (List.mem_cons.mpr (.inl (by rw [← hr]; rfl))))
    have hrest := ih hfirst (fun b packet result hmem ↦
      hsent b packet result (List.mem_cons_of_mem _ hmem))
    rw [Nat.add_assoc, ← List.length_append] at hrest
    exact hrest

end Link

end AetherRadio.Shm
