import AetherRadio.Shm.Progress

/-!
# Bursts that come back

An `rx_burst` that runs alone comes back with the oldest packets that have been sent.
-/

namespace AetherRadio.Shm

open Verif

variable {g : Geometry}

/-- Steps of a pop still to come, if the slot's length is right. -/
def PopPc.distance (g : Geometry) : PopPc → Nat
  | .idle => 0
  | .ret _ => 1
  | .storeRead _ _ => 2
  | .storeEmpty _ _ => 3
  | .loadBytes _ n got => 4 + (n - got.length)
  | .loadLen _ => 5 + g.slotBytes
  | .loadState _ => 6 + g.slotBytes
  | .loadWrite _ => 7 + g.slotBytes
  | .loadRead => 8 + g.slotBytes

private theorem distance_stepPop {s : World g} {r : Nat} {q : List Packet} (hinv : Inv s r q)
    (h : s.pop ≠ .idle) : s.stepPop.1.pop.distance g < s.pop.distance g := by
  cases hpc : s.pop with
  | idle => exact absurd hpc h
  | loadWrite r' | loadState r' =>
    rw [World.stepPop, hpc]
    dsimp only
    split <;> simp only [PopPc.distance] <;> omega
  | loadLen r' =>
    rw [World.stepPop, hpc]
    dsimp only
    split <;> simp only [PopPc.distance, List.length_nil] <;> omega
  | loadBytes r' n got =>
    have hok := hinv.pop
    rw [hpc] at hok
    obtain ⟨-, p, hp, hn, -⟩ := hok
    have hfits : n ≤ g.slotBytes := by
      rw [hn]
      exact (hinv.head_holds (by rw [hpc]; rfl) hp).2.1
    rw [World.stepPop, hpc]
    dsimp only
    split
    · next hlt =>
      simp only [PopPc.distance, List.length_append, List.length_take, List.length_drop,
        Slot.bytes, List.length_ofFn]
      omega
    · split <;> simp only [PopPc.distance] <;> omega
  | ret result =>
    rw [World.stepPop, hpc]
    rcases result with (_ | _ | _) | _ <;> exact Nat.zero_lt_one
  | _ =>
    rw [World.stepPop, hpc]
    simp only [PopPc.distance]
    omega

/-- A pop that finds nothing has found the counters equal. -/
private theorem empty_of_stepPop {s : World g} {r : Nat} {q : List Packet} (h : Inv s r q)
    (hret : s.pop ≠ .ret (.ret (.ok none)))
    (hnone : s.stepPop.1.pop = .ret (.ret (.ok none))) :
    s.stepPop.1.map.readPos = s.stepPop.1.map.writePos := by
  have hpop := h.pop
  cases hpc : s.pop with
  | idle =>
    rw [World.stepPop, hpc] at hnone
    exact absurd hnone hret
  | loadWrite r' =>
    rw [hpc] at hpop
    rw [World.stepPop, hpc] at hnone ⊢
    dsimp only at hnone ⊢
    split at hnone
    · next heq =>
      rw [if_pos heq]
      show s.map.readPos = s.map.writePos
      rw [← heq, h.readPos]
      exact hpop.symm
    · cases hnone
  | loadState r' =>
    rw [hpc] at hpop
    obtain ⟨hr, hne⟩ := hpop
    obtain ⟨p, hp⟩ : ∃ p, q.head? = some p := by
      cases q with
      | nil => exact absurd rfl hne
      | cons p q => exact ⟨p, rfl⟩
    have hfull : (s.map.slots (slotIdx g (UInt64.ofNat r))).state = slotStateFull :=
      (h.head_holds (by rw [hpc]; rfl) hp).1
    rw [World.stepPop, hpc] at hnone
    dsimp only at hnone
    rw [hr, if_neg (not_not.mpr hfull)] at hnone
    cases hnone
  | loadLen r' =>
    rw [World.stepPop, hpc] at hnone
    dsimp only at hnone
    split at hnone <;> cases hnone
  | loadBytes r' n got =>
    rw [World.stepPop, hpc] at hnone
    dsimp only at hnone
    split at hnone
    · cases hnone
    · split at hnone <;> cases hnone
  | ret result =>
    rw [World.stepPop, hpc] at hnone
    rcases result with (_ | _ | _) | _ <;> cases hnone
  | _ =>
    rw [World.stepPop, hpc] at hnone
    cases hnone

/-- A ring whose counters agree holds nothing. -/
theorem Inv.eq_nil {s : World g} {r : Nat} {q : List Packet} (h : Inv s r q)
    (hempty : s.map.readPos = s.map.writePos) : q = [] := by
  have hroom := h.room
  have hlt := g.slotCount_lt
  rw [h.readPos, h.writePos, ofNat_inj_of_near (Nat.le_add_right r q.length) (by omega)] at hempty
  apply List.eq_nil_of_length_eq_zero
  omega

namespace Link

private theorem pollEvent_silent (s : Link g) (max n : Nat) {e : Option Event}
    (he : ∀ result, e ≠ some (.popReturned result)) : s.pollEvent max n e = (s, .silent) := by
  rcases e with _ | e
  · rfl
  · cases e with
    | popReturned result => exact absurd rfl (he result)
    | _ => rfl

/-- A burst is in progress that has got `n` packets so far; a pop that is about to return nothing
has found the ring empty. -/
structure Bursting (max : Nat) (s : Link g) : Prop where
  reached : ∃ sched, s = (link g).run (Link.init g) sched
  polling : ∃ n, s.polling = some (max, n) ∧ n < max ∧ n ≤ s.rx.length
  empty : s.world.pop = .ret (.ret (.ok none)) → s.world.map.readPos = s.world.map.writePos

/-- How far a burst is from its answer: first the packets it may still get, then the steps of the
pop. -/
def burstDistance (s : Link g) : Nat × Nat :=
  (s.polling.elim 0 (fun poll ↦ poll.1 - poll.2), s.world.pop.distance g)

/-- An answer of the receiver. -/
def IsHandedOut (reply : LinkReply) : Prop := ∃ max packets, reply = .handedOut max packets

/-- What the answer of a burst says: it is as long as asked, or nothing is left. -/
structure Drained (max : Nat) (s : Link g) (reply : LinkReply) : Prop where
  polling : s.polling = none
  enough : reply.packets.length ≤ max
  rest : reply.packets.length < max → s.rx = [] ∧ s.world.map.readPos = s.world.map.writePos

private theorem drain_drained (s : Link g) (max : Nat)
    (h : s.rx.length < max → s.world.map.readPos = s.world.map.writePos) :
    Drained max (s.drain max).1 (s.drain max).2 := by
  have hlength : (s.rx.take (min max s.rx.length)).length = min max s.rx.length := by
    rw [List.length_take]
    omega
  refine ⟨rfl, ?_, ?_⟩
  · show (s.rx.take (min max s.rx.length)).length ≤ max
    omega
  · intro hless
    change (s.rx.take (min max s.rx.length)).length < max at hless
    refine ⟨?_, h (by omega)⟩
    show s.rx.drop (min max s.rx.length) = []
    apply List.drop_eq_nil_of_le
    omega

/-- A step of the receiver answers, or comes closer to the answer. -/
def Closer (max : Nat) (s s' : Link g) (reply : LinkReply) : Prop :=
  (¬ IsHandedOut reply → s'.Bursting max ∧
    Prod.Lex (· < ·) (· < ·) s'.burstDistance s.burstDistance) ∧
  (IsHandedOut reply → Drained max s' reply)

private theorem not_isHandedOut_silent : ¬ IsHandedOut .silent := by
  rintro ⟨max, packets, h⟩
  cases h

private theorem isHandedOut_drain (s : Link g) (max : Nat) : IsHandedOut
    (s.drain max).2 := ⟨_, _, rfl⟩

variable {s : Link g} {max n : Nat}

/-- A pop that has found the ring empty ends the burst. -/
private theorem closer_of_none (hpolling : s.polling = some (max, n))
    (hpc : s.world.pop = .ret (.ret (.ok none)))
    (hempty : s.world.map.readPos = s.world.map.writePos) :
    Closer max s s.stepBurst.1 s.stepBurst.2 := by
  have hstep : s.world.stepPop = ({ s.world with pop := .idle },
      some (.popReturned (.ret (.ok none)))) := by rw [World.stepPop, hpc]
  rw [stepBurst_of_some hpolling, hstep]
  refine ⟨fun hnot ↦ absurd (isHandedOut_drain _ max) hnot, fun _ ↦ ?_⟩
  exact drain_drained _ max (fun _ ↦ hempty)

/-- A pop that has got a packet is followed by another, or by the end of the burst. -/
private theorem closer_of_some
    (hreached : ∃ sched, s.stepBurst.1 = (link g).run (Link.init g) sched)
    (hpolling : s.polling = some (max, n)) (hn : n < max) (hgot : n ≤ s.rx.length)
    {pkt : Packet} (hpc : s.world.pop = .ret (.ret (.ok (some pkt)))) :
    Closer max s s.stepBurst.1 s.stepBurst.2 := by
  have hstep : s.world.stepPop = ({ s.world with pop := .idle, popped := s.world.popped + 1 },
      some (.popReturned (.ret (.ok (some pkt))))) := by rw [World.stepPop, hpc]
  have heq : s.stepBurst = pollNext { s with
      world := { s.world with pop := .idle, popped := s.world.popped + 1 }
      rx := s.rx ++ [pkt] } max (n + 1) := by
    rw [stepBurst_of_some hpolling, hstep]
    rfl
  have hlength : (s.rx ++ [pkt]).length = s.rx.length + 1 := List.length_append
  rw [heq] at hreached ⊢
  unfold pollNext at hreached ⊢
  by_cases hmore : n + 1 < max
  · rw [if_pos hmore] at hreached ⊢
    refine ⟨fun _ ↦ ⟨⟨hreached, ⟨n + 1, rfl, hmore, ?_⟩, ?_⟩, ?_⟩,
      fun h ↦ absurd h not_isHandedOut_silent⟩
    · show n + 1 ≤ (s.rx ++ [pkt]).length
      omega
    · intro hpop
      cases hpop
    · unfold burstDistance
      rw [hpolling]
      apply Prod.Lex.left
      show max - (n + 1) < max - n
      omega
  · rw [if_neg hmore]
    refine ⟨fun hnot ↦ absurd (isHandedOut_drain _ max) hnot, fun _ ↦ ?_⟩
    apply drain_drained
    intro hless
    change (s.rx ++ [pkt]).length < max at hless
    omega

/-- Inside a pop the burst goes on. -/
private theorem closer_of_pop (hreached : ∃ sched, s.stepBurst.1 = (link g).run (Link.init g) sched)
    (hpolling : s.polling = some (max, n)) (hn : n < max) (hgot : n ≤ s.rx.length) {r : Nat}
    {q : List Packet} (hinv : Inv s.world r q) (hidle : s.world.pop ≠ .idle)
    (hret : ∀ result, s.world.pop ≠ .ret result) :
    Closer max s s.stepBurst.1 s.stepBurst.2 := by
  have heq : s.stepBurst = ({ s with world := s.world.stepPop.1 }, .silent) := by
    rw [stepBurst_of_some hpolling]
    apply pollEvent_silent
    intro result he
    exact hret result (popReturned_of_step (a := .stepPop) he)
  rw [heq] at hreached ⊢
  refine ⟨fun _ ↦ ⟨⟨hreached, ⟨n, hpolling, hn, hgot⟩, ?_⟩, ?_⟩,
    fun h ↦ absurd h not_isHandedOut_silent⟩
  · exact empty_of_stepPop hinv (hret _)
  · exact .right _ (distance_stepPop hinv hidle)

private theorem stepBurst_closer (h : s.Bursting max) :
    Closer max s s.stepBurst.1 s.stepBurst.2 := by
  obtain ⟨⟨sched, hs⟩, ⟨n, hpolling, hn, hgot⟩, hempty⟩ := h
  have hreached : ∃ sched', s.stepBurst.1 = (link g).run (Link.init g) sched' := by
    refine ⟨sched ++ [.stepBurst], ?_⟩
    rw [(link g).run_append, ← hs]
    rfl
  obtain ⟨q, hinv, -⟩ := link_holds g sched
  have htidy := tidy_run (g := g) sched
  rw [← hs] at hinv htidy
  by_cases hret : ∃ result, s.world.pop = .ret result
  · obtain ⟨result, hpc⟩ := hret
    have hpop := hinv.pop
    rw [hpc] at hpop
    obtain ⟨o, rfl⟩ := hpop
    cases o with
    | none => exact closer_of_none hpolling hpc (hempty hpc)
    | some pkt => exact closer_of_some hreached hpolling hn hgot hpc
  · refine closer_of_pop hreached hpolling hn hgot hinv ?_ (fun result h ↦ hret ⟨result, h⟩)
    intro hidle
    rw [htidy.pop.mpr hidle] at hpolling
    cases hpolling

end Link

/-- The schedule of a burst that runs alone, up to `k` steps of it. -/
def burstAlone (max k : Nat) : List LinkAct := .burst max :: .replicate k .stepBurst

private theorem handedOut_of_silent {t : List (LinkAct × LinkReply)}
    (h : ∀ entry ∈ t, ¬ Link.IsHandedOut entry.2) : handedOut t = [] := by
  apply List.flatMap_eq_nil_iff.mpr
  intro entry hentry
  have hsilent := h entry hentry
  cases hreply : entry.2 with
  | handedOut max packets => exact absurd ⟨max, packets, hreply⟩ hsilent
  | _ => rfl

/-- The call of a burst of some packets. -/
theorem burst_eq_callPop {s : Link g} (hpolling : s.polling = none) {max : Nat} (hmax : 0 < max) :
    s.burst max = ({ s with world := s.world.callPop, polling := some (max, 0) }, .silent) := by
  rw [Link.burst, hpolling]
  exact if_pos hmax

/-- The call of a burst of some packets leaves the burst in progress. -/
private theorem bursting_burst {s : Link g}
    (hreached : ∃ sched, s = (link g).run (Link.init g) sched)
    (hpolling : s.polling = none) {max : Nat} (hmax : 0 < max) :
    (s.burst max).1.Bursting max := by
  have hcall := burst_eq_callPop hpolling hmax
  obtain ⟨sched, hs⟩ := hreached
  have hidle : s.world.pop = .idle := by
    rw [hs] at hpolling ⊢
    exact (Link.tidy_run sched).pop.mp hpolling
  refine ⟨⟨sched ++ [.burst max], ?_⟩, ⟨0, by rw [hcall], hmax, Nat.zero_le _⟩, ?_⟩
  · rw [(link g).run_append, ← hs]
    rfl
  · intro hpc
    rw [hcall] at hpc
    simp [World.callPop, hidle] at hpc

/-- A burst that runs alone answers. -/
theorem exists_drained {s : Link g} (hreached : ∃ sched, s = (link g).run (Link.init g) sched)
    (hpolling : s.polling = none) (max : Nat) :
    ∃ k reply, Link.Drained max ((link g).run s (burstAlone max k)) reply ∧
      handedOut ((link g).trace s (burstAlone max k)) = reply.packets := by
  by_cases hmax : 0 < max
  · have hcall := burst_eq_callPop hpolling hmax
    have hstart := bursting_burst hreached hpolling hmax
    obtain ⟨k, hlast, hanswer, hsilent⟩ := (link g).exists_answer
      (Nat.lt_wfRel.wf.prod_lex Nat.lt_wfRel.wf) (P := Link.Bursting max)
      (D := Link.IsHandedOut) Link.burstDistance .stepBurst
      (fun s hs hdone ↦ (Link.stepBurst_closer hs).1 hdone) hstart
    have hdrained := (Link.stepBurst_closer hlast).2 hanswer
    refine ⟨k + 1, ((link g).run (s.burst max).1 (.replicate k .stepBurst)).stepBurst.2, ?_, ?_⟩
    · have hrun : (link g).run s (burstAlone max (k + 1)) =
          ((link g).run (s.burst max).1 (.replicate k .stepBurst)).stepBurst.1 := by
        rw [burstAlone, List.replicate_succ']
        exact (link g).run_append _ _ _
      rw [hrun]
      exact hdrained
    · have htrace : (link g).trace s (burstAlone max (k + 1)) =
          (.burst max, (s.burst max).2) ::
            ((link g).trace (s.burst max).1 (.replicate k .stepBurst) ++ [(.stepBurst,
              ((link g).run (s.burst max).1 (.replicate k .stepBurst)).stepBurst.2)]) := by
        rw [burstAlone, List.replicate_succ']
        exact congrArg _ ((link g).trace_append _ _ _)
      have hbefore := handedOut_of_silent hsilent
      rw [handedOut] at hbefore
      rw [htrace, handedOut, List.flatMap_cons, List.flatMap_append, hbefore, hcall]
      simp [LinkReply.packets]
  · have hcall : s.burst max = s.drain max := by
      rw [Link.burst, hpolling]
      exact if_neg hmax
    refine ⟨0, (s.drain max).2, ?_, ?_⟩
    · show Link.Drained max (s.burst max).1 _
      rw [hcall]
      exact Link.drain_drained s max (fun hless ↦ absurd hless (by omega))
    · show (s.burst max).2.packets ++ [] = _
      rw [hcall, List.append_nil]

namespace Link

end Link

/-- An `rx_burst` during which the sink stands still comes back, and then the packets handed out are
the first ones sent: those handed out before and up to `max` more. -/
theorem burst_alone (g : Geometry) (sched : List LinkAct) (max : Nat)
    (hsending : ((link g).run (Link.init g) sched).sending = none)
    (hpolling : ((link g).run (Link.init g) sched).polling = none) :
    let t := (link g).trace (Link.init g) sched
    ∃ k, let later := sched ++ .burst max :: .replicate k .stepBurst
      ((link g).run (Link.init g) later).polling = none ∧
      handedOut ((link g).trace (Link.init g) later) =
        (sentOk t).take ((handedOut t).length + max) := by
  intro t
  obtain ⟨k, reply, hdrained, hout⟩ := exists_drained ⟨sched, rfl⟩ hpolling max
  refine ⟨k, ?_⟩
  intro later
  have hrun : (link g).run (Link.init g) later =
      (link g).run ((link g).run (Link.init g) sched) (burstAlone max k) :=
    (link g).run_append _ _ _
  have htrace : (link g).trace (Link.init g) later =
      t ++ (link g).trace ((link g).run (Link.init g) sched) (burstAlone max k) :=
    (link g).trace_append _ _ _
  rw [← hrun] at hdrained
  refine ⟨hdrained.polling, ?_⟩
  have hlater : handedOut ((link g).trace (Link.init g) later) = handedOut t ++ reply.packets := by
    rw [htrace, ← hout, handedOut, List.flatMap_append]
    rfl
  have hframe := Link.burst_frame ((link g).run (Link.init g) sched) max
  obtain ⟨hsink, -, hnone⟩ :=
    Link.receiver_frame (((link g).run (Link.init g) sched).burst max).1 k
  have hsent : sentOk ((link g).trace (Link.init g) later) = sentOk t := by
    rw [htrace, sentOk, List.flatMap_append]
    show sentOk t ++ ((Link.burst _ max).2.sentOk ++ sentOk _) = sentOk t
    rw [hframe.sentOk, List.nil_append]
    exact (congrArg _ hnone).trans (List.append_nil _)
  replace hsink : ((link g).run (Link.init g) later).sending = none := by
    rw [hrun]
    exact hsink.trans (hframe.sending.trans hsending)
  have htidy := Link.tidy_run (g := g) later
  have hpast : ((link g).run (Link.init g) later).world.pastLastStore = [] := by
    rw [World.pastLastStore, htidy.push.mp hsink]
  have habout : ((link g).run (Link.init g) later).world.aboutToReturn = [] := by
    rw [World.aboutToReturn, htidy.pop.mp hdrained.polling]
  obtain ⟨hinv, hholds⟩ := inRing_holds g hpast
  rw [hsent, habout, List.append_nil, hlater] at hholds
  rw [hlater]
  by_cases hless : reply.packets.length < max
  · obtain ⟨hrx, hempty⟩ := hdrained.rest hless
    have hring : inRing g later = [] := hinv.eq_nil hempty
    rw [hrx, hring, List.append_nil, List.append_nil] at hholds
    rw [hholds, List.take_of_length_le]
    rw [List.length_append]
    omega
  · have henough := hdrained.enough
    have hlength : (handedOut t).length + max = (handedOut t ++ reply.packets).length := by
      rw [List.length_append]
      omega
    rw [hholds, hlength, List.append_assoc, List.take_left]

/-- A burst of four from a ring one packet has been sent to. -/
theorem burst_alone_sent :
    let sent : List LinkAct := .send emptyPacket :: .replicate 40 .stepSend
    sentOk ((link oneSlot).trace (Link.init oneSlot) sent) = [emptyPacket] ∧
      ∃ k, handedOut ((link oneSlot).trace (Link.init oneSlot)
        (sent ++ .burst 4 :: .replicate k .stepBurst)) = [emptyPacket] := by
  intro sent
  have hsent : sentOk ((link oneSlot).trace (Link.init oneSlot) sent) = [emptyPacket] := by
    decide +kernel
  obtain ⟨k, -, hout⟩ := burst_alone oneSlot sent 4 (by decide +kernel) (by decide +kernel)
  refine ⟨hsent, k, ?_⟩
  rw [hout, hsent]
  rfl

end AetherRadio.Shm
