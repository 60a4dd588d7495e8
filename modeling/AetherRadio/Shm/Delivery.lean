import AetherRadio.Shm.Link

/-!
# Delivery over the shared-memory link

What one step of the link shows of the ring, and what a run shows: the packets handed out followed
by those still on their way are the packets sent.
-/

namespace AetherRadio.Shm

open Verif

variable {g : Geometry}

/-- Entering a call shows nothing. -/
theorem events_trace_calls {calls : List Act}
    (h : ∀ b ∈ calls, (∃ packet, b = .callPush packet) ∨ b = .callPop) (s : World g) :
    events ((machine g).trace s calls) = [] := by
  induction calls generalizing s with
  | nil => rfl
  | cons b calls ih =>
    have hrest := ih (fun c hc ↦ h c (List.mem_cons_of_mem b hc)) ((machine g).step s b).1
    rcases h b List.mem_cons_self with ⟨packet, rfl⟩ | rfl
    · exact hrest
    · exact hrest

namespace Link

private theorem events_sendCalls (s : World g) (left : Nat) (e : Option Event) :
    events ((machine g).trace s (sendCalls left e)) = [] := by
  apply events_trace_calls
  unfold sendCalls
  split
  · split <;> simp
  · simp

private theorem events_pollCall (s : World g) (max n : Nat) :
    events ((machine g).trace s (pollCall max n)) = [] := by
  apply events_trace_calls
  unfold pollCall
  split <;> simp

private theorem events_pollCalls (s : World g) (max n : Nat) (e : Option Event) :
    events ((machine g).trace s (pollCalls max n e)) = [] := by
  unfold pollCalls
  split
  · exact events_pollCall ..
  · rfl

private theorem events_cons (entry : Act × Option Event) (t : List (Act × Option Event)) :
    events (entry :: t) = entry.2.toList ++ events t := by
  obtain ⟨a, _ | e⟩ := entry <;> rfl

/-- A step of the link shows what the step of `try_push` or `try_pop` in it shows. -/
theorem ringEvents_eq (s : Link g) (a : LinkAct) :
    s.ringEvents a =
      match a with
      | .stepSend => if s.sending.isSome then s.world.stepPush.2.toList else []
      | .stepBurst => if s.polling.isSome then s.world.stepPop.2.toList else []
      | _ => [] := by
  cases a with
  | send packet =>
    rw [ringEvents, ringActs]
    split <;> rfl
  | stepSend =>
    rw [ringEvents, ringActs]
    cases s.sending with
    | none => rfl
    | some left =>
      dsimp only
      rw [Machine.trace_cons, events_cons, events_sendCalls, List.append_nil]
      rfl
  | burst max =>
    rw [ringEvents, ringActs]
    split
    · exact events_pollCall ..
    · rfl
  | stepBurst =>
    rw [ringEvents, ringActs]
    cases s.polling with
    | none => rfl
    | some poll =>
      dsimp only
      rw [Machine.trace_cons, events_cons, events_pollCalls, List.append_nil]
      rfl

end Link

namespace Link

private theorem sendEvent_conserves (s : Link g) (left : Nat) (e : Option Event) :
    (s.sendEvent left e).2.sentOk = accepted e.toList ∧
      (s.sendEvent left e).2.packets ++ (s.sendEvent left e).1.rx = s.rx := by
  rcases e with _ | _ | ⟨packet, error | _⟩ | _ | _
  case some.pushReturned.error =>
    cases error with
    | ringFull => cases left <;> exact ⟨rfl, rfl⟩
    | _ => exact ⟨rfl, rfl⟩
  all_goals exact ⟨rfl, rfl⟩

private theorem drain_conserves (s : Link g) (max : Nat) :
    (s.drain max).2.packets ++ (s.drain max).1.rx = s.rx := by
  show s.rx.take _ ++ s.rx.drop _ = s.rx
  exact List.take_append_drop ..

private theorem pollNext_conserves (s : Link g) (max n : Nat) :
    (s.pollNext max n).2.sentOk = [] ∧
      (s.pollNext max n).2.packets ++ (s.pollNext max n).1.rx = s.rx := by
  unfold pollNext
  split
  · exact ⟨rfl, rfl⟩
  · exact ⟨rfl, drain_conserves ..⟩

private theorem pollEvent_conserves (s : Link g) (max n : Nat) (e : Option Event) :
    (s.pollEvent max n e).2.sentOk = [] ∧
      (s.pollEvent max n e).2.packets ++ (s.pollEvent max n e).1.rx =
        s.rx ++ returned e.toList := by
  have hnone : s.rx = s.rx ++ [] := (List.append_nil _).symm
  rcases e with _ | _ | _ | _ | ⟨_ | _ | _⟩ | _
  case some.popReturned.ret.ok.some pkt =>
    exact pollNext_conserves { s with rx := s.rx ++ [pkt] } max (n + 1)
  case some.popReturned.ret.error | some.popReturned.ret.ok.none =>
    exact ⟨rfl, (drain_conserves s max).trans hnone⟩
  all_goals exact ⟨rfl, hnone⟩

/-- A send comes back with `Ok` when its `try_push` does. -/
private theorem accepted_ringEvents (s : Link g) (a : LinkAct) :
    accepted (s.ringEvents a) = (s.act a).2.sentOk := by
  rw [ringEvents_eq]
  cases a with
  | send packet =>
    rw [act, send]
    cases s.sending <;> rfl
  | stepSend =>
    rw [act, stepSend]
    cases s.sending with
    | none => rfl
    | some left => exact (sendEvent_conserves ..).1.symm
  | burst max =>
    rw [act, burst]
    cases s.polling with
    | none => exact (pollNext_conserves ..).1.symm
    | some _ => rfl
  | stepBurst =>
    rw [act, stepBurst]
    cases s.polling with
    | none => rfl
    | some poll => exact (pop_frame s.world).2.2.trans (pollEvent_conserves ..).1.symm

/-- What `try_pop` returns joins the packets not handed out yet. -/
private theorem returned_ringEvents (s : Link g) (a : LinkAct) :
    (s.act a).2.packets ++ (s.act a).1.rx = s.rx ++ returned (s.ringEvents a) := by
  have hnone : s.rx = s.rx ++ [] := (List.append_nil _).symm
  rw [ringEvents_eq]
  cases a with
  | send packet =>
    rw [act, send]
    cases s.sending <;> exact hnone
  | stepSend =>
    rw [act, stepSend]
    cases s.sending with
    | none => exact hnone
    | some left =>
      have hpushed : s.rx = s.rx ++ returned s.world.stepPush.2.toList := by
        rw [(push_frame s.world).2.2, List.append_nil]
      exact (sendEvent_conserves ..).2.trans hpushed
  | burst max =>
    rw [act, burst]
    cases s.polling with
    | none => exact (pollNext_conserves ..).2.trans hnone
    | some _ => exact hnone
  | stepBurst =>
    rw [act, stepBurst]
    cases s.polling with
    | none => exact hnone
    | some poll => exact (pollEvent_conserves ..).2

end Link

/-- The events of the ring in a run of the link. -/
def linkEvents (g : Geometry) (sched : List LinkAct) : List Event :=
  events ((machine g).trace (World.init g) ((linkUses g).schedule (Link.init g) sched))

private theorem linkEvents_eq (g : Geometry) (sched : List LinkAct) :
    linkEvents g sched = (link g).collect Link.ringEvents (Link.init g) sched := by
  show events ((machine g).trace ((linkUses g).part (Link.init g)) _) = _
  rw [(linkUses g).trace_schedule]
  exact (link g).project_collect rfl (fun _ _ ↦ List.filterMap_append) _ _ _

/-- The sends that succeeded are the pushes that did. -/
theorem accepted_linkEvents (g : Geometry) (sched : List LinkAct) :
    accepted (linkEvents g sched) = sentOk ((link g).trace (Link.init g) sched) := by
  rw [linkEvents_eq, (link g).project_collect rfl accepted_append]
  simp only [Link.accepted_ringEvents]
  exact (link g).collect_answers (fun _ reply ↦ reply.sentOk) _ _

/-- The packets handed out and those not handed out yet are the ones popped. -/
theorem returned_linkEvents (g : Geometry) (sched : List LinkAct) :
    handedOut ((link g).trace (Link.init g) sched) ++ ((link g).run (Link.init g) sched).rx =
      returned (linkEvents g sched) := by
  have hanswers := (link g).collect_answers (fun _ reply ↦ reply.packets) (Link.init g) sched
  have hconserves := (link g).collect_conserves (P := fun _ ↦ True) (fun _ _ _ ↦ trivial)
    (fun s a _ ↦ Link.returned_ringEvents s a) (s := Link.init g) trivial sched
  rw [linkEvents_eq, (link g).project_collect rfl returned_append, handedOut, ← hanswers]
  exact hconserves

/-- What `send_packet` may answer for a packet. -/
def Answers (g : Geometry) (packet : Packet) : Except ShmIoError Unit → Prop
  | .ok () => Fits g packet
  | .error e => e = .ringFull ∧ Fits g packet ∨ e = .frameTooLarge ∧ ¬ Fits g packet

/-- What the producer knows of its packet's size. -/
def PushPc.Sized (g : Geometry) : PushPc → Prop
  | .idle => True
  | .loadWrite packet | .loadRead packet _ | .loadState packet _ | .copy packet _ _ _
  | .storeFull packet _ | .storeWrite packet _ => Fits g packet
  | .ret packet result => Answers g packet result

private theorem sized_callPush {s : World g} (h : s.push.Sized g) (packet : Packet) :
    (s.callPush packet).push.Sized g := by
  cases hpc : s.push with
  | idle =>
    simp only [World.callPush, hpc]
    split
    · next hlarge => exact .inr ⟨rfl, Nat.not_le.mpr hlarge⟩
    · next hfits => exact Nat.not_lt.mp hfits
  | _ =>
    simp only [World.callPush, hpc]
    rwa [hpc] at h

private theorem sized_stepPush {s : World g} (h : s.push.Sized g) : s.stepPush.1.push.Sized g := by
  cases hpc : s.push with
  | idle => simp only [World.stepPush, hpc, PushPc.Sized]
  | loadRead packet w | loadState packet w =>
    rw [hpc] at h
    simp only [World.stepPush, hpc]
    split
    · exact .inl ⟨rfl, h⟩
    · exact h
  | copy packet w k todo =>
    rw [hpc] at h
    cases todo <;> simp only [World.stepPush, hpc] <;> exact h
  | ret packet result => cases result <;> simp only [World.stepPush, hpc, PushPc.Sized]
  | _ =>
    rw [hpc] at h
    simp only [World.stepPush, hpc]
    exact h

private theorem sized_act {s : World g} (h : s.push.Sized g) (a : Act) :
    (s.act a).1.push.Sized g := by
  cases a with
  | callPush packet => exact sized_callPush h packet
  | stepPush => exact sized_stepPush h
  | callPop =>
    show s.callPop.push.Sized g
    rwa [(callPop_frame s).1]
  | stepPop =>
    show s.stepPop.1.push.Sized g
    rwa [(pop_frame s).1]
  | crashPush => exact True.intro
  | crashPop => exact h

/-- A push comes back with the result it was about to return. -/
theorem pushReturned_of_step {s : World g} {packet : Packet} {result : Except ShmIoError Unit}
    (h : s.stepPush.2 = some (.pushReturned packet result)) : s.push = .ret packet result := by
  cases hpc : s.push with
  | loadRead packet' w | loadState packet' w =>
    simp only [World.stepPush, hpc] at h
    split at h <;> cases h
  | copy packet' w k todo => cases todo <;> simp [World.stepPush, hpc] at h
  | ret packet' result' =>
    cases result' <;> simp only [World.stepPush, hpc] at h <;> cases h <;> rfl
  | _ => simp [World.stepPush, hpc] at h

/-- Where an answer comes from. -/
def LinkReply.Explained (s : Link g) : LinkReply → Prop
  | .silent => True
  | .sent packet result => s.world.stepPush.2 = some (.pushReturned packet result)
  | .handedOut max packets => packets.length ≤ max
  | .panicked => s.world.stepPop.2 = some (.popReturned .panic)

namespace Link

private theorem sendEvent_explained {s s' : Link g} {left : Nat} {e : Option Event}
    (h : s.world.stepPush.2 = e) : (s'.sendEvent left e).2.Explained s := by
  rcases e with _ | _ | ⟨packet, error | _⟩ | _ | _
  case some.pushReturned.ok => exact h
  case some.pushReturned.error =>
    cases error with
    | ringFull =>
      cases left with
      | zero => exact h
      | succ left => exact True.intro
    | _ => exact h
  all_goals exact True.intro

private theorem drain_explained (s s' : Link g) (max : Nat) : (s'.drain max).2.Explained s := by
  show (s'.rx.take _).length ≤ max
  rw [List.length_take]
  omega

private theorem pollNext_explained (s s' : Link g) (max n : Nat) :
    (s'.pollNext max n).2.Explained s := by
  unfold pollNext
  split
  · exact True.intro
  · exact drain_explained ..

private theorem pollEvent_explained {s s' : Link g} {max n : Nat} {e : Option Event}
    (h : s.world.stepPop.2 = e) : (s'.pollEvent max n e).2.Explained s := by
  rcases e with _ | _ | _ | _ | ⟨_ | _ | _⟩ | _
  case some.popReturned.ret.error | some.popReturned.ret.ok.none => exact drain_explained ..
  case some.popReturned.ret.ok.some => exact pollNext_explained ..
  case some.popReturned.panic => exact h
  all_goals exact True.intro

/-- Every answer is explained by the state it is given in. -/
theorem act_explained (s : Link g) (a : LinkAct) : (s.act a).2.Explained s := by
  cases a with
  | send packet =>
    rw [act, send]
    cases s.sending <;> exact True.intro
  | stepSend =>
    rw [act, stepSend]
    cases s.sending with
    | none => exact True.intro
    | some left => exact sendEvent_explained rfl
  | burst max =>
    rw [act, burst]
    cases s.polling with
    | none => exact pollNext_explained ..
    | some _ => exact True.intro
  | stepBurst =>
    rw [act, stepBurst]
    cases s.polling with
    | none => exact True.intro
    | some poll => exact pollEvent_explained rfl

theorem sized_run (sched : List LinkAct) :
    ((link g).run (Link.init g) sched).world.push.Sized g := by
  refine (link g).run_preserves (G := fun _ _ ↦ True) (P := fun s ↦ s.world.push.Sized g)
    True.intro ?_ ((link g).permits_true _ _)
  intro s a hsized _
  show (s.act a).1.world.push.Sized g
  rw [world_act]
  exact (machine g).run_preserves (G := fun _ _ ↦ True) (P := fun s ↦ s.push.Sized g) hsized
    (fun s a h _ ↦ sized_act h a) ((machine g).permits_true _ _)

end Link

/-- The ring schedule of a run of the link stops nobody. -/
theorem crashFree_schedule (g : Geometry) (sched : List LinkAct) :
    CrashFree ((linkUses g).schedule (Link.init g) sched) :=
  (link g).forall_mem_collect Link.crashFree_ringActs _ _

theorem world_run (g : Geometry) (sched : List LinkAct) :
    ((link g).run (Link.init g) sched).world =
      (machine g).run (World.init g) ((linkUses g).schedule (Link.init g) sched) :=
  (linkUses g).part_run _ _

/-- In every state of the link the ring holds a queue of at most `slot_count` packets: the packets
sent, with the one a push has just stored, are those handed out, those not handed out yet, the one a
pop has just freed, and the queue. -/
theorem link_holds (g : Geometry) (sched : List LinkAct) :
    let s := (link g).run (Link.init g) sched
    let t := (link g).trace (Link.init g) sched
    let out := handedOut t ++ s.rx ++ s.world.aboutToReturn
    ∃ q, Inv s.world out.length q ∧ sentOk t ++ s.world.pastLastStore = out ++ q := by
  intro s t out
  have hfree := crashFree_schedule g sched
  obtain ⟨q, hinv, hpath⟩ := run_inv (g := g) hfree.permits
  obtain ⟨haccepted, hreturned⟩ := returnsMatch_run hfree
  rw [← world_run] at hinv haccepted hreturned
  have hout : out = freed (linkEvents g sched) := by
    show handedOut t ++ s.rx ++ s.world.aboutToReturn = _
    rw [returned_linkEvents]
    exact hreturned
  have hstored := stored_eq_freed_append hpath
  refine ⟨q, ?_, ?_⟩
  · rw [hout]
    exact hinv
  · rw [hout, ← accepted_linkEvents]
    exact haccepted.trans hstored

/-- A counter and the returns it counts. -/
private theorem add_none (n : UInt64) : n = n + UInt64.ofNat 0 := (UInt64.add_zero n).symm

private theorem counters_stepPush (s : World g) :
    s.stepPush.1.pushed = s.pushed + UInt64.ofNat (accepted s.stepPush.2.toList).length ∧
      s.stepPush.1.popped = s.popped := by
  cases hpc : s.push with
  | loadRead packet w | loadState packet w =>
    rw [World.stepPush, hpc]
    dsimp only
    split <;> exact ⟨add_none _, rfl⟩
  | copy packet w k todo =>
    rw [World.stepPush, hpc]
    cases todo <;> exact ⟨add_none _, rfl⟩
  | ret packet result =>
    rw [World.stepPush, hpc]
    cases result with
    | error e => exact ⟨add_none _, rfl⟩
    | ok => exact ⟨rfl, rfl⟩
  | _ =>
    rw [World.stepPush, hpc]
    exact ⟨add_none _, rfl⟩

private theorem counters_stepPop (s : World g) :
    s.stepPop.1.popped = s.popped + UInt64.ofNat (returned s.stepPop.2.toList).length ∧
      s.stepPop.1.pushed = s.pushed := by
  cases hpc : s.pop with
  | loadWrite r | loadState r | loadLen r =>
    rw [World.stepPop, hpc]
    dsimp only
    split <;> exact ⟨add_none _, rfl⟩
  | loadBytes r n got =>
    rw [World.stepPop, hpc]
    dsimp only
    split
    · exact ⟨add_none _, rfl⟩
    · split <;> exact ⟨add_none _, rfl⟩
  | ret result =>
    rw [World.stepPop, hpc]
    rcases result with (_ | _ | _) | _
    case ret.ok.some => exact ⟨rfl, rfl⟩
    all_goals exact ⟨add_none _, rfl⟩
  | _ =>
    rw [World.stepPop, hpc]
    exact ⟨add_none _, rfl⟩

/-- Each process counts the calls of its own that came back with a packet. -/
def Counts (s : World g) (es : List Event) : Prop :=
  s.pushed = UInt64.ofNat (accepted es).length ∧ s.popped = UInt64.ofNat (returned es).length

private theorem counts_act {s : World g} {es : List Event} {a : Act} (h : Counts s es)
    (ha : a ≠ .crashPush ∧ a ≠ .crashPop) : Counts (s.act a).1 (es ++ (s.act a).2.toList) := by
  rw [Counts, accepted_append, returned_append, List.length_append, List.length_append,
    UInt64.ofNat_add, UInt64.ofNat_add, ← h.1, ← h.2]
  cases a with
  | callPush packet =>
    simp only [World.act, World.callPush]
    cases s.push with
    | idle =>
      dsimp only
      split <;> exact ⟨add_none _, add_none _⟩
    | _ => exact ⟨add_none _, add_none _⟩
  | stepPush =>
    obtain ⟨hpushed, hpopped⟩ := counters_stepPush s
    refine ⟨hpushed, ?_⟩
    rw [World.act, (push_frame s).2.2, hpopped]
    exact add_none _
  | callPop =>
    simp only [World.act, World.callPop]
    cases s.pop <;> exact ⟨add_none _, add_none _⟩
  | stepPop =>
    obtain ⟨hpopped, hpushed⟩ := counters_stepPop s
    refine ⟨?_, hpopped⟩
    rw [World.act, (pop_frame s).2.2, hpushed]
    exact add_none _
  | crashPush => exact absurd rfl ha.1
  | crashPop => exact absurd rfl ha.2

theorem counts_run {sched : List Act} (h : CrashFree sched) :
    Counts ((machine g).run (World.init g) sched)
      (events ((machine g).trace (World.init g) sched)) := by
  refine (machine g).run_invariant (s := World.init g)
    (P := fun t s ↦ Counts s (events t)) ⟨rfl, rfl⟩ ?_
    ((machine g).permits_of_forall h (World.init g))
  intro t s a hcounts ha
  have hevents : events (t ++ [(a, (s.act a).2)]) = events t ++ (s.act a).2.toList := by
    rw [events, List.filterMap_append]
    cases (s.act a).2 <;> rfl
  show Counts (s.act a).1 (events (t ++ [(a, (s.act a).2)]))
  rw [hevents]
  exact counts_act hcounts ha

private theorem explained_of_mem {g : Geometry} {sched : List LinkAct} {a : LinkAct}
    {reply : LinkReply}
    (h : (a, reply) ∈ (link g).trace (Link.init g) sched) :
    ∃ pre, reply.Explained ((link g).run (Link.init g) pre) := by
  obtain ⟨pre, post, -, hanswer⟩ := (link g).mem_trace h
  refine ⟨pre, ?_⟩
  rw [hanswer]
  exact Link.act_explained _ a

/-- Nothing panics. -/
theorem Link.not_panicked {sched : List LinkAct} (a : LinkAct) :
    (((link g).run (Link.init g) sched).act a).2 ≠ .panicked := by
  intro hpanicked
  have hexplained := Link.act_explained ((link g).run (Link.init g) sched) a
  rw [hpanicked] at hexplained
  obtain ⟨q, hinv, -⟩ := link_holds g sched
  have hpop := hinv.pop
  rw [popReturned_of_step (a := .stepPop) hexplained] at hpop
  obtain ⟨o, ho⟩ := hpop
  cases ho

/-- Under any interleaving of the two processes: the packets handed out by `rx_burst`, those it
keeps for the next one, the one a pop has just freed and at most `slot_count` packets in the ring
are, in this order, the packets `send_packet` returned `Ok` for and the one it is about to. A send
answers by the size of its frame, or that the ring was full; a burst hands out at most what it was
asked for, and nothing panics. The counters count the packets sent and popped. -/
theorem link_delivers_in_order (g : Geometry) (sched : List LinkAct) :
    let s := (link g).run (Link.init g) sched
    let t := (link g).trace (Link.init g) sched
    (∃ ring, ring.length ≤ g.slotCount ∧
      sentOk t ++ s.world.pastLastStore = handedOut t ++ s.rx ++ s.world.aboutToReturn ++ ring) ∧
    (∀ a packet result, (a, .sent packet result) ∈ t → Answers g packet result) ∧
    (∀ a max packets, (a, .handedOut max packets) ∈ t → packets.length ≤ max) ∧
    (∀ a, (a, .panicked) ∉ t) ∧
    s.world.pushed = UInt64.ofNat (sentOk t).length ∧
    s.world.popped = UInt64.ofNat (handedOut t ++ s.rx).length := by
  intro s t
  have hcounts := counts_run (g := g) (crashFree_schedule g sched)
  rw [← world_run] at hcounts
  have hpushed : s.world.pushed = UInt64.ofNat (accepted (linkEvents g sched)).length := hcounts.1
  have hpopped : s.world.popped = UInt64.ofNat (returned (linkEvents g sched)).length := hcounts.2
  rw [accepted_linkEvents] at hpushed
  rw [← returned_linkEvents] at hpopped
  refine ⟨?_, ?_, ?_, ?_, hpushed, hpopped⟩
  · obtain ⟨q, hinv, hq⟩ := link_holds g sched
    exact ⟨q, hinv.room, hq⟩
  · intro a packet result hmem
    obtain ⟨pre, hexplained⟩ := explained_of_mem hmem
    have hsized := Link.sized_run (g := g) pre
    rw [pushReturned_of_step hexplained] at hsized
    exact hsized
  · intro a max packets hmem
    obtain ⟨pre, hexplained⟩ := explained_of_mem hmem
    exact hexplained
  · intro a hmem
    obtain ⟨pre, post, -, hanswer⟩ := (link g).mem_trace hmem
    exact Link.not_panicked a hanswer.symm

end AetherRadio.Shm
