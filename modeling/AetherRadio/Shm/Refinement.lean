import AetherRadio.Shm.Calls
import AetherRadio.Shm.Preservation

/-!
# The ring refines a bounded queue

The run lemma lifts the step lemmas to schedules: the events of any run are a run of a queue of
capacity `slot_count`. What `try_pop` returns is then a prefix of what `try_push` accepted, and
between calls the ring answers as the queue does.
-/

namespace AetherRadio.Shm

open Verif

variable {g : Geometry}

/-- The queue events of a list of events. -/
def fifoEvents (es : List Event) : List (Fifo.Event Packet) := es.flatMap (fifoEvent ∘ some)

private theorem events_concat (t : List (Act × Option Event)) (a : Act) (e : Option Event) :
    events (t ++ [(a, e)]) = events t ++ e.toList := by
  cases e <;> simp [events]

private theorem fifoEvents_append (es : List Event) (e : Option Event) :
    fifoEvents (es ++ e.toList) = fifoEvents es ++ fifoEvent e := by
  cases e <;> simp [fifoEvents, fifoEvent]

private theorem enqs_fifoEvents (es : List Event) : Fifo.enqs (fifoEvents es) = stored es := by
  induction es with
  | nil => rfl
  | cons e es ih =>
    show Fifo.enqs (fifoEvent (some e) ++ fifoEvents es) = _
    rw [Fifo.enqs_append, ih]
    cases e <;> rfl

private theorem deqs_fifoEvents (es : List Event) : Fifo.deqs (fifoEvents es) = freed es := by
  induction es with
  | nil => rfl
  | cons e es ih =>
    show Fifo.deqs (fifoEvent (some e) ++ fifoEvents es) = _
    rw [Fifo.deqs_append, ih]
    cases e <;> rfl

private theorem clear_notMem_fifoEvents (es : List Event) : .clear ∉ fifoEvents es := by
  intro h
  obtain ⟨e, -, he⟩ := List.mem_flatMap.mp h
  cases e <;> simp [fifoEvent] at he

/-- A run without a stop between two last stores keeps the invariant, and its events are a run
of the bounded queue. -/
theorem run_inv {sched : List Act} (h : (machine g).Permits SafeStop (World.init g) sched) :
    let es := events ((machine g).trace (World.init g) sched)
    ∃ q, Inv ((machine g).run (World.init g) sched) (freed es).length q ∧
      Fifo.Path g.slotCount [] (fifoEvents es) q := by
  refine (machine g).run_invariant (s := World.init g)
    (P := fun t s ↦ ∃ q, Inv s (freed (events t)).length q ∧
      Fifo.Path g.slotCount [] (fifoEvents (events t)) q)
    ⟨[], inv_init g, .nil []⟩ ?_ h
  rintro t s a ⟨q, hinv, hpath⟩ hsafe
  obtain ⟨r', q', hinv', hmove, hr'⟩ := act_inv hinv hsafe
  refine ⟨q', ?_, ?_⟩
  · rw [events_concat, ← deqs_fifoEvents, fifoEvents_append, Fifo.deqs_append, deqs_fifoEvents,
      List.length_append]
    rw [hr'] at hinv'
    exact hinv'
  · rw [events_concat, fifoEvents_append]
    exact hpath.append hmove

private theorem push_returns (s : World g) : s.pastLastStore ++ stored s.stepPush.2.toList =
    accepted s.stepPush.2.toList ++ s.stepPush.1.pastLastStore := by
  cases hpc : s.push with
  | loadRead packet w | loadState packet w =>
    simp only [World.stepPush, World.pastLastStore, hpc]
    split <;> rfl
  | copy packet w k todo =>
    cases todo <;> simp only [World.stepPush, World.pastLastStore, hpc] <;> rfl
  | ret packet result =>
    cases result <;> simp only [World.stepPush, World.pastLastStore, hpc] <;> rfl
  | _ =>
    simp only [World.stepPush, World.pastLastStore, hpc]
    rfl

private theorem pop_returns (s : World g) : s.aboutToReturn ++ freed s.stepPop.2.toList =
    returned s.stepPop.2.toList ++ s.stepPop.1.aboutToReturn := by
  cases hpc : s.pop with
  | loadWrite r | loadState r | loadLen r =>
    simp only [World.stepPop, World.aboutToReturn, hpc]
    split <;> rfl
  | loadBytes r n got =>
    simp only [World.stepPop, World.aboutToReturn, hpc]
    split
    · rfl
    · split <;> rfl
  | ret result =>
    rcases result with (_ | _ | _) | _ <;>
      simp only [World.stepPop, World.aboutToReturn, hpc] <;> rfl
  | _ =>
    simp only [World.stepPop, World.aboutToReturn, hpc]
    rfl

theorem push_frame (s : World g) : s.stepPush.1.pop = s.pop ∧
    freed s.stepPush.2.toList = [] ∧ returned s.stepPush.2.toList = [] := by
  cases hpc : s.push with
  | loadRead packet w | loadState packet w =>
    rw [World.stepPush, hpc]
    dsimp only
    split <;> exact ⟨rfl, rfl, rfl⟩
  | copy packet w k todo =>
    rw [World.stepPush, hpc]
    cases todo <;> exact ⟨rfl, rfl, rfl⟩
  | ret packet result =>
    rw [World.stepPush, hpc]
    cases result <;> exact ⟨rfl, rfl, rfl⟩
  | _ =>
    rw [World.stepPush, hpc]
    exact ⟨rfl, rfl, rfl⟩

theorem pop_frame (s : World g) : s.stepPop.1.push = s.push ∧
    stored s.stepPop.2.toList = [] ∧ accepted s.stepPop.2.toList = [] := by
  cases hpc : s.pop with
  | loadWrite r | loadState r | loadLen r =>
    rw [World.stepPop, hpc]
    dsimp only
    split <;> exact ⟨rfl, rfl, rfl⟩
  | loadBytes r n got =>
    rw [World.stepPop, hpc]
    dsimp only
    split
    · exact ⟨rfl, rfl, rfl⟩
    · split <;> exact ⟨rfl, rfl, rfl⟩
  | ret result =>
    rw [World.stepPop, hpc]
    rcases result with (_ | _ | _) | _ <;> exact ⟨rfl, rfl, rfl⟩
  | _ =>
    rw [World.stepPop, hpc]
    exact ⟨rfl, rfl, rfl⟩

theorem callPush_frame (s : World g) (packet : Packet) :
    (s.callPush packet).pop = s.pop ∧ (s.callPush packet).pastLastStore = s.pastLastStore := by
  cases hpc : s.push with
  | idle =>
    simp only [World.callPush, World.pastLastStore, hpc]
    split <;> exact ⟨rfl, rfl⟩
  | _ => simp only [World.callPush, World.pastLastStore, hpc, and_self]

theorem callPop_frame (s : World g) :
    s.callPop.push = s.push ∧ s.callPop.aboutToReturn = s.aboutToReturn := by
  cases hpc : s.pop <;> simp only [World.callPop, World.aboutToReturn, hpc, and_self]

/-- Accepted packets are the stored ones up to a push past its last store, and returned packets
the freed ones up to a pop past its last store. -/
def ReturnsMatch (s : World g) (es : List Event) : Prop :=
  accepted es ++ s.pastLastStore = stored es ∧ returned es ++ s.aboutToReturn = freed es

theorem accepted_append (es fs : List Event) :
    accepted (es ++ fs) = accepted es ++ accepted fs := List.filterMap_append

private theorem stored_append (es fs : List Event) : stored (es ++ fs) = stored es ++ stored fs :=
  List.filterMap_append

theorem returned_append (es fs : List Event) :
    returned (es ++ fs) = returned es ++ returned fs := List.filterMap_append

private theorem freed_append (es fs : List Event) : freed (es ++ fs) = freed es ++ freed fs :=
  List.filterMap_append

/-- Without crashes every action keeps the bookkeeping of returns. -/
theorem returnsMatch_act {s : World g} {es : List Event} {a : Act} (h : ReturnsMatch s es)
    (ha : a ≠ .crashPush ∧ a ≠ .crashPop) :
    ReturnsMatch (s.act a).1 (es ++ (s.act a).2.toList) := by
  obtain ⟨hpush, hpop⟩ := h
  rw [ReturnsMatch, accepted_append, stored_append, returned_append, freed_append, ← hpush, ← hpop]
  cases a with
  | callPush packet =>
    obtain ⟨hframe, hpast⟩ := callPush_frame s packet
    simp only [World.act, Option.toList_none, accepted, stored, returned, freed,
      List.filterMap_nil, List.append_nil]
    exact ⟨by rw [hpast], by rw [World.aboutToReturn, hframe, World.aboutToReturn]⟩
  | stepPush =>
    obtain ⟨hframe, hfreed, hreturned⟩ := push_frame s
    simp only [World.act, hfreed, hreturned, List.append_nil]
    constructor
    · rw [List.append_assoc, List.append_assoc, push_returns]
    · rw [World.aboutToReturn, hframe, World.aboutToReturn]
  | callPop =>
    obtain ⟨hframe, habout⟩ := callPop_frame s
    simp only [World.act, Option.toList_none, accepted, stored, returned, freed,
      List.filterMap_nil, List.append_nil]
    exact ⟨by rw [World.pastLastStore, hframe, World.pastLastStore], by rw [habout]⟩
  | stepPop =>
    obtain ⟨hframe, hstored, haccepted⟩ := pop_frame s
    simp only [World.act, hstored, haccepted, List.append_nil]
    constructor
    · rw [World.pastLastStore, hframe, World.pastLastStore]
    · rw [List.append_assoc, List.append_assoc, pop_returns]
  | crashPush => exact absurd rfl ha.1
  | crashPop => exact absurd rfl ha.2

/-- Without crashes every schedule keeps the bookkeeping of returns. -/
theorem returnsMatch_run {sched : List Act} (h : CrashFree sched) :
    ReturnsMatch ((machine g).run (World.init g) sched)
      (events ((machine g).trace (World.init g) sched)) := by
  refine (machine g).run_invariant (s := World.init g)
    (P := fun t s ↦ ReturnsMatch s (events t)) ⟨rfl, rfl⟩ ?_
    ((machine g).permits_of_forall h (World.init g))
  intro t s a hmatch ha
  rw [events_concat]
  exact returnsMatch_act hmatch ha

/-- A schedule without crashes stops nobody between two last stores. -/
theorem CrashFree.permits {sched : List Act} (h : CrashFree sched) :
    (machine g).Permits SafeStop (World.init g) sched := by
  refine Machine.Permits.mono ?_ ((machine g).permits_of_forall h (World.init g))
  intro s a ha
  cases a with
  | crashPush => exact absurd rfl ha.1
  | crashPop => exact absurd rfl ha.2
  | _ => exact True.intro

theorem popReturned_of_step {s : World g} {a : Act} {result : PopResult}
    (h : (s.act a).2 = some (.popReturned result)) : s.pop = .ret result := by
  cases a with
  | callPush packet | callPop | crashPush | crashPop => cases h
  | stepPush =>
    have hframe := (push_frame s).2.2
    change s.stepPush.2 = _ at h
    cases hpc : s.push with
    | loadRead packet w | loadState packet w =>
      simp only [World.stepPush, hpc] at h
      split at h <;> cases h
    | copy packet w k todo => cases todo <;> simp [World.stepPush, hpc] at h
    | ret packet result' => cases result' <;> simp [World.stepPush, hpc] at h
    | _ => simp [World.stepPush, hpc] at h
  | stepPop =>
    change s.stepPop.2 = _ at h
    cases hpc : s.pop with
    | loadWrite r | loadState r | loadLen r =>
      simp only [World.stepPop, hpc] at h
      split at h <;> cases h
    | loadBytes r n got =>
      simp only [World.stepPop, hpc] at h
      split at h
      · cases h
      · split at h <;> cases h
    | ret result' =>
      rcases result' with (_ | _ | _) | _ <;> simp only [World.stepPop, hpc] at h <;> cases h <;>
        rfl
    | _ => simp [World.stepPop, hpc] at h

/-- A consumer that has come back from a call came back with `Ok`. -/
private theorem popReturned_ok {sched : List Act} (h : CrashFree sched) {result : PopResult}
    (hr : .popReturned result ∈ events ((machine g).trace (World.init g) sched)) :
    ∃ o, result = .ret (.ok o) := by
  obtain ⟨⟨a, e⟩, hmem, rfl⟩ := List.mem_filterMap.mp hr
  obtain ⟨pre, post, rfl, he⟩ := (machine g).mem_trace hmem
  obtain ⟨q, hinv, -⟩ := run_inv (g := g) (((machine g).permits_append ..).mp h.permits).1
  have hok := hinv.pop
  rw [popReturned_of_step he.symm] at hok
  exact hok

/-- Between calls the consumer finds the head of the queue. -/
theorem Inv.tryPop {s : World g} {r : Nat} {q : List Packet} (h : Inv s r q) (hq : s.Quiet) :
    s.consumer.tryPop.2 = .ret (.ok q.head?) := by
  have hfree : s.pop.freeing = 0 := by rw [hq.2]; rfl
  cases q with
  | nil =>
    have heq : s.map.readPos = s.map.writePos := h.readPos.trans h.writePos.symm
    simp only [ShmPacketRing.tryPop, World.consumer, heq, if_true]
    rfl
  | cons p q =>
    obtain ⟨hfull, hfits, hlen, hbytes⟩ := h.head_holds hfree rfl
    have hne : s.map.readPos ≠ s.map.writePos := by
      rw [h.readPos, h.writePos]
      intro he
      have hroom := h.room
      have hlt := g.slotCount_lt
      have := (ofNat_inj_of_near (Nat.le_add_right r (p :: q).length) (by omega)).mp he
      rw [List.length_cons] at this
      omega
    have hslot : slotIdx g s.map.readPos = slotAt g r := by rw [h.readPos]; rfl
    unfold Fits at hfits
    have hbound := g.slotBytes_lt
    have hn : (s.map.slots (slotAt g r)).len.toNat = (encodeFrame p).length := by
      rw [hlen, UInt32.toNat_ofNat']
      omega
    have hpayload : p.payload.length < 2 ^ 32 := by
      rw [length_encodeFrame] at hfits
      omega
    simp only [ShmPacketRing.tryPop, World.consumer, if_neg hne, hslot, hfull, ne_eq,
      not_true_eq_false, if_false, hn, if_neg (Nat.not_lt.mpr hfits), gt_iff_lt, hbytes,
      decodeFrame_encodeFrame hpayload]
    rfl

/-- Between calls a producer whose next slot is empty is refused exactly when the queue is at its
capacity. -/
theorem Inv.tryPush_of_empty {s : World g} {r : Nat} {q : List Packet} (h : Inv s r q)
    (hempty : q.length < g.slotCount →
      (s.map.slots (slotAt g (r + q.length))).state = slotStateEmpty)
    {packet : Packet} (hfits : Fits g packet) :
    (s.producer.tryPush packet).2 =
      if q.length = g.slotCount then .error .ringFull else .ok () := by
  have hroom := h.room
  have hlt := g.slotCount_lt
  have hdist : s.map.writePos - s.map.readPos ≥ UInt64.ofNat g.slotCount ↔
      q.length = g.slotCount := by
    have hsub := toNat_ofNat_sub (r := r) (w := r + q.length) (by omega) (by omega)
    rw [h.writePos, h.readPos, ge_iff_le, UInt64.le_iff_toNat_le, hsub, UInt64.toNat_ofNat',
      Nat.mod_eq_of_lt hlt]
    omega
  simp only [ShmPacketRing.tryPush, World.producer, hdist, if_neg (Nat.not_lt.mpr hfits), gt_iff_lt]
  split
  · rfl
  · next hne =>
    have hslot : slotIdx g s.map.writePos = slotAt g (r + q.length) := by rw [h.writePos]; rfl
    have hstate : (s.map.slots (slotIdx g s.map.writePos)).state = slotStateEmpty := by
      rw [hslot]
      exact hempty (by omega)
    simp only [hstate, ne_eq, not_true_eq_false, if_false]

/-- Between calls the slots hold exactly the queue. -/
theorem Inv.slots_of_quiet {s : World g} {r : Nat} {q : List Packet} (h : Inv s r q)
    (hq : s.Quiet) : SlotsHold s.map.slots r q := by
  have hslots := h.slots_of_not_filling (by rw [hq.1]; rfl)
  rw [hq.2] at hslots
  exact hslots

/-- The stored packets are the freed ones followed by those in the queue. -/
theorem stored_eq_freed_append {es : List Event} {q : List Packet}
    (h : Fifo.Path g.slotCount [] (fifoEvents es) q) : stored es = freed es ++ q := by
  have := h.conserves (clear_notMem_fifoEvents es)
  rwa [enqs_fifoEvents, deqs_fifoEvents, List.nil_append] at this

/-- Under any interleaving the packets `try_pop` returned are a prefix of those `try_push` accepted
or has stored completely, and no pop fails. Between calls, until the write counter wraps, a pop
returns the oldest undelivered packet and a push is refused exactly when `slot_count` packets are
undelivered. -/
theorem ring_refines_fifo (g : Geometry) (sched : List Act) (h : CrashFree sched) :
    let s := (machine g).run (World.init g) sched
    let es := events ((machine g).trace (World.init g) sched)
    returned es <+: accepted es ++ s.pastLastStore ∧
    (∀ result, .popReturned result ∈ es → ∃ o, result = .ret (.ok o)) ∧
    (s.Quiet → (accepted es).length < 2 ^ 64 →
      let undelivered := (accepted es).drop (returned es).length
      s.PopReturns (.ret (.ok undelivered.head?)) ∧
      ∀ packet, Fits g packet →
        s.PushReturns packet
          (if undelivered.length = g.slotCount then .error .ringFull else .ok ())) := by
  intro s es
  obtain ⟨q, hinv, hpath⟩ := run_inv (g := g) h.permits
  obtain ⟨haccepted, hreturned⟩ : ReturnsMatch s es := returnsMatch_run h
  have hqueue : accepted es ++ s.pastLastStore = returned es ++ (s.aboutToReturn ++ q) := by
    rw [haccepted, stored_eq_freed_append hpath, ← hreturned, List.append_assoc]
  refine ⟨⟨_, hqueue.symm⟩, fun result hr ↦ popReturned_ok h hr, ?_⟩
  intro hquiet hwrap undelivered
  have hpast : s.pastLastStore = [] := by rw [World.pastLastStore, hquiet.1]
  have habout : s.aboutToReturn = [] := by rw [World.aboutToReturn, hquiet.2]
  rw [hpast, habout, List.append_nil, List.nil_append] at hqueue
  have hundelivered : undelivered = q := by
    show (accepted es).drop (returned es).length = q
    rw [hqueue, List.drop_left]
  have hbound : (freed es).length + q.length < 2 ^ 64 := by
    rwa [← hreturned, habout, List.append_nil, ← List.length_append, ← hqueue]
  rw [hundelivered]
  exact ⟨World.popReturns_of_tryPop hquiet.2 (hinv.tryPop hquiet), fun packet hfits ↦
    World.pushReturns_of_tryPush hquiet.1 (hinv.tryPush_of_empty
      (fun hroom ↦ (hinv.slots_of_quiet hquiet).next_empty hroom hbound) hfits)⟩

/-- The smallest ring. -/
def oneSlot : Geometry := ⟨1, 64, by decide, by decide, by decide, by decide⟩

/-- A packet without payload. -/
def emptyPacket : Packet := ⟨⟨1⟩, ⟨0⟩, ⟨0⟩, []⟩

/-- A push and a pop that overlap on the smallest ring: the pop returns the packet while the push
has made its last store and not yet returned. -/
theorem ring_refines_fifo_overlapping :
    let sched : List Act :=
      .callPush emptyPacket :: .replicate 38 .stepPush ++ .callPop :: .replicate 40 .stepPop
    let s := (machine oneSlot).run (World.init oneSlot) sched
    let es := events ((machine oneSlot).trace (World.init oneSlot) sched)
    CrashFree sched ∧ returned es = [emptyPacket] ∧ s.pastLastStore = [emptyPacket] ∧
      returned es <+: accepted es ++ s.pastLastStore := by
  intro sched s es
  have hfree : CrashFree sched := by decide
  exact ⟨hfree, by decide +kernel, by decide +kernel, (ring_refines_fifo oneSlot sched hfree).1⟩

end AetherRadio.Shm
