import AetherRadio.Lib.Fifo
import AetherRadio.Sim.RingLife
import Mathlib.Data.List.Perm.Subperm

/-!
# The order in which ready slots are processed

`begin_process` searches the slots from the first one on, `find_state`. The slot found is the one
that has been ready for longest as long as every receive completes above the slots that are ready.
-/

namespace AetherRadio

open Verif

/-- What a call does to the queue of ready slots. -/
def queueEvent : RingOp × RingReply → Option (Fifo.Event Nat)
  | (.completeReceive idx _, .received (.ok ())) => some (.enq idx)
  | (.beginProcess _, .processing (.ok (idx, _))) => some (.deq idx)
  | _ => none

/-- The position in the history of the receive completed last on a slot. -/
def readySince (t : List (RingOp × RingReply)) (idx : Nat) : Option Nat :=
  lastOf (fun entry k ↦ (completedReceive entry.1 k).map fun _ ↦ entry.2) t.zipIdx idx

private theorem readySince_concat (t : List (RingOp × RingReply)) (entry : RingOp × RingReply)
    (idx : Nat) :
    readySince (t ++ [entry]) idx =
      ((completedReceive entry idx).map fun _ ↦ t.length).or (readySince t idx) := by
  rw [readySince, List.zipIdx_append, List.zipIdx_singleton, Nat.zero_add, lastOf_concat]
  rfl

namespace GpuRingBuffer

/-- What a call can do to the ready slots. -/
inductive QueueStep (self : GpuRingBuffer) (op : RingOp) : Prop where
  | other (event : queueEvent (op, (self.act op).2) = none)
      (completed : ∀ j, completedReceive (op, (self.act op).2) j = none)
      (ready : ∀ j, (self.act op).1.InState .ready j ↔ self.InState .ready j)
  | received (idx : Nat) (data : List UInt8) (call : op = .completeReceive idx data)
      (isOk : (self.act op).2.isOk = true)
      (event : queueEvent (op, (self.act op).2) = some (.enq idx))
      (completed : ∀ j, completedReceive (op, (self.act op).2) j =
        if idx = j then some data else none)
      (fresh : ¬ self.InState .ready idx)
      (ready : ∀ j, (self.act op).1.InState .ready j ↔ j = idx ∨ self.InState .ready j)
  | started (idx : Nat) (first : self.findState .ready = some idx)
      (event : queueEvent (op, (self.act op).2) = some (.deq idx))
      (completed : ∀ j, completedReceive (op, (self.act op).2) j = none)
      (ready : ∀ j, (self.act op).1.InState .ready j ↔ j ≠ idx ∧ self.InState .ready j)

/-- A call that fails is none of the queue's events. -/
private theorem queueEvent_of_failed {op : RingOp} {reply : RingReply} (h : reply.isOk = false) :
    queueEvent (op, reply) = none := by
  cases op <;> rcases reply with (_ | _) | (_ | _) | (_ | _) | (_ | _) | (_ | _) <;>
    first | rfl | cases h

/-- The answer of a receive that completed. -/
theorem received_ok {self : GpuRingBuffer} {idx : Nat} {data : List UInt8}
    (h : (self.act (.completeReceive idx data)).2.isOk = true) :
    (self.act (.completeReceive idx data)).2 = .received (.ok ()) := by
  change ((self.completeReceive idx data).map id RingReply.received).2.isOk = true at h
  change ((self.completeReceive idx data).map id RingReply.received).2 = _
  generalize self.completeReceive idx data = answer at h
  obtain ⟨_, _ | _⟩ := answer
  · cases h
  · rfl

/-- Starting the first ready slot leaves the other ready slots. -/
theorem beginProcess_ready {self : GpuRingBuffer} {idx : Nat}
    (first : self.findState .ready = some idx) (nowNs : UInt64) (j : Nat) :
    (self.act (.beginProcess nowNs)).1.InState .ready j ↔ j ≠ idx ∧ self.InState .ready j := by
  obtain ⟨slot, hslot, -⟩ := findState_spec first
  rw [act, beginProcess_found first hslot]
  change (self.setSlot idx _).InState .ready j ↔ _
  rw [inState_setSlot hslot]
  by_cases hj : j = idx <;> simp [hj, RingOp.updates]

private theorem act_queue (self : GpuRingBuffer) (op : RingOp) : QueueStep self op := by
  cases self.act_step op with
  | failed isOk next completed begun =>
    apply QueueStep.other (queueEvent_of_failed isOk) (congrFun completed)
    intro j
    rw [next]
  | moved idx slot isOk found source fits next completed begun about =>
    have hsource : self.InState op.source idx := inState_iff.mpr ⟨slot, found, source⟩
    have hready : ∀ j, (self.act op).1.InState .ready j ↔
        if j = idx then op.source.next = .ready else self.InState .ready j := by
      intro j
      rw [next, inState_setSlot found, RingOp.updates_state]
    -- a call from another state neither makes a slot ready nor finds it so
    have hother : op.source.next ≠ .ready → op.source ≠ .ready → ∀ j,
        (self.act op).1.InState .ready j ↔ self.InState .ready j := by
      intro hnext hne j
      rw [hready]
      by_cases hj : j = idx
      · subst hj
        have hnot : ¬ self.InState .ready j := fun h ↦ hne (hsource.unique h)
        simp only [if_true, hnext, hnot]
      · rw [if_neg hj]
    cases op with
    | beginReceive arriveNs => exact .other rfl (congrFun completed) (hother nofun nofun)
    | completeProcess i doneNs => exact .other rfl (congrFun completed) (hother nofun nofun)
    | release i => exact .other rfl (congrFun completed) (hother nofun nofun)
    | completeReceive i data =>
      have hreply := received_ok isOk
      have hidx : idx = i := by
        have hi := congrFun completed i
        rw [hreply] at hi
        by_contra hne
        simp [completedReceive, RingOp.source, hne] at hi
      subst hidx
      refine .received idx data rfl isOk ?_ (congrFun completed) ?_ ?_
      · rw [hreply]
        rfl
      · intro hidx
        cases hsource.unique hidx
      · intro j
        rw [hready]
        by_cases hj : j = idx <;> simp [hj, RingOp.source, BufferState.next]
    | beginProcess nowNs =>
      obtain ⟨k, hk⟩ := findState_isSome found source
      obtain ⟨slot', hslot', -⟩ := findState_spec hk
      refine .started k hk ?_ (congrFun completed) (beginProcess_ready hk nowNs)
      rw [act, beginProcess_found hk hslot']
      rfl

/-- A receive completes above every slot that is ready. -/
def CompletesAbove (ring : GpuRingBuffer) : RingOp → Prop
  | .completeReceive idx data => (ring.act (.completeReceive idx data)).2.isOk = true →
      ∀ j, ring.InState .ready j → j < idx
  | _ => True

/-- The ready slots wait in a queue, the lowest first. -/
structure Queues (q : List Nat) (ring : GpuRingBuffer) : Prop where
  ascending : q.Pairwise (· < ·)
  mem_iff : ∀ j, j ∈ q ↔ ring.InState .ready j

theorem Queues.new (cfg : GpuRingConfig) : Queues [] (.new cfg) := by
  constructor
  · exact .nil
  · intro j
    constructor
    · nofun
    · intro hj
      obtain ⟨slot, hslot, hstate⟩ := inState_iff.mp hj
      rw [(List.mem_replicate.mp (List.mem_of_getElem? hslot)).2] at hstate
      cases hstate

/-- No more slots wait than the ring has. -/
theorem Queues.length_le {q : List Nat} {ring : GpuRingBuffer} (h : Queues q ring) :
    q.length ≤ ring.slotCount := by
  have hsub : ∀ j ∈ q, j ∈ List.range ring.slotCount := by
    intro j hj
    exact List.mem_range.mpr ((h.mem_iff j).mp hj).lt_slotCount
  have hnodup : q.Nodup := h.ascending.imp Nat.ne_of_lt
  have hlen := (List.subperm_of_subset hnodup hsub).length_le
  rwa [List.length_range] at hlen

/-- A call that completes no receive below a ready slot is a step of the queue. -/
theorem Queues.act {q : List Nat} {ring : GpuRingBuffer} (h : Queues q ring) {op : RingOp}
    (hop : CompletesAbove ring op) :
    ∃ q', Fifo.Path ⊤ q (queueEvent (op, (ring.act op).2)).toList q' ∧
      Queues q' (ring.act op).1 := by
  cases ring.act_queue op with
  | other event completed ready =>
    refine ⟨q, ?_, h.ascending, ?_⟩
    · rw [event]
      exact .nil q
    · intro j
      rw [ready, h.mem_iff]
  | received idx data call isOk event completed fresh ready =>
    subst call
    refine ⟨q ++ [idx], ?_, ?_, ?_⟩
    · rw [event]
      exact .snoc (.nil q) (.enq idx (ENat.natCast_lt_top _))
    · apply List.pairwise_append.mpr
      refine ⟨h.ascending, List.pairwise_singleton .., ?_⟩
      intro j hj k hk
      rw [List.mem_singleton.mp hk]
      exact hop isOk j ((h.mem_iff j).mp hj)
    · intro j
      rw [ready, ← h.mem_iff, List.mem_append, List.mem_singleton, or_comm]
  | started idx first event completed ready =>
    obtain ⟨hidx, hfirst⟩ := findState_eq_some.mp first
    cases q with
    | nil => cases (h.mem_iff idx).mpr hidx
    | cons k q =>
      obtain ⟨hlow, hasc⟩ := List.pairwise_cons.mp h.ascending
      have hk : k = idx := by
        have hle : idx ≤ k := hfirst k ((h.mem_iff k).mp (.head _))
        cases (h.mem_iff idx).mpr hidx with
        | head => rfl
        | tail _ htail => exact absurd (hlow idx htail) (Nat.not_lt.mpr hle)
      subst hk
      refine ⟨q, ?_, hasc, ?_⟩
      · rw [event]
        exact .snoc (.nil _) (.deq k q)
      · intro j
        rw [ready, ← h.mem_iff, List.mem_cons]
        constructor
        · intro hj
          exact ⟨Nat.ne_of_gt (hlow j hj), .inr hj⟩
        · rintro ⟨hne, rfl | hj⟩
          · exact absurd rfl hne
          · exact hj

/-- So is every run of such calls a run of the queue. -/
theorem Queues.run {q : List Nat} {ring : GpuRingBuffer} (h : Queues q ring) {ops : List RingOp}
    (hops : gpuRing.Permits CompletesAbove ring ops) :
    ∃ q', Fifo.Path ⊤ q ((gpuRing.trace ring ops).filterMap queueEvent) q' ∧
      Queues q' (gpuRing.run ring ops) := by
  apply gpuRing.run_invariant (P := fun t ring' ↦
    ∃ q', Fifo.Path ⊤ q (t.filterMap queueEvent) q' ∧ Queues q' ring') ⟨q, .nil q, h⟩ _ hops
  rintro t ring' op ⟨q', hpath, hqueues⟩ hop
  obtain ⟨q'', hstep, hnext⟩ := hqueues.act hop
  refine ⟨q'', ?_, hnext⟩
  rw [List.filterMap_append]
  apply hpath.append
  change Fifo.Path ⊤ q' ([(op, (ring'.act op).2)].filterMap queueEvent) q''
  cases hevent : queueEvent (op, (ring'.act op).2) with
  | none =>
    rw [hevent] at hstep
    rw [List.filterMap_cons_none hevent]
    exact hstep
  | some event =>
    rw [hevent] at hstep
    rw [List.filterMap_cons_some hevent]
    exact hstep

/-- Every ready slot has its entry in the history. -/
def ReadyKnown (t : List (RingOp × RingReply)) (ring : GpuRingBuffer) : Prop :=
  ∀ j, ring.InState .ready j → ∃ n, readySince t j = some n ∧ n < t.length

theorem ReadyKnown.act {t : List (RingOp × RingReply)} {ring : GpuRingBuffer}
    (h : ReadyKnown t ring) (op : RingOp) :
    ReadyKnown (t ++ [(op, (ring.act op).2)]) (ring.act op).1 := by
  -- what was known stays known when the call completes no receive on the slot
  have hkept : ∀ j, ring.InState .ready j → completedReceive (op, (ring.act op).2) j = none →
      ∃ n, readySince (t ++ [(op, (ring.act op).2)]) j = some n ∧
        n < (t ++ [(op, (ring.act op).2)]).length := by
    intro j hj hnone
    obtain ⟨n, hn, hlt⟩ := h j hj
    refine ⟨n, ?_, ?_⟩
    · rw [readySince_concat, hnone, hn]
      rfl
    · rw [List.length_append]
      exact Nat.lt_add_right _ hlt
  intro j hj
  cases ring.act_queue op with
  | other event completed ready =>
    exact hkept j ((ready j).mp hj) (completed j)
  | received idx data call isOk event completed fresh ready =>
    by_cases hidx : idx = j
    · refine ⟨t.length, ?_, ?_⟩
      · rw [readySince_concat, completed, if_pos hidx]
        rfl
      · rw [List.length_append]
        exact Nat.lt_succ_self _
    · apply hkept j
      · exact ((ready j).mp hj).resolve_left (Ne.symm hidx)
      · rw [completed, if_neg hidx]
  | started idx first event completed ready =>
    exact hkept j ((ready j).mp hj).2 (completed j)

private theorem readyKnown_run (cfg : GpuRingConfig) (ops : List RingOp) :
    ReadyKnown (gpuRing.trace (.new cfg) ops) (gpuRing.run (.new cfg) ops) := by
  apply gpuRing.run_invariant (P := ReadyKnown) _ _ (gpuRing.permits_true _ _)
  · intro j hj
    cases ((Queues.new cfg).mem_iff j).mpr hj
  · intro t ring op h _
    exact h.act op

/-- Of two ready slots the lower has been ready for longer. -/
def ReadyInOrder (t : List (RingOp × RingReply)) (ring : GpuRingBuffer) : Prop :=
  ∀ i j n m, ring.InState .ready i → ring.InState .ready j → i < j → readySince t i = some n →
    readySince t j = some m → n < m

/-- A call that completes no receive below a ready slot keeps the order. -/
theorem ReadyInOrder.act {t : List (RingOp × RingReply)} {ring : GpuRingBuffer}
    (h : ReadyInOrder t ring) (known : ReadyKnown t ring) {op : RingOp}
    (hop : CompletesAbove ring op) :
    ReadyInOrder (t ++ [(op, (ring.act op).2)]) (ring.act op).1 := by
  intro i j n m hi hj hlt hn hm
  rw [readySince_concat] at hn hm
  cases ring.act_queue op with
  | other event completed ready =>
    rw [completed] at hn hm
    exact h i j n m ((ready i).mp hi) ((ready j).mp hj) hlt hn hm
  | received idx data call isOk event completed fresh ready =>
    subst call
    rw [completed] at hn hm
    by_cases hidx : idx = i
    · -- the new slot is above every other one
      have hj' := ((ready j).mp hj).resolve_left (by omega)
      have hbelow := hop isOk j hj'
      omega
    · have hi' := ((ready i).mp hi).resolve_left (Ne.symm hidx)
      rw [if_neg hidx] at hn
      by_cases hidx' : idx = j
      · rw [if_pos hidx'] at hm
        obtain ⟨n', hn', hlen⟩ := known i hi'
        cases hm
        cases hn'.symm.trans hn
        exact hlen
      · rw [if_neg hidx'] at hm
        exact h i j n m hi' (((ready j).mp hj).resolve_left (Ne.symm hidx')) hlt hn hm
  | started idx first event completed ready =>
    rw [completed] at hn hm
    exact h i j n m ((ready i).mp hi).2 ((ready j).mp hj).2 hlt hn hm

private theorem readyInOrder_run (cfg : GpuRingConfig) {ops : List RingOp}
    (hops : gpuRing.Permits CompletesAbove (.new cfg) ops) :
    ReadyInOrder (gpuRing.trace (.new cfg) ops) (gpuRing.run (.new cfg) ops) := by
  have hboth := gpuRing.run_invariant
    (P := fun t ring ↦ ReadyKnown t ring ∧ ReadyInOrder t ring) ?_ ?_ hops
  · exact hboth.2
  · have hnone : ∀ j, ¬ (new cfg).InState .ready j := by
      intro j hj
      cases ((Queues.new cfg).mem_iff j).mpr hj
    exact ⟨fun j hj ↦ absurd hj (hnone j), fun i j n m hi ↦ absurd hi (hnone i)⟩
  · rintro t ring op ⟨hknown, horder⟩ hop
    exact ⟨hknown.act op, horder.act hknown hop⟩

/-- `begin_process` answers with the first ready slot. -/
private theorem findState_of_beginProcess {ring : GpuRingBuffer} {nowNs doneAt : UInt64} {idx : Nat}
    (h : (ring.beginProcess nowNs).2 = .ok (idx, doneAt)) : ring.findState .ready = some idx := by
  cases hfind : ring.findState .ready with
  | none =>
    simp only [beginProcess, hfind] at h
    cases h
  | some k =>
    obtain ⟨slot, hslot, -⟩ := findState_spec hfind
    rw [beginProcess_found hfind hslot] at h
    cases h
    rfl

/-- Calls of `begin_process` bring out the ready slots below a given one, and no other. -/
private theorem drain_to {idx : Nat} (n : Nat) {ring : GpuRingBuffer}
    (hidx : ring.InState .ready idx)
    (hlow : ∀ j, ring.InState .ready j → idx ≤ j + n) :
    ∃ nows : List UInt64,
      (gpuRing.run ring (nows.map .beginProcess)).findState .ready = some idx ∧
      ∀ j, idx ≤ j → ring.InState .ready j →
        (gpuRing.run ring (nows.map .beginProcess)).InState .ready j := by
  induction n generalizing ring with
  | zero => exact ⟨[], findState_eq_some.mpr ⟨hidx, hlow⟩, fun _ _ hj ↦ hj⟩
  | succ n ih =>
    by_cases hk : ∃ k, ring.InState .ready k ∧ k + (n + 1) = idx
    · obtain ⟨k, hready, hsum⟩ := hk
      have hfirst : ring.findState .ready = some k := by
        apply findState_eq_some.mpr
        refine ⟨hready, ?_⟩
        intro j hj
        have hle := hlow j hj
        omega
      have hafter := beginProcess_ready hfirst 0
      have hidx' : (ring.act (.beginProcess 0)).1.InState .ready idx :=
        (hafter idx).mpr ⟨by omega, hidx⟩
      obtain ⟨nows, hfind, hkept⟩ := ih hidx' (fun j hj ↦ by
        obtain ⟨hne, hj⟩ := (hafter j).mp hj
        have hle := hlow j hj
        omega)
      refine ⟨0 :: nows, hfind, ?_⟩
      intro j hle hj
      exact hkept j hle ((hafter j).mpr ⟨by omega, hj⟩)
    · apply ih hidx
      intro j hj
      have hle := hlow j hj
      have hne : j + (n + 1) ≠ idx := fun hsum ↦ hk ⟨j, hj, hsum⟩
      omega

/-- Starting slots makes none ready. -/
private theorem readySince_beginProcess (t : List (RingOp × RingReply)) (ring : GpuRingBuffer)
    (nows : List UInt64) (j : Nat) :
    readySince (t ++ gpuRing.trace ring (nows.map .beginProcess)) j = readySince t j := by
  induction nows generalizing t ring with
  | nil => rw [List.map_nil, Machine.trace_nil, List.append_nil]
  | cons nowNs nows ih =>
    rw [List.map_cons, Machine.trace_cons, List.append_cons, ih, readySince_concat]
    rfl

private theorem run_drained (ring : GpuRingBuffer) (pre : List RingOp) (op : RingOp)
    (nows : List UInt64) :
    gpuRing.run ring (pre ++ [op] ++ nows.map .beginProcess) =
      gpuRing.run ((gpuRing.run ring pre).act op).1 (nows.map .beginProcess) := by
  rw [gpuRing.run_append, gpuRing.run_append]
  rfl

/-- Draining leaves the slot that completed last the newest. -/
private theorem readySince_drained (ring : GpuRingBuffer) (pre : List RingOp) {op : RingOp}
    {idx : Nat}
    {data : List UInt8} (completed : ∀ j,
      completedReceive (op, ((gpuRing.run ring pre).act op).2) j =
        if idx = j then some data else none) (nows : List UInt64) (j : Nat) :
    readySince (gpuRing.trace ring (pre ++ [op] ++ nows.map .beginProcess)) j =
      if idx = j then some (gpuRing.trace ring pre).length
      else readySince (gpuRing.trace ring pre) j := by
  rw [gpuRing.trace_append, gpuRing.trace_append, readySince_beginProcess]
  change readySince (_ ++ [(op, ((gpuRing.run ring pre).act op).2)]) j = _
  rw [readySince_concat, completed]
  by_cases hj : idx = j <;> simp [hj]

private theorem permits_beginProcess (ring : GpuRingBuffer) (nows : List UInt64) :
    gpuRing.Permits CompletesAbove ring (nows.map .beginProcess) := by
  induction nows generalizing ring with
  | nil => exact True.intro
  | cons nowNs nows ih => exact ⟨True.intro, ih _⟩

private theorem clear_not_mem (t : List (RingOp × RingReply)) :
    .clear ∉ t.filterMap queueEvent := by
  intro hmem
  obtain ⟨⟨op, reply⟩, -, hevent⟩ := List.mem_filterMap.mp hmem
  unfold queueEvent at hevent
  split at hevent <;> cases hevent

/-- A slot that stays ready is not started. -/
private theorem not_started {ring : GpuRingBuffer} {ops : List RingOp} {idx : Nat}
    (hready : ∀ mid, mid <+: ops → (gpuRing.run ring mid).InState .ready idx) :
    idx ∉ Fifo.deqs ((gpuRing.trace ring ops).filterMap queueEvent) := by
  intro hmem
  obtain ⟨event, hevent, hdeq⟩ := List.mem_filterMap.mp hmem
  obtain ⟨⟨op, reply⟩, hentry, hqueue⟩ := List.mem_filterMap.mp hevent
  obtain ⟨pre, post, hops, hreply⟩ := gpuRing.mem_trace hentry
  have hstarted : queueEvent (op, ((gpuRing.run ring pre).act op).2) = some (.deq idx) := by
    change reply = ((gpuRing.run ring pre).act op).2 at hreply
    rw [← hreply, hqueue]
    cases event <;> cases hdeq
    rfl
  have hstays := hready (pre ++ [op]) ⟨post, by rw [hops, List.append_assoc]; rfl⟩
  rw [gpuRing.run_append] at hstays
  cases (gpuRing.run ring pre).act_queue op with
  | other event' completed ready => cases event'.symm.trans hstarted
  | received idx' data call isOk event' completed fresh ready => cases event'.symm.trans hstarted
  | started idx' first event' completed ready =>
    cases event'.symm.trans hstarted
    exact ((ready idx).mp hstays).1 rfl

/-- So fewer slots are started meanwhile than wait in the queue. -/
private theorem Queues.starts_lt {q : List Nat} {ring : GpuRingBuffer} (h : Queues q ring)
    {ops : List RingOp} (hops : gpuRing.Permits CompletesAbove ring ops) {idx : Nat}
    (hready : ∀ mid, mid <+: ops → (gpuRing.run ring mid).InState .ready idx) :
    (Fifo.deqs ((gpuRing.trace ring ops).filterMap queueEvent)).length < ring.slotCount := by
  obtain ⟨q', hpath, -⟩ := h.run hops
  have hconserves := hpath.conserves (clear_not_mem _)
  have hidx : idx ∈ q := (h.mem_iff idx).mpr (hready [] List.nil_prefix)
  by_contra hge
  have hlen : q.length ≤ (Fifo.deqs ((gpuRing.trace ring ops).filterMap queueEvent)).length :=
    Nat.le_trans h.length_le (Nat.not_lt.mp hge)
  have hshorter := List.prefix_of_prefix_length_le (List.prefix_append q _)
    (hconserves ▸ List.prefix_append _ q') hlen
  exact not_started hready (hshorter.subset hidx)

end GpuRingBuffer

/-- After the calls, `begin_process` starts the slot that became ready first. -/
def StartsOldest (cfg : GpuRingConfig) (ops : List RingOp) : Prop :=
  ∀ nowNs idx doneAt, ((gpuRing.run (.new cfg) ops).beginProcess nowNs).2 = .ok (idx, doneAt) →
    ∃ n, readySince (gpuRing.trace (.new cfg) ops) idx = some n ∧
      ∀ j, (gpuRing.run (.new cfg) ops).InState .ready j →
        ∃ m, readySince (gpuRing.trace (.new cfg) ops) j = some m ∧ n ≤ m

/-- The slots started so far are the first of the slots completed so far, in the same order. -/
def StartsInOrder (cfg : GpuRingConfig) (ops : List RingOp) : Prop :=
  Fifo.deqs ((gpuRing.trace (.new cfg) ops).filterMap queueEvent) <+:
    Fifo.enqs ((gpuRing.trace (.new cfg) ops).filterMap queueEvent)

/-- While a slot stays ready, fewer slots are started than the ring has. -/
def WaitsBounded (cfg : GpuRingConfig) (ops rest : List RingOp) : Prop :=
  ∀ idx, (∀ mid, mid <+: rest → (gpuRing.run (.new cfg) (ops ++ mid)).InState .ready idx) →
    (Fifo.deqs ((gpuRing.trace (gpuRing.run (.new cfg) ops) rest).filterMap queueEvent)).length <
      cfg.slotCount

section Order

open GpuRingBuffer

variable {cfg : GpuRingConfig} {ops : List RingOp}

private theorem startsOldest (hops : gpuRing.Permits CompletesAbove (.new cfg) ops) :
    StartsOldest cfg ops := by
  intro nowNs idx doneAt hstart
  have hknown := readyKnown_run cfg ops
  obtain ⟨hidx, hfirst⟩ := findState_eq_some.mp (findState_of_beginProcess hstart)
  obtain ⟨n, hn, -⟩ := hknown idx hidx
  refine ⟨n, hn, ?_⟩
  intro j hj
  obtain ⟨m, hm, -⟩ := hknown j hj
  refine ⟨m, hm, ?_⟩
  by_cases hidxj : idx = j
  · subst hidxj
    cases hn.symm.trans hm
    exact Nat.le_refl n
  · have hlt : idx < j := by
      have hle := hfirst j hj
      omega
    exact Nat.le_of_lt (readyInOrder_run cfg hops idx j n m hidx hj hlt hn hm)

private theorem startsInOrder (hops : gpuRing.Permits CompletesAbove (.new cfg) ops) :
    StartsInOrder cfg ops := by
  obtain ⟨q, hpath, -⟩ := (Queues.new cfg).run hops
  have hconserves := hpath.conserves (clear_not_mem _)
  rw [List.nil_append] at hconserves
  rw [StartsInOrder, hconserves]
  exact List.prefix_append _ q

private theorem waitsBounded {rest : List RingOp}
    (hops : gpuRing.Permits CompletesAbove (.new cfg) (ops ++ rest)) :
    WaitsBounded cfg ops rest := by
  obtain ⟨hfirst, hrest⟩ := (gpuRing.permits_append _ _ _ _).mp hops
  obtain ⟨q, -, hqueues⟩ := (Queues.new cfg).run hfirst
  intro idx hready
  have hstays : ∀ mid, mid <+: rest →
      (gpuRing.run (gpuRing.run (.new cfg) ops) mid).InState .ready idx := by
    intro mid hmid
    rw [← gpuRing.run_append]
    exact hready mid hmid
  have hlt := hqueues.starts_lt hrest hstays
  rwa [(ringHolds_run cfg ops).slotCount] at hlt

/-- A receive that completes below a ready slot lets a later call overtake that slot. -/
private theorem completesAbove_of_startsOldest {pre : List RingOp} {op : RingOp}
    (h : ∀ nows : List UInt64, StartsOldest cfg (pre ++ [op] ++ nows.map .beginProcess)) :
    CompletesAbove (gpuRing.run (.new cfg) pre) op := by
  cases op with
  | beginReceive arriveNs => exact True.intro
  | beginProcess nowNs => exact True.intro
  | completeProcess idx doneNs => exact True.intro
  | release idx => exact True.intro
  | completeReceive idx data =>
    intro isOk j hj
    have hevent : queueEvent (.completeReceive idx data,
        ((gpuRing.run (.new cfg) pre).act (.completeReceive idx data)).2) = some (.enq idx) := by
      rw [received_ok isOk]
      rfl
    cases (gpuRing.run (.new cfg) pre).act_queue (.completeReceive idx data) with
    | other event completed ready => cases event.symm.trans hevent
    | started k first event completed ready => cases event.symm.trans hevent
    | received k data' call _ event completed fresh ready =>
      cases event.symm.trans hevent
      by_contra hge
      have hlt : idx < j := by
        have hne : idx ≠ j := by
          rintro rfl
          exact fresh hj
        omega
      obtain ⟨m, hm, hlen⟩ := readyKnown_run cfg pre j hj
      -- bring out what is ready below the slot: it is started next, the older one still waits
      obtain ⟨nows, hfind, hkept⟩ := drain_to idx ((ready idx).mpr (.inl rfl))
        (fun k _ ↦ Nat.le_add_left idx k)
      have hrun := run_drained (.new cfg) pre (.completeReceive idx data) nows
      have hsince := readySince_drained (.new cfg) pre completed nows
      obtain ⟨slot, hslot, -⟩ := findState_spec hfind
      obtain ⟨n, hn, holdest⟩ := h nows 0 idx _ (by rw [hrun, beginProcess_found hfind hslot])
      obtain ⟨m', hm', hle⟩ := holdest j (by
        rw [hrun]
        exact hkept j (Nat.le_of_lt hlt) ((ready j).mpr (.inr hj)))
      rw [hsince, if_pos rfl] at hn
      rw [hsince, if_neg (Nat.ne_of_lt hlt), hm] at hm'
      cases hn
      cases hm'
      omega

end Order

/-- For every configuration and every sequence of calls: the oldest ready slot is started, the slots
are started in the order their receives completed, and no ready slot waits for as many starts as the
ring has slots, in every state of the run and while it is then drained by `begin_process`, if and
only if every receive of the run completes above all slots that are ready at that moment. -/
theorem ring_starts_oldest_iff (cfg : GpuRingConfig) (ops : List RingOp) :
    (∀ (pre : List RingOp) (nows : List UInt64), pre <+: ops →
      StartsOldest cfg (pre ++ nows.map .beginProcess) ∧
      StartsInOrder cfg (pre ++ nows.map .beginProcess) ∧
      ∀ before after, before ++ after = pre ++ nows.map .beginProcess →
        WaitsBounded cfg before after) ↔
    gpuRing.Permits GpuRingBuffer.CompletesAbove (.new cfg) ops := by
  constructor
  · intro h
    apply Machine.permits_iff.mpr
    intro pre op hpre
    exact completesAbove_of_startsOldest fun nows ↦ (h (pre ++ [op]) nows hpre).1
  · rintro hops pre nows ⟨post, rfl⟩
    have hpre := ((gpuRing.permits_append _ _ _ _).mp hops).1
    have hrun : gpuRing.Permits GpuRingBuffer.CompletesAbove (.new cfg)
        (pre ++ nows.map .beginProcess) :=
      (gpuRing.permits_append _ _ _ _).mpr ⟨hpre, GpuRingBuffer.permits_beginProcess _ nows⟩
    refine ⟨startsOldest hrun, startsInOrder hrun, ?_⟩
    intro before after hsplit
    exact waitsBounded (hsplit ▸ hrun)

/-- Slot 1 completes its receive before slot 0 does, and slot 0 is started first. -/
theorem ring_starts_newer_slot :
    ¬ StartsOldest { slotCount := 2, slotBytes := 64, kernelDelayNs := 2000 }
      [.beginReceive 0, .beginReceive 0, .completeReceive 1 [], .completeReceive 0 []] := by
  intro h
  obtain ⟨n, hn, holdest⟩ := h 0 0 2000 rfl
  obtain ⟨m, hm, hle⟩ := holdest 1 (by decide)
  cases hn
  cases hm
  contradiction

end AetherRadio
