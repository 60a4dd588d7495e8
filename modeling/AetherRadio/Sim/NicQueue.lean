import AetherRadio.Lib.Machine
import AetherRadio.Lib.TimedQueue
import AetherRadio.Sim.Nic

/-!
# Runs of the network card

The card's receive side is a queue whose elements become ready at a time, limited in depth. The
card keeps the completion times of pending packets only; the queue keeps them to the end, so what
holds of it tells when a packet may be returned.
-/

namespace AetherRadio

open Verif TimedQueue

/-- The calls on the receive side. -/
inductive NicOp where
  | submitRx (packet : Packet)
  | submitRxReadyAt (packet : Packet) (readyAtNs : UInt64)
  | advanceTime (nowNs : UInt64)
  | rxBurst (max : Nat)
  deriving DecidableEq

/-- The results of the calls. -/
inductive NicReply where
  | submitted (result : Except Cx5Error Unit)
  | advanced
  | burst (packets : List Packet)
  deriving DecidableEq

/-- The packets a call returned. -/
def NicReply.packets : NicReply → List Packet
  | .burst packets => packets
  | _ => []

namespace Cx5Nic

/-- One call. -/
def act (self : Cx5Nic) : NicOp → Cx5Nic × NicReply
  | .submitRx packet => (self.submitRx packet).map id .submitted
  | .submitRxReadyAt packet readyAtNs => (self.submitRxReadyAt packet readyAtNs).map id .submitted
  | .advanceTime nowNs => (self.advanceTime nowNs, .advanced)
  | .rxBurst max => (self.rxBurst max).map id .burst

/-- What a call submits, with its completion time. -/
def submits (self : Cx5Nic) : NicOp → List PendingRx
  | .submitRx packet => [⟨satAdd self.nowNs self.cfg.dmaLatencyNs, packet⟩]
  | .submitRxReadyAt packet readyAtNs => [⟨readyAtNs, packet⟩]
  | .advanceTime _ | .rxBurst _ => []

/-- What of it the card accepts. -/
def accepts (self : Cx5Nic) (op : NicOp) : List PendingRx :=
  if (self.act op).2 = .submitted (.ok ()) then self.submits op else []

end Cx5Nic

/-- The card as a machine. -/
def nic : Machine Cx5Nic NicOp NicReply where
  step := Cx5Nic.act

/-- The packets accepted in a run. -/
def acceptedRx (t : List (NicOp × NicReply)) : List Packet :=
  t.filterMap fun
    | (.submitRx packet, .submitted (.ok ())) => some packet
    | (.submitRxReadyAt packet _, .submitted (.ok ())) => some packet
    | _ => none

/-- The packets returned in a run. -/
def returnedRx (t : List (NicOp × NicReply)) : List Packet := t.flatMap (·.2.packets)

namespace Cx5Nic

/-- The queue is full. -/
def Full (self : Cx5Nic) : Prop :=
  self.pending.length + self.rxReady.length ≥ self.cfg.rxQueueDepth

instance (self : Cx5Nic) : Decidable self.Full := inferInstanceAs (Decidable (_ ≥ _))

theorem submitRxReadyAt_of_full {self : Cx5Nic} (h : self.Full) (packet : Packet)
    (readyAtNs : UInt64) :
    self.submitRxReadyAt packet readyAtNs = (self, .error .queueFull) := if_pos h

theorem submitRxReadyAt_of_room {self : Cx5Nic} (h : ¬ self.Full) (packet : Packet)
    (readyAtNs : UInt64) : self.submitRxReadyAt packet readyAtNs =
      ({ self with pending := self.pending ++ [PendingRx.mk readyAtNs packet] }.pollCompletions,
        .ok ()) :=
  if_neg h

/-- A call as an operation of the queue. A refused submission is none. -/
def queueOp (self : Cx5Nic) : NicOp → Op UInt64 Packet
  | .submitRx packet =>
    if self.Full then .idle else .submit (satAdd self.nowNs self.cfg.dmaLatencyNs) packet
  | .submitRxReadyAt packet readyAtNs => if self.Full then .idle else .submit readyAtNs packet
  | .advanceTime nowNs => .setClock nowNs
  | .rxBurst max => .take max

/-- What a call can do. -/
inductive NicStep (self : Cx5Nic) (op : NicOp) : Prop where
  | refused (accepts : self.accepts op = []) (queue : self.queueOp op = .idle)
      (kind : acceptedRx [(op, .submitted (.error .queueFull))] = [])
      (eq : self.act op = (self, .submitted (.error .queueFull)))
  | submitted (rx : PendingRx) (room : ¬ self.Full) (accepts : self.accepts op = [rx])
      (queue : self.queueOp op = .submit rx.readyAtNs rx.packet)
      (kind : acceptedRx [(op, .submitted (.ok ()))] = [rx.packet])
      (eq : self.act op =
        ({ self with pending := self.pending ++ [rx] }.pollCompletions, .submitted (.ok ())))
  | advanced (nowNs : UInt64) (isAdvance : op = .advanceTime nowNs)
      (eq : self.act op = ({ self with nowNs }.pollCompletions, .advanced))
  | burst (max : Nat) (isBurst : op = .rxBurst max)
      (eq : self.act op =
        ({ self.pollCompletions with rxReady := self.pollCompletions.rxReady.drop max },
          .burst (self.pollCompletions.rxReady.take max)))

/-- Either submission is refused by a full queue and taken otherwise. -/
theorem submission_step {self : Cx5Nic} {op : NicOp} {packet : Packet} {readyAtNs : UInt64}
    (act : self.act op = (self.submitRxReadyAt packet readyAtNs).map id .submitted)
    (submits : self.submits op = [⟨readyAtNs, packet⟩])
    (queue : self.queueOp op = if self.Full then .idle else .submit readyAtNs packet)
    (refused : acceptedRx [(op, .submitted (.error .queueFull))] = [])
    (taken : acceptedRx [(op, .submitted (.ok ()))] = [packet]) : NicStep self op := by
  by_cases hfull : self.Full
  · rw [submitRxReadyAt_of_full hfull] at act
    rw [if_pos hfull] at queue
    have haccepts : self.accepts op = [] := by
      rw [accepts, act]
      rfl
    exact .refused haccepts queue refused act
  · rw [submitRxReadyAt_of_room hfull] at act
    rw [if_neg hfull] at queue
    have haccepts : self.accepts op = [⟨readyAtNs, packet⟩] := by
      rw [accepts, act, ← submits]
      rfl
    exact .submitted ⟨readyAtNs, packet⟩ hfull haccepts queue taken act

theorem act_step (self : Cx5Nic) (op : NicOp) : NicStep self op := by
  cases op with
  | submitRx packet => exact submission_step rfl rfl rfl rfl rfl
  | submitRxReadyAt packet readyAtNs => exact submission_step rfl rfl rfl rfl rfl
  | advanceTime nowNs => exact .advanced nowNs rfl rfl
  | rxBurst max => exact .burst max rfl rfl

/-- A submission to a full queue changes nothing. -/
private theorem act_of_queueFull {self : Cx5Nic} {op : NicOp}
    (h : (self.act op).2 = .submitted (.error .queueFull)) : (self.act op).1 = self := by
  cases self.act_step op with
  | refused accepts queue kind eq => rw [eq]
  | submitted rx room accepts queue kind eq =>
    rw [eq] at h
    cases h
  | advanced nowNs isAdvance eq =>
    rw [eq] at h
    cases h
  | burst max isBurst eq =>
    rw [eq] at h
    cases h

/-- The card is the queue without the times of what is ready. -/
structure Represents (q : Queue UInt64 Packet) (card : Cx5Nic) : Prop where
  now : card.nowNs = q.now
  pending : card.pending = q.pending.map fun p ↦ ⟨p.1, p.2⟩
  ready : card.rxReady = q.ready.map (·.2)

/-- Polling the card polls the queue. -/
theorem Represents.poll {q : Queue UInt64 Packet} {self : Cx5Nic} (h : Represents q self) :
    Represents q.poll self.pollCompletions := by
  constructor
  · exact h.now
  · simp only [pollCompletions, Queue.poll, h.pending, h.now, List.filter_map, Function.comp_def]
  · simp only [pollCompletions, Queue.poll, h.pending, h.now, h.ready, List.filter_map,
      Function.comp_def, List.map_append, List.map_map]

/-- A call is an operation of the queue. -/
theorem Represents.act {q : Queue UInt64 Packet} {self : Cx5Nic} (h : Represents q self)
    (op : NicOp) : Represents (q.step (self.queueOp op)).1 (self.act op).1 ∧
      (self.act op).2.packets = (q.step (self.queueOp op)).2.map (·.2) := by
  cases self.act_step op with
  | refused accepts queue kind eq =>
    rw [queue, eq]
    exact ⟨h, rfl⟩
  | submitted rx room accepts queue kind eq =>
    rw [queue, eq]
    refine ⟨Represents.poll ⟨h.now, ?_, h.ready⟩, rfl⟩
    rw [h.pending, List.map_append]
    rfl
  | advanced nowNs isAdvance eq =>
    subst isAdvance
    rw [eq]
    exact ⟨Represents.poll ⟨rfl, h.pending, h.ready⟩, rfl⟩
  | burst max isBurst eq =>
    subst isBurst
    rw [eq]
    have hpoll := h.poll
    refine ⟨⟨hpoll.now, hpoll.pending, ?_⟩, ?_⟩
    · exact (congrArg (List.drop max) hpoll.ready).trans List.map_drop.symm
    · exact (congrArg (List.take max) hpoll.ready).trans List.map_take.symm

/-- The card a run leads to. -/
def after (cfg : NicDmaConfig) (ops : List NicOp) : Cx5Nic := nic.run (new cfg) ops

section Runs

variable (cfg : NicDmaConfig) (ops : List NicOp)

/-- The card before the call of a position. -/
def card (k : Nat) : Cx5Nic := after cfg (ops.take k)

/-- The operation of the queue at a position. -/
def opAt (k : Nat) : Op UInt64 Packet :=
  match ops[k]? with
  | some op => (card cfg ops k).queueOp op
  | none => .idle

private theorem card_succ {k : Nat} {op : NicOp} (h : ops[k]? = some op) :
    card cfg ops (k + 1) = ((card cfg ops k).act op).1 := by
  rw [card, after, List.take_add_one, h, nic.run_append]
  rfl

private theorem opAt_of_some {k : Nat} {op : NicOp} (h : ops[k]? = some op) :
    opAt cfg ops k = (card cfg ops k).queueOp op := by
  rw [opAt, h]

/-- The card runs as the queue of its operations. -/
theorem represents {k : Nat} (hk : k ≤ ops.length) :
    Represents (queueAt (opAt cfg ops) 0 k) (card cfg ops k) := by
  induction k with
  | zero => exact ⟨rfl, rfl, rfl⟩
  | succ k ih =>
    have hop : ops[k]? = some ops[k] := List.getElem?_eq_getElem hk
    rw [card_succ cfg ops hop, queueAt, opAt_of_some cfg ops hop]
    exact ((ih (by omega)).act ops[k]).1

/-- What the call of a position returns. -/
theorem returned_at {k : Nat} {op : NicOp} (h : ops[k]? = some op) :
    ((card cfg ops k).act op).2.packets = (takenAt (opAt cfg ops) 0 k).map (·.2) := by
  have hk : k < ops.length := (List.getElem?_eq_some_iff.mp h).1
  rw [takenAt, opAt_of_some cfg ops h]
  exact ((represents cfg ops (Nat.le_of_lt hk)).act op).2

end Runs

/-- Polling moves packets from one queue to the other. -/
private theorem pollCompletions_length (self : Cx5Nic) :
    self.pollCompletions.pending.length + self.pollCompletions.rxReady.length =
      self.pending.length + self.rxReady.length := by
  have hsplit := List.length_eq_length_filter_add (l := self.pending)
    (fun p : PendingRx ↦ decide (p.readyAtNs ≤ self.nowNs))
  simp only [pollCompletions, List.length_append, List.length_map, decide_not]
  omega

/-- It counts what it moves. -/
private theorem pollCompletions_completions (self : Cx5Nic) :
    self.pollCompletions.completions + self.rxReady.length =
      self.completions + self.pollCompletions.rxReady.length := by
  simp only [pollCompletions, List.length_append, List.length_map]
  omega

/-- What the queue lengths and the counter are after a run. -/
structure Counts (config : NicDmaConfig) (t : List (NicOp × NicReply)) (card : Cx5Nic) :
    Prop where
  cfg : card.cfg = config
  depth : card.pending.length + card.rxReady.length ≤ config.rxQueueDepth
  completions : card.completions = card.rxReady.length + (returnedRx t).length

/-- A call that returns nothing and ends with a poll keeps the counts. -/
private theorem Counts.poll {config : NicDmaConfig} {t : List (NicOp × NicReply)}
    {self : Cx5Nic} (h : Counts config t self) {op : NicOp} {reply : NicReply}
    (hreply : reply.packets = []) : Counts config (t ++ [(op, reply)]) self.pollCompletions := by
  have hlength := self.pollCompletions_length
  have hmoved := self.pollCompletions_completions
  have hdepth := h.depth
  have hcompletions := h.completions
  refine ⟨h.cfg, by omega, ?_⟩
  rw [returnedRx, List.flatMap_append, List.flatMap_singleton, hreply, List.append_nil]
  rw [returnedRx] at hcompletions
  omega

/-- Every call keeps the counts. -/
theorem Counts.act {config : NicDmaConfig} {t : List (NicOp × NicReply)} {self : Cx5Nic}
    (h : Counts config t self) (op : NicOp) :
    Counts config (t ++ [(op, (self.act op).2)]) (self.act op).1 := by
  cases self.act_step op with
  | refused accepts queue kind eq =>
    rw [eq]
    refine ⟨h.cfg, h.depth, ?_⟩
    rw [returnedRx, List.flatMap_append, List.flatMap_singleton]
    exact h.completions.trans (by rw [returnedRx]; simp [NicReply.packets])
  | submitted rx room accepts queue kind eq =>
    rw [eq]
    have hdepth : ¬ self.pending.length + self.rxReady.length ≥ self.cfg.rxQueueDepth := room
    rw [h.cfg] at hdepth
    have hpushed : Counts config t { self with pending := self.pending ++ [rx] } := by
      refine ⟨h.cfg, ?_, h.completions⟩
      rw [List.length_append, List.length_singleton]
      dsimp only
      omega
    exact hpushed.poll rfl
  | advanced nowNs isAdvance eq =>
    rw [eq]
    have hset : Counts config t { self with nowNs } := ⟨h.cfg, h.depth, h.completions⟩
    exact hset.poll rfl
  | burst max isBurst eq =>
    rw [eq]
    have hpolled : Counts config (t ++ [(op, .advanced)]) self.pollCompletions := h.poll rfl
    have hdepth := hpolled.depth
    have hcompletions := hpolled.completions
    refine ⟨h.cfg, ?_, ?_⟩
    · rw [List.length_drop]
      dsimp only
      omega
    · rw [returnedRx, List.flatMap_append, List.flatMap_singleton] at hcompletions ⊢
      simp only [NicReply.packets, List.append_nil, List.length_append, List.length_drop,
        List.length_take] at hcompletions ⊢
      omega

section Runs

variable (cfg : NicDmaConfig) (ops : List NicOp)

theorem counts : Counts cfg (nic.trace (new cfg) ops) (after cfg ops) :=
  nic.run_invariant (P := Counts cfg) ⟨rfl, Nat.zero_le _, rfl⟩
    (fun _ _ op h _ ↦ h.act op) (nic.permits_true _ _)

private theorem trace_take_succ {k : Nat} {op : NicOp} (h : ops[k]? = some op) :
    nic.trace (new cfg) (ops.take (k + 1)) =
      nic.trace (new cfg) (ops.take k) ++ [(op, ((card cfg ops k).act op).2)] := by
  rw [List.take_add_one, h, nic.trace_append]
  rfl

/-- What a call accepts is what the queue is given. -/
theorem accepts_spec (self : Cx5Nic) (op : NicOp) :
    acceptedRx [(op, (self.act op).2)] = (self.accepts op).map (·.packet) ∧
      (self.queueOp op).submitted.map (fun p ↦ PendingRx.mk p.1 p.2) = self.accepts op := by
  cases self.act_step op with
  | refused accepts queue kind eq =>
    rw [eq, accepts, queue]
    exact ⟨kind, rfl⟩
  | submitted rx room accepts queue kind eq =>
    rw [eq, accepts, queue]
    exact ⟨kind, rfl⟩
  | advanced nowNs isAdvance eq =>
    subst isAdvance
    exact ⟨rfl, rfl⟩
  | burst max isBurst eq =>
    subst isBurst
    exact ⟨rfl, rfl⟩

/-- The submissions the call of a position accepts, with their completion times. -/
def acceptedAt (k : Nat) : List PendingRx := ops[k]?.toList.flatMap (card cfg ops k).accepts

private theorem acceptedAt_eq {k : Nat} (hk : k < ops.length) :
    acceptedAt cfg ops k = (opAt cfg ops k).submitted.map fun p ↦ ⟨p.1, p.2⟩ := by
  have hop : ops[k]? = some ops[k] := List.getElem?_eq_getElem hk
  rw [opAt_of_some cfg ops hop, (accepts_spec _ _).2, acceptedAt, hop, Option.toList_some,
    List.flatMap_singleton]

/-- The packets a run accepts and returns, call by call. -/
private theorem trace_eq {k : Nat} (hk : k ≤ ops.length) :
    let t := nic.trace (new cfg) (ops.take k)
    acceptedRx t = ((List.range k).flatMap (opAt cfg ops · |>.submitted)).map (·.2) ∧
      returnedRx t = ((List.range k).flatMap (takenAt (opAt cfg ops) 0)).map (·.2) := by
  induction k with
  | zero => exact ⟨rfl, rfl⟩
  | succ k ih =>
    have hop : ops[k]? = some ops[k] := List.getElem?_eq_getElem hk
    obtain ⟨haccepted, hreturned⟩ := ih (by omega)
    obtain ⟨hkind, hsubmitted⟩ := (card cfg ops k).accepts_spec ops[k]
    rw [← hsubmitted, ← opAt_of_some cfg ops hop, List.map_map] at hkind
    have hpackets := returned_at cfg ops hop
    simp only [List.range_succ, List.flatMap_append, List.flatMap_singleton, List.map_append]
    rw [trace_take_succ cfg ops hop, ← haccepted, ← hreturned, ← hpackets]
    constructor
    · rw [acceptedRx, List.filterMap_append]
      exact congrArg (acceptedRx (nic.trace (new cfg) (ops.take k)) ++ ·) hkind
    · rw [returnedRx, List.flatMap_append, List.flatMap_singleton]
      rfl

/-- The returned packets, the ready ones and the pending ones, with their completion times, are
the accepted submissions. -/
private theorem submissions_perm : ((List.range ops.length).flatMap (acceptedAt cfg ops)).Perm
    ((List.range ops.length).flatMap
        (fun k ↦ (takenAt (opAt cfg ops) 0 k).map fun p ↦ PendingRx.mk p.1 p.2) ++
      ((queueAt (opAt cfg ops) 0 ops.length).ready.map (fun p ↦ PendingRx.mk p.1 p.2) ++
        (after cfg ops).pending)) := by
  have haccepted : (List.range ops.length).flatMap (acceptedAt cfg ops) =
      ((List.range ops.length).flatMap (opAt cfg ops · |>.submitted)).map
        fun p ↦ PendingRx.mk p.1 p.2 := by
    rw [List.map_flatMap]
    apply List.flatMap_congr
    intro k hk
    exact acceptedAt_eq cfg ops (List.mem_range.mp hk)
  have hrep := represents cfg ops (Nat.le_refl ops.length)
  rw [card, List.take_length] at hrep
  rw [haccepted, hrep.pending, ← List.map_append, ← List.map_flatMap, ← List.map_append]
  exact (conserves (opAt cfg ops) 0 ops.length).symm.map _

/-- A returned packet was waiting, or just submitted, when the clock stood at its completion time or
later. -/
private theorem returned_due {k : Nat} (hk : k < ops.length) {p : UInt64 × Packet}
    (hp : p ∈ takenAt (opAt cfg ops) 0 k) :
    ∃ j ≤ k, ⟨p.1, p.2⟩ ∈ (card cfg ops j).pending ++ acceptedAt cfg ops j ∧
      p.1 ≤ (card cfg ops (j + 1)).nowNs := by
  obtain ⟨j, hj, hwaited, hdue⟩ := taken_due (opAt cfg ops) 0 hp
  have hj' : j < ops.length := by omega
  refine ⟨j, hj, ?_, ?_⟩
  · rw [acceptedAt_eq cfg ops hj', (represents cfg ops (Nat.le_of_lt hj')).pending,
      ← List.map_append]
    exact List.mem_map_of_mem hwaited
  · rwa [(represents cfg ops hj').now]

/-- The packets accepted are the pending, the ready and the returned ones. -/
private theorem accepted_perm :
    (acceptedRx (nic.trace (new cfg) ops)).Perm
      ((after cfg ops).pending.map (·.packet) ++ (after cfg ops).rxReady ++
        returnedRx (nic.trace (new cfg) ops)) := by
  have hrep := represents cfg ops (Nat.le_refl ops.length)
  obtain ⟨haccepted, hreturned⟩ := trace_eq cfg ops (Nat.le_refl ops.length)
  rw [card, List.take_length] at hrep
  rw [List.take_length] at haccepted hreturned
  have hconserves := ((conserves (opAt cfg ops) 0 ops.length).map (·.2)).symm
  rw [← haccepted, List.map_append, ← hreturned, List.map_append, ← hrep.ready] at hconserves
  have hpending : (after cfg ops).pending.map (·.packet) =
      (queueAt (opAt cfg ops) 0 ops.length).pending.map (·.2) := by
    rw [hrep.pending, List.map_map]
    rfl
  rw [← hpending] at hconserves
  exact hconserves.trans (List.perm_append_comm.trans (List.perm_append_comm.append_right _))

/-- The time of a pending packet is still to come. -/
private theorem pending_waits {rx : PendingRx} (hrx : rx ∈ (after cfg ops).pending) :
    (after cfg ops).nowNs < rx.readyAtNs := by
  have hrep := represents cfg ops (Nat.le_refl ops.length)
  rw [card, List.take_length] at hrep
  rw [hrep.pending] at hrx
  obtain ⟨p, hp, rfl⟩ := List.mem_map.mp hrx
  rw [hrep.now]
  exact UInt64.not_le.mp (polled (opAt cfg ops) 0 ops.length p hp)

end Runs

/-- For every configuration and every sequence of calls: the packets accepted are the pending, the
ready and the returned ones; the queues stay within the configured depth; the completions are the
ready and the returned packets; a pending packet's time is still to come; a burst returns at most
what it is asked for; a refused submission changes nothing; and the returned packets have
completion times, those they were submitted with, which the clock had reached by then while they
waited. -/
theorem nic_conserves (cfg : NicDmaConfig) (ops : List NicOp) :
    let fin := after cfg ops
    let t := nic.trace (new cfg) ops
    (acceptedRx t).Perm (fin.pending.map (·.packet) ++ fin.rxReady ++ returnedRx t) ∧
    fin.pending.length + fin.rxReady.length ≤ cfg.rxQueueDepth ∧
    fin.completions = fin.rxReady.length + (returnedRx t).length ∧
    (∀ rx ∈ fin.pending, fin.nowNs < rx.readyAtNs) ∧
    (∀ max, (fin.rxBurst max).2.length ≤ max) ∧
    (∀ op, (fin.act op).2 = .submitted (.error .queueFull) → (fin.act op).1 = fin) ∧
    ∃ (returned : Nat → List PendingRx) (ready : List PendingRx),
      (∀ k op, ops[k]? = some op →
        ((card cfg ops k).act op).2.packets = (returned k).map (·.packet)) ∧
      fin.rxReady = ready.map (·.packet) ∧
      ((List.range ops.length).flatMap (acceptedAt cfg ops)).Perm
        ((List.range ops.length).flatMap returned ++ (ready ++ fin.pending)) ∧
      ∀ k < ops.length, ∀ rx ∈ returned k,
        ∃ j ≤ k, rx ∈ (card cfg ops j).pending ++ acceptedAt cfg ops j ∧
          rx.readyAtNs ≤ (card cfg ops (j + 1)).nowNs := by
  intro fin t
  have hcounts : Counts cfg t fin := counts cfg ops
  have hrep := represents cfg ops (Nat.le_refl ops.length)
  rw [card, List.take_length] at hrep
  refine ⟨accepted_perm cfg ops, hcounts.depth, hcounts.completions,
    fun rx hrx ↦ pending_waits cfg ops hrx, ?_, ?_, ?_⟩
  · intro max
    exact List.length_take_le max _
  · intro op hfull
    exact act_of_queueFull hfull
  · refine ⟨_, _, ?_, ?_, submissions_perm cfg ops, ?_⟩
    · intro k op hop
      rw [returned_at cfg ops hop, List.map_map]
      rfl
    · rw [hrep.ready, List.map_map]
      rfl
    · intro k hk rx hrx
      obtain ⟨p, hp, rfl⟩ := List.mem_map.mp hrx
      exact returned_due cfg ops hk hp

end Cx5Nic

end AetherRadio
