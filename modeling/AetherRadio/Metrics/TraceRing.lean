import AetherRadio.Lib.Machine
import AetherRadio.Metrics.Trace
import Mathlib.Data.List.Nodup

/-!
# Runs of the trace ring

What an enabled tracer holds after any calls of `start` and `stamp`, told from the calls and the
ids that were answered: every trace with the stamps issued for it, of which the newest are kept.
-/

namespace AetherRadio

open Verif

/-- A call of the tracer. -/
inductive TraceOp where
  | start (streamId : UInt32) (sequence : UInt64) (first : TraceStage) (timeNs : UInt64)
  | stamp (traceId : UInt64) (stage : TraceStage) (timeNs : UInt64)
  deriving DecidableEq, Repr

/-- The call starts a trace. -/
def TraceOp.isStart : TraceOp → Bool
  | .start .. => true
  | .stamp .. => false

/-- The stamp a call issues for an id. -/
def TraceOp.stampFor (traceId : UInt64) : TraceOp → Option StageStamp
  | .start .. => none
  | .stamp id stage timeNs => if id = traceId then some ⟨stage, timeNs⟩ else none

/-- The trace with one stamp more, if the stamp is for its id. -/
def PacketTrace.stamped (traceId : UInt64) (stamp : StageStamp) (trace : PacketTrace) :
    PacketTrace :=
  if trace.traceId = traceId then { trace with stages := trace.stages ++ [stamp] } else trace

@[simp] theorem PacketTrace.traceId_stamped (traceId : UInt64) (stamp : StageStamp)
    (trace : PacketTrace) : (trace.stamped traceId stamp).traceId = trace.traceId := by
  unfold stamped
  split <;> rfl

private theorem PacketTrace.stamped_of_ne {traceId : UInt64} {trace : PacketTrace}
    (h : trace.traceId ≠ traceId) (stamp : StageStamp) : trace.stamped traceId stamp = trace :=
  if_neg h

/-- The ids of traces, in order. -/
def traceIds (traces : List PacketTrace) : List UInt64 := traces.map (·.traceId)

@[simp] theorem traceIds_stamped (traceId : UInt64) (stamp : StageStamp)
    (traces : List PacketTrace) :
    traceIds (traces.map (·.stamped traceId stamp)) = traceIds traces := by
  simp [traceIds]

/-- A stamp for none of the traces. -/
theorem map_stamped_of_notMem {traceId : UInt64} {traces : List PacketTrace}
    (h : traceId ∉ traceIds traces) (stamp : StageStamp) :
    traces.map (·.stamped traceId stamp) = traces := by
  have hsame : ∀ trace ∈ traces, trace.stamped traceId stamp = id trace := by
    intro trace htrace
    apply PacketTrace.stamped_of_ne
    rintro rfl
    exact h (List.mem_map_of_mem htrace)
  rw [List.map_congr_left hsame, List.map_id]

private theorem rtake_map_stamped (traceId : UInt64) (stamp : StageStamp)
    (traces : List PacketTrace)
    (n : Nat) : (traces.map (·.stamped traceId stamp)).rtake n =
      (traces.rtake n).map (·.stamped traceId stamp) := by
  rw [List.rtake, List.rtake, List.length_map, List.map_drop]

namespace TraceEngine

/-- One call, answered with the id of the trace it started. -/
def act (self : TraceEngine) : TraceOp → TraceEngine × Option UInt64
  | .start streamId sequence first timeNs =>
    let (next, id) := self.start streamId sequence first timeNs
    (next, some id)
  | .stamp traceId stage timeNs => (self.stamp traceId stage timeNs, none)

/-- The tracer as a machine. -/
def tracing : Machine TraceEngine TraceOp (Option UInt64) where
  step := act

/-- Every trace that was started, with its first stage and the stamps issued for its id since. -/
def told : List (TraceOp × Option UInt64) → List PacketTrace
  | [] => []
  | (.start streamId sequence first timeNs, some id) :: rest =>
    let later := rest.filterMap fun entry ↦ entry.1.stampFor id
    ⟨id, streamId, sequence, ⟨first, timeNs⟩ :: later⟩ :: told rest
  | _ :: rest => told rest

/-- A trace that is started is the last one told. -/
theorem told_concat_start (t : List (TraceOp × Option UInt64)) (streamId : UInt32)
    (sequence : UInt64) (first : TraceStage) (timeNs id : UInt64) :
    told (t ++ [(.start streamId sequence first timeNs, some id)]) =
      told t ++ [⟨id, streamId, sequence, [⟨first, timeNs⟩]⟩] := by
  fun_induction told t with
  | case1 => rfl
  | case2 streamId' sequence' first' timeNs' id' rest later ih =>
    rw [List.cons_append, told, ih, List.filterMap_append, List.cons_append]
    simp [TraceOp.stampFor, later]
  | case3 entry rest hentry ih => rw [List.cons_append, told, ih]; exact hentry

/-- A stamp is told of the traces with its id. -/
theorem told_concat_stamp (t : List (TraceOp × Option UInt64)) (traceId : UInt64)
    (stage : TraceStage) (timeNs : UInt64) (answer : Option UInt64) :
    told (t ++ [(.stamp traceId stage timeNs, answer)]) =
      (told t).map (·.stamped traceId ⟨stage, timeNs⟩) := by
  fun_induction told t with
  | case1 => rfl
  | case2 streamId sequence first timeNs' id rest later ih =>
    rw [List.cons_append, told, ih, List.filterMap_append, List.map_cons]
    by_cases hid : traceId = id
    · simp [TraceOp.stampFor, PacketTrace.stamped, hid, later]
    · simp [TraceOp.stampFor, PacketTrace.stamped, hid, Ne.symm hid, later]
  | case3 entry rest hentry ih => rw [List.cons_append, told, ih]; exact hentry

/-- Among different ids the first trace with an id is the only one. -/
private theorem stampFirst_eq_map {traces : List PacketTrace} (h : (traceIds traces).Nodup)
    (traceId : UInt64) (stamp : StageStamp) :
    stampFirst traceId stamp traces = traces.map (·.stamped traceId stamp) := by
  induction traces with
  | nil => rfl
  | cons trace traces ih =>
    obtain ⟨hfresh, hrest⟩ := List.nodup_cons.mp h
    rw [stampFirst, List.map_cons, PacketTrace.stamped]
    by_cases hid : trace.traceId = traceId
    · subst hid
      rw [if_pos rfl, if_pos rfl, map_stamped_of_notMem hfresh]
    · rw [if_neg hid, if_neg hid, ih hrest]

/-- A stamp goes to the trace with its id. -/
theorem stamp_eq_map {self : TraceEngine} (henabled : self.enabled = true)
    (hnodup : (traceIds self.traces).Nodup) (hzero : 0 ∉ traceIds self.traces) (traceId : UInt64)
    (stage : TraceStage) (timeNs : UInt64) :
    self.stamp traceId stage timeNs =
      { self with traces := self.traces.map (·.stamped traceId ⟨stage, timeNs⟩) } := by
  by_cases hid : traceId = 0
  · have hnone := map_stamped_of_notMem hzero ⟨stage, timeNs⟩
    rw [stamp, if_pos (.inr hid), hid, hnone]
  · have hgiven : ¬ (¬ self.enabled = true ∨ traceId = 0) := by
      simp [henabled, hid]
    have hreverse : (traceIds self.traces.reverse).Nodup := by
      rw [traceIds, List.map_reverse]
      exact List.nodup_reverse.mpr hnodup
    rw [stamp, if_neg hgiven, stampFirst_eq_map hreverse, ← List.map_reverse,
      List.reverse_reverse]

/-- The ids that were given out after `n` starts. -/
def issued (n : Nat) : List UInt64 := (List.range n).map fun k ↦ UInt64.ofNat (k + 1)

private theorem issued_succ (n : Nat) : issued (n + 1) = issued n ++ [UInt64.ofNat (n + 1)] := by
  rw [issued, List.range_succ, List.map_append]
  rfl

private theorem toNat_issued {k n : Nat} (hk : k < n) (hn : n < 2 ^ 64) :
    (UInt64.ofNat (k + 1)).toNat = k + 1 := by
  rw [UInt64.toNat_ofNat']
  omega

/-- While the counter does not wrap the ids are different. -/
private theorem nodup_issued {n : Nat} (hn : n < 2 ^ 64) : (issued n).Nodup := by
  apply List.Nodup.map_on _ List.nodup_range
  intro j hj k hk heq
  have hnat := congrArg UInt64.toNat heq
  rw [toNat_issued (List.mem_range.mp hj) hn, toNat_issued (List.mem_range.mp hk) hn] at hnat
  omega

/-- And none is zero. -/
private theorem zero_notMem_issued {n : Nat} (hn : n < 2 ^ 64) : 0 ∉ issued n := by
  intro hzero
  obtain ⟨k, hk, heq⟩ := List.mem_map.mp hzero
  have hnat := congrArg UInt64.toNat heq
  rw [toNat_issued (List.mem_range.mp hk) hn] at hnat
  exact Nat.succ_ne_zero k hnat

/-- The ring beside all traces it was given. -/
structure Accounts (tracer : TraceEngine) (all : List PacketTrace) : Prop where
  keeps : tracer.Keeps all
  ids : traceIds all = issued all.length
  dropped : tracer.dropped + tracer.traces.length = all.length

variable {self : TraceEngine} {all : List PacketTrace}

private theorem Accounts.ids_traces (h : self.Accounts all) :
    (traceIds self.traces).Sublist (issued all.length) := by
  rw [← h.ids, h.keeps.traces]
  exact (List.drop_sublist ..).map _

private theorem Accounts.nodup (h : self.Accounts all) (hroom : all.length < 2 ^ 64) :
    (traceIds self.traces).Nodup := (nodup_issued hroom).sublist h.ids_traces

private theorem Accounts.zero_notMem (h : self.Accounts all) (hroom : all.length < 2 ^ 64) :
    0 ∉ traceIds self.traces := fun hzero ↦ zero_notMem_issued hroom (h.ids_traces.subset hzero)

/-- `start`. -/
theorem Accounts.start (h : self.Accounts all) (hroom : all.length + 1 < 2 ^ 64)
    (streamId : UInt32) (sequence : UInt64) (first : TraceStage) (timeNs : UInt64) :
    let started := self.start streamId sequence first timeNs
    started.1.capacity = self.capacity ∧
      started.1.Accounts (all ++ [⟨started.2, streamId, sequence, [⟨first, timeNs⟩]⟩]) := by
  intro started
  have hdisabled : ¬ ¬ self.enabled = true := not_not.mpr h.keeps.enabled
  have hid : started.2 = self.nextId := by
    simp only [started, TraceEngine.start, if_neg hdisabled]
  obtain ⟨hcapacity, hkeeps⟩ := h.keeps.start_stamps hroom streamId sequence first timeNs []
  refine ⟨hcapacity, ?_, ?_, ?_⟩
  · rw [hid]
    exact hkeeps
  · rw [hid, h.keeps.nextId, List.length_append, List.length_singleton, issued_succ, ← h.ids,
      traceIds, List.map_append]
    rfl
  · have hdropped := h.dropped
    have hpos := h.keeps.capacity
    simp only [started, TraceEngine.start, if_neg hdisabled, List.length_append,
      List.length_singleton]
    split
    · rw [List.length_drop]
      omega
    · omega

/-- `stamp`. -/
theorem Accounts.stamp (h : self.Accounts all) (hroom : all.length < 2 ^ 64) (traceId : UInt64)
    (stage : TraceStage) (timeNs : UInt64) :
    let next := self.stamp traceId stage timeNs
    next.capacity = self.capacity ∧
      next.Accounts (all.map (·.stamped traceId ⟨stage, timeNs⟩)) := by
  intro next
  have hnext : next = { self with traces := self.traces.map (·.stamped traceId ⟨stage, timeNs⟩) } :=
    stamp_eq_map h.keeps.enabled (h.nodup hroom) (h.zero_notMem hroom) traceId stage timeNs
  rw [hnext]
  refine ⟨rfl, ⟨h.keeps.enabled, ?_, h.keeps.capacity, ?_⟩, ?_, ?_⟩
  · rw [List.length_map]
    exact h.keeps.nextId
  · rw [rtake_map_stamped, ← h.keeps.traces]
  · rw [traceIds_stamped, List.length_map, h.ids]
  · rw [List.length_map, List.length_map, h.dropped]

private theorem accounts_fromConfig (capacity : Nat) : (fromConfig true capacity).Accounts [] :=
  ⟨keeps_fromConfig capacity, rfl, rfl⟩

/-- The ring beside the traces of the calls so far, with one trace for every start. -/
structure Told (capacity : Nat) (t : List (TraceOp × Option UInt64)) (tracer : TraceEngine) :
    Prop where
  starts : (told t).length = t.countP fun entry ↦ entry.1.isStart
  capacity : tracer.capacity = max capacity 1
  accounts : tracer.Accounts (told t)

/-- One call, while the counter does not wrap. -/
theorem Told.act {capacity : Nat} {t : List (TraceOp × Option UInt64)}
    (h : Told capacity t self) (op : TraceOp)
    (hroom : (t.countP fun entry ↦ entry.1.isStart) + 1 < 2 ^ 64) :
    Told capacity (t ++ [(op, (self.act op).2)]) (self.act op).1 := by
  rw [← h.starts] at hroom
  cases op with
  | start streamId sequence first timeNs =>
    obtain ⟨hcapacity, haccounts⟩ := h.accounts.start hroom streamId sequence first timeNs
    rw [← told_concat_start] at haccounts
    refine ⟨?_, hcapacity.trans h.capacity, haccounts⟩
    simp [TraceEngine.act, told_concat_start, h.starts, TraceOp.isStart]
  | stamp traceId stage timeNs =>
    obtain ⟨hcapacity, haccounts⟩ :=
      h.accounts.stamp (Nat.lt_of_succ_lt hroom) traceId stage timeNs
    rw [← told_concat_stamp t traceId stage timeNs none] at haccounts
    refine ⟨?_, hcapacity.trans h.capacity, haccounts⟩
    simp [TraceEngine.act, told_concat_stamp, h.starts, TraceOp.isStart]

private theorem told_run (capacity : Nat) {ops : List TraceOp}
    (h : ops.countP TraceOp.isStart < 2 ^ 64 - 1) :
    Told capacity (tracing.trace (fromConfig true capacity) ops)
      (tracing.run (fromConfig true capacity) ops) := by
  apply tracing.run_invariant (P := fun t tracer ↦
    (t.countP fun entry ↦ entry.1.isStart) < 2 ^ 64 - 1 → Told capacity t tracer) _ _
    (tracing.permits_true ..)
  · rwa [tracing.countP_trace]
  · exact fun _ ↦ ⟨rfl, rfl, accounts_fromConfig capacity⟩
  · intro t tracer op htold _ hroom
    rw [List.countP_append] at hroom
    exact (htold (by omega)).act op (by omega)

/-- After any calls with fewer than `2 ^ 64 - 1` starts the ring holds the newest of the traces
that were started, as many as its capacity, each with its first stage and the stamps issued for its
id since. The others were dropped, the ids are different and not zero, and a stamp for another id
changes nothing. -/
theorem keeps_newest (capacity : Nat) (ops : List TraceOp)
    (h : ops.countP TraceOp.isStart < 2 ^ 64 - 1) :
    let tracer := tracing.run (fromConfig true capacity) ops
    let all := told (tracing.trace (fromConfig true capacity) ops)
    all.length = ops.countP TraceOp.isStart ∧
      tracer.traces = all.rtake (max capacity 1) ∧
      tracer.traces.length = min (max capacity 1) all.length ∧
      tracer.dropped + tracer.traces.length = all.length ∧
      (traceIds tracer.traces).Nodup ∧ 0 ∉ traceIds tracer.traces ∧
      ∀ traceId stage timeNs, traceId ∉ traceIds tracer.traces →
        tracer.stamp traceId stage timeNs = tracer := by
  intro tracer all
  have htold := told_run capacity h
  have hlength : all.length = ops.countP TraceOp.isStart :=
    htold.starts.trans (tracing.countP_trace ..)
  have htraces : tracer.traces = all.rtake (max capacity 1) := by
    rw [← htold.capacity]
    exact htold.accounts.keeps.traces
  have hroom : all.length < 2 ^ 64 := by omega
  have hnodup := htold.accounts.nodup hroom
  have hzero := htold.accounts.zero_notMem hroom
  refine ⟨hlength, htraces, ?_, htold.accounts.dropped, hnodup, hzero, ?_⟩
  · rw [htraces, List.rtake, List.length_drop]
    omega
  · intro traceId stage timeNs hother
    rw [stamp_eq_map htold.accounts.keeps.enabled hnodup hzero, map_stamped_of_notMem hother]

/-- A ring of two: the first trace makes room for the third and a later stamp for it is ignored. -/
theorem keeps_newest_of_three :
    let ops : List TraceOp := [.start 1 10 .fpgaTx 100, .start 1 11 .fpgaTx 200,
      .stamp 1 .cx5Rx 250, .stamp 2 .cx5Rx 260, .start 1 12 .fpgaTx 300, .stamp 1 .dmaDone 310,
      .stamp 2 .dmaDone 320, .stamp 0 .dmaDone 330]
    let tracer := tracing.run (fromConfig true 2) ops
    ops.countP TraceOp.isStart < 2 ^ 64 - 1 ∧
      tracer.traces = (told (tracing.trace (fromConfig true 2) ops)).rtake (max 2 1) ∧
      tracer.traces = [⟨2, 1, 11, [⟨.fpgaTx, 200⟩, ⟨.cx5Rx, 260⟩, ⟨.dmaDone, 320⟩]⟩,
        ⟨3, 1, 12, [⟨.fpgaTx, 300⟩]⟩] := by
  intro ops tracer
  have hfew : ops.countP TraceOp.isStart < 2 ^ 64 - 1 := by decide
  exact ⟨hfew, (keeps_newest 2 ops hfew).2.1, by decide⟩

end TraceEngine

end AetherRadio
