import AetherRadio.Lib.History
import AetherRadio.Lib.Word

/-!
# Packet traces

`crates/metrics-engine/src/trace.rs`: a bounded list of the newest packet traces, oldest first.
-/

namespace AetherRadio

/-- Stages of a packet's way. From `crates/metrics-engine/src/trace.rs:10–19`. -/
inductive TraceStage where
  | fpgaTx
  | wireDepart
  | cx5Rx
  | dmaDone
  | hostReady
  | gpuEnqueue
  | cudaStart
  | cudaDone
  deriving DecidableEq, Repr

/-- When a stage was reached. From `crates/metrics-engine/src/trace.rs:22–25`. -/
structure StageStamp where
  stage : TraceStage
  timeNs : UInt64
  deriving DecidableEq, Repr

/-- The stages of one packet, in recording order.
From `crates/metrics-engine/src/trace.rs:28–33`. -/
structure PacketTrace where
  traceId : UInt64
  streamId : UInt32
  sequence : UInt64
  stages : List StageStamp
  deriving DecidableEq, Repr

/-- In-memory ring of packet traces. From `crates/metrics-engine/src/trace.rs:36–43`. -/
structure TraceEngine where
  capacity : Nat
  traces : List PacketTrace
  nextId : UInt64
  enabled : Bool
  dropped : Nat
  deriving DecidableEq, Repr

namespace TraceEngine

/-- `from_config`: the capacity is at least one.
From `crates/metrics-engine/src/trace.rs:46–55,63–68`. -/
def fromConfig (enabled : Bool) (capacity : Nat) : TraceEngine :=
  { capacity := max capacity 1, traces := [], nextId := 1, enabled, dropped := 0 }

/-- `start`: the oldest trace makes room, the counter wraps.
From `crates/metrics-engine/src/trace.rs:78–99`. -/
def start (self : TraceEngine) (streamId : UInt32) (sequence : UInt64) (first : TraceStage)
    (timeNs : UInt64) : TraceEngine × UInt64 :=
  if ¬ self.enabled then (self, 0)
  else
    let id := self.nextId
    let trace := { traceId := id, streamId, sequence, stages := [⟨first, timeNs⟩] }
    let evict := self.traces.length ≥ self.capacity
    ({ self with
        nextId := self.nextId + 1
        traces := (if evict then self.traces.drop 1 else self.traces) ++ [trace]
        dropped := if evict then self.dropped + 1 else self.dropped }, id)

/-- Append a stamp to the first trace of a list with the given id. -/
def stampFirst (traceId : UInt64) (stamp : StageStamp) : List PacketTrace → List PacketTrace
  | [] => []
  | t :: traces =>
    if t.traceId = traceId then { t with stages := t.stages ++ [stamp] } :: traces
    else t :: stampFirst traceId stamp traces

/-- `stamp` looks for the newest trace with the id.
From `crates/metrics-engine/src/trace.rs:101–113`. -/
def stamp (self : TraceEngine) (traceId : UInt64) (stage : TraceStage) (timeNs : UInt64) :
    TraceEngine :=
  if ¬ self.enabled ∨ traceId = 0 then self
  else { self with traces := (stampFirst traceId ⟨stage, timeNs⟩ self.traces.reverse).reverse }

variable {self : TraceEngine} {traceId : UInt64}

/-- Several stamps. -/
def stamps (self : TraceEngine) (traceId : UInt64) (stages : List StageStamp) : TraceEngine :=
  stages.foldl (fun tracer stamp ↦ tracer.stamp traceId stamp.stage stamp.timeNs) self

/-- A stamp for the newest trace goes to that trace. -/
private theorem stamp_newest {older : List PacketTrace} {newest : PacketTrace}
    (henabled : self.enabled = true) (htraces : self.traces = older ++ [newest])
    (hid : newest.traceId ≠ 0) (stage : TraceStage) (timeNs : UInt64) :
    self.stamp newest.traceId stage timeNs = { self with
      traces := older ++ [{ newest with stages := newest.stages ++ [⟨stage, timeNs⟩] }] } := by
  have hstamps : ¬ (¬ self.enabled = true ∨ newest.traceId = 0) := by
    simp only [henabled, hid, not_true_eq_false, or_self, not_false_eq_true]
  rw [stamp, if_neg hstamps, htraces, List.reverse_append, List.reverse_singleton,
    List.singleton_append, stampFirst, if_pos rfl, List.reverse_cons, List.reverse_reverse]

private theorem stamps_newest (self : TraceEngine) {older : List PacketTrace} (newest : PacketTrace)
    (henabled : self.enabled = true) (htraces : self.traces = older ++ [newest])
    (hid : newest.traceId ≠ 0) (stages : List StageStamp) :
    self.stamps newest.traceId stages = { self with
      traces := older ++ [{ newest with stages := newest.stages ++ stages }] } := by
  induction stages generalizing self newest with
  | nil =>
    rw [List.append_nil, ← htraces]
    rfl
  | cons stamp stages ih =>
    have hstamp := stamp_newest henabled htraces hid stamp.stage stamp.timeNs
    show (self.stamp newest.traceId stamp.stage stamp.timeNs).stamps newest.traceId stages = _
    rw [hstamp]
    have hrest := ih
      { self with traces := older ++ [{ newest with stages := newest.stages ++ [stamp] }] }
      { newest with stages := newest.stages ++ [stamp] } henabled rfl hid
    rw [List.append_assoc] at hrest
    exact hrest

/-- The traces are the newest of a list, as many as the engine keeps. -/
structure Keeps (tracer : TraceEngine) (all : List PacketTrace) : Prop where
  enabled : tracer.enabled = true
  nextId : tracer.nextId = UInt64.ofNat (all.length + 1)
  capacity : 0 < tracer.capacity
  traces : tracer.traces = all.rtake tracer.capacity

theorem keeps_fromConfig (capacity : Nat) : (fromConfig true capacity).Keeps [] := by
  constructor
  · rfl
  · rfl
  · exact Nat.lt_of_lt_of_le Nat.zero_lt_one (Nat.le_max_right capacity 1)
  · exact (List.rtake_nil _).symm

/-- A trace that is started and stamped is the newest of the list. -/
theorem Keeps.start_stamps {all : List PacketTrace} (h : self.Keeps all)
    (hroom : all.length + 1 < 2 ^ 64) (streamId : UInt32) (sequence : UInt64) (first : TraceStage)
    (timeNs : UInt64) (stages : List StageStamp) :
    let started := self.start streamId sequence first timeNs
    (started.1.stamps started.2 stages).capacity = self.capacity ∧
      (started.1.stamps started.2 stages).Keeps
        (all ++ [⟨self.nextId, streamId, sequence, ⟨first, timeNs⟩ :: stages⟩]) := by
  obtain ⟨capacity, traces, nextId, enabled, dropped⟩ := self
  obtain ⟨henabled, hnextId, hcapacity, htraces⟩ := h
  dsimp only at henabled hnextId hcapacity htraces
  obtain ⟨n, rfl⟩ := Nat.exists_eq_succ_of_ne_zero (Nat.pos_iff_ne_zero.mp hcapacity)
  subst henabled htraces
  have hid : nextId ≠ 0 := by
    intro hzero
    have hnat := congrArg UInt64.toNat (hnextId.symm.trans hzero)
    rw [UInt64.toNat_ofNat_of_lt' hroom] at hnat
    exact absurd hnat (Nat.succ_ne_zero _)
  intro started
  have hstamps := stamps_newest started.1 ⟨nextId, streamId, sequence, [⟨first, timeNs⟩]⟩ rfl
    (congrArg (· ++ _) (Verif.rtake_evict all n)) hid stages
  have hstarted : started.2 = nextId := rfl
  rw [hstarted]
  dsimp only at hstamps
  rw [hstamps]
  refine ⟨rfl, rfl, ?_, hcapacity, ?_⟩
  · show nextId + 1 = _
    rw [hnextId, Verif.ofNat_add_one, List.length_append]
    rfl
  · exact (List.rtake_concat_succ ..).symm

end TraceEngine

end AetherRadio
