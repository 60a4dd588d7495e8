import AetherRadio.Memory.Heap
import AetherRadio.Memory.Pool

/-!
# Pooled memory runs as simulated memory

A call the pool does not refuse is a call, or for a copy three calls, on the memory it wraps, with
the same results.
-/

namespace AetherRadio

open Verif

namespace PooledMemory

/-- What the size table says of a buffer. -/
def sizeEntry (buf : Buffer) : MemoryKind × UInt64 := (buf.kind, UInt64.ofNat buf.data.length)

/-- The size table is that of the live buffers. -/
structure Mirrors (mem : PooledMemory) : Prop where
  sizes : mem.sizes = mem.inner.buffers.map (·.map sizeEntry)
  nextId : mem.inner.nextId.toNat = mem.inner.buffers.length
  small : mem.inner.Small

/-- The pool after an allocation. -/
def added (self : PooledMemory) (size : UInt64) (kind : MemoryKind) : PooledMemory :=
  { self with
    inner :=
      { nextId := self.inner.nextId + 1
        buffers := self.inner.buffers ++ [some { kind, data := List.replicate size.toNat 0 }] }
    sizes := self.sizes ++ [some (kind, size)]
    bufferCount := self.bufferCount + 1
    hostUsed := if kind = .host then self.hostUsed + size else self.hostUsed
    gpuUsed := if kind = .gpu then self.gpuUsed + size else self.gpuUsed }

/-- The pool after a release. -/
def removed (self : PooledMemory) (id : BufferId) (kind : MemoryKind) (size : UInt64) :
    PooledMemory :=
  { self with
    inner := { self.inner with buffers := self.inner.buffers.set id.toNat none }
    sizes := self.sizes.set id.toNat none
    bufferCount := satSub self.bufferCount 1
    hostUsed := if kind = .host then satSub self.hostUsed size else self.hostUsed
    gpuUsed := if kind = .gpu then satSub self.gpuUsed size else self.gpuUsed }

/-- The pool after a write. -/
def overwritten (self : PooledMemory) (id : BufferId) (buf : Buffer) (offset : UInt64)
    (data : List UInt8) : PooledMemory :=
  { self with
    inner := { self.inner with
      buffers := self.inner.buffers.set id.toNat
        (some { buf with data := copyFromSlice buf.data offset.toNat data }) } }

/-- The pool that a panic leaves: the identifier is counted, and nothing comes of it. -/
def aborted (self : PooledMemory) : PooledMemory :=
  { self with inner := { self.inner with nextId := self.inner.nextId + 1 } }

/-- What an allocation can do. -/
inductive AllocateStep (self : PooledMemory) (size : UInt64) (kind : MemoryKind) : Prop where
  | refused (eq : self.allocate size kind = (self, .returned (.error .poolExhausted)))
  | panicked (inner : (self.inner.allocate size kind).2 = .panicked)
      (eq : self.allocate size kind = (self.aborted, .panicked))
  | added (count : self.bufferCount < self.cfg.maxBuffers)
      (room : self.exhausted size kind = false) (small : size.toNat ≤ isizeMax)
      (slots : self.inner.buffers.length < isizeMax)
      (eq : self.allocate size kind =
        (self.added size kind, .returned (.ok self.inner.nextId)))

variable {self : PooledMemory} (h : Mirrors self)

include h

private theorem Mirrors.sizes_length : self.sizes.length = self.inner.buffers.length := by
  rw [h.sizes, List.length_map]

theorem allocate_step (size : UInt64) (kind : MemoryKind) : AllocateStep self size kind := by
  by_cases hcount : self.bufferCount ≥ self.cfg.maxBuffers
  · exact .refused (if_pos hcount)
  · cases hroom : self.exhausted size kind with
    | true =>
      apply AllocateStep.refused
      rw [allocate, if_neg hcount, if_pos hroom]
    | false =>
      have hallocate : self.allocate size kind = _ :=
        (if_neg hcount).trans (if_neg (by rw [hroom]; decide))
      by_cases hinner : size.toNat > isizeMax ∨ self.inner.buffers.length ≥ isizeMax
      · have hpanicked := SimMemory.allocate_of_no_room hinner kind
        rw [hpanicked] at hallocate
        exact .panicked (congrArg Prod.snd hpanicked) hallocate
      · have hsmall : size.toNat ≤ isizeMax := by omega
        have hslots : self.inner.buffers.length < isizeMax := by omega
        refine .added (UInt64.not_le.mp hcount) hroom hsmall hslots ?_
        rw [SimMemory.allocate_of_room hsmall hslots] at hallocate
        have hfill : self.inner.nextId.toNat + 1 - self.sizes.length = 1 := by
          rw [h.nextId, h.sizes_length]
          omega
        have hsizes : (self.sizes ++ List.replicate 1 none).set self.inner.nextId.toNat
            (some (kind, size)) = self.sizes ++ [some (kind, size)] := by
          rw [h.nextId, ← h.sizes_length, List.set_append_right _ _ (Nat.le_refl _), Nat.sub_self]
          rfl
        rw [hallocate]
        dsimp only
        rw [hfill, hsizes]
        cases kind <;> rfl

/-- An allocation that succeeds found room everywhere. -/
theorem added_of_allocate_ok {size : UInt64} {kind : MemoryKind} {id : BufferId}
    (hok : (self.allocate size kind).2 = .returned (.ok id)) :
    self.bufferCount < self.cfg.maxBuffers ∧ self.exhausted size kind = false ∧
      size.toNat ≤ isizeMax ∧ self.inner.buffers.length < isizeMax ∧
      id = self.inner.nextId ∧ (self.allocate size kind).1 = self.added size kind := by
  cases allocate_step h size kind with
  | refused eq =>
    rw [eq] at hok
    cases hok
  | panicked inner eq =>
    rw [eq] at hok
    cases hok
  | added count room small slots eq =>
    rw [eq] at hok
    cases hok
    exact ⟨count, room, small, slots, rfl, congrArg Prod.fst eq⟩

/-- The pool knows the size of a live buffer. -/
theorem Mirrors.size_of_live {id : BufferId} {buf : Buffer}
    (hlive : self.inner.buffer? id = some buf) :
    self.sizes[id.toNat]? = some (some (sizeEntry buf)) := by
  rw [h.sizes, List.getElem?_map, SimMemory.slot_of_live hlive]
  rfl

private theorem Mirrors.size_of_dead {id : BufferId} (hdead : self.inner.buffer? id = none) :
    self.sizes[id.toNat]?.join = none := by
  rw [h.sizes, List.getElem?_map]
  rw [SimMemory.buffer?] at hdead
  cases hslot : self.inner.buffers[id.toNat]? with
  | none => rfl
  | some slot =>
    rw [hslot] at hdead
    cases hdead
    rfl

theorem free_of_dead {id : BufferId} (hdead : self.inner.buffer? id = none) :
    self.free id = (self, .error (.notFound id)) := by
  rw [free, h.size_of_dead hdead]

theorem free_of_live {id : BufferId} {buf : Buffer} (hlive : self.inner.buffer? id = some buf) :
    self.free id =
      (self.removed id buf.kind (UInt64.ofNat buf.data.length), .ok ()) := by
  rw [free, h.size_of_live hlive]
  simp only [Option.join_some, sizeEntry, SimMemory.free_of_live hlive]
  cases buf.kind <;> rfl

omit h in
theorem write_of_inside {id : BufferId} {buf : Buffer} (hsmall : self.inner.Small)
    (hlive : self.inner.buffer? id = some buf) {offset : UInt64} {data : List UInt8}
    (hin : offset.toNat + data.length ≤ buf.data.length) :
    self.write id offset data = (self.overwritten id buf offset data, .ok ()) := by
  rw [write, SimMemory.write_of_inside hlive (hsmall id buf hlive) hin]
  rfl

/-- The size table follows an allocation. -/
theorem Mirrors.added {size : UInt64} (kind : MemoryKind) (small : size.toNat ≤ isizeMax)
    (slots : self.inner.buffers.length < isizeMax) : Mirrors (self.added size kind) := by
  have hword : self.inner.buffers.length + 1 < 2 ^ 64 := by
    rw [isizeMax] at slots
    omega
  constructor
  · simp only [PooledMemory.added, h.sizes, List.map_append, List.map_singleton, Option.map_some,
      sizeEntry, List.length_replicate, UInt64.ofNat_toNat]
  · simp only [PooledMemory.added, UInt64.toNat_add, UInt64.toNat_one, h.nextId,
      List.length_append, List.length_singleton]
    exact Nat.mod_eq_of_lt hword
  · apply h.small.push
    rw [List.length_replicate]
    exact small

/-- It follows a release. -/
theorem Mirrors.removed {id : BufferId} {buf : Buffer}
    (hlive : self.inner.buffer? id = some buf) (kind : MemoryKind) (size : UInt64) :
    Mirrors (self.removed id kind size) := by
  constructor
  · simp only [PooledMemory.removed, h.sizes, List.map_set, Option.map_none]
  · exact h.nextId.trans List.length_set.symm
  · exact h.small.free hlive

/-- A write keeps sizes as they are. -/
theorem Mirrors.overwritten {id : BufferId} {buf : Buffer}
    (hlive : self.inner.buffer? id = some buf) {offset : UInt64} {data : List UInt8}
    (hin : offset.toNat + data.length ≤ buf.data.length) :
    Mirrors (self.overwritten id buf offset data) := by
  constructor
  · have hentry : sizeEntry { buf with data := copyFromSlice buf.data offset.toNat data } =
        sizeEntry buf := by
      rw [sizeEntry, length_copyFromSlice hin, sizeEntry]
    have hslot : (self.inner.buffers.map (·.map sizeEntry))[id.toNat]? =
        some (some (sizeEntry buf)) := by
      rw [← h.sizes, h.size_of_live hlive]
    simp only [PooledMemory.overwritten, h.sizes, List.map_set, Option.map_some, hentry]
    obtain ⟨hlt, hget⟩ := List.getElem?_eq_some_iff.mp hslot
    rw [← hget, List.set_getElem_self]
  · exact h.nextId.trans List.length_set.symm
  · exact h.small.write hlive hin

/-- What a copy can do. -/
inductive CopyStep (self : PooledMemory) (src : BufferId) (offset len : UInt64)
    (dstKind : MemoryKind) : Prop where
  | failed (e : MemoryError) (known : e ≠ .poolExhausted)
      (read : self.inner.read src offset len = .error e)
      (eq : self.copy src offset len dstKind = (self, .returned (.error e)))
  | refused (eq : self.copy src offset len dstKind = (self, .returned (.error .poolExhausted)))
  | panicked (bytes : List UInt8) (read : self.inner.read src offset len = .ok bytes)
      (inner : (self.inner.allocate len dstKind).2 = .panicked)
      (eq : self.copy src offset len dstKind = (self.aborted, .panicked))
  | copied (bytes : List UInt8) (ns : UInt64) (read : self.inner.read src offset len = .ok bytes)
      (length : bytes.length = len.toNat) (count : self.bufferCount < self.cfg.maxBuffers)
      (room : self.exhausted len dstKind = false) (small : len.toNat ≤ isizeMax)
      (slots : self.inner.buffers.length < isizeMax)
      (eq : self.copy src offset len dstKind =
        ({ (self.added len dstKind).overwritten self.inner.nextId
              ⟨dstKind, List.replicate len.toNat 0⟩ 0 bytes with
            lastCopyNs := some ns
            copyOps := self.copyOps + 1 },
          .returned (.ok (self.inner.nextId, ns))))

/-- The buffer just allocated is live. -/
theorem Mirrors.added_live (size : UInt64) (kind : MemoryKind) :
    (self.added size kind).inner.buffer? self.inner.nextId =
      some ⟨kind, List.replicate size.toNat 0⟩ := by
  simp only [PooledMemory.added, SimMemory.buffer?_push, if_pos h.nextId]

omit h in
/-- A copy fits the buffer allocated for it. -/
theorem copy_fits {bytes : List UInt8} {len : UInt64} (length : bytes.length = len.toNat) :
    (0 : UInt64).toNat + bytes.length ≤ (List.replicate len.toNat (0 : UInt8)).length := by
  rw [List.length_replicate, length, UInt64.toNat_zero]
  omega

theorem copy_step (src : BufferId) (offset len : UInt64) (dstKind : MemoryKind) :
    CopyStep self src offset len dstKind := by
  cases hlive : self.inner.buffer? src with
  | none =>
    apply CopyStep.failed (.notFound src)
    · intro he
      cases he
    · exact SimMemory.read_of_dead hlive offset len
    · simp only [copy, SimMemory.kindOf, hlive]
  | some buf =>
    have hkind : self.inner.kindOf src = .ok buf.kind := by rw [SimMemory.kindOf, hlive]
    by_cases hin : offset.toNat + len.toNat ≤ buf.data.length
    · have hread := SimMemory.read_of_inside hlive (h.small src buf hlive) hin
      generalize hbytes : (buf.data.take (offset.toNat + len.toNat)).drop offset.toNat = bytes
        at hread
      have hlength : bytes.length = len.toNat := by
        rw [← hbytes, List.length_drop, List.length_take]
        omega
      cases allocate_step h len dstKind with
      | refused eq =>
        apply CopyStep.refused
        simp only [copy, hkind, hread, eq]
      | panicked inner eq =>
        apply CopyStep.panicked bytes hread inner
        simp only [copy, hkind, hread, eq]
      | added count room small slots eq =>
        have hwrite := write_of_inside (h.added dstKind small slots).small
          (h.added_live len dstKind) (copy_fits hlength)
        apply CopyStep.copied bytes
          (if buf.kind = .host ∧ dstKind = .gpu then self.copyLatencyNs len true
            else if buf.kind = .gpu ∧ dstKind = .host then self.copyLatencyNs len false
            else self.cfg.fixedCopyLatencyNs) hread hlength count room small slots
        simp only [copy, hkind, hread, eq, hwrite]
        rfl
    · have hread := SimMemory.read_of_outside hlive (Nat.not_le.mp hin)
      apply CopyStep.failed .outOfBounds
      · intro he
        cases he
      · exact hread
      · simp only [copy, hkind, hread]

/-- What a call that returns makes of the pool. -/
inductive ActStep (self : PooledMemory) : PooledMemory → Prop where
  | kept : ActStep self self
  | added (size : UInt64) (kind : MemoryKind) (count : self.bufferCount < self.cfg.maxBuffers)
      (room : self.exhausted size kind = false) (small : size.toNat ≤ isizeMax)
      (slots : self.inner.buffers.length < isizeMax) : ActStep self (self.added size kind)
  | removed {id : BufferId} {buf : Buffer} (live : self.inner.buffer? id = some buf) :
      ActStep self (self.removed id buf.kind (UInt64.ofNat buf.data.length))
  | overwritten {id : BufferId} {buf : Buffer} {offset : UInt64} {data : List UInt8}
      (live : self.inner.buffer? id = some buf)
      (inside : offset.toNat + data.length ≤ buf.data.length) :
      ActStep self (self.overwritten id buf offset data)
  | copied (len : UInt64) (kind : MemoryKind) (bytes : List UInt8) (ns : UInt64)
      (count : self.bufferCount < self.cfg.maxBuffers)
      (room : self.exhausted len kind = false) (small : len.toNat ≤ isizeMax)
      (slots : self.inner.buffers.length < isizeMax)
      (inside : (0 : UInt64).toNat + bytes.length ≤
        (List.replicate len.toNat (0 : UInt8)).length) :
      ActStep self { (self.added len kind).overwritten self.inner.nextId
          ⟨kind, List.replicate len.toNat 0⟩ 0 bytes with
        lastCopyNs := some ns
        copyOps := self.copyOps + 1 }

theorem act_step {op : PoolOp} (hreturns : (self.act op).2.panicked = false) :
    ActStep self (self.act op).1 := by
  cases op with
  | call op =>
    cases op with
    | allocate size kind =>
      change MemoryReply.panicked (.allocated (self.allocate size kind).2) = false at hreturns
      show ActStep self (self.allocate size kind).1
      cases allocate_step h size kind with
      | refused eq =>
        rw [eq]
        exact .kept
      | panicked inner eq =>
        rw [eq] at hreturns
        cases hreturns
      | added count room small slots eq =>
        rw [eq]
        exact .added size kind count room small slots
    | write id offset data =>
      show ActStep self (self.write id offset data).1
      cases hlive : self.inner.buffer? id with
      | none =>
        rw [write, SimMemory.write_of_dead hlive]
        exact .kept
      | some buf =>
        by_cases hin : offset.toNat + data.length ≤ buf.data.length
        · rw [write_of_inside h.small hlive hin]
          exact .overwritten hlive hin
        · rw [write, SimMemory.write_of_outside hlive (Nat.not_le.mp hin)]
          exact .kept
    | read id offset len => exact .kept
    | free id =>
      show ActStep self (self.free id).1
      cases hlive : self.inner.buffer? id with
      | none =>
        rw [free_of_dead h hlive]
        exact .kept
      | some buf =>
        rw [free_of_live h hlive]
        exact .removed hlive
  | copy src offset len dstKind =>
    change PoolReply.panicked (.copied (self.copy src offset len dstKind).2) = false at hreturns
    show ActStep self (self.copy src offset len dstKind).1
    cases copy_step h src offset len dstKind with
    | failed e known read eq =>
      rw [eq]
      exact .kept
    | refused eq =>
      rw [eq]
      exact .kept
    | panicked bytes read inner eq =>
      rw [eq] at hreturns
      cases hreturns
    | copied bytes ns read length count room small slots eq =>
      rw [eq]
      exact .copied len dstKind bytes ns count room small slots (copy_fits length)

/-- Every call that returns keeps the size table in step. -/
theorem Mirrors.act {op : PoolOp} (hreturns : (self.act op).2.panicked = false) :
    Mirrors (self.act op).1 := by
  have hstep := act_step h hreturns
  generalize (self.act op).1 = next at hstep ⊢
  cases hstep with
  | kept => exact h
  | added size kind count room small slots => exact h.added kind small slots
  | removed live => exact h.removed live _ _
  | overwritten live inside => exact h.overwritten live inside
  | copied len kind bytes ns count room small slots inside =>
    have hcopied := (h.added kind small slots).overwritten (h.added_live len kind) inside
    exact ⟨hcopied.sizes, hcopied.nextId, hcopied.small⟩

end PooledMemory

/-- The calls on the wrapped memory, with their results, that a call of the pool stands for. A
call that is refused or not made stands for none, a copy for a read, an allocation and a write. -/
inductive Answers : PoolOp × Option PoolReply → MemoryTrace → Prop where
  | idle {op : PoolOp} : Answers (op, none) []
  | refused {size : UInt64} {kind : MemoryKind} :
      Answers
        (.call (.allocate size kind), some (.call (.allocated (.returned (.error .poolExhausted)))))
        []
  | call {op : MemoryOp} {reply : MemoryReply}
      (accepted : reply ≠ .allocated (.returned (.error .poolExhausted))) :
      Answers (.call op, some (.call reply)) [(op, some reply)]
  | copyRefused {src : BufferId} {offset len : UInt64} {dstKind : MemoryKind} :
      Answers
        (.copy src offset len dstKind, some (.copied (.returned (.error .poolExhausted)))) []
  | copyFailed {src : BufferId} {offset len : UInt64} {dstKind : MemoryKind} {e : MemoryError}
      (accepted : e ≠ .poolExhausted) :
      Answers (.copy src offset len dstKind, some (.copied (.returned (.error e))))
        [(.read src offset len, some (.data (.error e)))]
  | copyPanicked {src : BufferId} {offset len : UInt64} {dstKind : MemoryKind}
      {bytes : List UInt8} :
      Answers (.copy src offset len dstKind, some (.copied .panicked))
        [(.read src offset len, some (.data (.ok bytes))),
          (.allocate len dstKind, some (.allocated .panicked))]
  | copied {src dst : BufferId} {offset len ns : UInt64} {dstKind : MemoryKind}
      {bytes : List UInt8} :
      Answers (.copy src offset len dstKind, some (.copied (.returned (.ok (dst, ns)))))
        [(.read src offset len, some (.data (.ok bytes))),
          (.allocate len dstKind, some (.allocated (.returned (.ok dst)))),
          (.write dst 0 bytes, some (.written (.ok ())))]

/-- The memory gives these results to these calls, and is led to that state by them. -/
def Replays (mem : Process SimMemory) (group : MemoryTrace) (next : Process SimMemory) : Prop :=
  simMemory.trace mem (group.map (·.1)) = group ∧ simMemory.run mem (group.map (·.1)) = next

theorem Replays.append {a b c : Process SimMemory} {group group' : MemoryTrace}
    (h : Replays a group b) (h' : Replays b group' c) : Replays a (group ++ group') c := by
  obtain ⟨htrace, hrun⟩ := h
  obtain ⟨htrace', hrun'⟩ := h'
  constructor
  · rw [List.map_append, simMemory.trace_append, htrace, hrun, htrace']
  · rw [List.map_append, simMemory.run_append, hrun, hrun']

/-- One call with its answer. -/
theorem Replays.of_step {mem next : Process SimMemory} {op : MemoryOp}
    {reply : Option MemoryReply} (h : simMemory.step mem op = (next, reply)) :
    Replays mem [(op, reply)] next := by
  constructor
  · show [(op, (simMemory.step mem op).2)] = [(op, reply)]
    rw [h]
  · show (simMemory.step mem op).1 = next
    rw [h]

/-- A call that returns. -/
theorem Replays.single {mem next : SimMemory} {op : MemoryOp} {reply : MemoryReply}
    (h : mem.act op = (next, reply)) (hreturns : reply.panicked = false) :
    Replays (.start mem) [(op, some reply)] (.start next) := by
  apply Replays.of_step
  have hanswer : (mem.act op).2.panicked = false := by rw [h, hreturns]
  apply (Machine.process_step_of_returns hanswer).trans
  show (Process.start (mem.act op).1, some (mem.act op).2) = _
  rw [h]

/-- A call that does not. -/
theorem Replays.panicked {mem : SimMemory} {op : MemoryOp} {reply : MemoryReply}
    (h : (mem.act op).2 = reply) (hends : reply.panicked = true) :
    Replays (.start mem) [(op, some reply)] ⟨mem, true⟩ := by
  apply Replays.of_step
  have hanswer : (mem.act op).2.panicked = true := by rw [h, hends]
  apply (Machine.process_step_of_ends hanswer).trans
  show (Process.mk mem true, some (mem.act op).2) = _
  rw [h]

namespace PooledMemory

variable {self : PooledMemory} (h : Mirrors self)

include h

omit h in
/-- The read a copy starts with. -/
theorem replays_read {src : BufferId} {offset len : UInt64} {bytes : List UInt8}
    (read : self.inner.read src offset len = .ok bytes) :
    Replays (.start self.inner) [(.read src offset len, some (.data (.ok bytes)))]
      (.start self.inner) :=
  .single (by rw [← read]; rfl) rfl

/-- A call that returns stands for calls on the wrapped memory. -/
private theorem act_sim {op : PoolOp} (hreturns : (self.act op).2.panicked = false) :
    ∃ group, Answers (op, some (self.act op).2) group ∧
      Replays (.start self.inner) group (.start (self.act op).1.inner) := by
  cases op with
  | call op =>
    cases op with
    | allocate size kind =>
      have hact : self.act (.call (.allocate size kind)) =
        ((self.allocate size kind).1, .call (.allocated (self.allocate size kind).2)) := rfl
      cases allocate_step h size kind with
      | refused eq =>
        rw [hact, eq]
        exact ⟨[], .refused, rfl, rfl⟩
      | panicked inner eq =>
        rw [hact, eq] at hreturns
        cases hreturns
      | added count room small slots eq =>
        rw [hact, eq]
        refine ⟨_, .call ?_, .single (congrArg (Prod.map id MemoryReply.allocated)
          (SimMemory.allocate_of_room small slots kind)) rfl⟩
        intro he
        cases he
    | write id offset data =>
      refine ⟨_, .call ?_, .single rfl rfl⟩
      intro he
      cases he
    | read id offset len =>
      refine ⟨_, .call ?_, .single rfl rfl⟩
      intro he
      cases he
    | free buffer =>
      have hact : self.act (.call (.free buffer)) =
        ((self.free buffer).1, .call (.freed (self.free buffer).2)) := rfl
      cases hlive : self.inner.buffer? buffer with
      | none =>
        rw [hact, free_of_dead h hlive]
        refine ⟨_, .call ?_, .single (congrArg (Prod.map id MemoryReply.freed)
          (SimMemory.free_of_dead hlive)) rfl⟩
        intro he
        cases he
      | some buf =>
        rw [hact, free_of_live h hlive]
        refine ⟨_, .call ?_, .single (congrArg (Prod.map id MemoryReply.freed)
          (SimMemory.free_of_live hlive)) rfl⟩
        intro he
        cases he
  | copy src offset len dstKind =>
    have hact : self.act (.copy src offset len dstKind) =
      ((self.copy src offset len dstKind).1, .copied (self.copy src offset len dstKind).2) := rfl
    cases copy_step h src offset len dstKind with
    | failed e known read eq =>
      rw [hact, eq]
      exact ⟨_, .copyFailed known, .single (by rw [← read]; rfl) rfl⟩
    | refused eq =>
      rw [hact, eq]
      exact ⟨[], .copyRefused, rfl, rfl⟩
    | panicked bytes read inner eq =>
      rw [hact, eq] at hreturns
      cases hreturns
    | copied bytes ns read length count room small slots eq =>
      have hmirrors := h.added dstKind small slots
      have hlive := h.added_live len dstKind
      have hallocate : Replays (.start self.inner)
          [(.allocate len dstKind, some (.allocated (.returned (.ok self.inner.nextId))))]
          (.start (self.added len dstKind).inner) :=
        .single (congrArg (Prod.map id MemoryReply.allocated)
          (SimMemory.allocate_of_room small slots dstKind)) rfl
      have hwrite : Replays (.start (self.added len dstKind).inner)
          [(.write self.inner.nextId 0 bytes, some (.written (.ok ())))]
          (.start ((self.added len dstKind).overwritten self.inner.nextId
            ⟨dstKind, List.replicate len.toNat 0⟩ 0 bytes).inner) :=
        .single (congrArg (Prod.map id MemoryReply.written)
          (SimMemory.write_of_inside hlive (hmirrors.small _ _ hlive) (copy_fits length))) rfl
      rw [hact, eq]
      exact ⟨_, .copied, (replays_read read).append (hallocate.append hwrite)⟩

/-- So does one that panics: it ends the wrapped memory's process too. -/
private theorem panic_sim {op : PoolOp} (hends : (self.act op).2.panicked = true) :
    ∃ group, Answers (op, some (self.act op).2) group ∧
      Replays (.start self.inner) group ⟨self.inner, true⟩ := by
  cases op with
  | call op =>
    cases op with
    | allocate size kind =>
      have hact : self.act (.call (.allocate size kind)) =
        ((self.allocate size kind).1, .call (.allocated (self.allocate size kind).2)) := rfl
      rw [hact] at hends ⊢
      cases allocate_step h size kind with
      | refused eq =>
        rw [eq] at hends
        cases hends
      | panicked inner eq =>
        rw [eq]
        refine ⟨_, .call ?_, .panicked (congrArg MemoryReply.allocated inner) rfl⟩
        intro he
        cases he
      | added count room small slots eq =>
        rw [eq] at hends
        cases hends
    | write id offset data => cases hends
    | read id offset len => cases hends
    | free buffer => cases hends
  | copy src offset len dstKind =>
    have hact : self.act (.copy src offset len dstKind) =
      ((self.copy src offset len dstKind).1, .copied (self.copy src offset len dstKind).2) := rfl
    rw [hact] at hends ⊢
    cases copy_step h src offset len dstKind with
    | failed e known read eq =>
      rw [eq] at hends
      cases hends
    | refused eq =>
      rw [eq] at hends
      cases hends
    | panicked bytes read inner eq =>
      rw [eq]
      exact ⟨_, .copyPanicked, (replays_read read).append
        (.panicked (congrArg MemoryReply.allocated inner) rfl)⟩
    | copied bytes ns read length count room small slots eq =>
      rw [eq] at hends
      cases hends

omit h in
/-- A run of the pool is a run of the wrapped memory. -/
private theorem run_sim (p : Process PooledMemory) (h : Mirrors p.state) (ops : List PoolOp) :
    ∃ groups,
    List.Forall₂ Answers (pooledMemory.trace p ops) groups ∧
      Replays (p.map (·.inner)) groups.flatten ((pooledMemory.run p ops).map (·.inner)) ∧
      Mirrors (pooledMemory.run p ops).state := by
  induction ops generalizing p with
  | nil => exact ⟨[], .nil, ⟨rfl, rfl⟩, h⟩
  | cons op ops ih =>
    rw [pooledMemory.trace_cons, pooledMemory.run_cons]
    cases Machine.process_step ⟨act⟩ PoolReply.panicked p op with
    | idle ended eq =>
      change pooledMemory.step p op = _ at eq
      obtain ⟨groups, hrest, hreplayed, hfinal⟩ := ih p h
      rw [eq]
      exact ⟨[] :: groups, .cons .idle hrest, hreplayed, hfinal⟩
    | ends running now eq =>
      change pooledMemory.step p op = _ at eq
      obtain ⟨group, hanswers, hreplays⟩ := panic_sim h now
      obtain ⟨groups, hrest, hreplayed, hfinal⟩ := ih ⟨p.state, true⟩ h
      rw [eq, running]
      exact ⟨group :: groups, .cons hanswers hrest, hreplays.append hreplayed, hfinal⟩
    | returns running now eq =>
      change pooledMemory.step p op = _ at eq
      obtain ⟨group, hanswers, hreplays⟩ := act_sim h now
      obtain ⟨groups, hrest, hreplayed, hfinal⟩ := ih (.start (p.state.act op).1) (h.act now)
      rw [eq, running]
      exact ⟨group :: groups, .cons hanswers hrest, hreplays.append hreplayed, hfinal⟩

omit h in
theorem Mirrors.new (cfg : MemoryPoolConfig) : Mirrors (.new cfg) where
  sizes := rfl
  nextId := rfl
  small := by
    intro id buf hbuf
    cases hbuf

/-- The pool answers as the history of the wrapped memory prescribes. -/
theorem serves {t : MemoryTrace} (hheap : IsHeap t self.inner) :
    Serves PooledMemory.backend self t where
  read_inside := hheap.serves.read_inside
  read_outside := hheap.serves.read_outside
  write_inside := hheap.serves.write_inside
  write_outside := by
    intro id offset data hout
    have hwrite := hheap.serves.write_outside id offset data hout
    have hpool : self.write id offset data =
      ({ self with inner := (self.inner.write id offset data).1 },
        (self.inner.write id offset data).2) := rfl
    apply hpool.trans
    rw [show self.inner.write id offset data = _ from hwrite]
  free_live := by
    intro id hlive
    obtain ⟨l, hl⟩ := Option.isSome_iff_exists.mp hlive
    obtain ⟨buf, hbuf, -⟩ := hheap.buffer_of_live hl
    exact congrArg Prod.snd (free_of_live h hbuf)
  free_dead := by
    intro id hdead
    exact free_of_dead h (hheap.dead_iff.mpr hdead)

omit h in
/-- A copy from outside a live buffer fails and changes nothing. -/
private theorem copy_outside {t : MemoryTrace} (hheap : IsHeap t self.inner) {src : BufferId}
    {offset len : UInt64} (hout : ¬ InRange t src offset len.toNat) (dstKind : MemoryKind) :
    self.copy src offset len dstKind = (self, .returned (.error (accessError t src))) := by
  rcases hheap.outside hout with ⟨hdead, herror⟩ | ⟨buf, hbuf, hshort, herror⟩
  · simp only [copy, SimMemory.kindOf, hdead, herror]
  · have hread := SimMemory.read_of_outside hbuf hshort
    simp only [copy, SimMemory.kindOf, hbuf, hread, herror]

end PooledMemory

/-- For every sequence of calls on the simulated memory, and for every pool configuration and every
sequence of calls and copies on the pool: no identifier is handed out twice, and what is read,
written and freed next is answered as the history prescribes. The history of the pool is that of the
memory it wraps, on the calls that were not refused and with the same results. A panic ends a run;
the state is then that after the last call that returned. -/
theorem memory_is_heap :
    (∀ ops : List MemoryOp,
      let t := simMemory.trace (.start .new) ops
      (handedOut t).Nodup ∧
        Serves SimMemory.backend (simMemory.run (.start .new) ops).state t) ∧
    ∀ (cfg : MemoryPoolConfig) (ops : List PoolOp),
      let p := pooledMemory.run (.start (.new cfg)) ops
      let mem := p.state
      ∃ groups : List MemoryTrace,
        List.Forall₂ Answers (pooledMemory.trace (.start (.new cfg)) ops) groups ∧
        Replays (.start .new) groups.flatten (p.map (·.inner)) ∧
        (handedOut groups.flatten).Nodup ∧
        Serves PooledMemory.backend mem groups.flatten ∧
        ∀ src offset len dstKind, ¬ InRange groups.flatten src offset len.toNat →
          mem.copy src offset len dstKind =
            (mem, .returned (.error (accessError groups.flatten src))) := by
  constructor
  · intro ops t
    have hheap := isHeap_run ops
    exact ⟨hheap.ids_nodup, hheap.serves⟩
  · intro cfg ops p mem
    obtain ⟨groups, hanswers, hreplays, hmirrors⟩ :=
      PooledMemory.run_sim (.start (.new cfg)) (PooledMemory.Mirrors.new cfg) ops
    have hreplayed : Replays (.start .new) groups.flatten (p.map (·.inner)) := hreplays
    have hheap := isHeap_run (groups.flatten.map (·.1))
    rw [hreplayed.1, hreplayed.2] at hheap
    refine ⟨groups, hanswers, hreplayed, hheap.ids_nodup, PooledMemory.serves hmirrors hheap, ?_⟩
    intro src offset len dstKind hout
    exact PooledMemory.copy_outside hheap hout dstKind

end AetherRadio
