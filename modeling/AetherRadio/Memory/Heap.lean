import AetherRadio.Lib.Extent
import AetherRadio.Memory.Sim
import Mathlib.Data.List.Nodup

/-!
# Simulated memory as a heap of disjoint buffers

What a buffer holds is read off the history of calls: who is alive is told by the last allocation or
release of an identifier, and a byte is the last one written there.
-/

namespace AetherRadio

open Verif

/-- A history of calls with their results. -/
abbrev MemoryTrace := List (MemoryOp × Option MemoryReply)

/-- An allocation gives an identifier its size and kind, a release takes them away. -/
def lifeEvent : MemoryOp × Option MemoryReply → BufferId → Option (Option (UInt64 × MemoryKind))
  | (.allocate size kind, some (.allocated (.returned (.ok id)))), buffer =>
    if id = buffer then some (some (size, kind)) else none
  | (.free id, some (.freed (.ok ()))), buffer => if id = buffer then some none else none
  | _, _ => none

/-- The byte a write puts at an offset of a buffer. -/
def writtenByte : MemoryOp × Option MemoryReply → BufferId × Nat → Option UInt8
  | (.write id offset data, some (.written (.ok ()))), place =>
    if id = place.1 ∧ offset.toNat ≤ place.2 then data[place.2 - offset.toNat]? else none
  | _, _ => none

/-- Size and kind of a live identifier. -/
def liveOf (t : MemoryTrace) (id : BufferId) : Option (UInt64 × MemoryKind) :=
  (lastOf lifeEvent t id).join

/-- The last byte written at an offset of an identifier, zero if there is none. -/
def byteAt (t : MemoryTrace) (id : BufferId) (i : Nat) : UInt8 :=
  (lastOf writtenByte t (id, i)).getD 0

/-- The identifiers handed out, in order. -/
def handedOut (t : MemoryTrace) : List BufferId :=
  t.filterMap fun
    | (.allocate _ _, some (.allocated (.returned (.ok id)))) => some id
    | _ => none

/-- An entry that hands out nothing. -/
theorem handedOut_concat {t : MemoryTrace} {entry : MemoryOp × Option MemoryReply}
    (h : handedOut [entry] = []) : handedOut (t ++ [entry]) = handedOut t := by
  rw [handedOut, List.filterMap_append, ← handedOut, ← handedOut, h, List.append_nil]

theorem length_copyFromSlice {data bytes : List UInt8} {offset : Nat}
    (h : offset + bytes.length ≤ data.length) :
    (copyFromSlice data offset bytes).length = data.length :=
  Extent.length_write h

/-- The copied bytes are in place and the others are as they were. -/
private theorem getElem?_copyFromSlice {data bytes : List UInt8} {offset : Nat}
    (h : offset + bytes.length ≤ data.length) (i : Nat) :
    (copyFromSlice data offset bytes)[i]? =
      (if offset ≤ i then bytes[i - offset]? else none).or data[i]? :=
  Extent.getElem?_write h i

namespace SimMemory

/-- What a call that returns can do. -/
inductive SimStep (self : SimMemory) (op : MemoryOp) : Prop where
  | idle (next : (self.act op).1 = self)
      (life : lifeEvent (op, some (self.act op).2) = fun _ ↦ none)
      (written : writtenByte (op, some (self.act op).2) = fun _ ↦ none)
      (ids : handedOut [(op, some (self.act op).2)] = [])
  | allocated (size : UInt64) (kind : MemoryKind) (isAllocate : op = .allocate size kind)
      (small : size.toNat ≤ isizeMax) (room : self.buffers.length < isizeMax)
      (eq : self.act op =
        ({ nextId := self.nextId + 1,
           buffers := self.buffers ++ [some { kind, data := List.replicate size.toNat 0 }] },
          .allocated (.returned (.ok self.nextId))))
  | written (id : BufferId) (offset : UInt64) (data : List UInt8) (buf : Buffer)
      (isWrite : op = .write id offset data) (live : self.buffer? id = some buf)
      (fits : offset.toNat + data.length ≤ buf.data.length)
      (eq : self.act op =
        ({ self with
            buffers := self.buffers.set id.toNat
              (some { buf with data := copyFromSlice buf.data offset.toNat data }) },
          .written (.ok ())))
  | freed (id : BufferId) (buf : Buffer) (isFree : op = .free id)
      (live : self.buffer? id = some buf)
      (eq : self.act op =
        ({ self with buffers := self.buffers.set id.toNat none }, .freed (.ok ())))

/-- Every live buffer is as short as a vector must be. -/
def Small (self : SimMemory) : Prop :=
  ∀ id buf, self.buffer? id = some buf → buf.data.length ≤ isizeMax

theorem act_step {self : SimMemory} (hsmall : self.Small) {op : MemoryOp}
    (hreturns : (self.act op).2.panicked = false) : SimStep self op := by
  cases op with
  | allocate size kind =>
    by_cases hroom : size.toNat > isizeMax ∨ self.buffers.length ≥ isizeMax
    · have hact : self.act (.allocate size kind) = _ :=
        congrArg (Prod.map id MemoryReply.allocated) (allocate_of_no_room hroom kind)
      rw [hact] at hreturns
      cases hreturns
    · have hsize : size.toNat ≤ isizeMax := by omega
      have hfree : self.buffers.length < isizeMax := by omega
      exact .allocated size kind rfl hsize hfree
        (congrArg (Prod.map id MemoryReply.allocated) (allocate_of_room hsize hfree kind))
  | write buffer offset data =>
    cases hlive : self.buffer? buffer with
    | none =>
      have hact : self.act (.write buffer offset data) =
          (self, .written (.error (.notFound buffer))) :=
        congrArg (Prod.map id MemoryReply.written) (write_of_dead hlive offset data)
      apply SimStep.idle <;> rw [hact] <;> rfl
    | some buf =>
      by_cases hin : offset.toNat + data.length ≤ buf.data.length
      · exact .written buffer offset data buf rfl hlive hin
          (congrArg (Prod.map id MemoryReply.written)
            (write_of_inside hlive (hsmall buffer buf hlive) hin))
      · have hact : self.act (.write buffer offset data) =
            (self, .written (.error .outOfBounds)) :=
          congrArg (Prod.map id MemoryReply.written) (write_of_outside hlive (Nat.not_le.mp hin))
        apply SimStep.idle <;> rw [hact] <;> rfl
  | read buffer offset len => apply SimStep.idle <;> rfl
  | free buffer =>
    cases hlive : self.buffer? buffer with
    | none =>
      have hact : self.act (.free buffer) = (self, .freed (.error (.notFound buffer))) :=
        congrArg (Prod.map id MemoryReply.freed) (free_of_dead hlive)
      apply SimStep.idle <;> rw [hact] <;> rfl
    | some buf =>
      exact .freed buffer buf rfl hlive
        (congrArg (Prod.map id MemoryReply.freed) (free_of_live hlive))

/-- The buffers after one more is allocated. -/
theorem buffer?_push (self : SimMemory) (nextId : BufferId) (buf : Buffer) (id : BufferId) :
    SimMemory.buffer? { nextId, buffers := self.buffers ++ [some buf] } id =
      if id.toNat = self.buffers.length then some buf else self.buffer? id := by
  rw [buffer?, buffer?]
  by_cases hid : id.toNat = self.buffers.length
  · rw [if_pos hid, hid, List.getElem?_concat_length]
    rfl
  · rw [if_neg hid]
    by_cases hlt : id.toNat < self.buffers.length
    · rw [List.getElem?_append_left hlt]
    · have hout : (self.buffers ++ [some buf]).length ≤ id.toNat := by
        rw [List.length_append, List.length_singleton]
        omega
      rw [List.getElem?_eq_none hout, List.getElem?_eq_none (by omega)]

/-- The buffers after one of them is put back or given up. -/
theorem buffer?_set {self : SimMemory} {id : BufferId} {buf : Buffer}
    (h : self.buffer? id = some buf) (slot : Option Buffer) (j : BufferId) :
    SimMemory.buffer? { self with buffers := self.buffers.set id.toNat slot } j =
      if id = j then slot else self.buffer? j := by
  have hlt : id.toNat < self.buffers.length :=
    (List.getElem?_eq_some_iff.mp (slot_of_live h)).1
  rw [buffer?, buffer?]
  by_cases hj : id = j
  · rw [if_pos hj, ← hj, List.getElem?_set_self hlt]
    rfl
  · have hne : id.toNat ≠ j.toNat := fun he ↦ hj (UInt64.toNat_inj.mp he)
    rw [if_neg hj, List.getElem?_set_ne hne]

/-- A short buffer added to short buffers. -/
theorem Small.push {self : SimMemory} (h : self.Small) (nextId : BufferId) {buf : Buffer}
    (hbuf : buf.data.length ≤ isizeMax) :
    Small { nextId, buffers := self.buffers ++ [some buf] } := by
  intro id buf' hlive
  rw [buffer?_push] at hlive
  by_cases hid : id.toNat = self.buffers.length
  · rw [if_pos hid] at hlive
    cases hlive
    exact hbuf
  · rw [if_neg hid] at hlive
    exact h id buf' hlive

/-- A live buffer given up, or replaced by a short one. -/
theorem Small.set {self : SimMemory} (h : self.Small) {id : BufferId} {buf : Buffer}
    (live : self.buffer? id = some buf) {slot : Option Buffer}
    (hslot : ∀ buf', slot = some buf' → buf'.data.length ≤ isizeMax) :
    Small { self with buffers := self.buffers.set id.toNat slot } := by
  intro j buf' hlive
  rw [buffer?_set live] at hlive
  by_cases hj : id = j
  · rw [if_pos hj] at hlive
    exact hslot buf' hlive
  · rw [if_neg hj] at hlive
    exact h j buf' hlive

/-- A write keeps the lengths. -/
theorem Small.write {self : SimMemory} (h : self.Small) {id : BufferId} {buf : Buffer}
    (live : self.buffer? id = some buf) {offset : Nat} {bytes : List UInt8}
    (fits : offset + bytes.length ≤ buf.data.length) :
    Small { self with
      buffers := self.buffers.set id.toNat
        (some { buf with data := copyFromSlice buf.data offset bytes }) } := by
  apply h.set live
  intro buf' hbuf'
  cases hbuf'
  rw [length_copyFromSlice fits]
  exact h id buf live

/-- A release leaves the other buffers. -/
theorem Small.free {self : SimMemory} (h : self.Small) {id : BufferId} {buf : Buffer}
    (live : self.buffer? id = some buf) :
    Small { self with buffers := self.buffers.set id.toNat none } := by
  apply h.set live
  intro buf' hbuf'
  cases hbuf'

end SimMemory

/-- The memory after a history: identifiers are counted up, a live buffer has the size and the kind
it was allocated with and the bytes last written, and nothing is written to an identifier before it
is handed out. -/
structure IsHeap (t : MemoryTrace) (mem : SimMemory) : Prop where
  nextId : mem.nextId.toNat = mem.buffers.length
  room : mem.buffers.length ≤ isizeMax
  ids : handedOut t = (List.range mem.buffers.length).map UInt64.ofNat
  live : ∀ id, (mem.buffer? id).map (fun buf ↦ (buf.data.length, buf.kind)) =
    (liveOf t id).map fun l ↦ (l.1.toNat, l.2)
  small : mem.Small
  bytes : ∀ id buf, mem.buffer? id = some buf →
    ∀ i < buf.data.length, buf.data[i]? = some (byteAt t id i)
  fresh : ∀ id, mem.buffers.length ≤ id.toNat → ∀ i, lastOf writtenByte t (id, i) = none

namespace IsHeap

theorem new : IsHeap [] .new where
  nextId := rfl
  room := Nat.zero_le _
  ids := rfl
  live _ := rfl
  small := by
    intro id buf h
    cases h
  bytes := by
    intro id buf h
    cases h
  fresh _ _ _ := rfl

variable {t : MemoryTrace} {mem : SimMemory} (h : IsHeap t mem)

include h

/-- A call that does nothing. -/
theorem idle {entry : MemoryOp × Option MemoryReply} (life : lifeEvent entry = fun _ ↦ none)
    (written : writtenByte entry = fun _ ↦ none) (ids : handedOut [entry] = []) :
    IsHeap (t ++ [entry]) mem := by
  have hlife : ∀ id, liveOf (t ++ [entry]) id = liveOf t id := by
    intro id
    rw [liveOf, lastOf_skip (congrFun life id), liveOf]
  have hwritten : ∀ place, lastOf writtenByte (t ++ [entry]) place =
      lastOf writtenByte t place := fun place ↦ lastOf_skip (congrFun written place)
  constructor
  · exact h.nextId
  · exact h.room
  · rw [handedOut_concat ids, h.ids]
  · intro id
    rw [hlife, h.live]
  · exact h.small
  · intro id buf hbuf i hi
    rw [byteAt, hwritten, ← byteAt]
    exact h.bytes id buf hbuf i hi
  · intro id hid i
    rw [hwritten]
    exact h.fresh id hid i

/-- An allocation hands out an identifier never seen before, with a buffer of zeros. -/
theorem allocated {size : UInt64} (kind : MemoryKind) (small : size.toNat ≤ isizeMax)
    (room : mem.buffers.length < isizeMax) :
    IsHeap (t ++ [(.allocate size kind, some (.allocated (.returned (.ok mem.nextId))))])
      { nextId := mem.nextId + 1,
        buffers := mem.buffers ++ [some { kind, data := List.replicate size.toNat 0 }] } := by
  have hnext := h.nextId
  have hword : mem.buffers.length + 1 < 2 ^ 64 := by
    rw [isizeMax] at room
    omega
  have hfresh : ∀ id : BufferId, id.toNat = mem.buffers.length ↔ mem.nextId = id := by
    intro id
    rw [← hnext, UInt64.toNat_inj]
    exact eq_comm
  have hwritten : ∀ place, lastOf writtenByte
      (t ++ [(.allocate size kind, some (.allocated (.returned (.ok mem.nextId))))]) place =
        lastOf writtenByte t place := fun place ↦ lastOf_skip rfl
  have hlength : (mem.buffers ++ [some
      ({ kind, data := List.replicate size.toNat 0 } : Buffer)]).length =
        mem.buffers.length + 1 := by
    rw [List.length_append, List.length_singleton]
  constructor
  · dsimp only
    rw [hlength, UInt64.toNat_add, hnext, UInt64.toNat_one, Nat.mod_eq_of_lt hword]
  · dsimp only
    omega
  · dsimp only
    rw [hlength, List.range_succ, List.map_append, ← h.ids, List.map_singleton, ← hnext,
      UInt64.ofNat_toNat, handedOut, List.filterMap_append]
    rfl
  · intro id
    have hlife : liveOf
        (t ++ [(.allocate size kind, some (.allocated (.returned (.ok mem.nextId))))]) id =
          if mem.nextId = id then some (size, kind) else liveOf t id := by
      rw [liveOf, lastOf_concat]
      by_cases hid : mem.nextId = id
      · simp only [lifeEvent, if_pos hid, Option.some_or, Option.join_some]
      · simp only [lifeEvent, if_neg hid, Option.none_or, liveOf]
    rw [SimMemory.buffer?_push, hlife]
    by_cases hid : mem.nextId = id
    · rw [if_pos ((hfresh id).mpr hid), if_pos hid]
      simp only [Option.map_some, List.length_replicate]
    · rw [if_neg (mt (hfresh id).mp hid), if_neg hid, h.live]
  · apply h.small.push
    rw [List.length_replicate]
    exact small
  · intro id buf hbuf i hi
    rw [byteAt, hwritten, ← byteAt]
    rw [SimMemory.buffer?_push] at hbuf
    by_cases hid : id.toNat = mem.buffers.length
    · rw [if_pos hid] at hbuf
      cases hbuf
      rw [List.length_replicate] at hi
      rw [byteAt, h.fresh id (Nat.le_of_eq hid.symm), List.getElem?_replicate_of_lt hi]
      rfl
    · rw [if_neg hid] at hbuf
      exact h.bytes id buf hbuf i hi
  · intro id hid i
    rw [hwritten]
    dsimp only at hid
    exact h.fresh id (by omega) i

/-- A write changes the bytes it covers, of its own buffer. -/
theorem written {id : BufferId} {offset : UInt64} {data : List UInt8} {buf : Buffer}
    (live : mem.buffer? id = some buf) (fits : offset.toNat + data.length ≤ buf.data.length) :
    IsHeap (t ++ [(.write id offset data, some (.written (.ok ())))])
      { mem with
        buffers := mem.buffers.set id.toNat
          (some { buf with data := copyFromSlice buf.data offset.toNat data }) } := by
  have hlt : id.toNat < mem.buffers.length :=
    (List.getElem?_eq_some_iff.mp (SimMemory.slot_of_live live)).1
  have hlife : ∀ j,
      liveOf (t ++ [(.write id offset data, some (.written (.ok ())))]) j = liveOf t j := by
    intro j
    rw [liveOf, lastOf_skip rfl, liveOf]
  constructor
  · exact h.nextId.trans List.length_set.symm
  · exact Nat.le_trans (Nat.le_of_eq List.length_set) h.room
  · dsimp only
    rw [List.length_set, handedOut_concat rfl, h.ids]
  · intro j
    rw [SimMemory.buffer?_set live, hlife, ← h.live]
    by_cases hj : id = j
    · rw [if_pos hj, ← hj, live]
      simp only [Option.map_some, length_copyFromSlice fits]
    · rw [if_neg hj]
  · exact h.small.write live fits
  · intro j buf' hbuf' i hi
    rw [SimMemory.buffer?_set live] at hbuf'
    rw [byteAt, lastOf_concat]
    by_cases hj : id = j
    · rw [if_pos hj] at hbuf'
      cases hbuf'
      rw [length_copyFromSlice fits] at hi
      rw [getElem?_copyFromSlice fits, h.bytes id buf live i hi, Option.or_some, Option.getD_or]
      simp only [writtenByte, hj, true_and, byteAt]
    · rw [if_neg hj] at hbuf'
      simp only [writtenByte, hj, false_and, if_false, Option.none_or]
      exact h.bytes j buf' hbuf' i hi
  · intro j hj i
    dsimp only at hj
    rw [List.length_set] at hj
    have hne : id ≠ j := by
      intro he
      rw [he] at hlt
      omega
    rw [lastOf_concat]
    simp only [writtenByte, hne, false_and, if_false, Option.none_or]
    exact h.fresh j hj i

/-- A release ends the life of its own identifier. -/
theorem freed {id : BufferId} {buf : Buffer} (live : mem.buffer? id = some buf) :
    IsHeap (t ++ [(.free id, some (.freed (.ok ())))])
      { mem with buffers := mem.buffers.set id.toNat none } := by
  have hwritten : ∀ place, lastOf writtenByte (t ++ [(.free id, some (.freed (.ok ())))]) place =
      lastOf writtenByte t place := fun place ↦ lastOf_skip rfl
  constructor
  · exact h.nextId.trans List.length_set.symm
  · exact Nat.le_trans (Nat.le_of_eq List.length_set) h.room
  · dsimp only
    rw [List.length_set, handedOut_concat rfl, h.ids]
  · intro j
    rw [SimMemory.buffer?_set live, liveOf, lastOf_concat]
    by_cases hj : id = j
    · simp only [lifeEvent, if_pos hj, Option.some_or, Option.join_some, Option.map_none]
    · simp only [lifeEvent, if_neg hj, Option.none_or]
      rw [h.live, liveOf]
  · exact h.small.free live
  · intro j buf' hbuf' i hi
    rw [SimMemory.buffer?_set live] at hbuf'
    rw [byteAt, hwritten, ← byteAt]
    by_cases hj : id = j
    · rw [if_pos hj] at hbuf'
      cases hbuf'
    · rw [if_neg hj] at hbuf'
      exact h.bytes j buf' hbuf' i hi
  · intro j hj i
    dsimp only at hj
    rw [List.length_set] at hj
    rw [hwritten]
    exact h.fresh j hj i

/-- Every call that returns keeps the heap. -/
theorem act {op : MemoryOp} (hreturns : (mem.act op).2.panicked = false) :
    IsHeap (t ++ [(op, some (mem.act op).2)]) (mem.act op).1 := by
  cases SimMemory.act_step h.small hreturns with
  | idle next life written ids =>
    rw [next]
    exact h.idle life written ids
  | allocated size kind isAllocate small room eq =>
    subst isAllocate
    rw [eq]
    exact h.allocated kind small room
  | written id offset data buf isWrite live fits eq =>
    subst isWrite
    rw [eq]
    exact h.written live fits
  | freed id buf isFree live eq =>
    subst isFree
    rw [eq]
    exact h.freed live

end IsHeap

/-- Nothing comes of a call that does not return, or is not made. -/
private theorem IsHeap.unreturned {t : MemoryTrace} {mem : SimMemory} (h : IsHeap t mem)
    (op : MemoryOp)
    {reply : Option MemoryReply} (hends : ∀ r, reply = some r → r.panicked = true) :
    IsHeap (t ++ [(op, reply)]) mem := by
  have hreply : reply = none ∨ reply = some (.allocated .panicked) := by
    rcases reply with _ | ⟨_ | _⟩ | _ | _ | _
    · exact .inl rfl
    · cases hends _ rfl
    · exact .inr rfl
    · cases hends _ rfl
    · cases hends _ rfl
    · cases hends _ rfl
  rcases hreply with rfl | rfl <;> apply h.idle <;> cases op <;> rfl

/-- Every run builds a heap. -/
theorem isHeap_run (ops : List MemoryOp) :
    IsHeap (simMemory.trace (.start .new) ops) (simMemory.run (.start .new) ops).state :=
  Machine.process_invariant (G := fun _ _ ↦ True) (P := IsHeap) .new
    (fun _ _ op _ h hends ↦ h.unreturned op hends) (fun _ _ _ h _ hreturns ↦ h.act hreturns)
    (Machine.permits_true _ _ _)

/-- An access within a live buffer. -/
def InRange (t : MemoryTrace) (id : BufferId) (offset : UInt64) (len : Nat) : Prop :=
  ∃ size kind, liveOf t id = some (size, kind) ∧ offset.toNat + len ≤ size.toNat

/-- The error of an access that is not. -/
def accessError (t : MemoryTrace) (id : BufferId) : MemoryError :=
  if (liveOf t id).isNone then .notFound id else .outOfBounds

/-- The answers of a backend in a state are those the history prescribes: a read returns the bytes
last written, and an access that is out of range or to a dead identifier fails and changes nothing.
-/
structure Serves {σ : Type} (backend : MemoryBackend σ) (mem : σ) (t : MemoryTrace) : Prop where
  read_inside : ∀ id offset len, InRange t id offset len.toNat →
    backend.read mem id offset len =
      .ok ((List.range len.toNat).map fun i ↦ byteAt t id (offset.toNat + i))
  read_outside : ∀ id offset len, ¬ InRange t id offset len.toNat →
    backend.read mem id offset len = .error (accessError t id)
  write_inside : ∀ id offset data, InRange t id offset data.length →
    (backend.write mem id offset data).2 = .ok ()
  write_outside : ∀ id offset data, ¬ InRange t id offset data.length →
    backend.write mem id offset data = (mem, .error (accessError t id))
  free_live : ∀ id, (liveOf t id).isSome → (backend.free mem id).2 = .ok ()
  free_dead : ∀ id, liveOf t id = none → backend.free mem id = (mem, .error (.notFound id))

namespace IsHeap

variable {t : MemoryTrace} {mem : SimMemory} (h : IsHeap t mem)

include h

/-- No identifier is handed out twice. -/
theorem ids_nodup : (handedOut t).Nodup := by
  rw [h.ids]
  apply List.Nodup.map_on ?_ List.nodup_range
  intro a ha b hb hab
  have hroom := h.room
  rw [isizeMax] at hroom
  rw [List.mem_range] at ha hb
  have hnat := congrArg UInt64.toNat hab
  rw [UInt64.toNat_ofNat', UInt64.toNat_ofNat'] at hnat
  omega

/-- The buffer of a live identifier. -/
theorem buffer_of_live {id : BufferId} {size : UInt64} {kind : MemoryKind}
    (hlive : liveOf t id = some (size, kind)) :
    ∃ buf, mem.buffer? id = some buf ∧ buf.data.length = size.toNat := by
  have hmap := h.live id
  rw [hlive] at hmap
  obtain ⟨buf, hbuf, hsize⟩ := Option.map_eq_some_iff.mp hmap
  exact ⟨buf, hbuf, congrArg Prod.fst hsize⟩

theorem dead_iff {id : BufferId} : mem.buffer? id = none ↔ liveOf t id = none := by
  have hmap := h.live id
  rw [← Option.map_eq_none_iff (f := fun buf : Buffer ↦ (buf.data.length, buf.kind)), hmap,
    Option.map_eq_none_iff]

theorem inside {id : BufferId} {offset : UInt64} {len : Nat} (hin : InRange t id offset len) :
    ∃ buf, mem.buffer? id = some buf ∧ offset.toNat + len ≤ buf.data.length := by
  obtain ⟨size, kind, hlive, hfits⟩ := hin
  obtain ⟨buf, hbuf, hlength⟩ := h.buffer_of_live hlive
  exact ⟨buf, hbuf, hlength ▸ hfits⟩

theorem outside {id : BufferId} {offset : UInt64} {len : Nat} (hout : ¬ InRange t id offset len) :
    (mem.buffer? id = none ∧ accessError t id = .notFound id) ∨
      ∃ buf, mem.buffer? id = some buf ∧ buf.data.length < offset.toNat + len ∧
        accessError t id = .outOfBounds := by
  cases hlive : liveOf t id with
  | none => exact .inl ⟨h.dead_iff.mpr hlive, by rw [accessError, hlive]; rfl⟩
  | some l =>
    obtain ⟨buf, hbuf, hlength⟩ := h.buffer_of_live hlive
    refine .inr ⟨buf, hbuf, ?_, by rw [accessError, hlive]; rfl⟩
    rw [hlength]
    by_contra hfits
    exact hout ⟨l.1, l.2, hlive, Nat.not_lt.mp hfits⟩

/-- The memory answers as its history prescribes. -/
theorem serves : Serves SimMemory.backend mem t where
  read_inside := by
    intro id offset len hin
    obtain ⟨buf, hbuf, hfits⟩ := h.inside hin
    apply (SimMemory.read_of_inside hbuf (h.small id buf hbuf) hfits).trans
    congr 1
    apply List.ext_getElem?
    intro i
    rw [List.getElem?_drop, List.getElem?_map]
    by_cases hi : i < len.toNat
    · rw [List.getElem?_take_of_lt (by omega), List.getElem?_range hi,
        h.bytes id buf hbuf (offset.toNat + i) (by omega)]
      rfl
    · have hshort : (buf.data.take (offset.toNat + len.toNat)).length ≤ offset.toNat + i := by
        rw [List.length_take]
        omega
      rw [List.getElem?_eq_none hshort, List.getElem?_eq_none (by rw [List.length_range]; omega)]
      rfl
  read_outside := by
    intro id offset len hout
    rcases h.outside hout with ⟨hdead, herror⟩ | ⟨buf, hbuf, hshort, herror⟩
    · rw [herror]
      exact SimMemory.read_of_dead hdead offset len
    · rw [herror]
      exact SimMemory.read_of_outside hbuf hshort
  write_inside := by
    intro id offset data hin
    obtain ⟨buf, hbuf, hfits⟩ := h.inside hin
    exact congrArg Prod.snd (SimMemory.write_of_inside hbuf (h.small id buf hbuf) hfits)
  write_outside := by
    intro id offset data hout
    rcases h.outside hout with ⟨hdead, herror⟩ | ⟨buf, hbuf, hshort, herror⟩
    · rw [herror]
      exact SimMemory.write_of_dead hdead offset data
    · rw [herror]
      exact SimMemory.write_of_outside hbuf hshort
  free_live := by
    intro id hlive
    obtain ⟨l, hl⟩ := Option.isSome_iff_exists.mp hlive
    obtain ⟨buf, hbuf, -⟩ := h.buffer_of_live hl
    exact congrArg Prod.snd (SimMemory.free_of_live hbuf)
  free_dead := by
    intro id hdead
    exact SimMemory.free_of_dead (h.dead_iff.mpr hdead)

end IsHeap

end AetherRadio
