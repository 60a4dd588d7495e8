import AetherRadio.Lib.Ledger
import AetherRadio.Memory.Refine

/-!
# The accounts of the pools

The counters of the pool are the totals over the live buffers, which the limits keep small enough
for the arithmetic to be exact.
-/

namespace AetherRadio

open Verif

/-- The bytes a slot holds of a kind. -/
def slotBytes (kind : MemoryKind) : Option Buffer → Nat
  | some buf => if buf.kind = kind then buf.data.length else 0
  | none => 0

namespace SimMemory

/-- The sizes of the live buffers of a kind together. -/
def liveBytes (self : SimMemory) (kind : MemoryKind) : Nat :=
  Ledger.total (slotBytes kind) self.buffers

/-- The number of live buffers. -/
def liveCount (self : SimMemory) : Nat := self.buffers.countP Option.isSome

private theorem liveBytes_push (self : SimMemory) (nextId : BufferId) (buf : Buffer)
    (kind : MemoryKind) :
    SimMemory.liveBytes { nextId, buffers := self.buffers ++ [some buf] } kind =
      self.liveBytes kind + slotBytes kind (some buf) :=
  Ledger.total_concat (slotBytes kind) self.buffers (some buf)

private theorem liveCount_push (self : SimMemory) (nextId : BufferId) (buf : Buffer) :
    SimMemory.liveCount { nextId, buffers := self.buffers ++ [some buf] } =
      self.liveCount + 1 := by
  rw [liveCount, List.countP_append, liveCount]
  rfl

variable {self : SimMemory} {id : BufferId} {buf : Buffer} (h : self.buffer? id = some buf)

include h

private theorem liveBytes_set (slot : Option Buffer) (kind : MemoryKind) :
    SimMemory.liveBytes { self with buffers := self.buffers.set id.toNat slot } kind +
      slotBytes kind (some buf) = self.liveBytes kind + slotBytes kind slot :=
  Ledger.total_set (slotBytes kind) (slot_of_live h) slot

private theorem slotBytes_le (kind : MemoryKind) : slotBytes kind
    (some buf) ≤ self.liveBytes kind :=
  Ledger.weight_le_total (slotBytes kind) (slot_of_live h)

private theorem liveCount_pos : 0 < self.liveCount :=
  List.countP_pos_iff.mpr ⟨some buf, List.mem_of_getElem? (slot_of_live h), rfl⟩

private theorem liveCount_set (slot : Option Buffer) :
    SimMemory.liveCount { self with buffers := self.buffers.set id.toNat slot } =
      self.liveCount - 1 + if slot.isSome then 1 else 0 := by
  obtain ⟨hlt, hget⟩ := List.getElem?_eq_some_iff.mp (slot_of_live h)
  rw [liveCount, List.countP_set hlt, hget]
  rfl

end SimMemory

/-- The bytes of the pool of a kind. -/
def MemoryPoolConfig.poolBytes (cfg : MemoryPoolConfig) : MemoryKind → UInt64
  | .host => cfg.hostPoolBytes
  | .gpu => cfg.gpuPoolBytes

namespace PooledMemory

/-- The counter of a kind. From `crates/memory-manager/src/lib.rs:149–151,153–155`. -/
def used (self : PooledMemory) : MemoryKind → UInt64
  | .host => self.hostUsed
  | .gpu => self.gpuUsed

theorem used_added (self : PooledMemory) (size : UInt64) (kind other : MemoryKind) :
    (self.added size kind).used other =
      if kind = other then self.used other + size else self.used other := by
  cases kind <;> cases other <;> rfl

private theorem used_removed (self : PooledMemory) (id : BufferId) (kind : MemoryKind)
    (size : UInt64)
    (other : MemoryKind) :
    (self.removed id kind size).used other =
      if kind = other then satSub (self.used other) size else self.used other := by
  cases kind <;> cases other <;> rfl

/-- An allocation adds its size to the live buffers of its kind. -/
theorem liveBytes_added (self : PooledMemory) (size : UInt64) (kind other : MemoryKind) :
    (self.added size kind).inner.liveBytes other =
      self.inner.liveBytes other + if kind = other then size.toNat else 0 := by
  rw [PooledMemory.added, SimMemory.liveBytes_push, slotBytes, List.length_replicate]

/-- A write keeps the sizes. -/
theorem liveBytes_overwritten {self : PooledMemory} {id : BufferId} {buf : Buffer}
    (hlive : self.inner.buffer? id = some buf) {offset : UInt64} {data : List UInt8}
    (hin : offset.toNat + data.length ≤ buf.data.length) (kind : MemoryKind) :
    (self.overwritten id buf offset data).inner.liveBytes kind = self.inner.liveBytes kind := by
  have hset := SimMemory.liveBytes_set hlive
    (some { buf with data := copyFromSlice buf.data offset.toNat data }) kind
  simp only [slotBytes, length_copyFromSlice hin] at hset
  exact Nat.add_right_cancel hset

/-- An allocation within the limits does not overflow its counter. -/
theorem room_spec {self : PooledMemory} {size : UInt64} {kind : MemoryKind}
    (hroom : self.exhausted size kind = false)
    (hpool : (self.cfg.poolBytes kind).toNat < 2 ^ 64 - 1) :
    (self.used kind).toNat + size.toNat ≤ (self.cfg.poolBytes kind).toNat := by
  have hle : satAdd (self.used kind) size ≤ self.cfg.poolBytes kind := by
    cases kind
    · exact UInt64.not_lt.mp (of_decide_eq_false hroom)
    · exact UInt64.not_lt.mp (of_decide_eq_false hroom)
  have hnat := UInt64.le_iff_toNat_le.mp hle
  rw [toNat_satAdd] at hnat
  omega

/-- Each counter is the total over the live buffers of its kind. -/
def Tallied (mem : PooledMemory) : Prop :=
  ∀ kind, (mem.used kind).toNat = mem.inner.liveBytes kind

namespace Tallied

variable {self : PooledMemory} (h : Tallied self)

include h

/-- A live buffer is counted. -/
theorem length_le {id : BufferId} {buf : Buffer} (hlive : self.inner.buffer? id = some buf) :
    buf.data.length ≤ (self.used buf.kind).toNat := by
  have hbytes := SimMemory.slotBytes_le hlive buf.kind
  rw [slotBytes, if_pos rfl] at hbytes
  rw [h]
  exact hbytes

theorem added {size : UInt64} {kind : MemoryKind}
    (hfits : (self.used kind).toNat + size.toNat < 2 ^ 64) : Tallied (self.added size kind) := by
  intro other
  rw [used_added, liveBytes_added, ← h]
  by_cases hkind : kind = other
  · subst hkind
    rw [if_pos rfl, if_pos rfl, UInt64.toNat_add]
    omega
  · rw [if_neg hkind, if_neg hkind, Nat.add_zero]

theorem removed {id : BufferId} {buf : Buffer} (hlive : self.inner.buffer? id = some buf) :
    Tallied (self.removed id buf.kind (UInt64.ofNat buf.data.length)) := by
  intro other
  have hbytes := h.length_le hlive
  have hword := (self.used buf.kind).toNat_lt
  have hsub : (satSub (self.used buf.kind) (UInt64.ofNat buf.data.length)).toNat =
      (self.used buf.kind).toNat - buf.data.length := by
    rw [toNat_satSub, UInt64.toNat_ofNat']
    omega
  have hset := SimMemory.liveBytes_set hlive none other
  have hinner : (self.removed id buf.kind (UInt64.ofNat buf.data.length)).inner =
    { self.inner with buffers := self.inner.buffers.set id.toNat none } := rfl
  have hused := h other
  simp only [slotBytes] at hset
  rw [used_removed, hinner]
  dsimp only
  by_cases hkind : buf.kind = other
  · subst hkind
    rw [if_pos rfl] at hset ⊢
    omega
  · rw [if_neg hkind] at hset ⊢
    omega

theorem overwritten {id : BufferId} {buf : Buffer} (hlive : self.inner.buffer? id = some buf)
    {offset : UInt64} {data : List UInt8} (hin : offset.toNat + data.length ≤ buf.data.length) :
    Tallied (self.overwritten id buf offset data) := by
  intro kind
  rw [liveBytes_overwritten hlive hin, ← h]
  cases kind <;> rfl

end Tallied

/-- No more copies are counted than slots were made. -/
theorem copies_act {self : PooledMemory} (h : Mirrors self)
    (copies : self.copyOps.toNat ≤ self.inner.buffers.length) {op : PoolOp}
    (hreturns : (self.act op).2.panicked = false) :
    (self.act op).1.copyOps.toNat ≤ (self.act op).1.inner.buffers.length := by
  have hstep := act_step h hreturns
  generalize (self.act op).1 = next at hstep ⊢
  cases hstep with
  | kept => exact copies
  | added size kind count room small slots =>
    simp only [added, List.length_append, List.length_singleton]
    omega
  | removed live => exact copies.trans_eq List.length_set.symm
  | overwritten live inside => exact copies.trans_eq List.length_set.symm
  | copied len kind bytes ns count room small slots inside =>
    simp only [overwritten, added, List.length_set, List.length_append, List.length_singleton,
      UInt64.toNat_add, UInt64.toNat_one]
    omega

/-- The counters are the totals over the live buffers, within the limits. -/
structure Accounts (config : MemoryPoolConfig) (mem : PooledMemory) : Prop where
  cfg : mem.cfg = config
  used : ∀ kind, (mem.used kind).toNat = mem.inner.liveBytes kind
  within : ∀ kind, mem.used kind ≤ config.poolBytes kind
  count : mem.bufferCount.toNat = mem.inner.liveCount
  countWithin : mem.bufferCount ≤ config.maxBuffers
  copies : mem.copyOps.toNat ≤ mem.inner.buffers.length
  slots : mem.inner.buffers.length ≤ isizeMax

namespace Accounts

variable {cfg : MemoryPoolConfig} {self : PooledMemory}

theorem new (cfg : MemoryPoolConfig) : Accounts cfg (.new cfg) where
  cfg := rfl
  used kind := by cases kind <;> rfl
  within kind := by cases kind <;> exact UInt64.zero_le
  count := rfl
  countWithin := UInt64.zero_le
  copies := Nat.zero_le _
  slots := Nat.zero_le _

variable (h : Accounts cfg self)

include h

theorem added {size : UInt64} {kind : MemoryKind} (hpool : (cfg.poolBytes kind).toNat < 2 ^ 64 - 1)
    (count : self.bufferCount < self.cfg.maxBuffers) (room : self.exhausted size kind = false)
    (slots : self.inner.buffers.length < isizeMax) : Accounts cfg (self.added size kind) := by
  have hroom := room_spec room (by rwa [h.cfg])
  rw [h.cfg] at hroom count
  have hcount := UInt64.lt_iff_toNat_lt.mp count
  have hmax := cfg.maxBuffers.toNat_lt
  constructor
  · exact h.cfg
  · apply Tallied.added h.used
    omega
  · intro other
    rw [used_added]
    by_cases hkind : kind = other
    · subst hkind
      rw [if_pos rfl, UInt64.le_iff_toNat_le, UInt64.toNat_add]
      omega
    · rw [if_neg hkind]
      exact h.within other
  · simp only [PooledMemory.added, SimMemory.liveCount_push, UInt64.toNat_add, UInt64.toNat_one,
      ← h.count]
    omega
  · simp only [PooledMemory.added, UInt64.le_iff_toNat_le, UInt64.toNat_add, UInt64.toNat_one]
    omega
  · have hcopies := h.copies
    simp only [PooledMemory.added, List.length_append, List.length_singleton]
    omega
  · simp only [PooledMemory.added, List.length_append, List.length_singleton]
    omega

/-- What the counters hold of a live buffer. -/
private theorem live_le {id : BufferId} {buf : Buffer} (hlive : self.inner.buffer? id = some buf) :
    buf.data.length ≤ (self.used buf.kind).toNat ∧ 1 ≤ self.bufferCount.toNat := by
  constructor
  · exact Tallied.length_le h.used hlive
  · rw [h.count]
    exact SimMemory.liveCount_pos hlive

theorem removed {id : BufferId} {buf : Buffer} (hlive : self.inner.buffer? id = some buf) :
    Accounts cfg (self.removed id buf.kind (UInt64.ofNat buf.data.length)) := by
  have hone : (satSub self.bufferCount 1).toNat = self.bufferCount.toNat - 1 := by
    rw [toNat_satSub, UInt64.toNat_one]
  constructor
  · exact h.cfg
  · exact Tallied.removed h.used hlive
  · intro other
    have hwithin := UInt64.le_iff_toNat_le.mp (h.within other)
    rw [used_removed]
    by_cases hkind : buf.kind = other
    · subst hkind
      rw [if_pos rfl, UInt64.le_iff_toNat_le, toNat_satSub]
      omega
    · rw [if_neg hkind]
      exact h.within other
  · simp only [PooledMemory.removed, SimMemory.liveCount_set hlive, hone, h.count]
    rfl
  · have hwithin := UInt64.le_iff_toNat_le.mp h.countWithin
    simp only [PooledMemory.removed, UInt64.le_iff_toNat_le, hone]
    omega
  · exact h.copies.trans_eq List.length_set.symm
  · exact Nat.le_trans (Nat.le_of_eq List.length_set) h.slots

theorem overwritten {id : BufferId} {buf : Buffer} (hlive : self.inner.buffer? id = some buf)
    {offset : UInt64} {data : List UInt8} (hin : offset.toNat + data.length ≤ buf.data.length) :
    Accounts cfg (self.overwritten id buf offset data) := by
  have hpos := SimMemory.liveCount_pos hlive
  constructor
  · exact h.cfg
  · exact Tallied.overwritten h.used hlive hin
  · intro kind
    have hwithin := h.within kind
    cases kind <;> exact hwithin
  · simp only [PooledMemory.overwritten, SimMemory.liveCount_set hlive, Option.isSome_some,
      if_true, h.count]
    omega
  · exact h.countWithin
  · exact h.copies.trans_eq List.length_set.symm
  · exact Nat.le_trans (Nat.le_of_eq List.length_set) h.slots

/-- Every call that returns keeps the accounts. -/
theorem act (hm : Mirrors self) (hpools : ∀ kind, (cfg.poolBytes kind).toNat < 2 ^ 64 - 1)
    {op : PoolOp} (hreturns : (self.act op).2.panicked = false) :
    Accounts cfg (self.act op).1 := by
  have hstep := act_step hm hreturns
  have hcopies := copies_act hm h.copies hreturns
  generalize (self.act op).1 = next at hstep hcopies ⊢
  cases hstep with
  | kept => exact h
  | added size kind count room small slots => exact h.added (hpools kind) count room slots
  | removed live => exact h.removed live
  | overwritten live inside => exact h.overwritten live inside
  | copied len kind bytes ns count room small slots inside =>
    have hcopied := (h.added (hpools kind) count room slots).overwritten
      (hm.added_live len kind) inside
    exact ⟨hcopied.cfg, hcopied.used, hcopied.within, hcopied.count, hcopied.countWithin, hcopies,
      hcopied.slots⟩

/-- Every slot has an identifier. -/
theorem toNat_slot {i : Nat} (hi : i < self.inner.buffers.length) : (UInt64.ofNat i).toNat = i := by
  have hslots := h.slots
  rw [isizeMax] at hslots
  rw [UInt64.toNat_ofNat']
  omega

private theorem live_of_slot {i : Nat} {buf : Buffer}
    (hbuf : self.inner.buffers[i]? = some (some buf)) :
    self.inner.buffer? (UInt64.ofNat i) = some buf := by
  have hi := (List.getElem?_eq_some_iff.mp hbuf).1
  rw [SimMemory.buffer?, h.toNat_slot hi, hbuf]
  rfl

private theorem dead_slot (hdead : ∀ id, self.inner.buffer? id = none) {slot : Option Buffer}
    (hslot : slot ∈ self.inner.buffers) : slot = none := by
  obtain ⟨i, hi, rfl⟩ := List.mem_iff_getElem.mp hslot
  have hid := hdead (UInt64.ofNat i)
  rw [SimMemory.buffer?, h.toNat_slot hi, List.getElem?_eq_getElem hi] at hid
  exact hid

/-- Nothing is accounted for when nothing lives. -/
private theorem zero_of_dead (hdead : ∀ id, self.inner.buffer? id = none) :
    self.hostUsed = 0 ∧ self.gpuUsed = 0 ∧ self.bufferCount = 0 := by
  have hused : ∀ kind, self.used kind = 0 := by
    intro kind
    apply UInt64.toNat_inj.mp
    rw [h.used]
    apply Ledger.total_eq_zero
    intro slot hslot
    rw [h.dead_slot hdead hslot]
    rfl
  refine ⟨hused .host, hused .gpu, ?_⟩
  apply UInt64.toNat_inj.mp
  rw [h.count]
  apply List.countP_eq_zero.mpr
  intro slot hslot
  rw [h.dead_slot hdead hslot]
  decide

/-- The size table tells the live buffers. -/
theorem sizes_iff (hm : Mirrors self) {i : Nat} {kind : MemoryKind} {size : UInt64} :
    self.sizes[i]? = some (some (kind, size)) ↔
      ∃ buf, self.inner.buffers[i]? = some (some buf) ∧ buf.kind = kind ∧
        buf.data.length = size.toNat := by
  have hsmall : ∀ buf, self.inner.buffers[i]? = some (some buf) →
      buf.data.length < 2 ^ 64 := by
    intro buf hbuf
    have hlength := hm.small (UInt64.ofNat i) buf (h.live_of_slot hbuf)
    rw [isizeMax] at hlength
    omega
  rw [hm.sizes, List.getElem?_map]
  constructor
  · intro hentry
    obtain ⟨slot, hslot, hmap⟩ := Option.map_eq_some_iff.mp hentry
    obtain ⟨buf, rfl, hbuf⟩ := Option.map_eq_some_iff.mp hmap
    have hword := hsmall buf hslot
    cases hbuf
    refine ⟨buf, hslot, rfl, ?_⟩
    rw [UInt64.toNat_ofNat']
    omega
  · rintro ⟨buf, hslot, rfl, hlength⟩
    rw [hslot, Option.map_some, Option.map_some, sizeEntry, hlength, UInt64.ofNat_toNat]

/-- An allocation that succeeds adds exactly. -/
private theorem allocate_exact (hm : Mirrors self)
    (hpools : ∀ kind, (cfg.poolBytes kind).toNat < 2 ^ 64 - 1) {size : UInt64} {kind : MemoryKind}
    {id : BufferId} (hok : (self.allocate size kind).2 = .returned (.ok id)) :
    (self.used kind).toNat + size.toNat < 2 ^ 64 ∧ self.bufferCount.toNat + 1 < 2 ^ 64 ∧
      self.inner.nextId.toNat + 1 < 2 ^ 64 := by
  obtain ⟨count, room, -, slots, -, -⟩ := added_of_allocate_ok hm hok
  have hroom := room_spec room (by rw [h.cfg]; exact hpools kind)
  have hword := (MemoryPoolConfig.poolBytes self.cfg kind).toNat_lt
  have hcount := UInt64.lt_iff_toNat_lt.mp count
  have hmax := self.cfg.maxBuffers.toNat_lt
  have hnext := hm.nextId
  rw [isizeMax] at slots
  exact ⟨by omega, by omega, by omega⟩

/-- A release subtracts no more than the counters hold. -/
private theorem size_le (hm : Mirrors self) {i : Nat} {kind : MemoryKind} {size : UInt64}
    (hsize : self.sizes[i]? = some (some (kind, size))) :
    size ≤ self.used kind ∧ 1 ≤ self.bufferCount := by
  obtain ⟨buf, hbuf, rfl, hlength⟩ := (h.sizes_iff hm).mp hsize
  obtain ⟨hbytes, hcount⟩ := h.live_le (h.live_of_slot hbuf)
  rw [hlength] at hbytes
  exact ⟨UInt64.le_iff_toNat_le.mpr hbytes, UInt64.le_iff_toNat_le.mpr hcount⟩

end Accounts

/-- Freeing kills the buffers it is called on. -/
private theorem run_free {self : PooledMemory} (h : Mirrors self) (ids : List BufferId)
    (j : BufferId) :
    (pooledMemory.run (.start self)
        (ids.map fun id ↦ .call (.free id))).state.inner.buffer? j =
      if j ∈ ids then none else self.inner.buffer? j := by
  induction ids generalizing self with
  | nil => rfl
  | cons id ids ih =>
    have hmirrors : Mirrors (self.act (.call (.free id))).1 := h.act rfl
    have hfreed : (self.act (.call (.free id))).1.inner.buffer? j =
        if id = j then none else self.inner.buffer? j := by
      show (self.free id).1.inner.buffer? j = _
      cases hlive : self.inner.buffer? id with
      | none =>
        rw [free_of_dead h hlive]
        by_cases hj : id = j
        · rw [if_pos hj, ← hj, hlive]
        · rw [if_neg hj]
      | some buf =>
        rw [free_of_live h hlive]
        exact SimMemory.buffer?_set hlive none j
    rw [List.map_cons, pooledMemory.run_cons]
    apply (ih hmirrors).trans
    rw [hfreed]
    by_cases hj : id = j
    · simp [hj]
    · simp [hj, Ne.symm hj]

/-- Freeing all that lives leaves nothing alive. -/
private theorem run_free_all {self : PooledMemory} (h : Mirrors self) {ids : List BufferId}
    (hids : ∀ id, (self.inner.buffer? id).isSome → id ∈ ids) (j : BufferId) :
    (pooledMemory.run (.start self)
      (ids.map fun id ↦ .call (.free id))).state.inner.buffer? j = none := by
  rw [run_free h]
  by_cases hj : j ∈ ids
  · rw [if_pos hj]
  · rw [if_neg hj]
    apply Option.not_isSome_iff_eq_none.mp
    intro hlive
    exact hj (hids j hlive)

/-- The accounts of a run. -/
theorem run_accounts {cfg : MemoryPoolConfig}
    (hpools : ∀ kind, (cfg.poolBytes kind).toNat < 2 ^ 64 - 1) {self : PooledMemory}
    (haccounts : Accounts cfg self) (hmirrors : Mirrors self) (ops : List PoolOp) :
    Accounts cfg (pooledMemory.run (.start self) ops).state ∧
      Mirrors (pooledMemory.run (.start self) ops).state := by
  apply Machine.process_preserves (G := fun _ _ ↦ True)
    (P := fun mem ↦ Accounts cfg mem ∧ Mirrors mem)
  · exact ⟨haccounts, hmirrors⟩
  · intro mem op hmem _ hreturns
    exact ⟨hmem.1.act hmem.2 hpools hreturns, hmem.2.act hreturns⟩
  · exact Machine.permits_true _ _ _

/-- For every configuration with pools below the largest word and every sequence of calls and
copies: each counter is the total over the live buffers and within its limit; the size table tells
the live buffers; no addition overflows and no subtraction stops at zero; and freeing all that
lives, in any order, leaves all counters at zero. A panic ends a run; the counters are then those
after the last call that returned. -/
theorem pool_accounts (cfg : MemoryPoolConfig) (hhost : cfg.hostPoolBytes.toNat < 2 ^ 64 - 1)
    (hgpu : cfg.gpuPoolBytes.toNat < 2 ^ 64 - 1) (ops : List PoolOp) :
    let mem := (pooledMemory.run (.start (.new cfg)) ops).state
    (mem.hostUsed.toNat = mem.inner.liveBytes .host ∧ mem.hostUsed ≤ cfg.hostPoolBytes) ∧
    (mem.gpuUsed.toNat = mem.inner.liveBytes .gpu ∧ mem.gpuUsed ≤ cfg.gpuPoolBytes) ∧
    (mem.bufferCount.toNat = mem.inner.liveCount ∧ mem.bufferCount ≤ cfg.maxBuffers) ∧
    (∀ (i : Nat) kind (size : UInt64), mem.sizes[i]? = some (some (kind, size)) ↔
      ∃ buf, mem.inner.buffers[i]? = some (some buf) ∧ buf.kind = kind ∧
        buf.data.length = size.toNat) ∧
    (∀ size kind id, (mem.allocate size kind).2 = .returned (.ok id) →
      (mem.used kind).toNat + size.toNat < 2 ^ 64 ∧ mem.bufferCount.toNat + 1 < 2 ^ 64 ∧
        mem.inner.nextId.toNat + 1 < 2 ^ 64) ∧
    mem.copyOps.toNat + 1 < 2 ^ 64 ∧
    (∀ (i : Nat) kind (size : UInt64), mem.sizes[i]? = some (some (kind, size)) →
      size ≤ mem.used kind ∧ 1 ≤ mem.bufferCount) ∧
    ∀ ids : List BufferId, (∀ id, (mem.inner.buffer? id).isSome → id ∈ ids) →
      let freed := (pooledMemory.run (.start mem) (ids.map fun id ↦ .call (.free id))).state
      freed.hostUsed = 0 ∧ freed.gpuUsed = 0 ∧ freed.bufferCount = 0 := by
  intro mem
  have hpools : ∀ kind, (cfg.poolBytes kind).toNat < 2 ^ 64 - 1 := by
    intro kind
    cases kind
    · exact hhost
    · exact hgpu
  obtain ⟨haccounts, hmirrors⟩ : Accounts cfg mem ∧ Mirrors mem :=
    run_accounts hpools (.new cfg) (.new cfg) ops
  refine ⟨⟨haccounts.used .host, haccounts.within .host⟩,
    ⟨haccounts.used .gpu, haccounts.within .gpu⟩, ⟨haccounts.count, haccounts.countWithin⟩,
    fun i kind size ↦ haccounts.sizes_iff hmirrors, ?_, ?_, ?_, ?_⟩
  · intro size kind id hok
    exact haccounts.allocate_exact hmirrors hpools hok
  · have hslots : mem.inner.buffers.length ≤ isizeMax := haccounts.slots
    have hcopies : mem.copyOps.toNat ≤ mem.inner.buffers.length := haccounts.copies
    rw [isizeMax] at hslots
    omega
  · intro i kind size hsize
    exact haccounts.size_le hmirrors hsize
  · intro ids hids freed
    have hafter : Accounts cfg freed := (run_accounts hpools haccounts hmirrors _).1
    apply hafter.zero_of_dead
    exact run_free_all hmirrors hids

/-- A pool of 64 bytes a side. -/
def smallPool : MemoryPoolConfig where
  hostPoolBytes := 64
  gpuPoolBytes := 64
  maxBuffers := 8
  h2dWireNs bytes := bytes / 2
  d2hWireNs bytes := bytes / 2
  fixedCopyLatencyNs := 200

theorem pool_accounts_copied :
    let ops : List PoolOp :=
      [.call (.allocate 16 .host), .copy 0 8 8 .gpu, .call (.allocate 60 .gpu),
        .call (.free 0)]
    let mem := (pooledMemory.run (.start (.new smallPool)) ops).state
    (mem.hostUsed, mem.gpuUsed, mem.bufferCount) = (0, 8, 1) ∧
      mem.gpuUsed.toNat = mem.inner.liveBytes .gpu := by
  intro ops mem
  exact ⟨by decide +kernel,
    (pool_accounts smallPool (by decide) (by decide) ops).2.1.1⟩

end PooledMemory

end AetherRadio
