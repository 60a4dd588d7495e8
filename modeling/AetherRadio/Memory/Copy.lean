import AetherRadio.Memory.Accounts

/-!
# A copy happens whole or not at all

The copy reads, allocates, writes and only then counts itself. The read bounds the length, so the
write into the new buffer finds its range.
-/

namespace AetherRadio

open Verif

/-- The live buffers of each kind could lie in one address space. -/
def SimMemory.Addressable (self : SimMemory) : Prop := ∀ kind, self.liveBytes kind < 2 ^ 64

namespace PooledMemory

/-- The buffers that are live after a call could be addressed. -/
def AddressableAfter (p : Process PooledMemory) (op : PoolOp) : Prop :=
  (pooledMemory.step p op).1.state.inner.Addressable

/-- One buffer more, or that many bytes more of the kind, pass a limit. -/
def Full (self : PooledMemory) (size : UInt64) (kind : MemoryKind) : Prop :=
  self.cfg.maxBuffers ≤ self.bufferCount ∨ self.exhausted size kind = true

/-- Why a copy fails. A range whose end is no word is out of bounds like any other that is too
long. -/
inductive Refused (mem : PooledMemory) (src : BufferId) (offset len : UInt64)
    (dstKind : MemoryKind) : MemoryError → Prop where
  | unknown (dead : mem.inner.buffer? src = none) :
      Refused mem src offset len dstKind (.notFound src)
  | outside {buf : Buffer} (live : mem.inner.buffer? src = some buf)
      (long : buf.data.length < offset.toNat + len.toNat) :
      Refused mem src offset len dstKind .outOfBounds
  | limited {buf : Buffer} (live : mem.inner.buffer? src = some buf)
      (inside : offset.toNat + len.toNat ≤ buf.data.length) (full : mem.Full len dstKind) :
      Refused mem src offset len dstKind .poolExhausted

/-- What a copy leaves behind: a new buffer with the bytes of the range, counted, and nothing else
changed. -/
structure Copied (mem next : PooledMemory) (src dst : BufferId) (offset len : UInt64)
    (dstKind : MemoryKind) (ns : UInt64) : Prop where
  fresh : mem.inner.buffers[dst.toNat]? = none
  made : ∃ buf : Buffer, mem.inner.buffer? src = some buf ∧
    offset.toNat + len.toNat ≤ buf.data.length ∧
    next.inner.buffer? dst = some ⟨dstKind, Extent.read ⟨offset.toNat, len.toNat⟩ buf.data⟩
  size : ∀ buf, next.inner.buffer? dst = some buf → buf.data.length = len.toNat
  others : ∀ id, id ≠ dst → next.inner.buffer? id = mem.inner.buffer? id
  sizes : next.sizes = mem.sizes ++ [some (dstKind, len)]
  used : ∀ kind, next.used kind = if dstKind = kind then mem.used kind + len else mem.used kind
  count : next.bufferCount.toNat = mem.bufferCount.toNat + 1
  ops : next.copyOps.toNat = mem.copyOps.toNat + 1
  latency : next.lastCopyNs = some ns
  cfg : next.cfg = mem.cfg

/-- What a copy returns, with the pool it leaves. -/
inductive CopyResult (mem : PooledMemory) (src : BufferId) (offset len : UInt64)
    (dstKind : MemoryKind) : PooledMemory × Outcome (BufferId × UInt64) → Prop where
  | refused {e : MemoryError} (why : Refused mem src offset len dstKind e) :
      CopyResult mem src offset len dstKind (mem, .returned (.error e))
  | copied {next : PooledMemory} {dst : BufferId} {ns : UInt64}
      (eq : Copied mem next src dst offset len dstKind ns) :
      CopyResult mem src offset len dstKind (next, .returned (.ok (dst, ns)))
  | panicked (slots : isizeMax ≤ mem.inner.buffers.length) :
      CopyResult mem src offset len dstKind (mem.aborted, .panicked)

/-- The whole of a new buffer is overwritten. -/
private theorem copyFromSlice_replicate {bytes : List UInt8} {n : Nat} (h : bytes.length = n) :
    copyFromSlice (List.replicate n 0) 0 bytes = bytes := by
  rw [copyFromSlice, List.take_zero, List.nil_append, List.drop_replicate, Nat.zero_add, h,
    Nat.sub_self, List.replicate_zero, List.append_nil]

/-- An allocation is refused at a limit only. -/
private theorem full_of_refused {self : PooledMemory} {size : UInt64} {kind : MemoryKind}
    (hrefused : (self.allocate size kind).2 = .returned (.error .poolExhausted)) :
    self.Full size kind := by
  by_contra hroom
  obtain ⟨hcount, hspace⟩ := not_or.mp hroom
  have hallocate : self.allocate size kind = _ := (if_neg hcount).trans (if_neg hspace)
  rw [hallocate] at hrefused
  by_cases hinner : size.toNat > isizeMax ∨ self.inner.buffers.length ≥ isizeMax
  · rw [SimMemory.allocate_of_no_room hinner kind] at hrefused
    cases hrefused
  · have hok : self.inner.allocate size kind = _ :=
      SimMemory.allocate_of_room (by omega) (by omega) kind
    rw [hok] at hrefused
    cases kind
    · cases hrefused
    · cases hrefused

variable {self : PooledMemory} (h : Mirrors self)

include h

/-- The error of a copy names its reason: the write into the new buffer adds none. -/
theorem refused_of_error {src : BufferId} {offset len : UInt64} {dstKind : MemoryKind}
    {e : MemoryError} (herror : (self.copy src offset len dstKind).2 = .returned (.error e)) :
    Refused self src offset len dstKind e := by
  cases hlive : self.inner.buffer? src with
  | none =>
    simp only [copy, SimMemory.kindOf, hlive] at herror
    cases herror
    exact .unknown hlive
  | some buf =>
    have hkind : self.inner.kindOf src = .ok buf.kind := by rw [SimMemory.kindOf, hlive]
    by_cases hin : offset.toNat + len.toNat ≤ buf.data.length
    · have hread := SimMemory.read_of_inside hlive (h.small src buf hlive) hin
      cases allocate_step h len dstKind with
      | refused eq =>
        have hfull : self.Full len dstKind := full_of_refused (by rw [eq])
        simp only [copy, hkind, hread, eq] at herror
        cases herror
        exact .limited hlive hin hfull
      | panicked inner eq =>
        simp only [copy, hkind, hread, eq] at herror
        cases herror
      | added count room small slots eq =>
        have hlength : ((buf.data.take (offset.toNat + len.toNat)).drop offset.toNat).length =
            len.toNat := by
          rw [List.length_drop, List.length_take]
          omega
        have hwrite := write_of_inside (h.added dstKind small slots).small
          (h.added_live len dstKind) (copy_fits hlength)
        simp only [copy, hkind, hread, eq, hwrite] at herror
        cases herror
    · have hlong := Nat.not_le.mp hin
      have hread := SimMemory.read_of_outside hlive hlong
      simp only [copy, hkind, hread] at herror
      cases herror
      exact .outside hlive hlong

/-- A range that could be read lies in its buffer. -/
theorem inside_of_read {src : BufferId} {offset len : UInt64} {bytes : List UInt8}
    (hread : self.inner.read src offset len = .ok bytes) :
    ∃ buf, self.inner.buffer? src = some buf ∧ offset.toNat + len.toNat ≤ buf.data.length ∧
      bytes = Extent.read ⟨offset.toNat, len.toNat⟩ buf.data := by
  cases hlive : self.inner.buffer? src with
  | none =>
    rw [SimMemory.read_of_dead hlive] at hread
    cases hread
  | some buf =>
    by_cases hin : offset.toNat + len.toNat ≤ buf.data.length
    · rw [SimMemory.read_of_inside hlive (h.small src buf hlive) hin] at hread
      cases hread
      refine ⟨buf, rfl, hin, ?_⟩
      rw [Extent.read, List.drop_take, Nat.add_sub_cancel_left]
    · rw [SimMemory.read_of_outside hlive (Nat.not_le.mp hin)] at hread
      cases hread

/-- The buffers after a copy. -/
theorem buffer?_copied {len : UInt64} {dstKind : MemoryKind} {bytes : List UInt8}
    (length : bytes.length = len.toNat) (id : BufferId) :
    ((self.added len dstKind).overwritten self.inner.nextId
        ⟨dstKind, List.replicate len.toNat 0⟩ 0 bytes).inner.buffer? id =
      if self.inner.nextId = id then some ⟨dstKind, bytes⟩ else self.inner.buffer? id := by
  have hset := SimMemory.buffer?_set (h.added_live len dstKind)
    (some ⟨dstKind, copyFromSlice (List.replicate len.toNat 0) 0 bytes⟩) id
  apply hset.trans
  rw [copyFromSlice_replicate length]
  by_cases hid : self.inner.nextId = id
  · rw [if_pos hid, if_pos hid]
  · have hother : ¬ id.toNat = self.inner.buffers.length := by
      rw [← h.nextId, UInt64.toNat_inj]
      exact Ne.symm hid
    rw [if_neg hid, if_neg hid, PooledMemory.added, SimMemory.buffer?_push, if_neg hother]

/-- A copy that goes through leaves just that behind. -/
theorem copied_of_step {src : BufferId} {offset len : UInt64} {dstKind : MemoryKind}
    {bytes : List UInt8} {ns : UInt64} (copies : self.copyOps.toNat ≤ self.inner.buffers.length)
    (read : self.inner.read src offset len = .ok bytes) (length : bytes.length = len.toNat)
    (count : self.bufferCount < self.cfg.maxBuffers)
    (slots : self.inner.buffers.length < isizeMax) :
    Copied self
      { (self.added len dstKind).overwritten self.inner.nextId
          ⟨dstKind, List.replicate len.toNat 0⟩ 0 bytes with
        lastCopyNs := some ns
        copyOps := self.copyOps + 1 }
      src self.inner.nextId offset len dstKind ns := by
  have hcount := UInt64.lt_iff_toNat_lt.mp count
  have hmax := self.cfg.maxBuffers.toNat_lt
  rw [isizeMax] at slots
  constructor
  · rw [h.nextId]
    exact List.getElem?_eq_none (Nat.le_refl _)
  · obtain ⟨buf, hlive, hin, hbytes⟩ := inside_of_read h read
    refine ⟨buf, hlive, hin, ?_⟩
    apply (buffer?_copied h length self.inner.nextId).trans
    rw [if_pos rfl, hbytes]
  · intro buf hbuf
    have hnew := (buffer?_copied h length self.inner.nextId).symm.trans hbuf
    rw [if_pos rfl] at hnew
    cases hnew
    exact length
  · intro id hid
    apply (buffer?_copied h length id).trans
    rw [if_neg (Ne.symm hid)]
  · rfl
  · intro kind
    rw [← used_added]
    cases kind <;> rfl
  · show (self.bufferCount + 1).toNat = self.bufferCount.toNat + 1
    rw [UInt64.toNat_add, UInt64.toNat_one]
    omega
  · show (self.copyOps + 1).toNat = self.copyOps.toNat + 1
    rw [UInt64.toNat_add, UInt64.toNat_one]
    omega
  · rfl
  · rfl

/-- A copy fails for a reason, goes through, or finds the table of slots at its longest. -/
private theorem copy_result (copies : self.copyOps.toNat ≤ self.inner.buffers.length)
    (src : BufferId)
    (offset len : UInt64) (dstKind : MemoryKind) :
    CopyResult self src offset len dstKind (self.copy src offset len dstKind) := by
  cases copy_step h src offset len dstKind with
  | failed e known read eq =>
    have hwhy := refused_of_error h (congrArg Prod.snd eq)
    rw [eq]
    exact .refused hwhy
  | refused eq =>
    have hwhy := refused_of_error h (congrArg Prod.snd eq)
    rw [eq]
    exact .refused hwhy
  | panicked bytes read inner eq =>
    obtain ⟨buf, hlive, hin, -⟩ := inside_of_read h read
    have hsmall := h.small src buf hlive
    rw [eq]
    apply CopyResult.panicked
    by_contra hslots
    have hok : self.inner.allocate len dstKind = _ :=
      SimMemory.allocate_of_room (by omega) (by omega) dstKind
    rw [hok] at inner
    cases inner
  | copied bytes ns read length count room small slots eq =>
    rw [eq]
    exact .copied (copied_of_step h copies read length count slots)

/-- The write that follows the allocation succeeds. -/
private theorem write_of_allocated {src : BufferId} {offset len : UInt64} {dstKind : MemoryKind}
    {bytes : List UInt8} {dst : BufferId} (hread : self.read src offset len = .ok bytes)
    (hallocate : (self.allocate len dstKind).2 = .returned (.ok dst)) :
    ((self.allocate len dstKind).1.write dst 0 bytes).2 = .ok () := by
  obtain ⟨buf, -, hin, rfl⟩ := inside_of_read h hread
  have hlength : (Extent.read ⟨offset.toNat, len.toNat⟩ buf.data).length = len.toNat :=
    Extent.length_read hin
  obtain ⟨-, -, small, slots, rfl, hadded⟩ := added_of_allocate_ok h hallocate
  rw [hadded, write_of_inside (h.added dstKind small slots).small (h.added_live len dstKind)
    (copy_fits hlength)]

private theorem cfg_act {op : PoolOp} (hreturns : (self.act op).2.panicked = false) :
    (self.act op).1.cfg = self.cfg := by
  have hstep := act_step h hreturns
  generalize (self.act op).1 = next at hstep ⊢
  cases hstep <;> rfl

/-- The counters stay the totals while the live buffers could be addressed. -/
theorem Tallied.act (tallied : Tallied self) {op : PoolOp}
    (hreturns : (self.act op).2.panicked = false)
    (hnext : (self.act op).1.inner.Addressable) : Tallied (self.act op).1 := by
  have hstep := act_step h hreturns
  generalize (self.act op).1 = next at hstep hnext ⊢
  cases hstep with
  | kept => exact tallied
  | added size kind count room small slots =>
    have hfits := hnext kind
    rw [liveBytes_added, if_pos rfl, ← tallied] at hfits
    exact tallied.added hfits
  | removed live => exact tallied.removed live
  | overwritten live inside => exact tallied.overwritten live inside
  | copied len kind bytes ns count room small slots inside =>
    have hlive := h.added_live len kind
    have hfits : ((self.added len kind).overwritten self.inner.nextId
        ⟨kind, List.replicate len.toNat 0⟩ 0 bytes).inner.liveBytes kind < 2 ^ 64 := hnext kind
    rw [liveBytes_overwritten hlive inside, liveBytes_added, if_pos rfl, ← tallied] at hfits
    have hcopied := (tallied.added hfits).overwritten hlive inside
    intro other
    have hother := hcopied other
    cases other
    · exact hother
    · exact hother

/-- The bytes of the kind grow by the length, as numbers, when the pool is below the largest word
or the buffers could be addressed. -/
private theorem used_grows {src : BufferId} {offset len : UInt64} {dstKind : MemoryKind}
    {reply : BufferId × UInt64}
    (hbound : (self.cfg.poolBytes dstKind).toNat < 2 ^ 64 - 1 ∨
      Tallied self ∧ (self.copy src offset len dstKind).1.inner.Addressable)
    (hok : (self.copy src offset len dstKind).2 = .returned (.ok reply)) :
    ((self.copy src offset len dstKind).1.used dstKind).toNat =
      (self.used dstKind).toNat + len.toNat := by
  cases copy_step h src offset len dstKind with
  | failed e known read eq =>
    rw [eq] at hok
    cases hok
  | refused eq =>
    rw [eq] at hok
    cases hok
  | panicked bytes read inner eq =>
    rw [eq] at hok
    cases hok
  | copied bytes ns read length count room small slots eq =>
    have hword := (self.cfg.poolBytes dstKind).toNat_lt
    have hfits : (self.used dstKind).toNat + len.toNat < 2 ^ 64 := by
      rcases hbound with hpool | ⟨tallied, hnext⟩
      · have hroom := room_spec room hpool
        omega
      · rw [eq] at hnext
        have htotal : ((self.added len dstKind).overwritten self.inner.nextId
            ⟨dstKind, List.replicate len.toNat 0⟩ 0 bytes).inner.liveBytes dstKind < 2 ^ 64 :=
          hnext dstKind
        rw [liveBytes_overwritten (h.added_live len dstKind) (copy_fits length), liveBytes_added,
          if_pos rfl, ← tallied] at htotal
        exact htotal
    have hused : (self.copy src offset len dstKind).1.used dstKind = self.used dstKind + len := by
      rw [eq]
      cases dstKind <;> rfl
    rw [hused, UInt64.toNat_add, Nat.mod_eq_of_lt hfits]

omit h in
/-- What any run keeps. -/
private theorem run_copies (cfg : MemoryPoolConfig) (ops : List PoolOp) :
    let mem := (pooledMemory.run (.start (.new cfg)) ops).state
    Mirrors mem ∧ mem.cfg = cfg ∧ mem.copyOps.toNat ≤ mem.inner.buffers.length := by
  apply Machine.process_preserves (G := fun _ _ ↦ True)
    (P := fun mem ↦ Mirrors mem ∧ mem.cfg = cfg ∧
      mem.copyOps.toNat ≤ mem.inner.buffers.length)
  · exact ⟨.new cfg, rfl, Nat.zero_le _⟩
  · rintro mem op ⟨hm, hcfg, copies⟩ - hreturns
    exact ⟨hm.act hreturns, (cfg_act hm hreturns).trans hcfg, copies_act hm copies hreturns⟩
  · exact Machine.permits_true _ _ _

/-- A call makes at most one slot. -/
theorem slots_act {op : PoolOp} (hreturns : (self.act op).2.panicked = false) :
    (self.act op).1.inner.buffers.length ≤ self.inner.buffers.length + 1 := by
  have hstep := act_step h hreturns
  generalize (self.act op).1 = next at hstep ⊢
  cases hstep with
  | kept => omega
  | added size kind count room small slots => exact Nat.le_of_eq List.length_append
  | removed live => exact (Nat.le_of_eq List.length_set).trans (Nat.le_succ _)
  | overwritten live inside => exact (Nat.le_of_eq List.length_set).trans (Nat.le_succ _)
  | copied len kind bytes ns count room small slots inside =>
    exact Nat.le_of_eq (List.length_set.trans List.length_append)

omit h in
/-- So a run makes no more slots than it has calls. -/
theorem slots_run (p : Process PooledMemory) (h : Mirrors p.state) (ops : List PoolOp) :
    (pooledMemory.run p ops).state.inner.buffers.length ≤
      p.state.inner.buffers.length + ops.length := by
  induction ops generalizing p with
  | nil => exact Nat.le_refl _
  | cons op ops ih =>
    rw [pooledMemory.run_cons, List.length_cons]
    cases Machine.process_step ⟨act⟩ PoolReply.panicked p op with
    | idle ended eq =>
      change pooledMemory.step p op = _ at eq
      have hrest := ih p h
      rw [eq]
      exact hrest.trans (by omega)
    | ends running now eq =>
      change pooledMemory.step p op = _ at eq
      have hrest := ih ⟨p.state, true⟩ h
      rw [eq]
      exact hrest.trans (Nat.add_le_add_left (Nat.le_succ _) _)
    | returns running now eq =>
      change pooledMemory.step p op = _ at eq
      have hone := slots_act h now
      have hrest := ih (.start (p.state.act op).1) (h.act now)
      rw [eq]
      exact hrest.trans ((Nat.add_le_add_right hone _).trans_eq (by omega))

omit h in
/-- While its buffers could be addressed, a pool counts their bytes. -/
private theorem run_tallied {cfg : MemoryPoolConfig} {ops : List PoolOp}
    (h : pooledMemory.Permits AddressableAfter (.start (.new cfg)) ops) :
    Tallied (pooledMemory.run (.start (.new cfg)) ops).state := by
  have hrun : Mirrors (pooledMemory.run (.start (.new cfg)) ops).state ∧
      Tallied (pooledMemory.run (.start (.new cfg)) ops).state := by
    apply Machine.process_preserves (P := fun mem ↦ Mirrors mem ∧ Tallied mem) ?_ ?_ h
    · refine ⟨.new cfg, ?_⟩
      intro kind
      cases kind <;> rfl
    · rintro mem op ⟨hm, tallied⟩ hnext hreturns
      have hstep : pooledMemory.step (.start mem) op =
          (.start (mem.act op).1, some (mem.act op).2) :=
        Machine.process_step_of_returns hreturns
      rw [AddressableAfter, hstep] at hnext
      exact ⟨hm.act hreturns, Tallied.act hm tallied hreturns hnext⟩
  exact hrun.2

omit h in
/-- For every configuration, every sequence of calls and copies and all arguments: a copy that
returns an error has left the pool as it was, and the error names the source that is not live, the
range that is too long or the limit that is met; a copy that returns an identifier has made a new
buffer of that kind with the bytes of the range, has counted it, and has changed nothing else; and
the write after the allocation does not fail. The bytes counted grow by the length as numbers too
when the pool is below the largest word, or when the live buffers could be addressed all along.
A copy that does not return has found the table of slots at its longest, after as many calls, and
leaves an identifier counted that no buffer got. A call that does not return ends a run; the state
is then that after the last one that did. -/
theorem copy_all_or_nothing (cfg : MemoryPoolConfig) (ops : List PoolOp) (src : BufferId)
    (offset len : UInt64) (dstKind : MemoryKind) :
    let mem := (pooledMemory.run (.start (.new cfg)) ops).state
    CopyResult mem src offset len dstKind (mem.copy src offset len dstKind) ∧
    ((mem.copy src offset len dstKind).2 = .panicked → isizeMax ≤ ops.length) ∧
    (∀ bytes dst, mem.read src offset len = .ok bytes →
      (mem.allocate len dstKind).2 = .returned (.ok dst) →
      ((mem.allocate len dstKind).1.write dst 0 bytes).2 = .ok ()) ∧
    ∀ reply, (mem.copy src offset len dstKind).2 = .returned (.ok reply) →
      (cfg.poolBytes dstKind).toNat < 2 ^ 64 - 1 ∨
        pooledMemory.Permits AddressableAfter (.start (.new cfg)) ops ∧
          (mem.copy src offset len dstKind).1.inner.Addressable →
      ((mem.copy src offset len dstKind).1.used dstKind).toNat =
        (mem.used dstKind).toNat + len.toNat := by
  intro mem
  obtain ⟨hm, hcfg, copies⟩ := run_copies cfg ops
  have hresult := copy_result hm copies src offset len dstKind
  refine ⟨hresult, ?_, ?_, ?_⟩
  · intro hpanicked
    have hslots := slots_run (.start (.new cfg)) (Mirrors.new cfg) ops
    generalize mem.copy src offset len dstKind = result at hresult hpanicked
    cases hresult with
    | refused why => cases hpanicked
    | copied eq => cases hpanicked
    | panicked slots => exact slots.trans (hslots.trans_eq (Nat.zero_add _))
  · intro bytes dst hread hallocate
    exact write_of_allocated hm hread hallocate
  · intro reply hok hbound
    apply used_grows hm _ hok
    rcases hbound with hpool | ⟨hops, hcopy⟩
    · left
      rwa [hcfg]
    · exact .inr ⟨run_tallied hops, hcopy⟩

end PooledMemory

end AetherRadio
