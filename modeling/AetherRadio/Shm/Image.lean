import AetherRadio.Lib.LittleEndian
import AetherRadio.Shm.Layout
import AetherRadio.Shm.Ring

/-!
# The mapped bytes

`crates/shm-io/src/lib.rs` on the bytes of the mapping: the accessors at their offsets,
`init_ring`, `validate_header` and `try_pop`. Words are little-endian. What a call reads after a
store is decided by the layout alone.
-/

namespace AetherRadio.Shm

open Verif

variable {l : Layout}

/-- The slot index of a counter value. -/
def Layout.slotIdx (l : Layout) (pos : UInt64) : Fin l.slotCount :=
  ⟨pos.toNat % l.slotCount, Nat.mod_lt _ l.slotCount_pos⟩

/-- The bytes of the mapping. -/
structure ShmImage (l : Layout) where
  bytes : List UInt8
  length_eq : bytes.length = l.total

namespace ShmImage

/-- The number at a range. -/
def word (self : ShmImage l) (e : Extent) : Nat := leValue (e.read self.bytes)

/-- `write_pos`, loaded. From `crates/shm-io/src/lib.rs:109–111`. -/
def writePos (self : ShmImage l) : UInt64 := UInt64.ofNat (self.word Layout.writePos)

/-- `read_pos`, loaded. From `crates/shm-io/src/lib.rs:113–115`. -/
def readPos (self : ShmImage l) : UInt64 := UInt64.ofNat (self.word Layout.readPos)

/-- `slot_state`, loaded. From `crates/shm-io/src/lib.rs:117–120`. -/
def slotState (self : ShmImage l) (idx : Nat) : UInt32 := UInt32.ofNat (self.word (l.slotState idx))

/-- `slot_len`, loaded. From `crates/shm-io/src/lib.rs:122–125`. -/
def slotLen (self : ShmImage l) (idx : Nat) : UInt32 := UInt32.ofNat (self.word (l.slotLen idx))

/-- `slot_data`. From `crates/shm-io/src/lib.rs:127–130,132–135`. -/
def slotData (self : ShmImage l) (idx : Nat) : List UInt8 := (l.slotData idx).read self.bytes

/-- Replace the bytes of a range of the mapping. -/
def store (self : ShmImage l) (e : Extent) (ys : List UInt8) (hin : e.Within l.mapping)
    (hlen : ys.length = e.length) : ShmImage l where
  bytes := Extent.write e.start ys self.bytes
  length_eq := by
    rw [Extent.length_write, self.length_eq]
    rw [self.length_eq, hlen, ← Nat.zero_add l.total]
    exact hin.2

theorem part_within {e : Extent} {idx : Fin l.slotCount} (h : e ∈ l.parts idx) :
    e.Within l.mapping :=
  ⟨Nat.zero_le _, Nat.le_trans (Layout.parts_within h).2 (Layout.slot_within idx.isLt).2⟩

private theorem counter_within {e : Extent} (h : e.stop ≤ headerBytes) : e.Within l.mapping :=
  ⟨Nat.zero_le _, Nat.le_trans h Layout.header_within.2⟩

/-- The store of a slot's state word. -/
def storeState (self : ShmImage l) (idx : Fin l.slotCount) (state : UInt32) : ShmImage l :=
  self.store (l.slotState idx) (leBytes 4 state.toNat) (part_within (.head _)) (length_leBytes ..)

/-- The store of `read_pos`. -/
def storeReadPos (self : ShmImage l) (pos : UInt64) : ShmImage l :=
  self.store Layout.readPos (leBytes 8 pos.toNat) (counter_within (by decide)) (length_leBytes ..)

/-- A header word, `copy_from_slice` of its four bytes. -/
def storeHeader (self : ShmImage l) (start : Nat) (h : start + 4 ≤ headerBytes) (value : UInt32) :
    ShmImage l :=
  self.store ⟨start, 4⟩ (leBytes 4 value.toNat) (counter_within h) (length_leBytes ..)

section Store

variable {self : ShmImage l} {e f : Extent} {ys : List UInt8}

private theorem fits_bytes (self : ShmImage l) {e : Extent} (hin : e.Within l.mapping)
    {ys : List UInt8} (hlen : ys.length = e.length) : e.start + ys.length ≤ self.bytes.length := by
  rw [self.length_eq, hlen, ← Nat.zero_add l.total]
  exact hin.2

/-- A store does not show apart from its range. -/
theorem read_store_apart (hin : e.Within l.mapping) (hlen : ys.length = e.length)
    (h : f.Apart e) : f.read (self.store e ys hin hlen).bytes = f.read self.bytes := by
  apply Extent.read_write_apart (self.fits_bytes hin hlen)
  rw [hlen]
  exact h

private theorem word_store_apart (hin : e.Within l.mapping) (hlen : ys.length = e.length)
    (h : f.Apart e) : (self.store e ys hin hlen).word f = self.word f :=
  congrArg leValue (read_store_apart hin hlen h)

/-- A stored word is read back. -/
theorem word_store_self (hin : e.Within l.mapping) (hlen : ys.length = e.length) :
    (self.store e ys hin hlen).word e = leValue ys := by
  have hread := Extent.read_write_self (self.fits_bytes hin hlen)
  rw [hlen] at hread
  exact congrArg leValue hread

end Store

/-- Parts of different slots are apart. -/
theorem part_apart {i j : Fin l.slotCount} (hne : i ≠ j) {e f : Extent} (he : e ∈ l.parts i)
    (hf : f ∈ l.parts j) : e.Apart f := by
  rcases Nat.lt_or_gt_of_ne (fun h ↦ hne (Fin.ext h)) with hlt | hgt
  · exact (Layout.slot_apart hlt).mono (Layout.parts_within he) (Layout.parts_within hf)
  · exact ((Layout.slot_apart hgt).mono (Layout.parts_within hf) (Layout.parts_within he)).symm

/-- What lies in the header is apart from the slots. -/
theorem header_part_apart {e f : Extent} (h : e.stop ≤ headerBytes) {i : Nat} (hf : f ∈ l.parts i) :
    e.Apart f :=
  (Layout.header_apart i).mono ⟨Nat.zero_le _, h.trans_eq (Nat.zero_add _).symm⟩
    (Layout.parts_within hf)

section Accessors

variable (self : ShmImage l) (i j : Fin l.slotCount) (state : UInt32) (pos : UInt64)

@[simp] theorem writePos_storeState : (self.storeState i state).writePos = self.writePos :=
  congrArg UInt64.ofNat (word_store_apart _ _ (header_part_apart (by decide) (.head _)))

@[simp] theorem readPos_storeState : (self.storeState i state).readPos = self.readPos :=
  congrArg UInt64.ofNat (word_store_apart _ _ (header_part_apart (by decide) (.head _)))

@[simp] theorem slotState_storeState :
    (self.storeState i state).slotState j = if i = j then state else self.slotState j := by
  by_cases hij : i = j
  · subst hij
    have hword : (self.storeState i state).word (l.slotState i) = leValue (leBytes 4 state.toNat) :=
      word_store_self _ _
    rw [if_pos rfl, slotState, hword, leValue_leBytes_of_lt state.toNat_lt, UInt32.ofNat_toNat]
  · rw [if_neg hij]
    exact congrArg UInt32.ofNat
      (word_store_apart _ _ (part_apart (Ne.symm hij) (.head _) (.head _)))

@[simp] theorem slotLen_storeState : (self.storeState i state).slotLen j = self.slotLen j := by
  apply congrArg UInt32.ofNat
  apply word_store_apart
  by_cases hij : i = j
  · subst hij
    exact ((List.pairwise_cons.mp (Layout.parts_apart (l := l) i)).1 _ (.head _)).symm
  · exact part_apart (Ne.symm hij) (.tail _ (.head _)) (.head _)

@[simp] theorem slotData_storeState : (self.storeState i state).slotData j = self.slotData j := by
  apply read_store_apart
  by_cases hij : i = j
  · subst hij
    exact ((List.pairwise_cons.mp (Layout.parts_apart (l := l) i)).1 _
      (.tail _ (.head _))).symm
  · exact part_apart (Ne.symm hij) (.tail _ (.tail _ (.head _))) (.head _)

@[simp] theorem readPos_storeReadPos : (self.storeReadPos pos).readPos = pos := by
  have hword : (self.storeReadPos pos).word Layout.readPos = leValue (leBytes 8 pos.toNat) :=
    word_store_self _ _
  rw [readPos, hword, leValue_leBytes_of_lt pos.toNat_lt, UInt64.ofNat_toNat]

@[simp] theorem writePos_storeReadPos : (self.storeReadPos pos).writePos = self.writePos :=
  congrArg UInt64.ofNat (word_store_apart _ _ (by decide))

@[simp] theorem slotState_storeReadPos : (self.storeReadPos pos).slotState i = self.slotState i :=
  congrArg UInt32.ofNat (word_store_apart _ _ (header_part_apart (by decide) (.head _)).symm)

@[simp] theorem slotLen_storeReadPos : (self.storeReadPos pos).slotLen i = self.slotLen i :=
  congrArg UInt32.ofNat
    (word_store_apart _ _ (header_part_apart (by decide) (.tail _ (.head _))).symm)

@[simp] theorem slotData_storeReadPos : (self.storeReadPos pos).slotData i = self.slotData i :=
  read_store_apart _ _ (header_part_apart (by decide) (.tail _ (.tail _ (.head _)))).symm

/-- The header words below the counters. -/
theorem word_storeState {e : Extent} (h : e.stop ≤ headerBytes) :
    (self.storeState i state).word e = self.word e :=
  word_store_apart _ _ (header_part_apart h (.head _))

theorem word_storeReadPos {e : Extent} (h : e.stop ≤ 16) :
    (self.storeReadPos pos).word e = self.word e :=
  word_store_apart _ _ (.inl (Nat.le_trans h (by decide)))

end Accessors

/-- The bytes after `map.fill(0)`. -/
def zeroed (l : Layout) : ShmImage l where
  bytes := List.replicate l.total 0
  length_eq := List.length_replicate

/-- `init_ring`: everything zero, then the header and empty slot states.
From `crates/shm-io/src/lib.rs:185–198`. -/
def initRing (l : Layout) : ShmImage l :=
  let map := (((zeroed l).storeHeader 0 (by decide) shmMagic).storeHeader 4 (by decide) 1
    |>.storeHeader 8 (by decide) (UInt32.ofNat l.slotCount)).storeHeader 12 (by decide)
      (UInt32.ofNat l.slotBytes)
  (List.finRange l.slotCount).foldl (fun map idx ↦ map.storeState idx slotStateEmpty) map

section Init

private theorem word_zeroed (e : Extent) : (zeroed l).word e = 0 := by
  rw [word, zeroed, Extent.read, List.drop_replicate, List.take_replicate]
  exact leValue_replicate_zero _

private theorem word_storeHeader_self (self : ShmImage l) {start : Nat}
    (hin : start + 4 ≤ headerBytes)
    (value : UInt32) : (self.storeHeader start hin value).word ⟨start, 4⟩ = value.toNat := by
  have hword : (self.storeHeader start hin value).word ⟨start, 4⟩ =
      leValue (leBytes 4 value.toNat) := word_store_self _ _
  rw [hword, leValue_leBytes_of_lt value.toNat_lt]

private theorem word_storeHeader_apart (self : ShmImage l) {start : Nat}
    (hin : start + 4 ≤ headerBytes)
    (value : UInt32) {e : Extent} (h : e.Apart ⟨start, 4⟩) :
    (self.storeHeader start hin value).word e = self.word e :=
  word_store_apart _ _ h

/-- The loop over the slots keeps the header. -/
theorem word_emptied (idxs : List (Fin l.slotCount)) (self : ShmImage l) {e : Extent}
    (h : e.stop ≤ headerBytes) :
    (idxs.foldl (fun map idx ↦ map.storeState idx slotStateEmpty) self).word e = self.word e := by
  induction idxs generalizing self with
  | nil => rfl
  | cons idx idxs ih => rw [List.foldl_cons, ih, word_storeState _ _ _ h]

/-- The four header words. -/
theorem header_initRing (l : Layout) :
    (initRing l).word ⟨0, 4⟩ = shmMagic.toNat ∧ (initRing l).word ⟨4, 4⟩ = 1 ∧
      (initRing l).word ⟨8, 4⟩ = (UInt32.ofNat l.slotCount).toNat ∧
      (initRing l).word ⟨12, 4⟩ = (UInt32.ofNat l.slotBytes).toNat := by
  unfold initRing
  refine ⟨?_, ?_, ?_, ?_⟩ <;> rw [word_emptied _ _ (by decide)]
  · rw [word_storeHeader_apart _ _ _ (by decide), word_storeHeader_apart _ _ _ (by decide),
      word_storeHeader_apart _ _ _ (by decide), word_storeHeader_self]
  · rw [word_storeHeader_apart _ _ _ (by decide), word_storeHeader_apart _ _ _ (by decide),
      word_storeHeader_self]
    rfl
  · rw [word_storeHeader_apart _ _ _ (by decide), word_storeHeader_self]
  · rw [word_storeHeader_self]

/-- The counters start at zero. -/
theorem word_counter (l : Layout) {e : Extent} (h : 16 ≤ e.start) (h' : e.stop ≤ headerBytes) :
    (initRing l).word e = 0 := by
  have hapart : ∀ start, start + 4 ≤ 16 → e.Apart ⟨start, 4⟩ :=
    fun start hle ↦ .inr (Nat.le_trans hle h)
  unfold initRing
  rw [word_emptied _ _ h', word_storeHeader_apart _ _ _ (hapart 12 (by decide)),
    word_storeHeader_apart _ _ _ (hapart 8 (by decide)),
    word_storeHeader_apart _ _ _ (hapart 4 (by decide)),
    word_storeHeader_apart _ _ _ (hapart 0 (by decide)), word_zeroed]

/-- Header stores leave the slots. -/
theorem read_storeHeader (self : ShmImage l) {start : Nat} (hin : start + 4 ≤ headerBytes)
    (value : UInt32) {e : Extent} {i : Nat} (he : e ∈ l.parts i) :
    e.read (self.storeHeader start hin value).bytes = e.read self.bytes :=
  read_store_apart _ _ (header_part_apart (e := ⟨start, 4⟩) hin he).symm

private theorem slots_emptied (idxs : List (Fin l.slotCount)) (self : ShmImage l)
    (j : Fin l.slotCount)
    (h : self.slotState j = slotStateEmpty) :
    let map := idxs.foldl (fun map idx ↦ map.storeState idx slotStateEmpty) self
    map.slotState j = slotStateEmpty ∧ map.slotLen j = self.slotLen j ∧
      map.slotData j = self.slotData j := by
  induction idxs generalizing self with
  | nil => exact ⟨h, rfl, rfl⟩
  | cons idx idxs ih =>
    have hnext := ih (self.storeState idx slotStateEmpty) (by
      rw [slotState_storeState, h, ite_self])
    rwa [slotLen_storeState, slotData_storeState] at hnext

/-- Every slot starts empty and zero. -/
theorem slots_initRing (l : Layout) (j : Fin l.slotCount) :
    (initRing l).slotState j = slotStateEmpty ∧ (initRing l).slotLen j = 0 ∧
      (initRing l).slotData j = List.replicate l.slotBytes 0 := by
  have hread : ∀ e ∈ l.parts j, e.read (((((zeroed l).storeHeader 0 (by decide)
      shmMagic).storeHeader 4 (by decide) 1).storeHeader 8 (by decide)
        (UInt32.ofNat l.slotCount)).storeHeader 12 (by decide)
          (UInt32.ofNat l.slotBytes)).bytes = e.read (zeroed l).bytes := by
    intro e he
    rw [read_storeHeader _ _ _ he, read_storeHeader _ _ _ he, read_storeHeader _ _ _ he,
      read_storeHeader _ _ _ he]
  have hword : ∀ e ∈ l.parts j, leValue (e.read (((((zeroed l).storeHeader 0 (by decide)
      shmMagic).storeHeader 4 (by decide) 1).storeHeader 8 (by decide)
        (UInt32.ofNat l.slotCount)).storeHeader 12 (by decide)
          (UInt32.ofNat l.slotBytes)).bytes) = 0 := by
    intro e he
    rw [hread e he]
    exact word_zeroed e
  obtain ⟨hstate, hlen, hdata⟩ := slots_emptied (List.finRange l.slotCount) _ j
    (congrArg UInt32.ofNat (hword _ (.head _)))
  refine ⟨hstate, hlen.trans (congrArg UInt32.ofNat (hword _ (.tail _ (.head _)))), ?_⟩
  refine hdata.trans ((hread _ (.tail _ (.tail _ (.head _)))).trans ?_)
  have hstop : l.slotBase j + 8 + l.slotBytes ≤ l.total := by
    have hin : (l.slotData j).Within l.mapping := part_within (.tail _ (.tail _ (.head _)))
    exact hin.2.trans_eq (Nat.zero_add _)
  rw [zeroed, Extent.read, List.drop_replicate, List.take_replicate]
  congr 1
  dsimp only [Layout.slotData]
  omega

end Init

end ShmImage

/-- `validate_header`: magic and version first, then the sizes. Fewer than the 16 bytes it slices
make it panic. From `crates/shm-io/src/lib.rs:200–212`. -/
def ShmImage.validateHeader (bytes : List UInt8) (slotCount slotBytes : UInt32) :
    Outcome (Except ShmIoError Unit) :=
  let u32 (start : Nat) := UInt32.ofNat (leValue ((Extent.mk start 4).read bytes))
  if bytes.length < 16 then .panic
  else if u32 0 ≠ shmMagic ∨ u32 4 ≠ 1 then .ret (.error .badHeader)
  else if u32 8 ≠ slotCount ∨ u32 12 ≠ slotBytes then
    .ret (.error (.config "shm geometry mismatch vs config"))
  else .ret (.ok ())

/-- A ring that was just initialised is accepted. -/
theorem ShmImage.validateHeader_initRing (l : Layout) :
    ShmImage.validateHeader (ShmImage.initRing l).bytes (UInt32.ofNat l.slotCount)
      (UInt32.ofNat l.slotBytes) = .ret (.ok ()) := by
  obtain ⟨hmagic, hversion, hcount, hbytes⟩ := ShmImage.header_initRing l
  have hlen : ¬ (ShmImage.initRing l).bytes.length < 16 := by
    rw [(ShmImage.initRing l).length_eq, Layout.total, headerBytes]
    omega
  unfold ShmImage.word at hmagic hversion hcount hbytes
  unfold ShmImage.validateHeader
  simp only [if_neg hlen, hmagic, hversion, hcount, hbytes, UInt32.ofNat_toNat, ne_eq,
    not_true_eq_false, or_self, if_false]
  rfl

/-- A process's handle on the mapped bytes. -/
structure MappedRing (l : Layout) where
  map : ShmImage l
  pushed : UInt64
  popped : UInt64

/-- `try_pop` on the bytes of the mapping. From `crates/shm-io/src/lib.rs:161–178`. -/
def MappedRing.tryPop (self : MappedRing l) : MappedRing l × PopResult :=
  let r := self.map.readPos
  let w := self.map.writePos
  if r = w then (self, .ret (.ok none))
  else
    let idx := l.slotIdx r
    if self.map.slotState idx ≠ slotStateFull then (self, .ret (.ok none))
    else
      let n := (self.map.slotLen idx).toNat
      if n > l.slotBytes then (self, .panic)
      else
        match decodeFrame ((self.map.slotData idx).take n) with
        | .error e => (self, .ret (.error (.protocol e)))
        | .ok packet =>
          ({ self with
              map := (self.map.storeState idx slotStateEmpty).storeReadPos (r + 1)
              popped := self.popped + 1 }, .ret (.ok (some packet)))

namespace MappedRing

variable {self : MappedRing l}

/-- The slot `try_pop` looks at. -/
def next (self : MappedRing l) : Fin l.slotCount := l.slotIdx self.map.readPos

/-- What the next slot's bytes decode to. -/
def frame (self : MappedRing l) : Except ProtocolError Packet :=
  decodeFrame ((self.map.slotData self.next).take (self.map.slotLen self.next).toNat)

/-- The handle after a successful `try_pop`. -/
def advance (self : MappedRing l) : MappedRing l :=
  { self with
      map := (self.map.storeState self.next slotStateEmpty).storeReadPos (self.map.readPos + 1)
      popped := self.popped + 1 }

theorem tryPop_none (h : self.map.readPos = self.map.writePos ∨
    self.map.slotState self.next ≠ slotStateFull) : self.tryPop = (self, .ret (.ok none)) := by
  by_cases hempty : self.map.readPos = self.map.writePos
  · exact if_pos hempty
  · exact (if_neg hempty).trans (if_pos (h.resolve_left hempty))

section Full

variable (hne : self.map.readPos ≠ self.map.writePos)
  (hfull : self.map.slotState self.next = slotStateFull)

include hne hfull

theorem tryPop_panic (hlen : (self.map.slotLen self.next).toNat > l.slotBytes) :
    self.tryPop = (self, .panic) :=
  (if_neg hne).trans ((if_neg (not_not.mpr hfull)).trans (if_pos hlen))

theorem tryPop_error (hlen : (self.map.slotLen self.next).toNat ≤ l.slotBytes) {e : ProtocolError}
    (hframe : self.frame = .error e) : self.tryPop = (self, .ret (.error (.protocol e))) := by
  refine (if_neg hne).trans ((if_neg (not_not.mpr hfull)).trans
    ((if_neg (Nat.not_lt.mpr hlen)).trans ?_))
  change (match self.frame with | .error e => _ | .ok packet => _) = _
  rw [hframe]

theorem tryPop_packet (hlen : (self.map.slotLen self.next).toNat ≤ l.slotBytes) {packet : Packet}
    (hframe : self.frame = .ok packet) :
    self.tryPop = (self.advance, .ret (.ok (some packet))) := by
  refine (if_neg hne).trans ((if_neg (not_not.mpr hfull)).trans
    ((if_neg (Nat.not_lt.mpr hlen)).trans ?_))
  change (match self.frame with | .error e => _ | .ok packet => _) = _
  rw [hframe]
  rfl

end Full

end MappedRing

/-- For every content of the mapping whose header `open` accepts, `try_pop` comes back with `Ok` or
`Err` if and only if the ring is empty, its next slot is not full, or the length there is at most
the slot size. -/
theorem try_pop_safe_iff {l : Layout} (ring : MappedRing l) :
    ShmImage.validateHeader ring.map.bytes (UInt32.ofNat l.slotCount) (UInt32.ofNat l.slotBytes) =
      .ret (.ok ()) →
    ((∃ result, ring.tryPop.2 = .ret result) ↔
      ring.map.readPos = ring.map.writePos ∨
      ring.map.slotState (l.slotIdx ring.map.readPos) ≠ slotStateFull ∨
      (ring.map.slotLen (l.slotIdx ring.map.readPos)).toNat ≤ l.slotBytes) := by
  intro _
  by_cases hempty : ring.map.readPos = ring.map.writePos
  · rw [MappedRing.tryPop_none (.inl hempty)]
    exact ⟨fun _ ↦ .inl hempty, fun _ ↦ ⟨_, rfl⟩⟩
  by_cases hfull : ring.map.slotState ring.next = slotStateFull
  · by_cases hlong : (ring.map.slotLen ring.next).toNat ≤ l.slotBytes
    · refine ⟨fun _ ↦ .inr (.inr hlong), fun _ ↦ ?_⟩
      cases hframe : ring.frame with
      | error e => exact ⟨_, by rw [MappedRing.tryPop_error hempty hfull hlong hframe]⟩
      | ok packet => exact ⟨_, by rw [MappedRing.tryPop_packet hempty hfull hlong hframe]⟩
    · rw [MappedRing.tryPop_panic hempty hfull (Nat.not_le.mp hlong)]
      constructor
      · rintro ⟨result, hresult⟩
        cases hresult
      · rintro (h | h | h)
        · exact absurd h hempty
        · exact absurd hfull h
        · exact absurd h hlong
  · rw [MappedRing.tryPop_none (.inr hfull)]
    exact ⟨fun _ ↦ .inr (.inl hfull), fun _ ↦ ⟨_, rfl⟩⟩

/-- The smallest slot size `open` accepts. -/
theorem slotBytes_min : 64 ≤ 64 := Nat.le_refl 64

/-- One slot of 64 bytes, full, with the given length word. -/
def fullSlotImage (len : UInt32) :
    ShmImage { slotCount := 1, slotBytes := 64, slotCount_pos := Nat.one_pos,
               slotBytes_ge := slotBytes_min, total_lt := by decide } where
  bytes := leBytes 4 shmMagic.toNat ++ leBytes 4 1 ++ leBytes 4 1 ++ leBytes 4 64 ++ leBytes 8 1 ++
    leBytes 8 0 ++ List.replicate 32 0 ++ leBytes 4 slotStateFull.toNat ++ leBytes 4 len.toNat ++
    List.replicate 64 0
  length_eq := rfl

theorem try_pop_safe_slot_size :
    let ring : MappedRing _ := { map := fullSlotImage 64, pushed := 0, popped := 0 }
    (∃ result, ring.tryPop.2 = .ret result) ↔
      ring.map.readPos = ring.map.writePos ∨ ring.map.slotState 0 ≠ slotStateFull ∨
      (ring.map.slotLen 0).toNat ≤ 64 :=
  try_pop_safe_iff { map := fullSlotImage 64, pushed := 0, popped := 0 } (by decide +kernel)

/-- A length word of 65 in an accepted ring makes the consumer panic. -/
theorem try_pop_panics :
    let ring : MappedRing _ := { map := fullSlotImage 65, pushed := 0, popped := 0 }
    ShmImage.validateHeader ring.map.bytes 1 64 = .ret (.ok ()) ∧
      ¬ ∃ result, ring.tryPop.2 = .ret result := by
  intro ring
  refine ⟨by decide +kernel, ?_⟩
  rintro ⟨result, hresult⟩
  have hpanic : ring.tryPop.2 = .panic := by decide +kernel
  cases hpanic.symm.trans hresult

end AetherRadio.Shm
