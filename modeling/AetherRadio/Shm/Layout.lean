import AetherRadio.Lib.Extent
import Mathlib.Algebra.Group.Nat.Defs

/-!
# Layout of the mapped ring

`crates/shm-io/src/lib.rs`: a header of 64 bytes with the two counters in it, then one stride for
each slot: a state word, a length word and the slot's bytes. `open` checks the two sizes; the
offsets of a ring whose total size fits in a `usize` are below that size and do not overflow.
-/

namespace AetherRadio.Shm

open Verif

/-- `HEADER_BYTES`. From `crates/shm-io/src/lib.rs:16`. -/
def headerBytes : Nat := 64

/-- `slot_stride`. From `crates/shm-io/src/lib.rs:181–183`. -/
def slotStride (slotBytes : Nat) : Nat := 8 + slotBytes

/-- The sizes `ShmPacketRing::open` accepts. -/
structure Layout where
  slotCount : Nat
  slotBytes : Nat
  slotCount_pos : 0 < slotCount
  slotBytes_ge : 64 ≤ slotBytes
  total_lt : headerBytes + slotCount * slotStride slotBytes < 2 ^ 64

namespace Layout

variable (l : Layout)

/-- The size of the mapping. -/
def total : Nat := headerBytes + l.slotCount * slotStride l.slotBytes

/-- Where a slot starts. -/
def slotBase (idx : Nat) : Nat := headerBytes + idx * slotStride l.slotBytes

/-- The mapping. -/
def mapping : Extent := ⟨0, l.total⟩

/-- The header. -/
def header : Extent := ⟨0, headerBytes⟩

/-- The counter `write_pos` reads and writes. -/
def writePos : Extent := ⟨16, 8⟩

/-- The counter `read_pos` reads and writes. -/
def readPos : Extent := ⟨24, 8⟩

/-- The word of `slot_state`. -/
def slotState (idx : Nat) : Extent := ⟨l.slotBase idx, 4⟩

/-- The word of `slot_len`. -/
def slotLen (idx : Nat) : Extent := ⟨l.slotBase idx + 4, 4⟩

/-- The bytes of `slot_data`. -/
def slotData (idx : Nat) : Extent := ⟨l.slotBase idx + 8, l.slotBytes⟩

/-- The stride of a slot. -/
def slot (idx : Nat) : Extent := ⟨l.slotBase idx, slotStride l.slotBytes⟩

/-- The three parts of a slot. -/
def parts (idx : Nat) : List Extent := [l.slotState idx, l.slotLen idx, l.slotData idx]

variable {l} {i j : Nat}

/-- A slot ends before a later one starts. -/
theorem slot_apart (h : i < j) : (l.slot i).Apart (l.slot j) := by
  have hmul : (i + 1) * slotStride l.slotBytes ≤ j * slotStride l.slotBytes :=
    Nat.mul_le_mul_right _ h
  rw [Nat.succ_mul] at hmul
  unfold Extent.Apart Extent.stop slot slotBase
  dsimp only
  omega

theorem slot_within (h : i < l.slotCount) : (l.slot i).Within l.mapping := by
  have hmul : (i + 1) * slotStride l.slotBytes ≤ l.slotCount * slotStride l.slotBytes :=
    Nat.mul_le_mul_right _ h
  rw [Nat.succ_mul] at hmul
  unfold Extent.Within Extent.stop slot mapping slotBase total
  dsimp only
  omega

theorem header_apart (i : Nat) : header.Apart (l.slot i) := by
  unfold Extent.Apart Extent.stop header slot slotBase
  dsimp only
  omega

theorem header_within : header.Within l.mapping := by
  unfold Extent.Within Extent.stop header mapping total
  dsimp only
  omega

/-- A slot's parts lie in its stride. -/
theorem parts_within {e : Extent} (h : e ∈ l.parts i) : e.Within (l.slot i) := by
  have hcases : e = l.slotState i ∨ e = l.slotLen i ∨ e = l.slotData i := by
    simpa only [parts, List.mem_cons, List.not_mem_nil, or_false] using h
  unfold Extent.Within Extent.stop slot slotStride
  rcases hcases with rfl | rfl | rfl
  · unfold slotState
    dsimp only
    omega
  · unfold slotLen
    dsimp only
    omega
  · unfold slotData
    dsimp only
    omega

theorem parts_apart (i : Nat) : (l.parts i).Pairwise Extent.Apart := by
  simp only [parts, List.pairwise_cons, List.mem_cons, List.not_mem_nil, or_false,
    forall_eq_or_imp, forall_eq, IsEmpty.forall_iff, implies_true, List.Pairwise.nil, and_true]
  unfold Extent.Apart Extent.stop slotState slotLen slotData
  dsimp only
  omega

/-- What the accessors of slots `i` and `j` rely on, for a mapping that starts at a page. -/
structure Sound (l : Layout) (i j : Nat) : Prop where
  inside : (l.slotState i).Within l.mapping ∧ (l.slotLen i).Within l.mapping
  aligned : 4 ∣ (l.slotState i).start ∧ 4 ∣ (l.slotLen i).start
  counters : 8 ∣ writePos.start ∧ 8 ∣ readPos.start
  apart : (l.parts i).Pairwise Extent.Apart
  apart_slot : ∀ e ∈ l.parts i, ∀ f ∈ l.parts j, e.Apart f
  apart_header : ∀ e ∈ l.parts i, e.Apart header

/-- The words of a slot are aligned when the bytes of the slots before it are. -/
theorem slotBase_aligned (l : Layout) (i : Nat) : 4 ∣ l.slotBase i ↔ 4 ∣ i * l.slotBytes := by
  have hbase : l.slotBase i = 4 * (16 + i * 2) + i * l.slotBytes := by
    unfold slotBase headerBytes slotStride
    rw [Nat.mul_add]
    omega
  rw [hbase]
  exact Nat.dvd_add_right (Nat.dvd_mul_right 4 _)

/-- Only the alignment depends on the sizes. -/
theorem sound_iff (hij : i < j) (hj : j < l.slotCount) :
    l.Sound i j ↔ 4 ∣ i * l.slotBytes := by
  rw [← slotBase_aligned]
  constructor
  · intro h
    exact h.aligned.1
  · intro h
    constructor
    · have hslot := slot_within (Nat.lt_trans hij hj)
      have hstate := parts_within (l := l) (i := i) (.head _)
      have hlen := parts_within (l := l) (i := i) (.tail _ (.head _))
      unfold Extent.Within at *
      omega
    · exact ⟨h, (Nat.dvd_add_left (by decide)).mpr h⟩
    · exact ⟨by decide, by decide⟩
    · exact parts_apart i
    · intro e he f hf
      exact (slot_apart hij).mono (parts_within he) (parts_within hf)
    · intro e he
      exact ((header_apart i).mono ⟨Nat.le_refl _, Nat.le_refl _⟩ (parts_within he)).symm

/-- The two words of every slot, the last one included, are aligned if and only if the slot size is
a multiple of 4 or there is one slot only. -/
theorem words_aligned_iff (l : Layout) :
    (∀ i < l.slotCount, 4 ∣ (l.slotState i).start ∧ 4 ∣ (l.slotLen i).start) ↔
      4 ∣ l.slotBytes ∨ l.slotCount ≤ 1 := by
  have hwords (i : Nat) :
      4 ∣ (l.slotState i).start ∧ 4 ∣ (l.slotLen i).start ↔ 4 ∣ i * l.slotBytes := by
    rw [← slotBase_aligned]
    exact and_iff_left_of_imp fun h ↦ (Nat.dvd_add_left (by decide)).mpr h
  simp only [hwords]
  constructor
  · intro h
    by_cases hcount : l.slotCount ≤ 1
    · exact .inr hcount
    · have hsecond := h 1 (by omega)
      rw [Nat.one_mul] at hsecond
      exact .inl hsecond
  · rintro (hbytes | hcount) i hi
    · exact Nat.dvd_mul_left_of_dvd hbytes i
    · rw [show i = 0 by omega, Nat.zero_mul]
      exact Nat.dvd_zero 4

/-- For all sizes `open` accepts and every pair of slots, the layout is sound if and only if the
bytes before the first of the two end at a multiple of 4; for all pairs of slots at once, if and
only if the slot size is a multiple of 4 or there are at most two slots. With the words of the last
slot, which is no first of a pair, two slots are one too many. -/
theorem layout_sound_iff (l : Layout) :
    (∀ i j, i < j → j < l.slotCount → (l.Sound i j ↔ 4 ∣ i * l.slotBytes)) ∧
    ((∀ i j, i < j → j < l.slotCount → l.Sound i j) ↔ 4 ∣ l.slotBytes ∨ l.slotCount ≤ 2) ∧
    ((∀ i < l.slotCount, 4 ∣ (l.slotState i).start ∧ 4 ∣ (l.slotLen i).start) ↔
      4 ∣ l.slotBytes ∨ l.slotCount ≤ 1) := by
  refine ⟨fun i j ↦ sound_iff, ?_, words_aligned_iff l⟩
  constructor
  · intro h
    by_cases hcount : l.slotCount ≤ 2
    · exact .inr hcount
    · have hsound := h 1 2 (by decide) (by omega)
      rw [sound_iff (by decide) (by omega), Nat.one_mul] at hsound
      exact .inl hsound
  · intro h i j hij hj
    apply (sound_iff hij hj).mpr
    cases h with
    | inl hbytes => exact Nat.dvd_mul_left_of_dvd hbytes i
    | inr hcount =>
      have hi : i = 0 := by omega
      rw [hi, Nat.zero_mul]
      exact Nat.dvd_zero 4

/-- With slots of 65 bytes the words of slot 1 start at offset 137. -/
theorem layout_misaligned :
    ∃ l : Layout, l.slotCount = 3 ∧ l.slotBytes = 65 ∧ ¬ l.Sound 1 2 := by
  refine ⟨⟨3, 65, by decide, by decide, by decide⟩, rfl, rfl, ?_⟩
  intro h
  exact absurd h.aligned.1 (by decide)

end Layout

end AetherRadio.Shm
