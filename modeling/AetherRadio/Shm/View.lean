import AetherRadio.Shm.Image

/-!
# The ring behind the bytes

The words and slots of `ShmMap` are a view of the mapped bytes: initialising, validating and popping
on the bytes is initialising, validating and popping on the view.
-/

namespace AetherRadio.Shm

open Verif

attribute [ext] ShmMap

variable {l : Layout}

/-- The layout of a ring whose size fits. -/
abbrev Geometry.layout (g : Geometry)
    (h : headerBytes + g.slotCount * slotStride g.slotBytes < 2 ^ 64) : Layout where
  slotCount := g.slotCount
  slotBytes := g.slotBytes
  slotCount_pos := g.slotCount_pos
  slotBytes_ge := g.slotBytes_ge
  total_lt := h

private theorem ShmImage.length_slotData (self : ShmImage l) (i : Fin l.slotCount) :
    (self.slotData i).length = l.slotBytes := by
  apply Extent.length_read
  rw [self.length_eq, ← Nat.zero_add l.total]
  exact (ShmImage.part_within (.tail _ (.tail _ (.head _)))).2

section View

variable {g : Geometry} {h : headerBytes + g.slotCount * slotStride g.slotBytes < 2 ^ 64}

/-- The words and slots the bytes stand for. -/
def ShmImage.view (self : ShmImage (g.layout h)) : ShmMap g where
  magic := UInt32.ofNat (self.word ⟨0, 4⟩)
  version := UInt32.ofNat (self.word ⟨4, 4⟩)
  slotCount := UInt32.ofNat (self.word ⟨8, 4⟩)
  slotBytes := UInt32.ofNat (self.word ⟨12, 4⟩)
  writePos := self.writePos
  readPos := self.readPos
  slots i :=
    { state := self.slotState i
      len := self.slotLen i
      data := fun k ↦ (self.slotData i).getD k 0 }

/-- The handle on the ring of words and slots. -/
def MappedRing.view (self : MappedRing (g.layout h)) : ShmPacketRing g where
  map := self.map.view
  pushed := self.pushed
  popped := self.popped

namespace ShmImage

private theorem bytes_view (self : ShmImage (g.layout h)) (i : Fin g.slotCount) :
    (self.view.slots i).bytes = self.slotData i := by
  have hlen : (self.slotData i).length = g.slotBytes := self.length_slotData (l := g.layout h) i
  apply List.ext_getElem
  · rw [Slot.bytes, List.length_ofFn, hlen]
  · intro k _ hk
    simp only [Slot.bytes, List.getElem_ofFn]
    change (self.slotData i).getD k 0 = _
    rw [List.getD_eq_getElem?_getD, List.getElem?_eq_getElem hk, Option.getD_some]

private theorem view_storeState (self : ShmImage (g.layout h)) (i : Fin g.slotCount)
    (state : UInt32) :
    (self.storeState (l := g.layout h) i state).view =
      self.view.setSlot i ((self.view.slots i).setState state) := by
  have hword : ∀ e : Extent, e.stop ≤ headerBytes →
      (self.storeState (l := g.layout h) i state).word e = self.word e :=
    fun e he ↦ word_storeState (l := g.layout h) self i state he
  apply ShmMap.ext
  · exact congrArg UInt32.ofNat (hword _ (by decide))
  · exact congrArg UInt32.ofNat (hword _ (by decide))
  · exact congrArg UInt32.ofNat (hword _ (by decide))
  · exact congrArg UInt32.ofNat (hword _ (by decide))
  · exact writePos_storeState (l := g.layout h) self i state
  · exact readPos_storeState (l := g.layout h) self i state
  · funext j
    have hstate := slotState_storeState (l := g.layout h) self i j state
    have hlen := slotLen_storeState (l := g.layout h) self i j state
    have hdata := slotData_storeState (l := g.layout h) self i j state
    change _ = Function.update self.view.slots i _ j
    by_cases hij : j = i
    · subst hij
      rw [Function.update_self]
      simp only [view, Slot.setState, hstate, hlen, hdata, if_true]
    · rw [Function.update_of_ne hij]
      simp only [view, hstate, hlen, hdata, if_neg (Ne.symm hij)]

private theorem view_storeReadPos (self : ShmImage (g.layout h)) (pos : UInt64) :
    (self.storeReadPos pos).view = { self.view with readPos := pos } := by
  apply ShmMap.ext
  · exact congrArg UInt32.ofNat (word_storeReadPos self pos (by decide))
  · exact congrArg UInt32.ofNat (word_storeReadPos self pos (by decide))
  · exact congrArg UInt32.ofNat (word_storeReadPos self pos (by decide))
  · exact congrArg UInt32.ofNat (word_storeReadPos self pos (by decide))
  · exact writePos_storeReadPos self pos
  · exact readPos_storeReadPos self pos
  · funext j
    have hstate := slotState_storeReadPos (l := g.layout h) self j pos
    have hlen := slotLen_storeReadPos (l := g.layout h) self j pos
    have hdata := slotData_storeReadPos (l := g.layout h) self j pos
    simp only [view, hstate, hlen, hdata]

end ShmImage

/-- `try_pop` on the bytes is `try_pop` on the words and slots they stand for. -/
theorem MappedRing.tryPop_view (self : MappedRing (g.layout h)) :
    self.view.tryPop = (self.tryPop.1.view, self.tryPop.2) := by
  have hbytes := self.map.bytes_view (slotIdx g self.map.readPos)
  have hframe : decodeFrame ((self.view.map.slots (slotIdx g self.view.map.readPos)).bytes.take
      (self.view.map.slots (slotIdx g self.view.map.readPos)).len.toNat) = self.frame := by
    change decodeFrame ((self.map.view.slots (slotIdx g self.map.readPos)).bytes.take _) = _
    rw [self.map.bytes_view]
    rfl
  have hadvance : ({ self.view with
      map := { self.map.view.setSlot (slotIdx g self.map.readPos)
          ((self.map.view.slots (slotIdx g self.map.readPos)).setState slotStateEmpty) with
        readPos := self.map.readPos + 1 }
      popped := self.popped + 1 } : ShmPacketRing g) = self.advance.view := by
    rw [← self.map.view_storeState, ← ShmImage.view_storeReadPos]
    rfl
  by_cases hempty : self.map.readPos = self.map.writePos
  · rw [tryPop_none (.inl hempty)]
    exact if_pos hempty
  by_cases hfull : self.map.slotState self.next = slotStateFull
  · by_cases hlong : (self.map.slotLen self.next).toNat > g.slotBytes
    · rw [tryPop_panic hempty hfull hlong]
      exact (if_neg hempty).trans ((if_neg (not_not.mpr hfull)).trans (if_pos hlong))
    · refine (if_neg hempty).trans ((if_neg (not_not.mpr hfull)).trans
        ((if_neg hlong).trans ?_))
      rw [hframe]
      cases hdecode : self.frame with
      | error e =>
        rw [tryPop_error hempty hfull (Nat.not_lt.mp hlong) hdecode]
      | ok packet =>
        rw [tryPop_packet hempty hfull (Nat.not_lt.mp hlong) hdecode]
        exact Prod.ext hadvance rfl
  · rw [tryPop_none (.inr hfull)]
    exact (if_neg hempty).trans (if_pos hfull)

/-- `validate_header` on the bytes is `validate_header` on the header words. -/
theorem ShmImage.validateHeader_view (self : ShmImage (g.layout h)) (slotCount slotBytes : UInt32) :
    ShmImage.validateHeader self.bytes slotCount slotBytes =
      .ret (Shm.validateHeader self.view slotCount slotBytes) := by
  have hlen : ¬ self.bytes.length < 16 := by
    rw [self.length_eq, Layout.total, headerBytes]
    omega
  unfold ShmImage.validateHeader Shm.validateHeader
  rw [if_neg hlen]
  change (if self.view.magic ≠ shmMagic ∨ self.view.version ≠ 1 then _
    else if self.view.slotCount ≠ slotCount ∨ self.view.slotBytes ≠ slotBytes then _ else _) = _
  by_cases hmagic : self.view.magic ≠ shmMagic ∨ self.view.version ≠ 1
  · rw [if_pos hmagic, if_pos hmagic]
  · rw [if_neg hmagic, if_neg hmagic]
    by_cases hsizes : self.view.slotCount ≠ slotCount ∨ self.view.slotBytes ≠ slotBytes
    · rw [if_pos hsizes, if_pos hsizes]
    · rw [if_neg hsizes, if_neg hsizes]

/-- `init_ring` on the bytes is `init_ring` on the words and slots. -/
theorem ShmImage.view_initRing : (ShmImage.initRing (g.layout h)).view = Shm.initRing g := by
  obtain ⟨hmagic, hversion, hcount, hbytes⟩ := ShmImage.header_initRing (g.layout h)
  apply ShmMap.ext
  · exact (congrArg UInt32.ofNat hmagic).trans UInt32.ofNat_toNat
  · exact congrArg UInt32.ofNat hversion
  · exact (congrArg UInt32.ofNat hcount).trans UInt32.ofNat_toNat
  · exact (congrArg UInt32.ofNat hbytes).trans UInt32.ofNat_toNat
  · exact congrArg UInt64.ofNat (ShmImage.word_counter _ (by decide) (by decide))
  · exact congrArg UInt64.ofNat (ShmImage.word_counter _ (by decide) (by decide))
  · funext j
    obtain ⟨hstate, hlen, hdata⟩ := ShmImage.slots_initRing (g.layout h) j
    simp only [ShmImage.view, Shm.initRing, hstate, hlen, hdata, Slot.mk.injEq, true_and]
    funext k
    rw [List.getD_eq_getElem?_getD, List.getElem?_replicate, if_pos k.isLt, Option.getD_some]

end View

end AetherRadio.Shm
