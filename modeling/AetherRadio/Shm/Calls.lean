import AetherRadio.Shm.Steps

/-!
# Calls that run alone

`ShmPacketRing.tryPush` and `tryPop` are the calls without interference. Here they are shown to be
what the interleaved machine does when one process takes all the steps of its call in a row.
-/

namespace AetherRadio.Shm

open Verif

variable {g : Geometry}

/-- Repeating the action `a` leads from `s` to `s'` with the events `es`. -/
def Solo (a : Act) (s : World g) (es : List Event) (s' : World g) : Prop :=
  ∃ n, (machine g).run s (List.replicate n a) = s' ∧
    events ((machine g).trace s (List.replicate n a)) = es

namespace Solo

variable {a : Act} {s : World g}

theorem refl (a : Act) (s : World g) : Solo a s [] s := ⟨0, rfl, rfl⟩

/-- One step, then a solo run. -/
theorem step {s₁ s' : World g} {e : Option Event} {es : List Event} (h : s.act a = (s₁, e))
    (hrest : Solo a s₁ es s') : Solo a s (e.toList ++ es) s' := by
  obtain ⟨n, hrun, htrace⟩ := hrest
  refine ⟨n + 1, ?_, ?_⟩
  · show (machine g).run (s.act a).1 (List.replicate n a) = s'
    rw [h, hrun]
  · show events ((a, (s.act a).2) :: (machine g).trace (s.act a).1 (List.replicate n a)) = _
    rw [h, ← htrace]
    cases e <;> rfl

/-- A silent step, then a solo run. -/
theorem silent {s₁ s' : World g} {es : List Event} (h : s.act a = (s₁, none))
    (hrest : Solo a s₁ es s') : Solo a s es s' := step h hrest

end Solo

/-- Two stores into the same slot are one store of both effects. -/
private theorem World.storeSlot_storeSlot (s : World g) (pos : UInt64) (f f' : Slot g → Slot g) :
    (s.storeSlot pos f).storeSlot pos f' = s.storeSlot pos (fun slot ↦ f' (f slot)) := by
  simp only [World.storeSlot, ShmMap.setSlot, Function.update_self, Function.update_idem]

private theorem storeSlot_id (s : World g) (w : UInt64) : s.storeSlot w (fun slot ↦ slot) = s := by
  simp only [World.storeSlot, ShmMap.setSlot, Function.update_eq_self]

private theorem storeSlot_with_push (s : World g) (w : UInt64) (f f' : Slot g → Slot g)
    (pc pc' : PushPc) :
    { World.storeSlot { s.storeSlot w f with push := pc } w f' with push := pc' } =
      { s.storeSlot w (fun slot ↦ f' (f slot)) with push := pc' } := by
  rw [← World.storeSlot_storeSlot s w f f']
  rfl

private theorem solo_copy (s : World g) (packet : Packet) (w : UInt64) (f : Slot g → Slot g)
    (k : Nat) (todo : List UInt8) {es : List Event} {s' : World g}
    (hrest : Solo .stepPush { s.storeSlot w (fun slot ↦ ((f slot).copyFrom k todo).setLen
      (UInt32.ofNat (encodeFrame packet).length)) with push := .storeFull packet w } es s') :
    Solo .stepPush { s.storeSlot w f with push := .copy packet w k todo } es s' := by
  induction todo generalizing f k with
  | nil =>
    refine Solo.silent (congrArg (·, none) ?_) hrest
    exact storeSlot_with_push s w f
      (Slot.setLen · (UInt32.ofNat (encodeFrame packet).length)) _ _
  | cons b todo ih =>
    refine Solo.silent (congrArg (·, none) ?_) (ih (fun slot ↦ (f slot).setByte k b) _ hrest)
    exact storeSlot_with_push s w f (Slot.setByte · k b) _ _

/-- What a push by itself makes observable. -/
def pushEvents (packet : Packet) : Except ShmIoError Unit → List Event
  | .ok () => [.stored packet, .pushReturned packet (.ok ())]
  | .error e => [.pushReturned packet (.error e)]

/-- The producer is back from a call that left its handle as `ring`. -/
def World.afterPush (s : World g) (ring : ShmPacketRing g) : World g :=
  { s with map := ring.map, push := .idle, pushed := ring.pushed }

private theorem solo_push_error (s : World g) (packet : Packet) (e : ShmIoError) :
    Solo .stepPush { s with push := .ret packet (.error e) }
      (pushEvents packet (.error e)) (s.afterPush s.producer) :=
  Solo.step (e := some _) rfl (Solo.refl ..)

/-- A push whose steps all run in a row leaves the mapping and the counter `try_push` leaves, and
returns its result. -/
private theorem tryPush_solo (s : World g) (packet : Packet) (hidle : s.push = .idle) :
    Solo .stepPush (s.callPush packet) (pushEvents packet (s.producer.tryPush packet).2)
      (s.afterPush (s.producer.tryPush packet).1) := by
  have hcall : s.callPush packet = if (encodeFrame packet).length > g.slotBytes then
      { s with push := .ret packet (.error .frameTooLarge) }
      else { s with push := .loadWrite packet } := by rw [World.callPush, hidle]
  generalize hout : s.producer.tryPush packet = out
  rw [hcall]
  unfold ShmPacketRing.tryPush at hout
  dsimp only [World.producer] at hout
  split at hout
  · next hsize =>
    rw [if_pos hsize, ← hout]
    exact solo_push_error s packet _
  next hsize =>
  rw [if_neg hsize]
  apply Solo.silent rfl
  split at hout
  · next hfull =>
    refine Solo.silent (if_pos hfull) ?_
    rw [← hout]
    exact solo_push_error s packet _
  next hroom =>
  refine Solo.silent (if_neg hroom) ?_
  split at hout
  · next hstate =>
    refine Solo.silent (if_pos hstate) ?_
    rw [← hout]
    exact solo_push_error s packet _
  next hstate =>
  refine Solo.silent (if_neg hstate) ?_
  have hcopy := @solo_copy _ s packet s.map.writePos (fun slot ↦ slot) 0 (encodeFrame packet)
    (pushEvents packet out.2) (s.afterPush out.1)
  rw [storeSlot_id] at hcopy
  refine hcopy (Solo.silent (congrArg (·, none) (storeSlot_with_push s _ _
    (Slot.setState · slotStateFull) _ (.storeWrite packet s.map.writePos))) ?_)
  rw [← hout]
  exact Solo.step (e := some (.stored packet)) rfl (Solo.step (e := some _) rfl (Solo.refl ..))

/-- The consumer is back from a call that left its handle as `ring`. -/
def World.afterPop (s : World g) (ring : ShmPacketRing g) : World g :=
  { s with map := ring.map, pop := .idle, popped := ring.popped }

/-- What a pop by itself makes observable. -/
def popEvents : PopResult → List Event
  | .ret (.ok (some packet)) => [.freed packet, .popReturned (.ret (.ok (some packet)))]
  | result => [.popReturned result]

private theorem solo_pop_empty (s : World g) {result : PopResult}
    (h : ∀ packet, result ≠ .ret (.ok (some packet))) :
    Solo .stepPop { s with pop := .ret result } (popEvents result) (s.afterPop s.consumer) := by
  rcases result with (_ | _ | packet) | _
  · exact Solo.step (e := some _) rfl (Solo.refl ..)
  · exact Solo.step (e := some _) rfl (Solo.refl ..)
  · exact absurd rfl (h packet)
  · exact Solo.step (e := some _) rfl (Solo.refl ..)

private theorem solo_load (s : World g) (r : UInt64) (n : Nat) (k : Nat)
    (hn : n ≤ g.slotBytes) (hk : k ≤ n) {es : List Event} {s' : World g}
    (hrest : Solo .stepPop { s with
      pop := .loadBytes r n ((s.map.slots (slotIdx g r)).bytes.take n) } es s') :
    Solo .stepPop { s with
      pop := .loadBytes r n ((s.map.slots (slotIdx g r)).bytes.take k) } es s' := by
  induction hm : n - k generalizing k with
  | zero =>
    have hkn : k = n := by omega
    subst hkn
    exact hrest
  | succ m ih =>
    have hlen : ((s.map.slots (slotIdx g r)).bytes.take k).length = k := by
      rw [List.length_take, Slot.bytes, List.length_ofFn]
      omega
    have hload := ih (k + 1) (by omega) (by omega)
    have hstep : ((s.map.slots (slotIdx g r)).bytes.take k).length < n := by omega
    refine Solo.silent (if_pos hstep) ?_
    dsimp only
    rw [hlen, ← List.take_add]
    exact hload

/-- A pop whose steps all run in a row leaves the mapping and the counter `try_pop` leaves, and
returns its result. -/
private theorem tryPop_solo (s : World g) (hidle : s.pop = .idle) :
    Solo .stepPop s.callPop (popEvents s.consumer.tryPop.2) (s.afterPop s.consumer.tryPop.1) := by
  have hcall : s.callPop = { s with pop := .loadRead } := by rw [World.callPop, hidle]
  generalize hout : s.consumer.tryPop = out
  rw [hcall]
  unfold ShmPacketRing.tryPop at hout
  dsimp only [World.consumer] at hout
  apply Solo.silent rfl
  split at hout
  · next heq =>
    refine Solo.silent (if_pos heq) ?_
    rw [← hout]
    exact solo_pop_empty s (by rintro _ ⟨⟩)
  next hne =>
  refine Solo.silent (if_neg hne) ?_
  split at hout
  · next hstate =>
    refine Solo.silent (if_pos hstate) ?_
    rw [← hout]
    exact solo_pop_empty s (by rintro _ ⟨⟩)
  next hstate =>
  refine Solo.silent (if_neg hstate) ?_
  split at hout
  · next hlong =>
    refine Solo.silent (if_pos hlong) ?_
    rw [← hout]
    exact solo_pop_empty s (by rintro _ ⟨⟩)
  next hfits =>
  refine Solo.silent (if_neg hfits) ?_
  apply solo_load s _ _ 0 (Nat.le_of_not_lt hfits) (Nat.zero_le _)
  have hall : ¬ ((s.map.slots (slotIdx g s.map.readPos)).bytes.take
      (s.map.slots (slotIdx g s.map.readPos)).len.toNat).length <
      (s.map.slots (slotIdx g s.map.readPos)).len.toNat := by
    rw [List.length_take, Slot.bytes, List.length_ofFn]
    omega
  cases hdecode : decodeFrame ((s.map.slots (slotIdx g s.map.readPos)).bytes.take
      (s.map.slots (slotIdx g s.map.readPos)).len.toNat) with
  | error e =>
    rw [hdecode] at hout
    refine Solo.silent ((if_neg hall).trans (by rw [hdecode])) ?_
    rw [← hout]
    exact solo_pop_empty s (by rintro _ ⟨⟩)
  | ok packet =>
    rw [hdecode] at hout
    refine Solo.silent ((if_neg hall).trans (by rw [hdecode])) (Solo.silent rfl ?_)
    rw [← hout]
    exact Solo.step (e := some (.freed packet)) rfl (Solo.step (e := some _) rfl (Solo.refl ..))

/-- A pop that runs alone from here returns `result`. -/
def World.PopReturns (s : World g) (result : PopResult) : Prop :=
  ∃ s', Solo .stepPop s.callPop (popEvents result) s'

/-- A push that runs alone from here returns `result`. -/
def World.PushReturns (s : World g) (packet : Packet) (result : Except ShmIoError Unit) : Prop :=
  ∃ s', Solo .stepPush (s.callPush packet) (pushEvents packet result) s'

theorem World.popReturns_of_tryPop {s : World g} (hidle : s.pop = .idle) {result : PopResult}
    (h : s.consumer.tryPop.2 = result) : s.PopReturns result :=
  ⟨_, h ▸ tryPop_solo s hidle⟩

theorem World.pushReturns_of_tryPush {s : World g} (hidle : s.push = .idle) {packet : Packet}
    {result : Except ShmIoError Unit} (h : (s.producer.tryPush packet).2 = result) :
    s.PushReturns packet result :=
  ⟨_, h ▸ tryPush_solo s packet hidle⟩

end AetherRadio.Shm
