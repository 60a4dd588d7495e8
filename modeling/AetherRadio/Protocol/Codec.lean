import AetherRadio.Protocol.Frame

/-!
# Exactness of the frame codec

A frame is cut at the header's offsets into parts of fixed widths. Decoding is described once
on such parts; the round trip, the set of accepted byte strings and the rejection of cut or
extended frames follow from that description.
-/

namespace AetherRadio

open Verif

/-- A byte string of at least 32 bytes, cut at the header offsets. -/
structure FrameParts where
  magic : List UInt8
  version : List UInt8
  reserved : List UInt8
  streamId : List UInt8
  timestamp : List UInt8
  sequence : List UInt8
  payloadLen : List UInt8
  body : List UInt8
  magic_length : magic.length = 4
  version_length : version.length = 2
  reserved_length : reserved.length = 2
  streamId_length : streamId.length = 4
  timestamp_length : timestamp.length = 8
  sequence_length : sequence.length = 8
  payloadLen_length : payloadLen.length = 4

namespace FrameParts

/-- The byte string the parts were cut from. -/
def bytes (f : FrameParts) : List UInt8 :=
  f.magic ++ (f.version ++ (f.reserved ++ (f.streamId ++ (f.timestamp ++ (f.sequence ++
    (f.payloadLen ++ f.body))))))

/-- Cut a long enough byte string. -/
def split (b : List UInt8) (h : 32 ≤ b.length) : FrameParts where
  magic := slice b 0 4
  version := slice b 4 6
  reserved := slice b 6 8
  streamId := slice b 8 12
  timestamp := slice b 12 20
  sequence := slice b 20 28
  payloadLen := slice b 28 32
  body := b.drop 32
  magic_length := by simp only [slice, List.length_take, List.length_drop]; omega
  version_length := by simp only [slice, List.length_take, List.length_drop]; omega
  reserved_length := by simp only [slice, List.length_take, List.length_drop]; omega
  streamId_length := by simp only [slice, List.length_take, List.length_drop]; omega
  timestamp_length := by simp only [slice, List.length_take, List.length_drop]; omega
  sequence_length := by simp only [slice, List.length_take, List.length_drop]; omega
  payloadLen_length := by simp only [slice, List.length_take, List.length_drop]; omega

private theorem slice_append_drop (b : List UInt8) (lo n : Nat) :
    slice b lo (lo + n) ++ b.drop (lo + n) = b.drop lo := by
  rw [slice, Nat.add_sub_cancel_left, ← List.drop_drop, List.take_append_drop]

/-- Cutting loses nothing. -/
private theorem bytes_split (b : List UInt8) (h : 32 ≤ b.length) : (split b h).bytes = b := by
  simp only [bytes, split]
  rw [slice_append_drop b 28 4, slice_append_drop b 20 8, slice_append_drop b 12 8,
    slice_append_drop b 8 4, slice_append_drop b 6 2, slice_append_drop b 4 2,
    slice_append_drop b 0 4, List.drop_zero]

private theorem slice_here (x rest : List UInt8) {n : Nat} (h : x.length = n) :
    slice (x ++ rest) 0 n = x := by
  rw [slice, List.drop_zero, Nat.sub_zero, ← h, List.take_left]

private theorem slice_past (x rest : List UInt8) {n : Nat} (lo hi : Nat) (h : x.length = n) :
    slice (x ++ rest) (n + lo) (n + hi) = slice rest lo hi := by
  rw [slice, slice, ← h, List.drop_length_add_append, Nat.add_sub_add_left]

variable (f : FrameParts)

/-- The header fields of a cut frame are the values of its parts. -/
private theorem fields_bytes : AetherHeader.fields f.bytes =
    { magic := UInt32.ofNat (leValue f.magic)
      version := UInt16.ofNat (leValue f.version)
      streamId := UInt32.ofNat (leValue f.streamId)
      timestamp := UInt64.ofNat (leValue f.timestamp)
      sequence := UInt64.ofNat (leValue f.sequence)
      payloadLen := UInt32.ofNat (leValue f.payloadLen) } := by
  have hm : slice f.bytes 0 4 = f.magic := slice_here _ _ f.magic_length
  have hv : slice f.bytes 4 6 = f.version := by
    rw [bytes, slice_past _ _ 0 2 f.magic_length]
    exact slice_here _ _ f.version_length
  have hs : slice f.bytes 8 12 = f.streamId := by
    rw [bytes, slice_past _ _ 4 8 f.magic_length,
      slice_past _ _ 2 6 f.version_length,
      slice_past _ _ 0 4 f.reserved_length]
    exact slice_here _ _ f.streamId_length
  have ht : slice f.bytes 12 20 = f.timestamp := by
    rw [bytes, slice_past _ _ 8 16 f.magic_length,
      slice_past _ _ 6 14 f.version_length,
      slice_past _ _ 4 12 f.reserved_length,
      slice_past _ _ 0 8 f.streamId_length]
    exact slice_here _ _ f.timestamp_length
  have hq : slice f.bytes 20 28 = f.sequence := by
    rw [bytes, slice_past _ _ 16 24 f.magic_length,
      slice_past _ _ 14 22 f.version_length,
      slice_past _ _ 12 20 f.reserved_length,
      slice_past _ _ 8 16 f.streamId_length,
      slice_past _ _ 0 8 f.timestamp_length]
    exact slice_here _ _ f.sequence_length
  have hl : slice f.bytes 28 32 = f.payloadLen := by
    rw [bytes, slice_past _ _ 24 28 f.magic_length,
      slice_past _ _ 22 26 f.version_length,
      slice_past _ _ 20 24 f.reserved_length,
      slice_past _ _ 16 20 f.streamId_length,
      slice_past _ _ 8 12 f.timestamp_length,
      slice_past _ _ 0 4 f.sequence_length]
    exact slice_here _ _ f.payloadLen_length
  rw [AetherHeader.fields, hm, hv, hs, ht, hq, hl]

private theorem length_bytes : f.bytes.length = 32 + f.body.length := by
  simp only [bytes, List.length_append, f.magic_length, f.version_length, f.reserved_length,
    f.streamId_length, f.timestamp_length, f.sequence_length, f.payloadLen_length]
  omega

private theorem drop_bytes : f.bytes.drop 32 = f.body := by
  have hcat : f.bytes = (f.magic ++ (f.version ++ (f.reserved ++ (f.streamId ++ (f.timestamp ++
      (f.sequence ++ f.payloadLen)))))) ++ f.body := by
    simp only [bytes, List.append_assoc]
  have hlen : (f.magic ++ (f.version ++ (f.reserved ++ (f.streamId ++ (f.timestamp ++
      (f.sequence ++ f.payloadLen)))))).length = 32 := by
    simp only [List.length_append, f.magic_length, f.version_length, f.reserved_length,
      f.streamId_length, f.timestamp_length, f.sequence_length, f.payloadLen_length]
  rw [hcat, ← hlen, List.drop_left]

/-- The encoding of a packet, as parts. -/
def ofPacket (p : Packet) : FrameParts where
  magic := leBytes 4 aetherMagic.toNat
  version := leBytes 2 aetherVersion.toNat
  reserved := [0, 0]
  streamId := leBytes 4 p.streamId.val.toNat
  timestamp := leBytes 8 p.timestamp.val.toNat
  sequence := leBytes 8 p.sequence.val.toNat
  payloadLen := leBytes 4 (UInt32.ofNat p.payload.length).toNat
  body := p.payload
  magic_length := length_leBytes ..
  version_length := length_leBytes ..
  reserved_length := rfl
  streamId_length := length_leBytes ..
  timestamp_length := length_leBytes ..
  sequence_length := length_leBytes ..
  payloadLen_length := length_leBytes ..

/-- The encoder writes exactly these parts. -/
theorem bytes_ofPacket (p : Packet) : (ofPacket p).bytes = encodeFrame p := by
  simp only [bytes, ofPacket, encodeFrame, AetherHeader.encode, AetherHeader.new,
    List.append_assoc]

/-- The decoder on a cut frame: the checks in the order of the source. -/
theorem decodeFrame_bytes : decodeFrame f.bytes =
    if UInt32.ofNat (leValue f.magic) ≠ aetherMagic then
      .error (.badMagic (UInt32.ofNat (leValue f.magic)))
    else if UInt16.ofNat (leValue f.version) ≠ aetherVersion then
      .error (.unsupportedVersion (UInt16.ofNat (leValue f.version)))
    else if f.body.length ≠ (UInt32.ofNat (leValue f.payloadLen)).toNat then
      .error (.payloadLenMismatch (UInt32.ofNat (leValue f.payloadLen)) f.body.length)
    else .ok ⟨⟨UInt32.ofNat (leValue f.streamId)⟩, ⟨UInt64.ofNat (leValue f.sequence)⟩,
      ⟨UInt64.ofNat (leValue f.timestamp)⟩, f.body⟩ := by
  have hlong : ¬ f.bytes.length < 32 := by rw [length_bytes]; omega
  rw [decodeFrame, AetherHeader.decode, if_neg hlong, fields_bytes, AetherHeader.validate,
    drop_bytes]
  by_cases hm : UInt32.ofNat (leValue f.magic) = aetherMagic
  · by_cases hv : UInt16.ofNat (leValue f.version) = aetherVersion
    · simp only [hm, hv, ne_eq, not_true_eq_false, ite_false]
    · simp only [hm, hv, ne_eq, not_true_eq_false, not_false_eq_true, ite_false, ite_true]
  · simp only [hm, ne_eq, not_false_eq_true, ite_true]

private theorem u32_eq_iff {v : Nat} (h : v < 2 ^ 32) (x : UInt32) :
    UInt32.ofNat v = x ↔ v = x.toNat := by
  rw [← UInt32.toNat_inj, UInt32.toNat_ofNat', Nat.mod_eq_of_lt h]

private theorem u16_eq_iff {v : Nat} (h : v < 2 ^ 16) (x : UInt16) :
    UInt16.ofNat v = x ↔ v = x.toNat := by
  rw [← UInt16.toNat_inj, UInt16.toNat_ofNat', Nat.mod_eq_of_lt h]

private theorem u64_eq_iff {v : Nat} (h : v < 2 ^ 64) (x : UInt64) :
    UInt64.ofNat v = x ↔ v = x.toNat := by
  rw [← UInt64.toNat_inj, UInt64.toNat_ofNat', Nat.mod_eq_of_lt h]

private theorem leValue_lt_of_length {xs : List UInt8} {n : Nat} (h : xs.length = n) :
    leValue xs < 256 ^ n := h ▸ leValue_lt xs

private theorem leValue_eq_iff {xs : List UInt8} {n v : Nat} (h : xs.length = n)
    (hv : v < 256 ^ n) : leValue xs = v ↔ leBytes n v = xs := by
  constructor
  · rintro rfl
    rw [← h, leBytes_leValue]
  · rintro rfl
    exact leValue_leBytes_of_lt hv

/-- What the decoder accepts, part by part. -/
theorem decodeFrame_bytes_eq_ok_iff (p : Packet) : decodeFrame f.bytes = .ok p ↔
    leBytes 4 aetherMagic.toNat = f.magic ∧ leBytes 2 aetherVersion.toNat = f.version ∧
    leBytes 4 p.streamId.val.toNat = f.streamId ∧ leBytes 8 p.timestamp.val.toNat = f.timestamp ∧
    leBytes 8 p.sequence.val.toNat = f.sequence ∧ leValue f.payloadLen = p.payload.length ∧
    p.payload = f.body := by
  have hm := leValue_lt_of_length f.magic_length
  have hv := leValue_lt_of_length f.version_length
  have hs := leValue_lt_of_length f.streamId_length
  have ht := leValue_lt_of_length f.timestamp_length
  have hq := leValue_lt_of_length f.sequence_length
  have hl := leValue_lt_of_length f.payloadLen_length
  have hlen : (UInt32.ofNat (leValue f.payloadLen)).toNat = leValue f.payloadLen := by
    rw [UInt32.toNat_ofNat']
    omega
  rw [← leValue_eq_iff f.magic_length aetherMagic.toNat_lt,
    ← leValue_eq_iff f.version_length aetherVersion.toNat_lt,
    ← leValue_eq_iff f.streamId_length p.streamId.val.toNat_lt,
    ← leValue_eq_iff f.timestamp_length p.timestamp.val.toNat_lt,
    ← leValue_eq_iff f.sequence_length p.sequence.val.toNat_lt,
    ← u32_eq_iff hm, ← u16_eq_iff hv, ← u32_eq_iff hs, ← u64_eq_iff ht, ← u64_eq_iff hq,
    decodeFrame_bytes, hlen]
  obtain ⟨⟨ps⟩, ⟨pq⟩, ⟨pt⟩, pb⟩ := p
  constructor
  · intro h
    split at h
    · cases h
    · next hmagic =>
      split at h
      · cases h
      · next hversion =>
        split at h
        · cases h
        · next hbody =>
          cases h
          exact ⟨not_not.mp hmagic, not_not.mp hversion, rfl, rfl, rfl,
            (not_not.mp hbody).symm, rfl⟩
  · rintro ⟨hmagic, hversion, rfl, rfl, rfl, hbody, hpayload⟩
    change pb = f.body at hpayload
    subst hpayload
    rw [if_neg (not_not.mpr hmagic), if_neg (not_not.mpr hversion),
      if_neg (not_not.mpr hbody.symm)]

/-- Cut frames are equal exactly when their parts are. -/
private theorem bytes_inj {f g : FrameParts} (h : f.bytes = g.bytes) :
    f.magic = g.magic ∧ f.version = g.version ∧ f.reserved = g.reserved ∧
    f.streamId = g.streamId ∧ f.timestamp = g.timestamp ∧ f.sequence = g.sequence ∧
    f.payloadLen = g.payloadLen ∧ f.body = g.body := by
  obtain ⟨h1, h⟩ := List.append_inj h (f.magic_length.trans g.magic_length.symm)
  obtain ⟨h2, h⟩ := List.append_inj h (f.version_length.trans g.version_length.symm)
  obtain ⟨h3, h⟩ := List.append_inj h (f.reserved_length.trans g.reserved_length.symm)
  obtain ⟨h4, h⟩ := List.append_inj h (f.streamId_length.trans g.streamId_length.symm)
  obtain ⟨h5, h⟩ := List.append_inj h (f.timestamp_length.trans g.timestamp_length.symm)
  obtain ⟨h6, h⟩ := List.append_inj h (f.sequence_length.trans g.sequence_length.symm)
  obtain ⟨h7, h8⟩ := List.append_inj h (f.payloadLen_length.trans g.payloadLen_length.symm)
  exact ⟨h1, h2, h3, h4, h5, h6, h7, h8⟩

/-- The same frame with the reserved bytes set to zero. -/
def cleared (f : FrameParts) : FrameParts := { f with reserved := [0, 0], reserved_length := rfl }

end FrameParts

/-- Bytes 6 and 7 set to zero. -/
def clearReserved (b : List UInt8) : List UInt8 := (b.set 6 0).set 7 0

private theorem FrameParts.bytes_cleared (f : FrameParts) :
    f.cleared.bytes = clearReserved f.bytes := by
  obtain ⟨a, b, hr⟩ : ∃ a b, f.reserved = [a, b] := List.length_eq_two.mp f.reserved_length
  have hm := f.magic_length
  have hv := f.version_length
  simp [clearReserved, FrameParts.bytes, FrameParts.cleared, hr, hm, hv]

/-- An encoding is at least a header long. -/
private theorem le_length_encodeFrame (p : Packet) : 32 ≤ (encodeFrame p).length := by
  rw [length_encodeFrame]
  omega

/-- Every packet whose payload length fits the length field survives the round trip. -/
theorem decodeFrame_encodeFrame {p : Packet} (h : p.payload.length < 2 ^ 32) :
    decodeFrame (encodeFrame p) = .ok p := by
  rw [← FrameParts.bytes_ofPacket, FrameParts.decodeFrame_bytes_eq_ok_iff]
  refine ⟨rfl, rfl, rfl, rfl, rfl, ?_, rfl⟩
  have hlen : (UInt32.ofNat p.payload.length).toNat = p.payload.length := by
    rw [UInt32.toNat_ofNat', Nat.mod_eq_of_lt h]
  show leValue (leBytes 4 (UInt32.ofNat p.payload.length).toNat) = p.payload.length
  rw [hlen, leValue_leBytes_of_lt h]

/-- A longer payload is announced modulo `2 ^ 32`, and the body check refuses the frame. -/
private theorem decodeFrame_encodeFrame_of_le {p : Packet} (h : 2 ^ 32 ≤ p.payload.length) :
    decodeFrame (encodeFrame p) = .error (.payloadLenMismatch
      (UInt32.ofNat p.payload.length) p.payload.length) := by
  have hword : leValue (leBytes 4 (UInt32.ofNat p.payload.length).toNat) =
      (UInt32.ofNat p.payload.length).toNat :=
    leValue_leBytes_of_lt (UInt32.ofNat p.payload.length).toNat_lt
  have hne : p.payload.length ≠ (UInt32.ofNat p.payload.length).toNat := by
    have := (UInt32.ofNat p.payload.length).toNat_lt
    omega
  have hmagic : leValue (leBytes 4 aetherMagic.toNat) = aetherMagic.toNat :=
    leValue_leBytes_of_lt aetherMagic.toNat_lt
  have hversion : leValue (leBytes 2 aetherVersion.toNat) = aetherVersion.toNat :=
    leValue_leBytes_of_lt aetherVersion.toNat_lt
  rw [← FrameParts.bytes_ofPacket, FrameParts.decodeFrame_bytes]
  simp only [FrameParts.ofPacket, hmagic, hversion, hword, UInt32.ofNat_toNat, UInt16.ofNat_toNat,
    ne_eq, not_true_eq_false, ite_false]
  exact if_pos hne

/-- Accepted byte strings are the encodings with arbitrary reserved bytes. -/
theorem decodeFrame_eq_ok_iff (b : List UInt8) (p : Packet) :
    decodeFrame b = .ok p ↔
      p.payload.length < 2 ^ 32 ∧ encodeFrame p = clearReserved b := by
  by_cases hb : 32 ≤ b.length
  · obtain ⟨f, rfl⟩ : ∃ f : FrameParts, f.bytes = b := ⟨_, FrameParts.bytes_split b hb⟩
    rw [← FrameParts.bytes_cleared, ← FrameParts.bytes_ofPacket]
    constructor
    · intro h
      obtain ⟨h1, h2, h3, h4, h5, h6, h7⟩ := (f.decodeFrame_bytes_eq_ok_iff p).mp h
      have hlt : p.payload.length < 2 ^ 32 := by
        have := leValue_lt f.payloadLen
        rw [f.payloadLen_length] at this
        omega
      have hlen : (UInt32.ofNat p.payload.length).toNat = p.payload.length := by
        rw [UInt32.toNat_ofNat', Nat.mod_eq_of_lt hlt]
      have hword : leBytes 4 (UInt32.ofNat p.payload.length).toNat = f.payloadLen := by
        rw [hlen, ← h6, ← f.payloadLen_length, leBytes_leValue]
      refine ⟨hlt, ?_⟩
      simp only [FrameParts.bytes, FrameParts.ofPacket, FrameParts.cleared]
      rw [hword, h1, h2, h3, h4, h5, h7]
    · rintro ⟨hlt, heq⟩
      obtain ⟨h1, h2, -, h3, h4, h5, h6, h7⟩ := FrameParts.bytes_inj heq
      have hlen : (UInt32.ofNat p.payload.length).toNat = p.payload.length := by
        rw [UInt32.toNat_ofNat', Nat.mod_eq_of_lt hlt]
      refine (f.decodeFrame_bytes_eq_ok_iff p).mpr ⟨h1, h2, h3, h4, h5, ?_, h7⟩
      change leBytes 4 (UInt32.ofNat p.payload.length).toNat = f.payloadLen at h6
      rw [← h6, hlen, leValue_leBytes_of_lt hlt]
  · constructor
    · intro h
      rw [decodeFrame, AetherHeader.decode, if_pos (by omega)] at h
      cases h
    · rintro ⟨-, heq⟩
      have := congrArg List.length heq
      have := le_length_encodeFrame p
      simp only [clearReserved, List.length_set] at *
      omega

/-- An accepted string is as long as its header says. -/
theorem length_of_decodeFrame {b : List UInt8} {p : Packet} (h : decodeFrame b = .ok p) :
    32 ≤ b.length ∧ b.length = 32 + (AetherHeader.fields b).payloadLen.toNat := by
  rw [decodeFrame, AetherHeader.decode] at h
  split at h
  · cases h
  · next header hd =>
    split at hd
    · cases hd
    · next hlong =>
      have hf : AetherHeader.fields b = header := by
        split at hd <;> cases hd
        rfl
      dsimp only at h
      split at h
      · cases h
      · next hbody =>
        rw [List.length_drop, not_not] at hbody
        rw [hf]
        omega

private theorem slice_append_of_le {b c : List UInt8} {lo : Nat} (hi : Nat) (h : hi ≤ b.length) :
    slice (b ++ c) lo hi = slice b lo hi := by
  by_cases hlo : lo ≤ b.length
  · rw [slice, slice, List.drop_append_of_le_length hlo, List.take_append_of_le_length]
    rw [List.length_drop]
    omega
  · rw [slice, slice, Nat.sub_eq_zero_of_le (by omega), List.take_zero, List.take_zero]

/-- Two accepted strings of which one is a prefix of the other are the same. -/
theorem eq_of_prefix_of_decodeFrame {b b' : List UInt8} {p p' : Packet}
    (h : decodeFrame b = .ok p) (h' : decodeFrame b' = .ok p') (hpre : b <+: b') : b = b' := by
  obtain ⟨c, rfl⟩ := hpre
  obtain ⟨hlong, hlen⟩ := length_of_decodeFrame h
  obtain ⟨-, hlen'⟩ := length_of_decodeFrame h'
  have hf : AetherHeader.fields (b ++ c) = AetherHeader.fields b := by
    simp only [AetherHeader.fields]
    rw [slice_append_of_le 4 (by omega), slice_append_of_le 6 (by omega),
      slice_append_of_le 12 (by omega), slice_append_of_le 20 (by omega),
      slice_append_of_le 28 (by omega), slice_append_of_le 32 (by omega)]
  rw [hf, List.length_append] at hlen'
  have hc : c = [] := List.eq_nil_of_length_eq_zero (by omega)
  rw [hc, List.append_nil]

/-- A frame cut short or extended is refused. -/
theorem decodeFrame_error_of_cut {b b' : List UInt8} {p : Packet} (h : decodeFrame b = .ok p)
    (hne : b' ≠ b) (hcut : b' <+: b ∨ b <+: b') : ∃ e, decodeFrame b' = .error e := by
  cases h' : decodeFrame b' with
  | error e => exact ⟨e, rfl⟩
  | ok p' =>
    rcases hcut with hpre | hpre
    · exact absurd (eq_of_prefix_of_decodeFrame h' h hpre) hne
    · exact absurd (eq_of_prefix_of_decodeFrame h h' hpre).symm hne

/-- The frame codec is exact in both directions: encodings decode to their packet or, when the
length field cannot hold the payload length, to a length mismatch; the accepted strings are
the encodings up to the reserved bytes; and no accepted string is a strict prefix of
another. -/
theorem frame_codec_exact :
    (∀ p : Packet, p.payload.length < 2 ^ 32 → decodeFrame (encodeFrame p) = .ok p) ∧
    (∀ p : Packet, ¬ p.payload.length < 2 ^ 32 → ∃ header body,
      decodeFrame (encodeFrame p) = .error (.payloadLenMismatch header body)) ∧
    (∀ (b : List UInt8) (p : Packet), decodeFrame b = .ok p ↔
      p.payload.length < 2 ^ 32 ∧ encodeFrame p = clearReserved b) ∧
    (∀ (b b' : List UInt8) (p : Packet), decodeFrame b = .ok p → b' ≠ b →
      (b' <+: b ∨ b <+: b') → ∃ e, decodeFrame b' = .error e) := by
  refine ⟨fun p ↦ decodeFrame_encodeFrame, ?_, decodeFrame_eq_ok_iff, ?_⟩
  · intro p h
    exact ⟨_, _, decodeFrame_encodeFrame_of_le (Nat.le_of_not_lt h)⟩
  · intro b b' p h hne hcut
    exact decodeFrame_error_of_cut h hne hcut

end AetherRadio
