import AetherRadio.Protocol.Codec
import AetherRadio.Sim.Skew

/-!
# What the emulator emits

Symbol after symbol, every packet of an emulator in closed form, and the way of its samples through
the wire format to the words a kernel works on.
-/

namespace AetherRadio

open Verif

/-- The words that `process_bytes` of `crates/gpu-cuda/src/cuda_backend.rs` copies to the device:
the whole groups of four bytes, little-endian.
From `crates/gpu-cuda/src/cuda_backend.rs:102–126`. -/
def processWords : List UInt8 → List UInt32
  | a :: b :: c :: d :: data => UInt32.ofNat (leValue [a, b, c, d]) :: processWords data
  | _ => []

private theorem processWords_append {word : List UInt8} (h : word.length = 4) (data : List UInt8) :
    processWords (word ++ data) = UInt32.ofNat (leValue word) :: processWords data := by
  match word, h with
  | [a, b, c, d], _ => rfl

/-- The kernel works on the samples that were packed. -/
theorem processWords_packetize (sequence : SequenceGenerator) (streamId : StreamId)
    (timestamp : RadioTimestamp) (samples : List IQSample) :
    processWords (packetize sequence streamId timestamp samples).2.payload =
      samples.flatMap fun s ↦ [s.i, s.q] := by
  have hword (w : UInt32) : UInt32.ofNat (leValue (leBytes 4 w.toNat)) = w := by
    rw [leValue_leBytes_of_lt w.toNat_lt, UInt32.ofNat_toNat]
  show processWords (samples.flatMap fun s ↦ leBytes 4 s.i.toNat ++ leBytes 4 s.q.toNat) = _
  induction samples with
  | nil => rfl
  | cons s samples ih =>
    rw [List.flatMap_cons, List.flatMap_cons, List.append_assoc,
      processWords_append (length_leBytes ..), processWords_append (length_leBytes ..), ih,
      hword, hword]
    rfl

/-- A packet has eight bytes of payload for every sample. -/
private theorem length_packetize (sequence : SequenceGenerator) (streamId : StreamId)
    (timestamp : RadioTimestamp) (samples : List IQSample) :
    (packetize sequence streamId timestamp samples).2.payload.length = 8 * samples.length := by
  show (samples.flatMap fun s ↦ leBytes 4 s.i.toNat ++ leBytes 4 s.q.toNat).length = _
  induction samples with
  | nil => rfl
  | cons s samples ih =>
    rw [List.flatMap_cons, List.length_append, ih]
    simp only [List.length_append, length_leBytes, List.length_cons]
    omega

namespace FpgaEmulator

variable (tone : UInt64 → Nat → IQSample) (timing : RadioTimingConfig) (streamId : StreamId)

/-- The samples of a symbol. -/
def samplesAt (k : Nat) : List IQSample :=
  (List.range timing.samplesPerSymbol).map (tone (UInt64.ofNat (timing.symbolNs k)))

/-- The packet of a symbol. -/
def packetAt (k : Nat) : Packet where
  streamId
  sequence := ⟨UInt64.ofNat k⟩
  timestamp := ⟨UInt64.ofNat (timing.symbolNs k)⟩
  payload := (samplesAt tone timing k).flatMap fun s ↦
    leBytes 4 s.i.toNat ++ leBytes 4 s.q.toNat

/-- The emulator before the symbol `k`. -/
structure Emits (fpga : FpgaEmulator) (k : Nat) : Prop where
  symbol : AtSymbol k fpga.scheduler
  config : fpga.scheduler.timing = timing
  samples : fpga.samplesPerSymbol = timing.samplesPerSymbol
  sequence : fpga.packetizer.next = UInt64.ofNat k
  stream : fpga.streamId = streamId

variable {tone timing streamId}

theorem emits_new (timing : RadioTimingConfig) (streamId : StreamId) :
    Emits timing streamId (new timing streamId) 0 :=
  ⟨AtSymbol.new timing, rfl, rfl, rfl, rfl⟩

/-- A symbol is emitted with its packet. -/
theorem Emits.emitSymbol {fpga : FpgaEmulator} {k : Nat} (h : Emits timing streamId fpga k)
    (tone : UInt64 → Nat → IQSample) :
    (fpga.emitSymbol tone).2 = packetAt tone timing streamId k ∧
      Emits timing streamId (fpga.emitSymbol tone).1 (k + 1) := by
  have hns : fpga.scheduler.ns = UInt64.ofNat (timing.symbolNs k) := by
    have hsymbol := h.symbol.ns
    rw [h.config] at hsymbol
    rw [RadioTimingConfig.symbolNs, ← hsymbol, UInt64.ofNat_toNat]
  constructor
  · simp only [FpgaEmulator.emitSymbol, TimestampGenerator.tickSymbol,
      TimestampGenerator.current, packetize, generate, SequenceGenerator.nextSequence, packetAt,
      samplesAt, h.samples, h.sequence, h.stream, hns]
  · refine ⟨h.symbol.tick, ?_, h.samples, ?_, h.stream⟩
    · rw [← h.config]
      exact fpga.scheduler.tickSymbol_timing
    · rw [← ofNat_add_one, ← h.sequence]
      rfl

/-- Symbol after symbol. -/
theorem Emits.emitted {fpga : FpgaEmulator} {k : Nat} (h : Emits timing streamId fpga k)
    (tone : UInt64 → Nat → IQSample) (n : Nat) : fpga.emitted tone n =
      (List.range n).map fun i ↦ packetAt tone timing streamId (k + i) := by
  induction n generalizing fpga k with
  | zero => rfl
  | succ n ih =>
    obtain ⟨hpacket, hnext⟩ := h.emitSymbol tone
    rw [FpgaEmulator.emitted, hpacket, ih hnext, List.range_succ_eq_map, List.map_cons,
      List.map_map]
    congr 1
    apply List.map_congr_left
    intro i _
    rw [Function.comp_apply, Nat.succ_eq_one_add, Nat.add_assoc]

theorem length_packetAt (k : Nat) :
    (packetAt tone timing streamId k).payload.length = 8 * timing.samplesPerSymbol := by
  have hlength := length_packetize ⟨0⟩ streamId ⟨0, 0, 0, 0⟩ (samplesAt tone timing k)
  have hsamples : (samplesAt tone timing k).length = timing.samplesPerSymbol := by
    simp [samplesAt]
  rw [hsamples] at hlength
  exact hlength

end FpgaEmulator

end AetherRadio
