import AetherRadio.Sim.Fpga
import Mathlib.Data.List.Induction

/-!
# Radio time

Radio time is the number of symbols since the last reset, written with a symbol, a slot and a frame
digit. The digits of the emulator saturate or wrap; their limits keep them from saturating.
-/

namespace AetherRadio

open Verif

/-- Symbols in a slot, one at least. -/
def RadioTimingConfig.symbols (self : RadioTimingConfig) : Nat := max self.symbolsPerSlot.toNat 1

/-- Slots in a frame, one at least. -/
def RadioTimingConfig.slots (self : RadioTimingConfig) : Nat := max self.slotsPerSfn.toNat 1

/-- `TimestampGenerator::reset`. From `crates/fpga-emulator/src/lib.rs:94–99`. -/
def TimestampGenerator.reset (self : TimestampGenerator) : TimestampGenerator :=
  { self with sfn := 0, slot := 0, symbol := 0, ns := 0 }

/-- The generator stands at the symbol of some number. -/
structure AtSymbol (n : Nat) (g : TimestampGenerator) : Prop where
  symbol : g.symbol.toNat = n % g.timing.symbols
  slot : g.slot.toNat = n / g.timing.symbols % g.timing.slots
  sfn : g.sfn.toNat = n / g.timing.symbols / g.timing.slots % 2 ^ 32
  ns : g.ns.toNat = min (n * g.timing.symbolDurationNs.toNat) (2 ^ 64 - 1)

namespace TimestampGenerator

@[simp] theorem carrySlot_timing (self : TimestampGenerator) :
    self.carrySlot.timing = self.timing := by
  unfold carrySlot
  dsimp only
  split <;> rfl

@[simp] theorem tickSymbol_timing (self : TimestampGenerator) :
    self.tickSymbol.1.timing = self.timing := by
  unfold tickSymbol
  dsimp only
  split
  · exact carrySlot_timing _
  · rfl

end TimestampGenerator

namespace AtSymbol

variable {n : Nat} {g : TimestampGenerator}

/-- A new generator stands at the first symbol. -/
theorem new (timing : RadioTimingConfig) : AtSymbol 0 (TimestampGenerator.new timing) where
  symbol := (Nat.zero_mod _).symm
  slot := by
    rw [Nat.zero_div, Nat.zero_mod]
    rfl
  sfn := by
    rw [Nat.zero_div, Nat.zero_div]
    rfl
  ns := by
    rw [Nat.zero_mul]
    rfl

/-- The symbol is below its limit, so one more does not saturate. -/
theorem symbol_lt (start : AtSymbol n g) :
    g.symbol.toNat < g.timing.symbols ∧ (satAdd8 g.symbol 1).toNat = g.symbol.toNat + 1 := by
  have hlimit := g.timing.symbolsPerSlot.toNat_lt
  have hlt : n % g.timing.symbols < g.timing.symbols :=
    Nat.mod_lt _ (Nat.lt_of_lt_of_le Nat.zero_lt_one (Nat.le_max_right _ _))
  rw [← start.symbol] at hlt
  refine ⟨hlt, ?_⟩
  rw [toNat_satAdd8, UInt8.toNat_one]
  unfold RadioTimingConfig.symbols at hlt
  omega

/-- So is the slot. -/
theorem slot_lt (start : AtSymbol n g) :
    g.slot.toNat < g.timing.slots ∧ (satAdd16 g.slot 1).toNat = g.slot.toNat + 1 := by
  have hlimit := g.timing.slotsPerSfn.toNat_lt
  have hlt : n / g.timing.symbols % g.timing.slots < g.timing.slots :=
    Nat.mod_lt _ (Nat.lt_of_lt_of_le Nat.zero_lt_one (Nat.le_max_right _ _))
  rw [← start.slot] at hlt
  refine ⟨hlt, ?_⟩
  rw [toNat_satAdd16, UInt16.toNat_one]
  unfold RadioTimingConfig.slots at hlt
  omega

/-- The symbol carries when its digit is full. -/
private theorem symbol_full (start : AtSymbol n g) :
    satAdd8 g.symbol 1 ≥ g.timing.symbolsPerSlot ↔
      n % g.timing.symbols + 1 = g.timing.symbols := by
  obtain ⟨hlt, hnext⟩ := start.symbol_lt
  rw [ge_iff_le, UInt8.le_iff_toNat_le, hnext, ← start.symbol]
  unfold RadioTimingConfig.symbols at hlt ⊢
  omega

/-- The slot carries when its digit is full. -/
private theorem slot_full (start : AtSymbol n g) :
    satAdd16 g.slot 1 ≥ g.timing.slotsPerSfn ↔
      n / g.timing.symbols % g.timing.slots + 1 = g.timing.slots := by
  obtain ⟨hlt, hnext⟩ := start.slot_lt
  rw [ge_iff_le, UInt16.le_iff_toNat_le, hnext, ← start.slot]
  unfold RadioTimingConfig.slots at hlt ⊢
  omega

/-- The time saturates. -/
private theorem ns_succ (start : AtSymbol n g) :
    (satAdd g.ns g.timing.symbolDurationNs).toNat =
      min ((n + 1) * g.timing.symbolDurationNs.toNat) (2 ^ 64 - 1) := by
  rw [toNat_satAdd_of_min start.ns, Nat.succ_mul]

/-- A tick goes to the next symbol. -/
theorem tick (start : AtSymbol n g) : AtSymbol (n + 1) g.tickSymbol.1 := by
  have hns := start.ns_succ
  obtain ⟨hsymbol, hsymbolNext⟩ := start.symbol_lt
  obtain ⟨hslot, hslotNext⟩ := start.slot_lt
  have hsymbolFull := start.symbol_full
  have hslotFull := start.slot_full
  rw [start.symbol] at hsymbol hsymbolNext
  rw [start.slot] at hslot hslotNext
  unfold TimestampGenerator.tickSymbol
  dsimp only
  by_cases hfull : satAdd8 g.symbol 1 ≥ g.timing.symbolsPerSlot
  · rw [if_pos hfull]
    obtain ⟨hzero, hcarry⟩ := succ_of_full (hsymbolFull.mp hfull)
    unfold TimestampGenerator.carrySlot
    dsimp only
    by_cases hslots : satAdd16 g.slot 1 ≥ g.timing.slotsPerSfn
    · obtain ⟨hzeroSlot, hcarrySlot⟩ := succ_of_full (hslotFull.mp hslots)
      rw [if_pos hslots]
      constructor
      · exact hzero.symm
      · dsimp only
        rw [hcarry, hzeroSlot]
        rfl
      · dsimp only
        rw [hcarry, hcarrySlot, UInt32.toNat_add, start.sfn, Nat.mod_add_mod]
        rfl
      · exact hns
    · have hslot' : n / g.timing.symbols % g.timing.slots + 1 < g.timing.slots := by
        have hne := mt hslotFull.mpr hslots
        omega
      obtain ⟨hnextSlot, hsameSlot⟩ := succ_of_not_full hslot'
      rw [if_neg hslots]
      constructor
      · exact hzero.symm
      · dsimp only
        rw [hcarry, hnextSlot, hslotNext]
      · dsimp only
        rw [hcarry, hsameSlot, start.sfn]
      · exact hns
  · have hsymbol' : n % g.timing.symbols + 1 < g.timing.symbols := by
      have hne := mt hsymbolFull.mpr hfull
      omega
    obtain ⟨hnext, hsame⟩ := succ_of_not_full hsymbol'
    rw [if_neg hfull]
    constructor
    · dsimp only
      rw [hnext, hsymbolNext]
    · dsimp only
      rw [hsame, start.slot]
    · dsimp only
      rw [hsame, start.sfn]
    · exact hns

end AtSymbol

/-- Slot and symbol scheduler over a generator. From `crates/fpga-emulator/src/lib.rs:126–128`. -/
structure SimpleSlotScheduler where
  timestamps : TimestampGenerator
  deriving DecidableEq, Repr

/-- What a scheduler is asked. From `crates/fpga-emulator/src/lib.rs:24–28`. -/
inductive SchedulerOp where
  | nextSymbol
  | current
  | reset
  deriving DecidableEq, Repr

namespace SimpleSlotScheduler

/-- A scheduler at radio time zero. From `crates/fpga-emulator/src/lib.rs:131–135`. -/
def new (timing : RadioTimingConfig) : SimpleSlotScheduler := ⟨.new timing⟩

/-- `next_symbol`. From `crates/fpga-emulator/src/lib.rs:143–145`. -/
def nextSymbol (self : SimpleSlotScheduler) : SimpleSlotScheduler × RadioTimestamp :=
  let (timestamps, ts) := self.timestamps.tickSymbol
  (⟨timestamps⟩, ts)

/-- `current`. From `crates/fpga-emulator/src/lib.rs:147–149`. -/
def current (self : SimpleSlotScheduler) : RadioTimestamp := self.timestamps.current

/-- `reset`. From `crates/fpga-emulator/src/lib.rs:151–153`. -/
def reset (self : SimpleSlotScheduler) : SimpleSlotScheduler := ⟨self.timestamps.reset⟩

/-- The scheduler after an operation. -/
def apply (self : SimpleSlotScheduler) : SchedulerOp → SimpleSlotScheduler
  | .nextSymbol => self.nextSymbol.1
  | .current => self
  | .reset => self.reset

/-- The scheduler after a history of operations. -/
def after (timing : RadioTimingConfig) (ops : List SchedulerOp) : SimpleSlotScheduler :=
  ops.foldl apply (new timing)

/-- The symbols asked for since the last reset. -/
def symbolsSince (ops : List SchedulerOp) : Nat :=
  ops.foldl (fun n op ↦
    match op with
    | .nextSymbol => n + 1
    | .current => n
    | .reset => 0) 0

private theorem after_timing (timing : RadioTimingConfig) (ops : List SchedulerOp) :
    (after timing ops).timestamps.timing = timing := by
  unfold after
  induction ops using List.reverseRecOn with
  | nil => rfl
  | append_singleton ops op ih =>
    rw [List.foldl_append, List.foldl_cons, List.foldl_nil]
    cases op with
    | nextSymbol => exact (TimestampGenerator.tickSymbol_timing _).trans ih
    | current => exact ih
    | reset => exact ih

/-- The scheduler stands at the symbol of that number. -/
private theorem after_atSymbol (timing : RadioTimingConfig) (ops : List SchedulerOp) :
    AtSymbol (symbolsSince ops) (after timing ops).timestamps := by
  induction ops using List.reverseRecOn with
  | nil => exact AtSymbol.new timing
  | append_singleton ops op ih =>
    rw [symbolsSince, after, List.foldl_append, List.foldl_append]
    cases op with
    | nextSymbol => exact ih.tick
    | current => exact ih
    | reset => exact AtSymbol.new _

/-- For every timing and every history of operations: the next symbol is stamped with the number of
symbols asked for since the last reset, in digits for symbol, slot and frame, and with that many
durations as far as a word goes. Neither of the lower digits saturates. -/
theorem next_symbol_mixed_radix (timing : RadioTimingConfig) (ops : List SchedulerOp) :
    let n := symbolsSince ops
    let symbols := max timing.symbolsPerSlot.toNat 1
    let slots := max timing.slotsPerSfn.toNat 1
    let scheduler := after timing ops
    let ts := scheduler.nextSymbol.2
    ts.symbol.toNat = n % symbols ∧ ts.slot.toNat = n / symbols % slots ∧
      ts.sfn.toNat = n / (symbols * slots) % 2 ^ 32 ∧
      ts.ns.toNat = min (n * timing.symbolDurationNs.toNat) (2 ^ 64 - 1) ∧
      (satAdd8 scheduler.timestamps.symbol 1).toNat = scheduler.timestamps.symbol.toNat + 1 ∧
      (satAdd16 scheduler.timestamps.slot 1).toNat = scheduler.timestamps.slot.toNat + 1 := by
  intro n symbols slots scheduler ts
  have hat : AtSymbol n scheduler.timestamps := after_atSymbol timing ops
  have htiming : scheduler.timestamps.timing = timing := after_timing timing ops
  have hsymbol := hat.symbol
  have hslot := hat.slot
  have hsfn := hat.sfn
  have hns := hat.ns
  rw [htiming] at hsymbol hslot hsfn hns
  refine ⟨hsymbol, hslot, ?_, hns, hat.symbol_lt.2, hat.slot_lt.2⟩
  rw [← Nat.div_div_eq_div_mul]
  exact hsfn

end SimpleSlotScheduler

end AetherRadio
