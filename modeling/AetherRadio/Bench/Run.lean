import AetherRadio.Bench.Pipeline

/-!
# A bench run as one loop

The nested loops over symbols, streams and released packets, and the flush after them, process the
packets the injector lets through of all the packets the streams emit, one after the other.
-/

namespace AetherRadio

open Verif

namespace PipelineBench

/-- The packets of one symbol, stream by stream. -/
def emitRound (tone : UInt64 → Nat → IQSample) : List FpgaEmulator → List FpgaEmulator × List Packet
  | [] => ([], [])
  | fpga :: fpgas =>
    let (fpga, packet) := fpga.emitSymbol tone
    let (fpgas, packets) := emitRound tone fpgas
    (fpga :: fpgas, packet :: packets)

/-- The packets of a number of symbols. -/
def emitAll (tone : UInt64 → Nat → IQSample) : Nat → List FpgaEmulator → List Packet
  | 0, _ => []
  | n + 1, fpgas => (emitRound tone fpgas).2 ++ emitAll tone n (emitRound tone fpgas).1

variable (cfg : BenchConfig)

/-- The emulators of a run. -/
def emulators : List FpgaEmulator := (streamIds cfg).map fun s ↦ FpgaEmulator.new cfg.timing ⟨s⟩

/-- All packets the streams of a run emit, in order. -/
def emitted : List Packet := emitAll cfg.tone cfg.profile.symbolCount.toNat (emulators cfg)

/-- The injector after all of them, before the flush. -/
def pushed : FaultInjector × List Packet := (FaultInjector.new cfg.fault).pushAll (emitted cfg)

/-- The packets a run processes, in order: what the injector releases, then what it still holds. -/
def offered : List Packet := (pushed cfg).2 ++ (pushed cfg).1.held.toList

/-- One symbol of every stream is a loop over what the injector releases. -/
private theorem fpgaLoop_eq (fpgas : List FpgaEmulator) (injector : FaultInjector)
    (s : BenchState) :
    fpgaLoop cfg fpgas injector s = (do
      let s ← (injector.pushAll (emitRound cfg.tone fpgas).2).2.foldlM (processOne cfg) s
      pure ((emitRound cfg.tone fpgas).1, (injector.pushAll (emitRound cfg.tone fpgas).2).1,
        s)) := by
  induction fpgas generalizing injector s with
  | nil => rfl
  | cons fpga fpgas ih =>
    simp only [fpgaLoop, ih, emitRound, FaultInjector.pushAll, List.foldlM_append, bind_assoc,
      pure_bind]

/-- So is a number of symbols. -/
private theorem symbolLoop_eq (n : Nat) (fpgas : List FpgaEmulator) (injector : FaultInjector)
    (s : BenchState) :
    (Prod.snd <$> symbolLoop cfg n fpgas injector s) = (do
      let s ← (injector.pushAll (emitAll cfg.tone n fpgas)).2.foldlM (processOne cfg) s
      pure ((injector.pushAll (emitAll cfg.tone n fpgas)).1, s)) := by
  induction n generalizing fpgas injector s with
  | zero => rfl
  | succ n ih =>
    simp only [symbolLoop, fpgaLoop_eq, map_bind, ih, emitAll, FaultInjector.pushAll_append,
      List.foldlM_append, bind_assoc, pure_bind]

/-- The flush loop processes the held packet, if there is one. -/
private theorem flushLoop_eq (injector : FaultInjector) (s : BenchState) :
    flushLoop cfg injector s = (do
      let s ← injector.held.toList.foldlM (processOne cfg) s
      pure (injector.flush.1, s)) := by
  have hempty (cfg₁ : FaultInjectionConfig) (countdown : UInt32) (dropped reordered : Nat)
      (s : BenchState) : flushLoop cfg ⟨cfg₁, none, countdown, dropped, reordered⟩ s =
        pure (⟨cfg₁, none, 0, dropped, reordered⟩, s) := flushLoop.eq_def ..
  obtain ⟨cfg₁, _ | packet, countdown, dropped, reordered⟩ := injector
  · exact hempty ..
  · apply (flushLoop.eq_def ..).trans
    -- the flush leaves nothing behind, so the second turn ends the loop
    show (do
      let s ← processOne cfg s packet
      flushLoop cfg ⟨cfg₁, none, 0, dropped, reordered⟩ s) = _
    simp only [hempty, Option.toList_some, List.foldlM_cons, List.foldlM_nil, bind_assoc, pure_bind]
    rfl

/-- The loops of a run are one loop over the offered packets. -/
theorem loops_eq (s : BenchState) : loops cfg s = (do
    let s ← (offered cfg).foldlM (processOne cfg) s
    pure (finish (pushed cfg).1.flush.1 s)) := by
  have hsymbols := symbolLoop_eq cfg cfg.profile.symbolCount.toNat (emulators cfg)
    (.new cfg.fault) s
  calc loops cfg s
      = (Prod.snd <$> symbolLoop cfg cfg.profile.symbolCount.toNat (emulators cfg)
          (.new cfg.fault) s) >>= fun r ↦ (do
            let last ← flushLoop cfg r.1 r.2
            pure (finish last.1 last.2)) := by
        rw [bind_map_left]
        rfl
    _ = _ := by
      rw [hsymbols]
      simp only [flushLoop_eq, offered, pushed, emitted, List.foldlM_append, bind_assoc, pure_bind]

/-- A run succeeds exactly when its set-up and the loop over the offered packets do. -/
theorem run_eq_ok {r : BenchResult} : run cfg = .ok r ↔
    cfg.profile.gpuBackend.toLower ≠ "cuda" ∧
      cfg.profile.symbolCount.toNat * cfg.streamCount * 8 < 2 ^ 63 ∧
      ∃ s₀ s, start cfg = .ok s₀ ∧ (offered cfg).foldlM (processOne cfg) s₀ = .ok s ∧
        finish (pushed cfg).1.flush.1 s = r := by
  unfold run
  split
  · next hcuda => exact ⟨nofun, fun h ↦ absurd hcuda h.1⟩
  · next hcuda =>
    rw [bind_eq_ok]
    by_cases hlarge : cfg.profile.symbolCount.toNat * cfg.streamCount * 8 ≥ 2 ^ 63
    · simp only [if_pos hlarge]
      exact ⟨fun ⟨_, _, h⟩ ↦ (nomatch h), fun h ↦ absurd h.2.1 (Nat.not_lt.mpr hlarge)⟩
    · simp only [if_neg hlarge]
      constructor
      · rintro ⟨s₀, hstart, hloops⟩
        rw [loops_eq, bind_eq_ok] at hloops
        obtain ⟨s, hfold, hr⟩ := hloops
        exact ⟨hcuda, Nat.lt_of_not_le hlarge, s₀, s, hstart, hfold, Except.ok.inj hr⟩
      · rintro ⟨-, -, s₀, s, hstart, hfold, rfl⟩
        refine ⟨s₀, hstart, ?_⟩
        rw [loops_eq, bind_eq_ok]
        exact ⟨s, hfold, rfl⟩

/-- A set-up and a loop that succeed make a run that succeeds, with what they end in. -/
theorem exists_run (Q : BenchResult → Bool) (hcuda : cfg.profile.gpuBackend.toLower ≠ "cuda")
    (hsize : cfg.profile.symbolCount.toNat * cfg.streamCount * 8 < 2 ^ 63)
    (h : ((start cfg).bind fun s ↦ (offered cfg).foldlM (processOne cfg) s).toOption.any
      (fun s ↦ Q (finish (pushed cfg).1.flush.1 s)) = true) :
    ∃ r, run cfg = .ok r ∧ Q r = true := by
  cases hloop : (start cfg).bind fun s ↦ (offered cfg).foldlM (processOne cfg) s with
  | error e =>
    rw [hloop] at h
    cases h
  | ok s =>
    rw [hloop] at h
    obtain ⟨s₀, hstart, hfold⟩ := bind_eq_ok.mp hloop
    exact ⟨_, (run_eq_ok cfg).mpr ⟨hcuda, hsize, s₀, s, hstart, hfold, rfl⟩, h⟩

/-- A round has one packet of every stream. -/
private theorem length_emitRound (tone : UInt64 → Nat → IQSample) (fpgas : List FpgaEmulator) :
    (emitRound tone fpgas).1.length = fpgas.length ∧
      (emitRound tone fpgas).2.length = fpgas.length := by
  induction fpgas with
  | nil => exact ⟨rfl, rfl⟩
  | cons fpga fpgas ih =>
    exact ⟨congrArg (· + 1) ih.1, congrArg (· + 1) ih.2⟩

private theorem length_emitAll (tone : UInt64 → Nat → IQSample) (n : Nat)
    (fpgas : List FpgaEmulator) :
    (emitAll tone n fpgas).length = n * fpgas.length := by
  induction n generalizing fpgas with
  | zero => rw [Nat.zero_mul]; rfl
  | succ n ih =>
    obtain ⟨hfpgas, hpackets⟩ := length_emitRound tone fpgas
    rw [emitAll, List.length_append, ih, hfpgas, hpackets, Nat.succ_mul, Nat.add_comm]

theorem length_emitted :
    (emitted cfg).length = cfg.profile.symbolCount.toNat * cfg.streamCount := by
  rw [emitted, length_emitAll, emulators, streamIds, List.length_map, List.length_map,
    List.length_range]

/-- Every packet emitted is offered or dropped. -/
theorem length_offered : (offered cfg).length + (pushed cfg).1.dropped =
    cfg.profile.symbolCount.toNat * cfg.streamCount := by
  have hconserves := (FaultInjector.new cfg.fault).pushAll_conserves (emitted cfg)
  rw [length_emitted] at hconserves
  simp only [FaultInjector.new, Option.toList_none, List.length_nil, Nat.zero_add] at hconserves
  rw [offered, List.length_append]
  exact hconserves

end PipelineBench

end AetherRadio
