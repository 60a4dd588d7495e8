import AetherRadio.Bench.Traces

/-!
# What the stages of a packet's way refuse

With nothing in flight the card refuses a packet only when it has no queue, and the GPU ring a
payload only when it has slots and they are too small for it.
-/

namespace AetherRadio

open Verif

/-- Why the card refuses a packet when nothing is in flight: it has no queue. -/
def NicDmaConfig.refusal (cfg : NicDmaConfig) : Option Cx5Error :=
  if cfg.rxQueueDepth = 0 then some .queueFull else none

/-- An idle card takes a packet unless it has no queue. -/
theorem Cx5Nic.Idle.submits {ε : Type} {nic : Cx5Nic} (h : nic.Idle) (f : Cx5Error → ε)
    (packet : Packet) (readyAtNs : UInt64) :
    EndsIn (orFail f (nic.submitRxReadyAt packet readyAtNs)) (nic.cfg.refusal.map f)
      fun r ↦ nic.submitRxReadyAt packet readyAtNs = (r.1, .ok ()) := by
  unfold submitRxReadyAt NicDmaConfig.refusal
  rw [h.pending, h.rxReady]
  by_cases hdepth : nic.cfg.rxQueueDepth = 0
  · rw [if_pos hdepth, if_pos (by rw [hdepth]; exact Nat.le_refl 0)]
    rfl
  · rw [if_neg hdepth, if_neg (by simp only [List.length_nil]; omega)]
    exact ⟨_, rfl, rfl⟩

/-- Why the GPU ring refuses a payload: there are slots and none is large enough. -/
def GpuRingConfig.refusal (cfg : GpuRingConfig) (payload : List UInt8) : Option GpuError :=
  if 0 < cfg.slotCount ∧ cfg.slotBytes < payload.length then some .payloadTooLarge else none

namespace GpuRingBuffer

/-- The ring between two packets, with the size of its slots. -/
structure Serves (cfg : GpuRingConfig) (ring : GpuRingBuffer) : Prop where
  waits : ring.Waits cfg
  slotBytes : ring.slotBytes = cfg.slotBytes

theorem serves_new (cfg : GpuRingConfig) : (new cfg).Serves cfg := ⟨waits_new cfg, rfl⟩

/-- How the GPU stage ends on a ring that serves: there is no slot, the first slot is too small, or
it is filled, processed and released. -/
inductive CycleExit (cfg : GpuRingConfig) (ring : GpuRingBuffer) (nowNs : UInt64)
    (payload : List UInt8) : Option GpuError → Prop where
  | full (slots : cfg.slotCount = 0)
      (begins : ring.beginReceive nowNs = (ring, .error .ringFull)) :
      CycleExit cfg ring nowNs payload none
  | tooLarge (ring₁ : GpuRingBuffer) (begins : ring.beginReceive nowNs = (ring₁, .ok 0))
      (receives : ring₁.completeReceive 0 payload = (ring₁, .error .payloadTooLarge)) :
      CycleExit cfg ring nowNs payload (some .payloadTooLarge)
  | done (ring₁ ring₂ ring₃ ring₄ ring₅ : GpuRingBuffer) (doneAt : UInt64)
      (slots : 0 < cfg.slotCount) (begins : ring.beginReceive nowNs = (ring₁, .ok 0))
      (occupied : ring₁.occupied = 1)
      (receives : ring₁.completeReceive 0 payload = (ring₂, .ok ()))
      (processes : ring₂.beginProcess nowNs = (ring₃, .ok (0, doneAt)))
      (completes : ring₃.completeProcess 0 doneAt =
        (ring₄, .ok (satSub (satAdd nowNs cfg.kernelDelayNs) nowNs)))
      (releases : ring₄.release 0 = (ring₅, .ok ())) (serves : ring₅.Serves cfg) :
      CycleExit cfg ring nowNs payload none

/-- It ends with the refusal of the payload, if there is one. -/
theorem Serves.cycle_exit {cfg : GpuRingConfig} {ring : GpuRingBuffer} (h : ring.Serves cfg)
    (nowNs : UInt64) (payload : List UInt8) :
    CycleExit cfg ring nowNs payload (cfg.refusal payload) := by
  have hcount := h.waits.slotCount
  have hbytes := h.slotBytes
  unfold GpuRingConfig.refusal
  by_cases hslots : 0 < cfg.slotCount
  · obtain ⟨ring₁, hbegin, hreceive⟩ := h.waits.idle.receives (hcount ▸ hslots) nowNs payload
    rw [hbytes] at hreceive
    by_cases hlarge : cfg.slotBytes < payload.length
    · rw [if_pos hlarge] at hreceive
      rw [if_pos ⟨hslots, hlarge⟩]
      exact .tooLarge ring₁ hbegin hreceive
    · rw [if_neg hlarge] at hreceive
      rw [if_neg (fun h ↦ hlarge h.2)]
      obtain ⟨ring₂, hreceive, hsize⟩ := hreceive
      obtain ⟨ring₃, doneAt, ring₄, latency, ring₅, hprocess, hcomplete, hrelease⟩ :=
        h.waits.idle.process hbegin hreceive
      obtain ⟨hlatency, -, hwaits⟩ := h.waits.cycle hbegin hreceive hprocess hcomplete hrelease
      have hkept : ring₅.slotBytes = cfg.slotBytes := by
        rw [slotBytes_release hrelease, slotBytes_completeProcess hcomplete,
          slotBytes_beginProcess hprocess, hsize]
      rw [hlatency] at hcomplete
      exact .done ring₁ ring₂ ring₃ ring₄ ring₅ doneAt hslots hbegin
        (h.waits.idle.occupied_beginReceive hbegin) hreceive hprocess hcomplete hrelease
        ⟨hwaits, hkept⟩
  · rw [if_neg (fun h ↦ hslots h.1)]
    have hnone : cfg.slotCount = 0 := Nat.eq_zero_of_not_pos hslots
    exact .full hnone (beginReceive_of_no_slots (hcount.trans hnone) nowNs)

end GpuRingBuffer

end AetherRadio
