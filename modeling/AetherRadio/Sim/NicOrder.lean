import AetherRadio.Sim.NicQueue

/-!
# The network card in order

While its clock is not set back and every packet takes the configured latency, the card holds its
packets in the order of their completion times. What a call answers then depends on the clock and
on the submissions and bursts before it, and not on how often the clock was set.
-/

namespace AetherRadio

open Verif TimedQueue

/-- The calls use the configured latency and set the clock forward only. -/
def Timely (clock : UInt64) : List NicOp → Prop
  | [] => True
  | .advanceTime nowNs :: ops => clock ≤ nowNs ∧ Timely nowNs ops
  | .submitRxReadyAt _ _ :: _ => False
  | .submitRx _ :: ops | .rxBurst _ :: ops => Timely clock ops

/-- The clock after some calls. -/
def clockAfter (clock : UInt64) : List NicOp → UInt64
  | [] => clock
  | .advanceTime nowNs :: ops => clockAfter nowNs ops
  | .submitRx _ :: ops | .submitRxReadyAt _ _ :: ops | .rxBurst _ :: ops => clockAfter clock ops

/-- The accepted submissions of a run, each with the time of its call. -/
def submissions (clock : UInt64) : List (NicOp × NicReply) → List (UInt64 × Packet)
  | [] => []
  | (.advanceTime nowNs, _) :: t => submissions nowNs t
  | (.submitRx packet, .submitted (.ok ())) :: t => (clock, packet) :: submissions clock t
  | _ :: t => submissions clock t

/-- The submissions and bursts among some calls, each with the time of its call. -/
def timeline (clock : UInt64) : List NicOp → List (UInt64 × NicOp)
  | [] => []
  | .advanceTime nowNs :: ops => timeline nowNs ops
  | op :: ops => (clock, op) :: timeline clock ops

/-- What the submissions and bursts of a run were answered. -/
def results : List (NicOp × NicReply) → List NicReply
  | [] => []
  | (.advanceTime _, _) :: t => results t
  | (_, reply) :: t => reply :: results t

private theorem Timely.le_clockAfter {clock : UInt64} {ops : List NicOp} (h : Timely clock ops) :
    clock ≤ clockAfter clock ops := by
  induction ops generalizing clock with
  | nil => exact UInt64.le_refl _
  | cons op ops ih =>
    cases op with
    | advanceTime nowNs => exact UInt64.le_trans h.1 (ih h.2)
    | submitRx packet => exact ih h
    | submitRxReadyAt packet readyAtNs => cases h
    | rxBurst max => exact ih h

namespace Cx5Nic

/-- The card holds these packets, each with its completion time, in order; none is later than a
packet submitted now. -/
structure Holds (config : NicDmaConfig) (waiting : List (UInt64 × Packet)) (card : Cx5Nic) :
    Prop where
  cfg : card.cfg = config
  queue : Represents (holding card.nowNs waiting) card
  ordered : waiting.Pairwise (·.1 ≤ ·.1)
  early : ∀ p ∈ waiting, p.1 ≤ satAdd card.nowNs config.dmaLatencyNs

/-- When a packet submitted at some time is complete. -/
def completion (cfg : NicDmaConfig) (p : UInt64 × Packet) : UInt64 × Packet :=
  (satAdd p.1 cfg.dmaLatencyNs, p.2)

private theorem satAdd_le {a b : UInt64} (h : a ≤ b) (c : UInt64) : satAdd a c ≤ satAdd b c := by
  rw [UInt64.le_iff_toNat_le] at h ⊢
  rw [toNat_satAdd, toNat_satAdd]
  omega

namespace Holds

variable {cfg : NicDmaConfig} {waiting : List (UInt64 × Packet)} {card : Cx5Nic}

theorem new (cfg : NicDmaConfig) : Holds cfg [] (Cx5Nic.new cfg) where
  cfg := rfl
  queue := ⟨rfl, rfl, rfl⟩
  ordered := .nil
  early := fun _ hp ↦ by cases hp

/-- The ready packets are those whose time has come. -/
theorem rxReady (h : Holds cfg waiting card) :
    card.rxReady = (waiting.filter (·.1 ≤ card.nowNs)).map (·.2) := h.queue.ready

/-- The card is full when it holds as many packets as the queue is deep. -/
theorem full_iff (h : Holds cfg waiting card) : card.Full ↔ waiting.length ≥ cfg.rxQueueDepth := by
  have hlength := length_holding card.nowNs waiting
  unfold Full
  rw [h.queue.pending, h.queue.ready, List.length_map, List.length_map, hlength, h.cfg]

/-- Setting the clock forward changes nothing but the clock. -/
theorem advanceTime (h : Holds cfg waiting card) {nowNs : UInt64} (hle : card.nowNs ≤ nowNs) :
    Holds cfg waiting (card.act (.advanceTime nowNs)).1 ∧
      (card.act (.advanceTime nowNs)).1.nowNs = nowNs := by
  have hqueue := (h.queue.act (.advanceTime nowNs)).1
  have hop : card.queueOp (.advanceTime nowNs) = .setClock nowNs := rfl
  rw [hop, step_setClock_holding h.ordered hle] at hqueue
  refine ⟨⟨h.cfg, hqueue, h.ordered, ?_⟩, rfl⟩
  intro p hp
  exact UInt64.le_trans (h.early p hp) (satAdd_le hle _)

/-- A submission to a card that is full. -/
theorem submit_full (h : Holds cfg waiting card) (packet : Packet)
    (hfull : waiting.length ≥ cfg.rxQueueDepth) :
    card.act (.submitRx packet) = (card, .submitted (.error .queueFull)) := by
  show (card.submitRxReadyAt packet _).map id NicReply.submitted = _
  rw [submitRxReadyAt_of_full (h.full_iff.mpr hfull)]
  rfl

/-- A submission to a card that is not. -/
theorem submit_room (h : Holds cfg waiting card) (packet : Packet)
    (hroom : ¬ waiting.length ≥ cfg.rxQueueDepth) :
    (card.act (.submitRx packet)).2 = .submitted (.ok ()) ∧
      (card.act (.submitRx packet)).1.nowNs = card.nowNs ∧
      Holds cfg (waiting ++ [completion cfg (card.nowNs, packet)])
        (card.act (.submitRx packet)).1 := by
  have hroom' := mt h.full_iff.mp hroom
  have hact : card.act (.submitRx packet) =
      ({ card with pending := card.pending ++
          [PendingRx.mk (satAdd card.nowNs card.cfg.dmaLatencyNs) packet] }.pollCompletions,
        .submitted (.ok ())) := by
    show (card.submitRxReadyAt packet _).map id NicReply.submitted = _
    rw [submitRxReadyAt_of_room hroom']
    rfl
  have hqueue := (h.queue.act (.submitRx packet)).1
  have hop : card.queueOp (.submitRx packet) =
      .submit (satAdd card.nowNs card.cfg.dmaLatencyNs) packet := if_neg hroom'
  rw [hop, step_submit_holding] at hqueue
  have hcfg : (card.act (.submitRx packet)).1.cfg = cfg := by
    rw [hact]
    exact h.cfg
  have hnow : (card.act (.submitRx packet)).1.nowNs = card.nowNs := by rw [hact]; rfl
  refine ⟨by rw [hact], hnow, hcfg, ?_, ?_, ?_⟩
  · rw [hnow, completion, ← h.cfg]
    exact hqueue
  · rw [List.pairwise_append]
    refine ⟨h.ordered, List.pairwise_singleton _ _, ?_⟩
    intro p hp q hq
    rw [List.mem_singleton.mp hq]
    exact h.early p hp
  · intro p hp
    rw [hnow]
    rcases List.mem_append.mp hp with hold | hnew
    · exact h.early p hold
    · rw [List.mem_singleton.mp hnew]
      exact UInt64.le_refl _

/-- A burst returns packets whose time has come. -/
theorem rxBurst (h : Holds cfg waiting card) (max : Nat) :
    (card.act (.rxBurst max)).2 =
        .burst (((waiting.filter (·.1 ≤ card.nowNs)).take max).map (·.2)) ∧
      (card.act (.rxBurst max)).1.nowNs = card.nowNs ∧
      Holds cfg (left card.nowNs waiting max) (card.act (.rxBurst max)).1 := by
  obtain ⟨hqueue, hpackets⟩ := h.queue.act (.rxBurst max)
  have hop : card.queueOp (.rxBurst max) = .take max := rfl
  rw [hop, step_take_holding] at hqueue hpackets
  have hsublist : (left card.nowNs waiting max).Sublist waiting := by
    have hleft := List.sublist_append_right
      ((waiting.filter (·.1 ≤ card.nowNs)).take max) (left card.nowNs waiting max)
    rw [take_append_left h.ordered] at hleft
    exact hleft
  refine ⟨?_, rfl, h.cfg, hqueue, h.ordered.sublist hsublist, ?_⟩
  · exact congrArg NicReply.burst hpackets
  · intro p hp
    exact h.early p (hsublist.subset hp)

end Holds

/-- What submissions and bursts at given times are answered, when the packets held before them are
`waiting`. -/
def served (cfg : NicDmaConfig) (waiting : List (UInt64 × Packet)) :
    List (UInt64 × NicOp) → List NicReply
  | [] => []
  | (clock, .submitRx packet) :: calls =>
    if waiting.length ≥ cfg.rxQueueDepth then
      .submitted (.error .queueFull) :: served cfg waiting calls
    else .submitted (.ok ()) :: served cfg (waiting ++ [completion cfg (clock, packet)]) calls
  | (clock, .rxBurst max) :: calls =>
    .burst (((waiting.filter (·.1 ≤ clock)).take max).map (·.2)) ::
      served cfg (left clock waiting max) calls
  | (_, .submitRxReadyAt _ _) :: calls | (_, .advanceTime _) :: calls => served cfg waiting calls

variable {cfg : NicDmaConfig} {waiting : List (UInt64 × Packet)} {card : Cx5Nic}

/-- A timely run answers what its timeline is served. -/
theorem Holds.results_eq (h : Holds cfg waiting card) {ops : List NicOp}
    (htimely : Timely card.nowNs ops) :
    results (nic.trace card ops) = served cfg waiting (timeline card.nowNs ops) := by
  induction ops generalizing waiting card with
  | nil => rfl
  | cons op ops ih =>
    rw [Machine.trace_cons]
    cases op with
    | submitRxReadyAt packet readyAtNs => cases htimely
    | advanceTime nowNs =>
      obtain ⟨hholds, hnow⟩ := h.advanceTime htimely.1
      have hrest := ih hholds (hnow.symm ▸ htimely.2)
      rw [hnow] at hrest
      exact hrest
    | submitRx packet =>
      show (card.act (.submitRx packet)).2 ::
          results (nic.trace (card.act (.submitRx packet)).1 ops) =
        served cfg waiting ((card.nowNs, .submitRx packet) :: timeline card.nowNs ops)
      have htimely' : Timely card.nowNs ops := htimely
      rw [served]
      by_cases hfull : waiting.length ≥ cfg.rxQueueDepth
      · rw [if_pos hfull, h.submit_full packet hfull, ih h htimely']
      · obtain ⟨hreply, hnow, hholds⟩ := h.submit_room packet hfull
        rw [if_neg hfull, hreply, ih hholds (hnow.symm ▸ htimely'), hnow]
    | rxBurst max =>
      show (card.act (.rxBurst max)).2 :: results (nic.trace (card.act (.rxBurst max)).1 ops) =
        served cfg waiting ((card.nowNs, .rxBurst max) :: timeline card.nowNs ops)
      have htimely' : Timely card.nowNs ops := htimely
      obtain ⟨hreply, hnow, hholds⟩ := h.rxBurst max
      rw [served, hreply, ih hholds (hnow.symm ▸ htimely'), hnow]

/-- What a timely run returned, and what is ready after it, are the packets that are complete by
then: those held before and those submitted since, in order. -/
private theorem Holds.returned_eq (h : Holds cfg waiting card) {ops : List NicOp}
    (htimely : Timely card.nowNs ops) :
    returnedRx (nic.trace card ops) ++ (nic.run card ops).rxReady =
      ((waiting ++ (submissions card.nowNs (nic.trace card ops)).map (completion cfg)).filter
        (·.1 ≤ clockAfter card.nowNs ops)).map (·.2) := by
  induction ops generalizing waiting card with
  | nil =>
    simp only [Machine.trace_nil, Machine.run_nil, submissions, List.map_nil, List.append_nil,
      clockAfter]
    exact h.rxReady
  | cons op ops ih =>
    rw [Machine.trace_cons, Machine.run_cons]
    cases op with
    | submitRxReadyAt packet readyAtNs => cases htimely
    | advanceTime nowNs =>
      obtain ⟨hholds, hnow⟩ := h.advanceTime htimely.1
      have hrest := ih hholds (hnow.symm ▸ htimely.2)
      rw [hnow] at hrest
      exact hrest
    | submitRx packet =>
      have htimely' : Timely card.nowNs ops := htimely
      by_cases hfull : waiting.length ≥ cfg.rxQueueDepth
      · have hstep : nic.step card (.submitRx packet) = (card, .submitted (.error .queueFull)) :=
          h.submit_full packet hfull
        rw [hstep]
        exact ih h htimely'
      · obtain ⟨hreply, hnow, hholds⟩ := h.submit_room packet hfull
        have hrest := ih hholds (hnow.symm ▸ htimely')
        have hreply' : (nic.step card (.submitRx packet)).2 = .submitted (.ok ()) := hreply
        rw [hnow, List.append_assoc] at hrest
        rw [hreply']
        exact hrest
    | rxBurst max =>
      have htimely' : Timely card.nowNs ops := htimely
      obtain ⟨hreply, hnow, hholds⟩ := h.rxBurst max
      have hrest := ih hholds (hnow.symm ▸ htimely')
      have hreply' : (nic.step card (.rxBurst max)).2 =
          .burst (((waiting.filter (·.1 ≤ card.nowNs)).take max).map (·.2)) := hreply
      rw [hnow] at hrest
      -- what the burst takes is complete at the end of the run too
      have htaken : ((waiting.filter (·.1 ≤ card.nowNs)).take max).filter
          (·.1 ≤ clockAfter card.nowNs ops) = (waiting.filter (·.1 ≤ card.nowNs)).take max := by
        apply filter_of_due _ htimely'.le_clockAfter
        intro p hp
        exact of_decide_eq_true (List.mem_filter.mp (List.mem_of_mem_take hp)).2
      have hsplit := take_append_left h.ordered card.nowNs max
      generalize (waiting.filter (·.1 ≤ card.nowNs)).take max = taken at hreply' htaken hsplit
      rw [hreply']
      generalize hnext : (nic.step card (.rxBurst max)).1 = next
      have hnext' : (card.act (.rxBurst max)).1 = next := hnext
      rw [hnext'] at hrest
      calc returnedRx ((.rxBurst max, .burst (taken.map (·.2))) :: nic.trace next ops) ++
            (nic.run next ops).rxReady
        _ = taken.map (·.2) ++ (returnedRx (nic.trace next ops) ++ (nic.run next ops).rxReady) :=
          List.append_assoc _ _ _
        _ = ((taken ++ (left card.nowNs waiting max ++
              (submissions card.nowNs (nic.trace next ops)).map (completion cfg))).filter
                (·.1 ≤ clockAfter card.nowNs ops)).map (·.2) := by
          rw [hrest, List.filter_append taken, htaken, List.map_append]
        _ = ((waiting ++ (submissions card.nowNs (nic.trace next ops)).map
              (completion cfg)).filter (·.1 ≤ clockAfter card.nowNs ops)).map (·.2) := by
          rw [← List.append_assoc, hsplit]

/-- For every configuration and every timely run: at its end, so at every moment, the packets
returned so far followed by the ready ones are the accepted submissions whose time and DMA latency
the clock has reached, in the order of submission; and a run with the same submissions and bursts
at the same times, however the clock was set in between, is answered the same. -/
theorem fifo_whatever_polled (cfg : NicDmaConfig) (ops : List NicOp) (htimely : Timely 0 ops) :
    let t := nic.trace (new cfg) ops
    returnedRx t ++ (after cfg ops).rxReady =
        ((submissions 0 t).filter
          (fun p ↦ satAdd p.1 cfg.dmaLatencyNs ≤ clockAfter 0 ops)).map (·.2) ∧
      ∀ ops', Timely 0 ops' → timeline 0 ops' = timeline 0 ops →
        results (nic.trace (new cfg) ops') = results t := by
  intro t
  have hnew := Holds.new cfg
  constructor
  · have hreturned := hnew.returned_eq htimely
    rw [List.nil_append, List.filter_map, List.map_map] at hreturned
    exact hreturned
  · intro ops' htimely' htimeline
    have hresults := hnew.results_eq htimely
    have hresults' := hnew.results_eq htimely'
    have hline : timeline (new cfg).nowNs ops' = timeline (new cfg).nowNs ops := htimeline
    rw [hresults', hline, ← hresults]

/-- A card of depth two with a latency of 10 ns. -/
def smallCard : NicDmaConfig := ⟨10, 2, 2⟩

/-- Two packets submitted at times 0 and 5, taken at time 12. -/
def smallRun : List NicOp :=
  [.submitRx ⟨⟨1⟩, ⟨0⟩, ⟨0⟩, []⟩, .advanceTime 5, .submitRx ⟨⟨1⟩, ⟨1⟩, ⟨0⟩, []⟩, .advanceTime 12,
    .rxBurst 4]

theorem fifo_whatever_polled_small :
    let t := nic.trace (new smallCard) smallRun
    returnedRx t ++ (after smallCard smallRun).rxReady =
        ((submissions 0 t).filter
          (fun p ↦ satAdd p.1 smallCard.dmaLatencyNs ≤ clockAfter 0 smallRun)).map (·.2) ∧
      ∀ ops', Timely 0 ops' → timeline 0 ops' = timeline 0 smallRun →
        results (nic.trace (new smallCard) ops') = results t :=
  fifo_whatever_polled smallCard smallRun ⟨by decide, by decide, True.intro⟩

end Cx5Nic

end AetherRadio
