import AetherRadio.Protocol.Frame

/-!
# Polling the socket

`NetPacketIO` in `crates/net-io/src/lib.rs`. The socket answers `recv_from` with an endless stream
of results. A datagram that does not decode is counted and the loop of `poll_rx` goes on, so the
loop is run with fuel and may not come back for any.
-/

namespace AetherRadio.Net

/-- What `recv_from` answers. -/
inductive RecvResult where
  | datagram (bytes : List UInt8)
  | wouldBlock
  | timedOut
  | failed (e : String)

/-- An answer that ends a poll. -/
def RecvResult.ends : RecvResult → Bool
  | datagram _ => false
  | _ => true

/-- The packet in an answer, read into a buffer of the given size. What does not fit the buffer is
lost. -/
def RecvResult.packet (maxDatagramBytes : Nat) : RecvResult → Option Packet
  | datagram bytes => (decodeFrame (bytes.take maxDatagramBytes)).toOption
  | _ => none

/-- An answer with a packet in it. -/
def RecvResult.wellFormed (maxDatagramBytes : Nat) (r : RecvResult) : Bool :=
  (r.packet maxDatagramBytes).isSome

/-- A datagram that does not decode. -/
def RecvResult.malformed (maxDatagramBytes : Nat) (r : RecvResult) : Bool :=
  !r.ends && !r.wellFormed maxDatagramBytes

/-- A socket with the answers it gives and the number of calls so far. -/
structure UdpSocket where
  results : Nat → RecvResult
  calls : Nat

namespace UdpSocket

/-- `recv_from`. -/
def recvFrom (self : UdpSocket) : UdpSocket × RecvResult :=
  ({ self with calls := self.calls + 1 }, self.results self.calls)

/-- The next `n` answers. -/
def next (self : UdpSocket) : (n : Nat) → List RecvResult
  | 0 => []
  | n + 1 => self.recvFrom.2 :: self.recvFrom.1.next n

private theorem countP_next (self : UdpSocket) (p : RecvResult → Bool) (n : Nat) :
    (self.next (n + 1)).countP p =
      (p self.recvFrom.2).toNat + (self.recvFrom.1.next n).countP p := by
  rw [next, List.countP_cons, Nat.add_comm]
  cases p self.recvFrom.2 <;> rfl

theorem exists_of_mem_next {self : UdpSocket} {n : Nat} {r : RecvResult} (h : r ∈ self.next n) :
    ∃ i, self.results i = r := by
  induction n generalizing self with
  | zero => cases h
  | succ n ih =>
    rcases List.mem_cons.mp h with rfl | hrest
    · exact ⟨self.calls, rfl⟩
    · have hfound := ih hrest
      exact hfound

private theorem length_next (self : UdpSocket) (n : Nat) : (self.next n).length = n := by
  induction n generalizing self with
  | zero => rfl
  | succ n ih => rw [next, List.length_cons, ih]

end UdpSocket

/-- Failures of the UDP link. From `crates/net-io/src/lib.rs:36–45`. -/
inductive NetIoError where
  | config (e : String)
  | io (e : String)
  | protocol (e : ProtocolError)
  | missingPeer

/-- The receiving side of `NetPacketIO`. From `crates/net-io/src/lib.rs:85–92`. -/
structure NetPacketIO where
  sock : UdpSocket
  maxDatagramBytes : Nat
  rx : List Packet
  received : UInt64
  decodeErrors : UInt64

namespace NetPacketIO

/-- What a `poll_rx` that comes back leaves and answers. -/
abbrev PollResult : Type := NetPacketIO × Except NetIoError Nat

/-- The loop of `poll_rx` with `got` packets got. From `crates/net-io/src/lib.rs:119–140`. -/
def pollLoop (max : Nat) :
    (fuel : Nat) → NetPacketIO → (got : Nat) → Option PollResult
  | 0, _, _ => none
  | fuel + 1, self, got =>
    if got < max then
      match self.sock.recvFrom with
      | (sock, .datagram bytes) =>
        match decodeFrame (bytes.take self.maxDatagramBytes) with
        | .ok pkt =>
          let io := { self with sock, rx := self.rx ++ [pkt], received := self.received + 1 }
          pollLoop max fuel io (got + 1)
        | .error _ =>
          pollLoop max fuel { self with sock, decodeErrors := self.decodeErrors + 1 } got
      | (sock, .wouldBlock) => some ({ self with sock }, .ok got)
      | (sock, .timedOut) => some ({ self with sock }, .ok got)
      | (sock, .failed e) => some ({ self with sock }, .error (.io e))
    else some (self, .ok got)

/-- `poll_rx`. From `crates/net-io/src/lib.rs:116–141`. -/
def pollRx (self : NetPacketIO) (fuel max : Nat) : Option PollResult :=
  pollLoop max fuel self 0

/-- `rx_burst`: the result of `poll_rx` is dropped. From `crates/net-io/src/lib.rs:145–149`. -/
def rxBurst (self : NetPacketIO) (fuel max : Nat) : Option <| NetPacketIO × List Packet :=
  match self.pollRx fuel max with
  | none => none
  | some (io, _) =>
    let n := min max io.rx.length
    some ({ io with rx := io.rx.drop n }, io.rx.take n)

/-- `poll_rx` returns, after at most this many calls of `recv_from`. -/
def ReturnsWithin (self : NetPacketIO) (max calls : Nat) : Prop :=
  ∃ fuel io result,
    self.pollRx fuel max = some (io, result) ∧ io.sock.calls ≤ self.sock.calls + calls

/-- The next `n` answers do not end a poll that has got `got` packets. -/
def Unfinished (self : NetPacketIO) (max got n : Nat) : Prop :=
  (∀ r ∈ self.sock.next n, r.ends = false) ∧
    got + (self.sock.next n).countP (RecvResult.wellFormed self.maxDatagramBytes) < max

/-- At most `m` malformed datagrams come before a poll has to end. -/
def MalformedAtMost (self : NetPacketIO) (max m : Nat) : Prop :=
  ∀ n, self.Unfinished max 0 n →
    (self.sock.next n).countP (RecvResult.malformed self.maxDatagramBytes) ≤ m

/-- The state after one call of `recv_from`. -/
def after (self : NetPacketIO) : NetPacketIO where
  sock := self.sock.recvFrom.1
  maxDatagramBytes := self.maxDatagramBytes
  rx := self.rx ++ (self.sock.recvFrom.2.packet self.maxDatagramBytes).toList
  received := self.received +
    UInt64.ofNat (self.sock.recvFrom.2.wellFormed self.maxDatagramBytes).toNat
  decodeErrors := self.decodeErrors +
    UInt64.ofNat (self.sock.recvFrom.2.malformed self.maxDatagramBytes).toNat

/-- The answer to a call that ends a poll. -/
def answer (got : Nat) : RecvResult → Except NetIoError Nat
  | .failed e => .error (.io e)
  | _ => .ok got

/-- One round of the loop. -/
theorem pollLoop_succ (self : NetPacketIO) {max got : Nat} (fuel : Nat) (h : got < max) :
    pollLoop max (fuel + 1) self got =
      if self.sock.recvFrom.2.ends then some (self.after, answer got self.sock.recvFrom.2)
      else pollLoop max fuel self.after
        (got + (self.sock.recvFrom.2.wellFormed self.maxDatagramBytes).toNat) := by
  rw [pollLoop, if_pos h, after]
  rcases self.sock.recvFrom with ⟨sock, bytes | _ | _ | e⟩
  · cases hdecode : decodeFrame (bytes.take self.maxDatagramBytes) with
    | ok pkt =>
      simp [RecvResult.ends, RecvResult.wellFormed, RecvResult.malformed, RecvResult.packet,
        hdecode, Except.toOption]
    | error e =>
      simp [RecvResult.ends, RecvResult.wellFormed, RecvResult.malformed, RecvResult.packet,
        hdecode, Except.toOption]
  · simp [RecvResult.ends, RecvResult.wellFormed, RecvResult.malformed, RecvResult.packet, answer]
  · simp [RecvResult.ends, RecvResult.wellFormed, RecvResult.malformed, RecvResult.packet, answer]
  · simp [RecvResult.ends, RecvResult.wellFormed, RecvResult.malformed, RecvResult.packet, answer]

theorem pollLoop_done (self : NetPacketIO) {max got : Nat} (fuel : Nat) (h : ¬ got < max) :
    pollLoop max (fuel + 1) self got = some (self, .ok got) := by
  rw [pollLoop, if_neg h]

private theorem unfinished_zero {self : NetPacketIO} {max got : Nat} :
    self.Unfinished max got 0 ↔ got < max := by
  simp [Unfinished, UdpSocket.next]

private theorem unfinished_succ {self : NetPacketIO} {max got n : Nat} :
    self.Unfinished max got (n + 1) ↔
      self.sock.recvFrom.2.ends = false ∧
        self.after.Unfinished max
          (got + (self.sock.recvFrom.2.wellFormed self.maxDatagramBytes).toNat) n := by
  unfold Unfinished
  rw [UdpSocket.next, List.forall_mem_cons, List.countP_cons, and_assoc]
  change _ ∧ _ ∧ _ ↔ _ ∧ _ ∧ got + _ + (self.sock.recvFrom.1.next n).countP _ < max
  cases self.sock.recvFrom.2.wellFormed self.maxDatagramBytes <;>
    simp [after, Nat.add_assoc, Nat.add_comm 1]

/-- A poll that is unfinished was unfinished before. -/
theorem Unfinished.mono {self : NetPacketIO} {max got m n : Nat} (h : self.Unfinished max got n)
    (hle : m ≤ n) : self.Unfinished max got m := by
  induction m generalizing self got n with
  | zero => exact unfinished_zero.mpr (Nat.lt_of_le_of_lt (Nat.le_add_right _ _) h.2)
  | succ m ih =>
    cases n with
    | zero => cases hle
    | succ n =>
      obtain ⟨hends, hrest⟩ := unfinished_succ.mp h
      exact unfinished_succ.mpr ⟨hends, ih hrest (Nat.le_of_succ_le_succ hle)⟩

/-- Answers that end the poll are enough for it to return. -/
private theorem pollLoop_returns {self : NetPacketIO} {max got n : Nat}
    (h : ¬ self.Unfinished max got n) :
    ∃ fuel io result, pollLoop max fuel self got = some (io, result) ∧
      io.sock.calls ≤ self.sock.calls + n := by
  induction n generalizing self got with
  | zero =>
    rw [unfinished_zero] at h
    exact ⟨1, self, .ok got, pollLoop_done self 0 h, Nat.le_refl _⟩
  | succ n ih =>
    by_cases hgot : got < max
    · cases hends : self.sock.recvFrom.2.ends with
      | true =>
        refine ⟨1, self.after, answer got self.sock.recvFrom.2, ?_, ?_⟩
        · rw [pollLoop_succ self 0 hgot, hends, if_pos rfl]
        · apply Nat.add_le_add_left
          exact Nat.le_add_left 1 n
      | false =>
        rw [unfinished_succ, not_and] at h
        obtain ⟨fuel, io, result, hloop, hcalls⟩ := ih (h hends)
        refine ⟨fuel + 1, io, result, ?_, ?_⟩
        · rw [pollLoop_succ self fuel hgot, hends, if_neg Bool.false_ne_true, hloop]
        · change _ ≤ self.sock.calls + 1 + n at hcalls
          omega
    · exact ⟨1, self, .ok got, pollLoop_done self 0 hgot, Nat.le_add_right _ _⟩

/-- What a poll that returns has done: of the answers it took each packet is delivered, each
malformed datagram is a decode error, and the answers end the poll. -/
structure Polled (start : NetPacketIO) (max got n : Nat) (io : NetPacketIO)
    (result : Except NetIoError Nat) : Prop where
  finished : ¬ start.Unfinished max got n
  calls : io.sock.calls = start.sock.calls + n
  rx : io.rx =
    start.rx ++ (start.sock.next n).filterMap (RecvResult.packet start.maxDatagramBytes)
  received : io.received = start.received +
    UInt64.ofNat ((start.sock.next n).countP (RecvResult.wellFormed start.maxDatagramBytes))
  decodeErrors : io.decodeErrors = start.decodeErrors +
    UInt64.ofNat ((start.sock.next n).countP (RecvResult.malformed start.maxDatagramBytes))
  result : ∀ k, result = .ok k →
    k = got + (start.sock.next n).countP (RecvResult.wellFormed start.maxDatagramBytes)

namespace Polled

variable {start io : NetPacketIO} {max got n : Nat} {result : Except NetIoError Nat}

/-- No call of `recv_from`. -/
theorem stop (h : ¬ got < max) : Polled start max got 0 start (.ok got) where
  finished := by
    rw [unfinished_zero]
    exact h
  calls := rfl
  rx := (List.append_nil _).symm
  received := (UInt64.add_zero _).symm
  decodeErrors := (UInt64.add_zero _).symm
  result := by
    intro k hk
    cases hk
    rfl

/-- An answer that ends the poll. -/
theorem last (h : start.sock.recvFrom.2.ends = true) :
    Polled start max got 1 start.after (answer got start.sock.recvFrom.2) := by
  have hnext : start.sock.next 1 = [start.sock.recvFrom.2] := rfl
  constructor
  · rw [unfinished_succ, h]
    rintro ⟨hends, -⟩
    cases hends
  · rfl
  · rw [hnext, List.filterMap_cons, after]
    cases start.sock.recvFrom.2.packet start.maxDatagramBytes <;> rfl
  · rw [hnext, List.countP_singleton, after]
    cases start.sock.recvFrom.2.wellFormed start.maxDatagramBytes <;> rfl
  · rw [hnext, List.countP_singleton, after]
    cases start.sock.recvFrom.2.malformed start.maxDatagramBytes <;> rfl
  · intro k hk
    rw [hnext]
    cases hanswer : start.sock.recvFrom.2 with
    | datagram bytes =>
      rw [hanswer] at h
      cases h
    | wouldBlock =>
      rw [hanswer] at hk
      cases hk
      rfl
    | timedOut =>
      rw [hanswer] at hk
      cases hk
      rfl
    | failed e =>
      rw [hanswer] at hk
      cases hk

/-- One more answer before the others. -/
theorem cons (h : Polled start.after max
      (got + (start.sock.recvFrom.2.wellFormed start.maxDatagramBytes).toNat) n io result) :
    Polled start max got (n + 1) io result where
  finished := by
    rw [unfinished_succ]
    exact fun hunfinished ↦ h.finished hunfinished.2
  calls := by
    have hcalls := h.calls
    change _ = start.sock.calls + 1 + n at hcalls
    omega
  rx := by
    rw [h.rx, UdpSocket.next, List.filterMap_cons, after]
    cases start.sock.recvFrom.2.packet start.maxDatagramBytes <;> simp
  received := by
    rw [h.received, UdpSocket.countP_next, UInt64.ofNat_add, ← UInt64.add_assoc]
    rfl
  decodeErrors := by
    rw [h.decodeErrors, UdpSocket.countP_next, UInt64.ofNat_add, ← UInt64.add_assoc]
    rfl
  result := by
    intro k hk
    rw [h.result k hk, UdpSocket.countP_next, Nat.add_assoc]
    rfl

end Polled

theorem pollLoop_polled {self io : NetPacketIO} {max got fuel : Nat}
    {result : Except NetIoError Nat} (h : pollLoop max fuel self got = some (io, result)) :
    ∃ n, Polled self max got n io result := by
  induction fuel generalizing self got with
  | zero => cases h
  | succ fuel ih =>
    by_cases hgot : got < max
    · rw [pollLoop_succ self fuel hgot] at h
      cases hends : self.sock.recvFrom.2.ends with
      | true =>
        rw [hends, if_pos rfl] at h
        cases h
        exact ⟨1, .last hends⟩
      | false =>
        rw [hends, if_neg Bool.false_ne_true] at h
        obtain ⟨n, hpolled⟩ := ih h
        exact ⟨n + 1, hpolled.cons⟩
    · rw [pollLoop_done self fuel hgot] at h
      cases h
      exact ⟨0, .stop hgot⟩

/-- A poll returns within so many calls exactly when as many answers end it. -/
theorem returnsWithin_iff {self : NetPacketIO} {max calls : Nat} :
    self.ReturnsWithin max calls ↔ ¬ self.Unfinished max 0 calls := by
  constructor
  · rintro ⟨fuel, io, result, hpoll, hcalls⟩ hunfinished
    obtain ⟨n, hpolled⟩ := pollLoop_polled hpoll
    have hn := hpolled.calls
    exact hpolled.finished (hunfinished.mono (by omega))
  · exact pollLoop_returns

/-- An answer that does not end a poll is a packet or malformed. -/
theorem length_of_unfinished {self : NetPacketIO} {max got n : Nat}
    (h : self.Unfinished max got n) :
    n = (self.sock.next n).countP (RecvResult.wellFormed self.maxDatagramBytes) +
      (self.sock.next n).countP (RecvResult.malformed self.maxDatagramBytes) := by
  have hlen := List.length_eq_countP_add_countP
    (RecvResult.wellFormed self.maxDatagramBytes) (l := self.sock.next n)
  have hrest : (self.sock.next n).countP (RecvResult.malformed self.maxDatagramBytes) =
      (self.sock.next n).countP
        (fun r ↦ decide ¬ r.wellFormed self.maxDatagramBytes = true) := by
    apply List.countP_congr
    intro r hr
    simp [RecvResult.malformed, h.1 r hr]
  rw [hrest, ← hlen, UdpSocket.length_next]

/-- Malformed datagrams are all a poll can lose calls on. -/
private theorem returnsWithin_of_malformedAtMost {self : NetPacketIO} {max m : Nat}
    (h : self.MalformedAtMost max m) : self.ReturnsWithin max (max + m) := by
  rw [returnsWithin_iff]
  intro hunfinished
  have hcalls := length_of_unfinished hunfinished
  have hmalformed := h _ hunfinished
  have hgot := hunfinished.2
  omega

private theorem malformedAtMost_of_returnsWithin {self : NetPacketIO} {max calls : Nat}
    (h : self.ReturnsWithin max calls) : self.MalformedAtMost max calls := by
  intro n hunfinished
  by_contra hmany
  have hlen := length_of_unfinished hunfinished
  exact returnsWithin_iff.mp h (hunfinished.mono (by omega))

/-- A burst comes back exactly when its poll does. -/
private theorem rxBurst_isSome (self : NetPacketIO) (fuel max : Nat) :
    (self.rxBurst fuel max).isSome = (self.pollRx fuel max).isSome := by
  unfold rxBurst
  cases self.pollRx fuel max <;> rfl

end NetPacketIO

/-- For every set of sockets: the calls of `recv_from` that `poll_rx` makes are bounded by a
function of `max` alone if and only if such a function bounds the malformed datagrams that come
before a timeout, an error or the last of `max` packets. -/
theorem poll_rx_bounded_iff (sockets : NetPacketIO → Prop) :
    (∃ bound : Nat → Nat, ∀ io, sockets io → ∀ max, io.ReturnsWithin max (bound max)) ↔
      ∃ bound : Nat → Nat, ∀ io, sockets io → ∀ max, io.MalformedAtMost max (bound max) := by
  constructor
  · rintro ⟨bound, hbound⟩
    refine ⟨bound, fun io hio max ↦ ?_⟩
    exact NetPacketIO.malformedAtMost_of_returnsWithin (hbound io hio max)
  · rintro ⟨bound, hbound⟩
    refine ⟨fun max ↦ max + bound max, fun io hio max ↦ ?_⟩
    exact NetPacketIO.returnsWithin_of_malformedAtMost (hbound io hio max)

/-- A peer that sends single bytes. -/
def flooded : NetPacketIO where
  sock := { results := fun _ ↦ .datagram [0], calls := 0 }
  maxDatagramBytes := 2048
  rx := []
  received := 0
  decodeErrors := 0

private theorem flooded_unfinished {max : Nat} (hmax : 0 < max) (n : Nat) :
    flooded.Unfinished max 0 n := by
  have hanswer : ∀ r ∈ flooded.sock.next n, r = .datagram [0] := by
    intro r hr
    obtain ⟨i, hi⟩ := UdpSocket.exists_of_mem_next hr
    exact hi.symm
  have hnone : (flooded.sock.next n).countP (RecvResult.wellFormed 2048) = 0 := by
    apply List.countP_eq_zero.mpr
    intro r hr
    rw [hanswer r hr]
    decide
  constructor
  · intro r hr
    rw [hanswer r hr]
    rfl
  · change 0 + (flooded.sock.next n).countP (RecvResult.wellFormed 2048) < max
    rw [hnone]
    exact hmax

/-- Neither a poll nor a burst comes back from them, whatever it asks for. -/
private theorem flooded_blocks {max : Nat} (hmax : 0 < max) (fuel : Nat) :
    flooded.pollRx fuel max = none ∧ flooded.rxBurst fuel max = none := by
  have hpoll : flooded.pollRx fuel max = none := by
    cases hpoll : flooded.pollRx fuel max with
    | none => rfl
    | some answer =>
      obtain ⟨n, hpolled⟩ := NetPacketIO.pollLoop_polled hpoll
      exact absurd (flooded_unfinished hmax n) hpolled.finished
  have hburst := flooded.rxBurst_isSome fuel max
  rw [hpoll] at hburst
  exact ⟨hpoll, Option.isNone_iff_eq_none.mp (Option.isSome_eq_false_iff.mp hburst)⟩

/-- Datagrams of one byte keep `poll_rx(1)` for good, so no function of `max` bounds its calls. -/
theorem poll_rx_flooded :
    (∀ fuel, flooded.pollRx fuel 1 = none) ∧
      ¬ ∃ bound : Nat → Nat, ∀ io max, NetPacketIO.ReturnsWithin io max (bound max) := by
  have hpoll (fuel : Nat) : flooded.pollRx fuel 1 = none := (flooded_blocks Nat.one_pos fuel).1
  refine ⟨hpoll, ?_⟩
  rintro ⟨bound, hbound⟩
  obtain ⟨fuel, io, result, hsome, -⟩ := hbound flooded 1
  rw [hpoll fuel] at hsome
  cases hsome

end AetherRadio.Net
