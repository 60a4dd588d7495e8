import AetherRadio.Net.Poll
import AetherRadio.Protocol.Codec
import AetherRadio.Sim.Emitter

/-!
# Sending over UDP

`NetPacketSink` of `crates/net-io/src/lib.rs`, the UDP loop of `run_fpga_emit` in
`crates/cli/src/main.rs`, and what the polls at the other end make of the datagrams. A socket keeps
the datagrams that it has put on the wire. What the network does to them is left to the answers of
the socket at the other end.
-/

namespace AetherRadio.Net

open Verif

/-- The most that the length field of a datagram leaves for its payload. -/
def maxUdpPayload : Nat := 65527

/-- A socket to send with: the errors the system answers with, by the number of the call, and the
datagrams that went out. -/
structure OutSocket where
  errors : Nat → Option String
  calls : Nat
  wire : List (List UInt8)

/-- `send_to`: a datagram goes out whole or not at all. -/
def OutSocket.sendTo (self : OutSocket) (bytes : List UInt8) : OutSocket × Except String Nat :=
  if maxUdpPayload < bytes.length then
    ({ self with calls := self.calls + 1 }, .error "Message too long")
  else
    match self.errors self.calls with
    | some e => ({ self with calls := self.calls + 1 }, .error e)
    | none =>
      ({ self with calls := self.calls + 1, wire := self.wire ++ [bytes] }, .ok bytes.length)

/-- The sending side of the UDP link. From `crates/net-io/src/lib.rs:55–59`. -/
structure NetPacketSink where
  sock : OutSocket
  sent : UInt64

namespace NetPacketSink

/-- `bind`, when the system finds a socket for it. From `crates/net-io/src/lib.rs:62–73`. -/
def bind (peerAddr : String) (errors : Nat → Option String) : Except NetIoError NetPacketSink :=
  if peerAddr.isEmpty then .error .missingPeer
  else .ok { sock := { errors, calls := 0, wire := [] }, sent := 0 }

/-- `send_packet`. From `crates/net-io/src/lib.rs:75–80`. -/
def sendPacket (self : NetPacketSink) (packet : Packet) :
    NetPacketSink × Except NetIoError Nat :=
  match self.sock.sendTo (encodeFrame packet) with
  | (sock, .error e) => ({ self with sock }, .error (.io e))
  | (sock, .ok n) => ({ sock, sent := self.sent + 1 }, .ok n)

/-- The loop of `run_fpga_emit`: it gives up at the first error.
From `crates/cli/src/main.rs:849–856`. -/
def emit (tone : UInt64 → Nat → IQSample) :
    (symbols : Nat) → FpgaEmulator → NetPacketSink → NetPacketSink × Except NetIoError Unit
  | 0, _, sink => (sink, .ok ())
  | symbols + 1, fpga, sink =>
    let (fpga, pkt) := fpga.emitSymbol tone
    match sink.sendPacket pkt with
    | (sink, .error e) => (sink, .error e)
    | (sink, .ok _) => emit tone symbols fpga sink

end NetPacketSink

namespace UdpSocket

/-- The socket after some calls of `recv_from`. -/
def skip (self : UdpSocket) (n : Nat) : UdpSocket := { self with calls := self.calls + n }

private theorem next_add (self : UdpSocket) (m n : Nat) :
    self.next (m + n) = self.next m ++ (self.skip m).next n := by
  induction m generalizing self with
  | zero => rw [Nat.zero_add]; rfl
  | succ m ih =>
    have hskip : self.recvFrom.1.skip m = self.skip (m + 1) := by
      simp only [recvFrom, skip, UdpSocket.mk.injEq, true_and]
      omega
    rw [Nat.succ_add, next, ih, hskip, next, List.cons_append]

end UdpSocket

namespace NetPacketIO

/-- `bind`, when the system finds a socket for it. From `crates/net-io/src/lib.rs:95–113`. -/
def bind (maxDatagramBytes : Nat) (results : Nat → RecvResult) : NetPacketIO :=
  { sock := { results, calls := 0 }
    maxDatagramBytes := max maxDatagramBytes 64
    rx := []
    received := 0
    decodeErrors := 0 }

/-- What a poll leaves as it is, and the most it takes. -/
private theorem pollLoop_kept {self io : NetPacketIO} {max got fuel : Nat}
    {result : Except NetIoError Nat} (h : pollLoop max fuel self got = some (io, result)) :
    io.sock.results = self.sock.results ∧ io.maxDatagramBytes = self.maxDatagramBytes ∧
      io.rx.length ≤ self.rx.length + (max - got) := by
  induction fuel generalizing self got with
  | zero => cases h
  | succ fuel ih =>
    have hrx : self.after.rx.length =
        self.rx.length + (self.sock.recvFrom.2.wellFormed self.maxDatagramBytes).toNat := by
      show (self.rx ++ (self.sock.recvFrom.2.packet self.maxDatagramBytes).toList).length = _
      rw [List.length_append, RecvResult.wellFormed]
      cases self.sock.recvFrom.2.packet self.maxDatagramBytes <;> rfl
    have hone := Bool.toNat_le (self.sock.recvFrom.2.wellFormed self.maxDatagramBytes)
    by_cases hgot : got < max
    · rw [pollLoop_succ self fuel hgot] at h
      cases hends : self.sock.recvFrom.2.ends with
      | true =>
        rw [hends, if_pos rfl] at h
        cases h
        refine ⟨rfl, rfl, ?_⟩
        omega
      | false =>
        rw [hends, if_neg Bool.false_ne_true] at h
        obtain ⟨hresults, hmax, hlength⟩ := ih h
        refine ⟨hresults, hmax, ?_⟩
        omega
    · rw [pollLoop_done self fuel hgot] at h
      cases h
      exact ⟨rfl, rfl, Nat.le_add_right _ _⟩

/-- The packets of the first answers. -/
def packets (self : NetPacketIO) (n : Nat) : List Packet :=
  (self.sock.next n).filterMap (RecvResult.packet self.maxDatagramBytes)

/-- The receiver after some calls of `recv_from`, with everything handed out. -/
structure Drained (start : NetPacketIO) (n : Nat) (io : NetPacketIO) : Prop where
  sock : io.sock = start.sock.skip n
  maxDatagramBytes : io.maxDatagramBytes = start.maxDatagramBytes
  rx : io.rx = []
  received : io.received = start.received +
    UInt64.ofNat ((start.sock.next n).countP (RecvResult.wellFormed start.maxDatagramBytes))
  decodeErrors : io.decodeErrors = start.decodeErrors +
    UInt64.ofNat ((start.sock.next n).countP (RecvResult.malformed start.maxDatagramBytes))

/-- A burst hands out all that its poll got. -/
theorem Drained.rxBurst {start io io' : NetPacketIO} {n fuel max : Nat} {burst : List Packet}
    (h : Drained start n io) (hburst : io.rxBurst fuel max = some (io', burst)) :
    ∃ m, Drained start (n + m) io' ∧ start.packets (n + m) = start.packets n ++ burst := by
  unfold NetPacketIO.rxBurst pollRx at hburst
  split at hburst
  · cases hburst
  · next io₁ result hpoll =>
    cases hburst
    obtain ⟨m, hpolled⟩ := pollLoop_polled hpoll
    obtain ⟨hresults, hmax, hlength⟩ := pollLoop_kept hpoll
    rw [h.rx, List.length_nil, Nat.zero_add, Nat.sub_zero] at hlength
    have hall : min max io₁.rx.length = io₁.rx.length := Nat.min_eq_right hlength
    have hgot : io₁.rx = ((start.sock.skip n).next m).filterMap
        (RecvResult.packet start.maxDatagramBytes) := by
      rw [hpolled.rx, h.rx, h.sock, h.maxDatagramBytes, List.nil_append]
    refine ⟨m, ⟨?_, ?_, ?_, ?_, ?_⟩, ?_⟩
    · have hcalls := hpolled.calls
      rw [h.sock] at hcalls hresults
      show io₁.sock = start.sock.skip (n + m)
      cases hsock : io₁.sock with
      | mk results calls =>
        rw [hsock] at hcalls hresults
        rw [UdpSocket.skip, UdpSocket.mk.injEq, ← Nat.add_assoc]
        exact ⟨hresults, hcalls⟩
    · exact hmax.trans h.maxDatagramBytes
    · show io₁.rx.drop _ = []
      rw [hall, List.drop_length]
    · show io₁.received = _
      rw [hpolled.received, h.received, h.sock, h.maxDatagramBytes, UdpSocket.next_add,
        List.countP_append, UInt64.ofNat_add, UInt64.add_assoc]
    · show io₁.decodeErrors = _
      rw [hpolled.decodeErrors, h.decodeErrors, h.sock, h.maxDatagramBytes, UdpSocket.next_add,
        List.countP_append, UInt64.ofNat_add, UInt64.add_assoc]
    · rw [hall, List.take_length, hgot, packets, packets, UdpSocket.next_add,
        List.filterMap_append]

end NetPacketIO

namespace RecvResult

/-- The packet in a datagram. -/
def decoded (maxDatagramBytes : Nat) (bytes : List UInt8) : Option Packet :=
  (decodeFrame (bytes.take maxDatagramBytes)).toOption

end RecvResult

/-- Every datagram that arrives at a socket is one of those on the wire. They may be lost, arrive
more than once and in any order. -/
def Carries (wire : List (List UInt8)) (results : Nat → RecvResult) : Prop :=
  ∀ i bytes, results i = .datagram bytes → bytes ∈ wire

end AetherRadio.Net
