import AetherRadio.Lib.Simulation
import AetherRadio.Shm.Refinement

/-!
# The shared-memory link

`ShmPacketSink::send_packet` and `ShmPacketIO::{poll_rx, rx_burst}` of `crates/shm-io/src/lib.rs` as
the two processes run them: every step of `try_push` or `try_pop` is one of the ring machine, and
the loops around the calls go on where a call returns. The packet being sent is the one the try in
progress carries.
-/

namespace AetherRadio.Shm

open Verif

variable {g : Geometry}

/-- The tries of one `send_packet`. From `crates/shm-io/src/lib.rs:228`. -/
def sendTries : Nat := 10_000

/-- Both processes with their loops. `sending` are the tries left after the one in progress,
`polling` is the argument of the `rx_burst` in progress with the packets it has got, `rx` the
packets not handed out yet. -/
structure Link (g : Geometry) where
  world : World g
  sending : Option Nat
  polling : Option (Nat × Nat)
  rx : List Packet

/-- What the scheduler may do next. A call made during another of the same process is a stutter. -/
inductive LinkAct where
  | send (packet : Packet)
  | stepSend
  | burst (max : Nat)
  | stepBurst
  deriving DecidableEq

/-- The returns of the two calls. -/
inductive LinkReply where
  | silent
  | sent (packet : Packet) (result : Except ShmIoError Unit)
  | handedOut (max : Nat) (packets : List Packet)
  | panicked

namespace Link

/-- Entering `send_packet`. From `crates/shm-io/src/lib.rs:227–228`. -/
def send (s : Link g) (packet : Packet) : Link g × LinkReply :=
  match s.sending with
  | none => ({ s with world := s.world.callPush packet, sending := some (sendTries - 1) }, .silent)
  | some _ => (s, .silent)

/-- Where the loop goes on after a step of `try_push`: a refused try is made again at once while
tries are left. From `crates/shm-io/src/lib.rs:229–235`. -/
def sendEvent (s : Link g) (left : Nat) : Option Event → Link g × LinkReply
  | some (.pushReturned packet (.error .ringFull)) =>
    match left with
    | 0 => ({ s with sending := none }, .sent packet (.error .ringFull))
    | left + 1 => ({ s with world := s.world.callPush packet, sending := some left }, .silent)
  | some (.pushReturned packet result) => ({ s with sending := none }, .sent packet result)
  | _ => (s, .silent)

/-- The next step of the sink. From `crates/shm-io/src/lib.rs:227–236`. -/
def stepSend (s : Link g) : Link g × LinkReply :=
  match s.sending with
  | none => (s, .silent)
  | some left =>
    let (world, e) := s.world.stepPush
    { s with world }.sendEvent left e

/-- The end of `rx_burst`: the oldest packets are drained.
From `crates/shm-io/src/lib.rs:280–281`. -/
def drain (s : Link g) (max : Nat) : Link g × LinkReply :=
  let n := min max s.rx.length
  ({ s with polling := none, rx := s.rx.drop n }, .handedOut max (s.rx.take n))

/-- The head of the loop of `poll_rx` with `n` packets got.
From `crates/shm-io/src/lib.rs:259–260`. -/
def pollNext (s : Link g) (max n : Nat) : Link g × LinkReply :=
  if n < max then ({ s with world := s.world.callPop, polling := some (max, n) }, .silent)
  else s.drain max

/-- Entering `rx_burst`. From `crates/shm-io/src/lib.rs:278–279`. -/
def burst (s : Link g) (max : Nat) : Link g × LinkReply :=
  match s.polling with
  | none => s.pollNext max 0
  | some _ => (s, .silent)

/-- Where the loop goes on after a step of `try_pop`. `rx_burst` drops the result of `poll_rx`, so
an error ends the poll as an empty ring does. From `crates/shm-io/src/lib.rs:261–269`. -/
def pollEvent (s : Link g) (max n : Nat) : Option Event → Link g × LinkReply
  | some (.popReturned (.ret (.ok (some pkt)))) =>
    { s with rx := s.rx ++ [pkt] }.pollNext max (n + 1)
  | some (.popReturned (.ret _)) => s.drain max
  | some (.popReturned .panic) => (s, .panicked)
  | _ => (s, .silent)

/-- The next step of the receiver. From `crates/shm-io/src/lib.rs:278–282`. -/
def stepBurst (s : Link g) : Link g × LinkReply :=
  match s.polling with
  | none => (s, .silent)
  | some (max, n) =>
    let (world, e) := s.world.stepPop
    { s with world }.pollEvent max n e

/-- One action of the scheduler. -/
def act (s : Link g) : LinkAct → Link g × LinkReply
  | .send packet => s.send packet
  | .stepSend => s.stepSend
  | .burst max => s.burst max
  | .stepBurst => s.stepBurst

/-- Both processes attached to a freshly initialised ring. -/
def init (g : Geometry) : Link g :=
  { world := World.init g, sending := none, polling := none, rx := [] }

end Link

/-- The link machine. -/
def link (g : Geometry) : Machine (Link g) LinkAct LinkReply where
  step := Link.act

/-- The packet of a `send_packet` that returned `Ok`. -/
def LinkReply.sentOk : LinkReply → List Packet
  | .sent packet (.ok ()) => [packet]
  | _ => []

/-- The packets of an `rx_burst`. -/
def LinkReply.packets : LinkReply → List Packet
  | .handedOut _ packets => packets
  | _ => []

/-- The packets `send_packet` returned `Ok` for, oldest first. -/
def sentOk (t : List (LinkAct × LinkReply)) : List Packet := t.flatMap fun entry ↦ entry.2.sentOk

/-- The packets `rx_burst` handed out, oldest first. -/
def handedOut (t : List (LinkAct × LinkReply)) : List Packet :=
  t.flatMap fun entry ↦ entry.2.packets

namespace Link

/-- The call of `try_push` that follows a step of it. -/
def sendCalls (left : Nat) : Option Event → List Act
  | some (.pushReturned packet (.error .ringFull)) => if left = 0 then [] else [.callPush packet]
  | _ => []

/-- The call of `try_pop` at the head of the loop of `poll_rx`. -/
def pollCall (max n : Nat) : List Act := if n < max then [.callPop] else []

/-- The call of `try_pop` that follows a step of it. -/
def pollCalls (max n : Nat) : Option Event → List Act
  | some (.popReturned (.ret (.ok (some _)))) => pollCall max (n + 1)
  | _ => []

/-- The steps of the ring machine that a step of the link takes. -/
def ringActs (s : Link g) : LinkAct → List Act
  | .send packet => if s.sending = none then [.callPush packet] else []
  | .stepSend =>
    match s.sending with
    | none => []
    | some left => .stepPush :: sendCalls left s.world.stepPush.2
  | .burst max => if s.polling = none then pollCall max 0 else []
  | .stepBurst =>
    match s.polling with
    | none => []
    | some (max, n) => .stepPop :: pollCalls max n s.world.stepPop.2

private theorem world_sendEvent (s : Link g) (left : Nat) (e : Option Event) :
    (s.sendEvent left e).1.world = (machine g).run s.world (sendCalls left e) := by
  rcases e with _ | _ | ⟨packet, error | _⟩ | _ | _
  case some.pushReturned.error =>
    cases error with
    | ringFull => cases left <;> rfl
    | _ => rfl
  all_goals rfl

private theorem world_pollNext (s : Link g) (max n : Nat) :
    (s.pollNext max n).1.world = (machine g).run s.world (pollCall max n) := by
  unfold pollNext pollCall
  split <;> rfl

private theorem world_pollEvent (s : Link g) (max n : Nat) (e : Option Event) :
    (s.pollEvent max n e).1.world = (machine g).run s.world (pollCalls max n e) := by
  rcases e with _ | _ | _ | _ | ⟨_ | _ | _⟩ | _
  case some.popReturned.ret.ok.some => exact world_pollNext ..
  all_goals rfl

theorem stepSend_of_none {s : Link g} (h : s.sending = none) : s.stepSend = (s, .silent) := by
  rw [stepSend, h]

theorem stepSend_of_some {s : Link g} {left : Nat} (h : s.sending = some left) :
    s.stepSend = { s with world := s.world.stepPush.1 }.sendEvent left s.world.stepPush.2 := by
  rw [stepSend, h]

theorem stepBurst_of_none {s : Link g} (h : s.polling = none) : s.stepBurst = (s, .silent) := by
  rw [stepBurst, h]

theorem stepBurst_of_some {s : Link g} {max n : Nat} (h : s.polling = some (max, n)) :
    s.stepBurst = { s with world := s.world.stepPop.1 }.pollEvent max n s.world.stepPop.2 := by
  rw [stepBurst, h]

theorem world_act (s : Link g) (a : LinkAct) :
    (s.act a).1.world = (machine g).run s.world (s.ringActs a) := by
  cases a with
  | send packet =>
    rw [act, send, ringActs]
    cases s.sending <;> rfl
  | stepSend =>
    rw [act, stepSend, ringActs]
    cases s.sending with
    | none => rfl
    | some left => exact world_sendEvent ..
  | burst max =>
    rw [act, burst, ringActs]
    cases s.polling with
    | none => exact world_pollNext ..
    | some _ => rfl
  | stepBurst =>
    rw [act, stepBurst, ringActs]
    cases s.polling with
    | none => rfl
    | some poll => exact world_pollEvent ..

private theorem crashFree_sendCalls (left : Nat) (e : Option Event) : CrashFree
    (sendCalls left e) := by
  unfold sendCalls CrashFree
  split
  · split <;> simp
  · simp

private theorem crashFree_pollCall (max n : Nat) : CrashFree (pollCall max n) := by
  unfold pollCall CrashFree
  split <;> simp

private theorem crashFree_pollCalls (max n : Nat) (e : Option Event) :
    CrashFree (pollCalls max n e) := by
  unfold pollCalls
  split
  · exact crashFree_pollCall _ _
  · simp [CrashFree]

/-- No step of the link stops a process. -/
theorem crashFree_ringActs (s : Link g) (a : LinkAct) : CrashFree (s.ringActs a) := by
  cases a with
  | send packet =>
    rw [ringActs]
    split <;> simp [CrashFree]
  | stepSend =>
    rw [ringActs]
    split
    · simp [CrashFree]
    · simpa [CrashFree] using crashFree_sendCalls _ _
  | burst max =>
    rw [ringActs]
    split
    · exact crashFree_pollCall _ _
    · simp [CrashFree]
  | stepBurst =>
    rw [ringActs]
    split
    · simp [CrashFree]
    · simpa [CrashFree] using crashFree_pollCalls _ _ _

end Link

/-- The link runs on the ring. -/
def linkUses (g : Geometry) : (link g).Uses (machine g) where
  part := Link.world
  calls := Link.ringActs
  step := Link.world_act

/-- What the ring shows of a step of the link. -/
def Link.ringEvents (s : Link g) (a : LinkAct) : List Event :=
  events ((machine g).trace s.world (s.ringActs a))

end AetherRadio.Shm
