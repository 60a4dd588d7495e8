import AetherRadio.Lib.Machine
import AetherRadio.Lib.Simulation
import AetherRadio.Lib.Fifo
import AetherRadio.Lib.Word
import AetherRadio.Lib.LittleEndian
import AetherRadio.Lib.Table
import AetherRadio.Lib.Fallible
import AetherRadio.Lib.Gaps
import AetherRadio.Lib.History
import AetherRadio.Lib.Ledger
import AetherRadio.Lib.Extent
import AetherRadio.Lib.HoldLine
import AetherRadio.Lib.TimedQueue
import AetherRadio.Lib.Backlog
import AetherRadio.Lib.Rank
import AetherRadio.Lib.Text
import AetherRadio.Lib.Distinct
import AetherRadio.Types
import AetherRadio.Protocol.Frame
import AetherRadio.Protocol.Codec
import AetherRadio.Shm.Ring
import AetherRadio.Shm.Steps
import AetherRadio.Shm.Calls
import AetherRadio.Shm.Invariant
import AetherRadio.Shm.Preservation
import AetherRadio.Shm.Refinement
import AetherRadio.Shm.Crash
import AetherRadio.Shm.Layout
import AetherRadio.Shm.Image
import AetherRadio.Shm.View
import AetherRadio.Shm.Poll
import AetherRadio.Shm.Attach
import AetherRadio.Shm.Link
import AetherRadio.Shm.Delivery
import AetherRadio.Shm.Retry
import AetherRadio.Shm.Progress
import AetherRadio.Shm.Drain
import AetherRadio.Net.Poll
import AetherRadio.Net.Link
import AetherRadio.Transport.Check
import AetherRadio.Transport.Engine
import AetherRadio.Transport.Ingest
import AetherRadio.Transport.Runs
import AetherRadio.Transport.InOrder
import AetherRadio.Transport.Registry
import AetherRadio.Transport.Query
import AetherRadio.Transport.Isolation
import AetherRadio.Sim.Nic
import AetherRadio.Sim.NicQueue
import AetherRadio.Sim.NicOrder
import AetherRadio.Sim.Dpdk
import AetherRadio.Sim.GpuRing
import AetherRadio.Sim.RingLife
import AetherRadio.Sim.RingOrder
import AetherRadio.Sim.RingPacket
import AetherRadio.Sim.Fault
import AetherRadio.Sim.Injector
import AetherRadio.Sim.Overtake
import AetherRadio.Sim.Fpga
import AetherRadio.Sim.Skew
import AetherRadio.Sim.Emitter
import AetherRadio.Sim.RadioTime
import AetherRadio.Memory.Sim
import AetherRadio.Memory.Heap
import AetherRadio.Memory.Pool
import AetherRadio.Memory.Refine
import AetherRadio.Memory.Accounts
import AetherRadio.Memory.Copy
import AetherRadio.Metrics.Engine
import AetherRadio.Metrics.Health
import AetherRadio.Metrics.Latency
import AetherRadio.Metrics.Judge
import AetherRadio.Metrics.Severity
import AetherRadio.Metrics.Loosening
import AetherRadio.Metrics.Cycle
import AetherRadio.Metrics.Trace
import AetherRadio.Metrics.TraceRing
import AetherRadio.Metrics.Recovery
import AetherRadio.Metrics.Prometheus
import AetherRadio.Bench.Pipeline
import AetherRadio.Bench.Run
import AetherRadio.Bench.Step
import AetherRadio.Bench.Conservation
import AetherRadio.Bench.Sequence
import AetherRadio.Bench.Policy
import AetherRadio.Bench.Traces
import AetherRadio.Bench.RingIdle
import AetherRadio.Bench.Stages
import AetherRadio.Bench.Server
import AetherRadio.Bench.Outcome
import AetherRadio.Bench.Load
import AetherRadio.Bench.Percentiles
import AetherRadio.Bench.Soak
import AetherRadio.Host.Recv
import AetherRadio.Host.Receive
import AetherRadio.Host.AtMostOnce
import AetherRadio.Host.Deliver
import AetherRadio.Host.Samples
import AetherRadio.Host.Outcome
import AetherRadio.Host.Udp
import AetherRadio.Host.Shared
import AetherRadio.Host.Complete
import AetherRadio.Host.PromServe
import AetherRadio.Counters
