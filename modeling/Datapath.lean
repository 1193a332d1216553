import Datapath.Lib.Run
import Datapath.Lib.Buffer
import Datapath.Lib.Framing
import Datapath.Lib.Growing
import Datapath.Lib.Ledger
import Datapath.Lib.Lightest
import Datapath.Lib.OrderedMap
import Datapath.Lib.Parsing
import Datapath.Lib.Tally
import Datapath.Lib.Simulation
import Datapath.Lib.Channel
import Datapath.Interface
import Datapath.Dispatch
import Datapath.Threadpool.Worker
import Datapath.Threadpool.InFlight
import Datapath.Threadpool.Wakeup
import Datapath.Threadpool.Pool
import Datapath.Threadpool.Fifo
import Datapath.Threadpool.Drain
import Datapath.Threadpool.Push
import Datapath.Threadpool.Settle
import Datapath.Threadpool.Balance
import Datapath.Threadpool.Mask
import Datapath.Windows.Task
import Datapath.Windows.Waitable
import Datapath.Windows.WaitMany
import Datapath.Windows.WaitAlone
import Datapath.Windows.Deadline
import Datapath.Windows.WaitEvents
import Datapath.Windows.Timeouts
import Datapath.Windows.Kernel
import Datapath.Windows.Overlapped
import Datapath.Windows.Cancellation
import Datapath.Windows.OverlappedQueue
import Datapath.Windows.Socket.Watcher
import Datapath.Windows.Socket.Alignment
import Datapath.Windows.Socket.Delivery
import Datapath.Windows.Socket.Boundaries
import Datapath.Windows.Socket.PeerLoss
import Datapath.Windows.Socket.Coupling
import Datapath.Windows.Socket.Write
import Datapath.Windows.Socket.Reuse
import Datapath.Windows.Socket.Arrival
import Datapath.Windows.Socket.Progress
import Datapath.Windows.Socket.AnyStream
import Datapath.Windows.Link
import Datapath.Windows.Socket.Close
import Datapath.Windows.Server.Watcher
import Datapath.Windows.Server.Phases
import Datapath.Windows.Server.Erasure
import Datapath.Windows.Server.Handles
import Datapath.Windows.Server.Watched
import Datapath.Windows.Server.Closing
import Datapath.Windows.Server.Backlog
import Datapath.Windows.Server.Overfill
import Datapath.Windows.Server.Capacity
import Datapath.Windows.Server.Names
import Datapath.Windows.Server.Offers
import Datapath.Windows.Server.Release
import Datapath.Windows.Socket.Lifecycle
import Datapath.Windows.Joinable
import Datapath.Windows.Connections.System
import Datapath.Windows.Connections.Quiet
import Datapath.Windows.Connections.Ownership
import Datapath.Windows.Connections.Leavers
import Datapath.Windows.Connections.Shutdown
import Datapath.Windows.SelfJoin
import Datapath.Windows.Socket.Abandoned
import Datapath.Samples.Benchmark
import Datapath.Samples.Echo
import Datapath.Samples.Measurer
