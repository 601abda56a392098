import MuduoServer.Lib.Machine
import MuduoServer.Buffer.Basic
import MuduoServer.Buffer.Refinement
import MuduoServer.EventLoop.Basic
import MuduoServer.EventLoop.Wakeup
import MuduoServer.EventLoop.Quit
import MuduoServer.EventLoop.Thread
import MuduoServer.Lib.OrdSet
import MuduoServer.Timer.Basic
import MuduoServer.Timer.Invariant
import MuduoServer.Timer.Loop
import MuduoServer.Timer.Cancel
import MuduoServer.Timer.Alarm
import MuduoServer.Timer.Firing
import MuduoServer.Timer.Lifetime
import MuduoServer.Timer.AddRace
import MuduoServer.Channel.Basic
import MuduoServer.Tcp.Basic
import MuduoServer.Tcp.Stream
import MuduoServer.Tcp.Lifecycle
import MuduoServer.Channel.Interest
import MuduoServer.Tcp.ForceClose
import MuduoServer.Tcp.CrossThread
import MuduoServer.Tcp.Teardown
import MuduoServer.Tcp.ReadToggle
import MuduoServer.Tcp.Server
import MuduoServer.Tcp.Table
import MuduoServer.Tcp.Client
import MuduoServer.Tcp.ClientSlot
import MuduoServer.Tcp.ClientDestroy
import MuduoServer.Tcp.Ownership
import MuduoServer.Buffer.Lines
import MuduoServer.Buffer.Space
import MuduoServer.Channel.Bookkeeping
import MuduoServer.Tcp.Backlog
import MuduoServer.Tcp.Notification
import MuduoServer.Tcp.Start
import MuduoServer.Tcp.Footprint
import MuduoServer.Tcp.Host
import MuduoServer.Tcp.HostInv
import MuduoServer.Tcp.HostSteps
import MuduoServer.Tcp.Dispatch
import MuduoServer.Lib.Numeral
import MuduoServer.Lib.MachineInt
import MuduoServer.Tcp.Address
import MuduoServer.Log.Basic
import MuduoServer.Log.Format
import MuduoServer.Log.Stream
import MuduoServer.Log.Logger
import MuduoServer.Lib.DescriptorTable
import MuduoServer.Tcp.Acceptor
import MuduoServer.Lib.Compose
import MuduoServer.Tcp.Traffic
import MuduoServer.Tcp.Link
import MuduoServer.EventLoop.Progress
import MuduoServer.Channel.Poll
import MuduoServer.Examples.Echo
import MuduoServer.Tcp.Isolation
import MuduoServer.Tcp.Release
import MuduoServer.Lib.Monitor
import MuduoServer.Tcp.ClientWait
import MuduoServer.Tcp.HostLink
import MuduoServer.Tcp.Drain
import MuduoServer.Tcp.Arrival
