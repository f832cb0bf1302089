import StreamFs.Pool.EndOfStream
import StreamFs.Pool.Interleaving
import StreamFs.Pool.EndMarker
import StreamFs.Pool.Reset
import StreamFs.Pool.Alignment
import StreamFs.Fuse.Poll
import StreamFs.Base.WaitFor
import StreamFs.Pool.Threads
import StreamFs.Pool.Abort
import StreamFs.Pool.Deadlock
import StreamFs.Pool.Wakeup
import StreamFs.Throttle.Atomics
import StreamFs.Throttle.Playback
import StreamFs.Throttle.Stranded
import StreamFs.Base.Ownership
import StreamFs.Fuse.Handles
import StreamFs.Fuse.Namespace
import StreamFs.Plugin.Manager
import StreamFs.Pool.Alone
import StreamFs.Throttle.Alone
import StreamFs.Pool.Accounting
import StreamFs.Throttle.Rotation
import StreamFs.Throttle.Periods
import StreamFs.Throttle.ReadAhead
import StreamFs.Plugin.Libraries
import StreamFs.Fuse.ControlFiles
import StreamFs.Base.Numeral
import StreamFs.Fuse.DebugLevel
import StreamFs.Fuse.Nodes
import StreamFs.Fuse.Snapshot
import StreamFs.Sample.Producer
import StreamFs.Plugin.Service
import StreamFs.Queue.Conservation
import StreamFs.Sample.Delivery
import StreamFs.Sample.Plugin
import StreamFs.Throttle.Exit
import StreamFs.Queue.Wakeup
import StreamFs.Queue.Messages
import StreamFs.Fuse.FileSystem
import StreamFs.Fuse.Register
import StreamFs.Fuse.Locks
import StreamFs.Plugin.Shutdown
import StreamFs.Plugin.Notify
import StreamFs.Sample.Sequential
import StreamFs.Pool.Consumer
import StreamFs.Pool.Returns
