import DbdkyGcc.Foundations.Guarded
import DbdkyGcc.Foundations.Runs
import DbdkyGcc.Foundations.Loops
import DbdkyGcc.Foundations.OrderedSet
import DbdkyGcc.Foundations.FirstWins
import DbdkyGcc.Foundations.Framing
import DbdkyGcc.Foundations.Indexed
import DbdkyGcc.Foundations.Bytes
import DbdkyGcc.Foundations.Text
import DbdkyGcc.Foundations.Calendar
import DbdkyGcc.Foundations.Decoding
import DbdkyGcc.Codec.Replies
import DbdkyGcc.Port.Reassembly
import DbdkyGcc.Device.Order
import DbdkyGcc.Device.Identity
import DbdkyGcc.Device.MeasurePoints
import DbdkyGcc.Polling.Interleaving
import DbdkyGcc.Config.Update
import DbdkyGcc.Timers.Cancel
import DbdkyGcc.Timers.Arming
import DbdkyGcc.Timers.Handover
import DbdkyGcc.Loop.EventLoop
import DbdkyGcc.Loop.Thread
import DbdkyGcc.Pollers.Interchange
import DbdkyGcc.Tcp.Stop
import DbdkyGcc.Tcp.LifeCycle
import DbdkyGcc.Tcp.Buffer
import DbdkyGcc.Tcp.ByteSequence
import DbdkyGcc.Tcp.Connection
import DbdkyGcc.Tcp.Stream
import DbdkyGcc.Tcp.Shutdown
import DbdkyGcc.Tcp.Closing
import DbdkyGcc.Tcp.Server
import DbdkyGcc.Logging.Async
import DbdkyGcc.Logging.LogFile
import DbdkyGcc.Logging.Refinement
import DbdkyGcc.Threads.Stop
import DbdkyGcc.Zones.TimeZone
import DbdkyGcc.Codec.Residue
import DbdkyGcc.Codec.Commands
import DbdkyGcc.Codec.Times
import DbdkyGcc.Port.Store
import DbdkyGcc.Codec.Layout
import DbdkyGcc.Foundations.Search
import DbdkyGcc.Zones.LocalTime
import DbdkyGcc.Timers.Batch
import DbdkyGcc.Pollers.Registration
import DbdkyGcc.Pollers.Table
import DbdkyGcc.Foundations.Heap
import DbdkyGcc.Foundations.LastWins
import DbdkyGcc.Logging.Buffers
import DbdkyGcc.Config.Settings
import DbdkyGcc.Config.Save
import DbdkyGcc.Device.Catalogue
import DbdkyGcc.Foundations.Doubles
import DbdkyGcc.Polling.Addresses
import DbdkyGcc.Foundations.Scan
import DbdkyGcc.Polling.Intervals
import DbdkyGcc.Tcp.LineEnds
import DbdkyGcc.Foundations.MachineInt
import DbdkyGcc.Dates.JulianDay
import DbdkyGcc.Zones.Utc
import DbdkyGcc.Zones.RoundTrip
import DbdkyGcc.Streams.Convert
import DbdkyGcc.Streams.LogStream
import DbdkyGcc.Streams.Logger
import DbdkyGcc.Database.Helper
import DbdkyGcc.Foundations.Places
import DbdkyGcc.Threads.Latch
import DbdkyGcc.Threads.Queues
import DbdkyGcc.Tcp.Duplex
import DbdkyGcc.Timers.Rate
import DbdkyGcc.Polling.Separated
import DbdkyGcc.Port.Lines
import DbdkyGcc.Config.Store
import DbdkyGcc.Foundations.Substring
import DbdkyGcc.Polling.Factory
import DbdkyGcc.Tcp.Acceptor
import DbdkyGcc.Logging.Output
import DbdkyGcc.Logging.Pipeline
import DbdkyGcc.Polling.Gateway
