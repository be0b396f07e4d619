import OccamsRpc.Lib.Lists
import OccamsRpc.Lib.Runs
import OccamsRpc.Lib.Table
import OccamsRpc.Lib.Layout
import OccamsRpc.Lib.Cyclic
import OccamsRpc.Core.Num
import OccamsRpc.Core.Error
import OccamsRpc.Core.NumErr
import OccamsRpc.Core.Graceful
import OccamsRpc.Core.Restarts
import OccamsRpc.Core.Buf
import OccamsRpc.Core.Io
import OccamsRpc.Core.Transfer
import OccamsRpc.Core.BufWrite
import OccamsRpc.Core.FlushCut
import OccamsRpc.Stream.Task
import OccamsRpc.Stream.Proto
import OccamsRpc.Stream.Frame
import OccamsRpc.Tcp.Request
import OccamsRpc.Client.Timer
import OccamsRpc.Conn.Machine
import OccamsRpc.Tcp.Response
import OccamsRpc.Tcp.RespFidelity
import OccamsRpc.Conn.Calls
import OccamsRpc.Conn.Delivery
import OccamsRpc.Conn.Ping
import OccamsRpc.Conn.Shutdown
import OccamsRpc.Api.Exchange
import OccamsRpc.Api.Registry
import OccamsRpc.Api.Transparent
import OccamsRpc.Client.FailoverOnce
import OccamsRpc.Client.Select
import OccamsRpc.Client.Reuse
import OccamsRpc.Client.Rotation
import OccamsRpc.Client.Atomic
import OccamsRpc.Client.Uninterrupted
import OccamsRpc.Client.Fair
import OccamsRpc.Client.Versions
import OccamsRpc.Client.Reconfigure
import OccamsRpc.Client.Conserve
import OccamsRpc.Tcp.Cancel
import OccamsRpc.Client.Facts
import OccamsRpc.Conn.Window
import OccamsRpc.Conn.Drop
import OccamsRpc.Client.PoolLife
import OccamsRpc.Server.Writer
import OccamsRpc.Server.Reader
import OccamsRpc.Server.TaskEnum
import OccamsRpc.Api.Answer
import OccamsRpc.Client.Monitor
import OccamsRpc.Client.Cleanup
import OccamsRpc.Client.Connected
import OccamsRpc.Stream.Reserve
import OccamsRpc.Stream.Blob
import OccamsRpc.Core.Extent
import OccamsRpc.Core.BufRead
import OccamsRpc.Tcp.ReqExtent
import OccamsRpc.Tcp.RespExtent
import OccamsRpc.Tcp.RespBuf
import OccamsRpc.Tcp.RespBlob
import OccamsRpc.Client.Ordered
import OccamsRpc.Client.Tick
import OccamsRpc.Client.Receive
import OccamsRpc.Core.Shown
import OccamsRpc.Server.Conn
import OccamsRpc.Server.RpcServer
import OccamsRpc.Server.Remaining
import OccamsRpc.Server.Drain
import OccamsRpc.Client.Handover
import OccamsRpc.Tcp.ReqRead
import OccamsRpc.Conn.Reading
import OccamsRpc.Lib.Transit
import OccamsRpc.Server.Labels
import OccamsRpc.Session.System
import OccamsRpc.Session.Upstream
import OccamsRpc.Session.Downstream
import OccamsRpc.Session.EndToEnd
import OccamsRpc.Conn.Lookup
import OccamsRpc.Session.Complete
import OccamsRpc.Core.Takeover
import OccamsRpc.Session.Progress
import OccamsRpc.Core.AtLeast
import OccamsRpc.Tcp.Listen
