import Mymuduo.Buffer.ByteQueue
import Mymuduo.Buffer.Exceptions
import Mymuduo.Buffer.StorageBound
import Mymuduo.Buffer.TakeString
import Mymuduo.Connection.FlowControl
import Mymuduo.Connection.HalfClose
import Mymuduo.Connection.SendOrder
import Mymuduo.Connection.ShutdownRequest
import Mymuduo.Example.EchoServer
import Mymuduo.Log.LogFile
import Mymuduo.Loop.EventLoopThread
import Mymuduo.Loop.Quit
import Mymuduo.Loop.TaskOrder
import Mymuduo.Loop.Wakeup
import Mymuduo.Poller.Bookkeeping
import Mymuduo.Poller.Polling
import Mymuduo.Poller.Unwatched
import Mymuduo.Process.FatalErrors
import Mymuduo.Server.Acceptor
import Mymuduo.Server.CallbackProtocol
import Mymuduo.Server.Confinement
import Mymuduo.Server.Deregistration
import Mymuduo.Server.Descriptors
import Mymuduo.Server.DirectSend
import Mymuduo.Server.Draining
import Mymuduo.Server.EmptyCallbacks
import Mymuduo.Server.InetAddress
import Mymuduo.Server.Interest
import Mymuduo.Server.PoolJoin
import Mymuduo.Server.PoolReturn
import Mymuduo.Server.Precedence
import Mymuduo.Server.QueuedCalls
import Mymuduo.Server.Quiescence
import Mymuduo.Server.Removal
import Mymuduo.Server.RoundRobin
import Mymuduo.Server.Streams
import Mymuduo.Server.Teardown
