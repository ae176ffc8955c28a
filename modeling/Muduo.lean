import Muduo.Buffer.Refinement
import Muduo.Buffer.Calls
import Muduo.Buffer.Capacity
import Muduo.Buffer.Strings
import Muduo.Buffer.Checked
import Muduo.EventLoop.Wakeup
import Muduo.EventLoop.Atomic
import Muduo.Library.Table
import Muduo.EventLoop.Functors
import Muduo.EventLoop.Lifetime
import Muduo.EventLoop.Quit
import Muduo.EventLoop.Startup
import Muduo.EventLoop.View
import Muduo.EventLoopThread.Basic
import Muduo.EventLoopThread.Quit
import Muduo.EventLoopThread.Join
import Muduo.EventLoopThreadPool
import Muduo.Thread
import Muduo.Acceptor
import Muduo.TcpServer.Start
import Muduo.EventLoopThreadPool.Start
import Muduo.Poller.Agreement
import Muduo.Poller.Interest
import Muduo.Poller.Dispatch
import Muduo.Poller.Wait
import Muduo.TcpConnection.Basic
import Muduo.TcpConnection.Effects
import Muduo.Library.Record
import Muduo.Library.Rotation
import Muduo.TcpConnection.Stream
import Muduo.TcpConnection.Output
import Muduo.TcpConnection.Notices
import Muduo.TcpConnection.WriteComplete
import Muduo.TcpConnection.SendFile
import Muduo.TcpConnection.FileChain
import Muduo.TcpConnection.FileResume
import Muduo.TcpConnection.FileEnd
import Muduo.TcpConnection.FileShutdown
import Muduo.TcpConnection.System
import Muduo.TcpConnection.Control
import Muduo.TcpConnection.Lifecycle
import Muduo.TcpConnection.Input
import Muduo.TcpConnection.Forward
import Muduo.TcpConnection.Payload
import Muduo.TcpConnection.Teardown
import Muduo.TcpConnection.Inert
import Muduo.TcpConnection.Flight
import Muduo.TcpConnection.Shutdown
import Muduo.TcpConnection.Removal
import Muduo.TcpConnection.Ownership
import Muduo.TcpConnection.Twin
import Muduo.TcpConnection.Alone
import Muduo.TcpConnection.Calm
import Muduo.EchoServer
import Muduo.InetAddress
import Muduo.TcpServer.Basic
import Muduo.TcpServer.Stage
import Muduo.TcpServer.Destructor
import Muduo.TcpServer.Work
import Muduo.TcpServer.Placed
import Muduo.TcpServer.Sound
import Muduo.TcpServer.Visit
import Muduo.TcpServer.Protocol
import Muduo.TcpServer.Names
import Muduo.TcpServer.Assigned
import Muduo.TcpServer.Loops
import Muduo.TcpServer.Ledger
import Muduo.TcpServer.View
import Muduo.TcpServer.Alone
import Muduo.TcpServer.Followed
