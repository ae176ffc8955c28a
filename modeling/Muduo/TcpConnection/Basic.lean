import Muduo.Buffer.Checked
import Muduo.Poller.Basic

open muduo.kernel muduo.buffer muduo.epoll

namespace muduo.tcp_connection

inductive StateE where
  | kDisconnected
  | kConnecting
  | kConnected
  | kDisconnecting
  deriving DecidableEq, Repr

/-- The functors bound to a connection. A queued `sendInLoop` carries the payload
that its pointer is meant to stand for. -/
inductive Functor where
  | connectEstablished
  | connectDestroyed
  | sendInLoop (data : Text)
  | sendFileInLoop (fileDescriptor : Nat) (offset : Int) (count : Nat)
  | shutdownInLoop
  | writeCompleteCallback_
  | highWaterMarkCallback_ (size : Nat)
  deriving DecidableEq

/-- What the thread of the loop still has to do in the body that it runs. A method
is cut where it calls user code or the server, and where it touches `state_` or the
functor queue a second time, so that other threads interleave between the parts. -/
inductive Act where
  | call (functor : Functor)
  | callback (callback : EventCallback)
  | drained
  | disconnect
  | remove
  | queue (functor : Functor)
  | user
  | closeCallback_
  | removeConnection
  deriving DecidableEq

/-- What the code of a connection does that can be told from outside of it. -/
inductive Event where
  | setState (state : StateE)
  | update (events_ : Mask)
  | removed
  | send (data : Text)
  | sendInLoop (data : Text)
  | write (data : List UInt8) (written : Written)
  | sendfile (fileDescriptor : Nat) (offset : Int) (count : Nat) (written : Written)
  | append (data : List UInt8)
  | shutdownWrite
  | queueInLoop (functor : Functor)
  | connectionCallback_ (connected : Bool)
  | messageCallback_
  | closeCallback_
  deriving DecidableEq

/-- The connection callback, the message callback and the close callback are taken
to be set; of the other two it is recorded whether they are. -/
structure TcpConnection where
  state_ : StateE
  channel_ : Channel
  inputBuffer_ : CheckedBuffer
  outputBuffer_ : CheckedBuffer
  highWaterMark_ : Nat
  writeCompleteCallback_ : Bool
  highWaterMarkCallback_ : Bool

namespace TcpConnection

/-- A connection as the constructor leaves it, with its channel at an address. -/
def construct (addr sockfd : Nat) : TcpConnection where
  state_ := .kConnecting
  channel_ := .construct addr sockfd
  inputBuffer_ := .fresh
  outputBuffer_ := .fresh
  highWaterMark_ := 64 * 1024 * 1024
  writeCompleteCallback_ := false
  highWaterMarkCallback_ := false

def connected (self : TcpConnection) : Bool := self.state_ == .kConnected

end TcpConnection

/-- A `size_t` value as a `ssize_t`. -/
def ssize (n : Nat) : Int := if n < 2 ^ 63 then n else (n : Int) - 2 ^ 64

/-- What the code of a connection works on: the connection, the poller of its loop,
the functors that it hands to `queueInLoop`, and the record of what it does. -/
structure World where
  conn : TcpConnection
  poller : EPollPoller
  queued : List Functor
  log : List Event

namespace World

variable (w : World)

def emit (event : Event) : World := { w with log := w.log ++ [event] }

def setState (state : StateE) : World :=
  { w with conn := { w.conn with state_ := state } }.emit (.setState state)

def setInputBuffer (inputBuffer_ : CheckedBuffer) : World :=
  { w with conn := { w.conn with inputBuffer_ } }

def setOutputBuffer (outputBuffer_ : CheckedBuffer) : World :=
  { w with conn := { w.conn with outputBuffer_ } }

/-- An interest operation on `channel_`. -/
def perform (op : ChannelOp) : World :=
  let (poller, channel_) := w.conn.channel_.perform w.poller op
  { w with conn := { w.conn with channel_ }, poller }.emit
    (if op = ChannelOp.remove then .removed else .update channel_.events_)

def queueInLoop (functor : Functor) : World :=
  { w with queued := w.queued ++ [functor] }.emit (.queueInLoop functor)

def connectionCallback_ : World := w.emit (.connectionCallback_ w.conn.connected)

def connectEstablished : World × List Act :=
  let w := w.setState .kConnected
  let w := { w with conn := { w.conn with channel_ := w.conn.channel_.tie } }
  let w := w.perform .enableReading
  (w.connectionCallback_, [.user])

/-- The test of `connectDestroyed`, with what it leads to. -/
def connectDestroyed : World × List Act :=
  (w, if w.conn.state_ = .kConnected then [.disconnect, .remove] else [.remove])

/-- The guarded block of `connectDestroyed`. -/
def disconnect : World × List Act :=
  (((w.setState .kDisconnected).perform .disableAll).connectionCallback_, [.user])

def handleClose : World × List Act :=
  (((w.setState .kDisconnected).perform .disableAll).connectionCallback_, [.user, .closeCallback_])

/-- `handleRead`; the answer of `readv` must fit the iovecs. -/
def handleRead (alloc : Nat → Bool) (received : Received) : Option (World × List Act) :=
  if received.Possible w.conn.inputBuffer_.raw.readCapacity then
    match w.conn.inputBuffer_.readFd alloc received with
    | some (inputBuffer_, n, _) =>
      let w := w.setInputBuffer inputBuffer_
      if 0 < n then some (w.emit .messageCallback_, [.user])
      else if n = 0 then some w.handleClose
      else some (w, [])
    | none => none
  else none

def shutdownInLoop : World := if w.conn.channel_.isWriting then w else w.emit .shutdownWrite

/-- Queue the write-complete callback if it is set. -/
def writeCompleted : World :=
  if w.conn.writeCompleteCallback_ then w.queueInLoop .writeCompleteCallback_ else w

/-- The bookkeeping of `handleWrite` after `n` bytes have been taken. -/
def wrote (n : Nat) : World × List Act :=
  let w := w.setOutputBuffer (w.conn.outputBuffer_.retrieve n)
  if w.conn.outputBuffer_.readableBytes = 0 then ((w.perform .disableWriting).writeCompleted, [.drained])
  else (w, [])

/-- `handleWrite` up to the test of `state_`; the answer of `write` must fit the
request. -/
def handleWrite (written : Written) : Option (World × List Act) :=
  if w.conn.channel_.isWriting then
    if written.Possible w.conn.outputBuffer_.readableBytes then
      let w := w.emit (.write w.conn.outputBuffer_.contents written)
      if 0 < written.taken then some (w.wrote written.taken) else some (w, [])
    else none
  else some (w, [])

/-- The end of `handleWrite` when the backlog has drained. -/
def drained : World := if w.conn.state_ = .kDisconnecting then w.shutdownInLoop else w

/-- Queue the high-water callback if it is set and `len` more bytes reach the mark. -/
def highWater (len : Nat) : World :=
  let oldLen := w.conn.outputBuffer_.readableBytes
  if w.conn.highWaterMark_ ≤ addSize oldLen len ∧ oldLen < w.conn.highWaterMark_ ∧
      w.conn.highWaterMarkCallback_ = true then
    w.queueInLoop (.highWaterMarkCallback_ (addSize oldLen len))
  else w

def watchWriting : World := if w.conn.channel_.isWriting then w else w.perform .enableWriting

/-- The part of `sendInLoop` behind the direct write, for the bytes that are left. There is
no result if the append throws, which leaves `sendInLoop` as an exception. -/
def keep (alloc : Nat → Bool) (rest : List UInt8) : Option World :=
  if 0 < rest.length then
    let w := w.highWater rest.length
    match w.conn.outputBuffer_.append alloc rest with
    | some outputBuffer_ =>
      some ((w.setOutputBuffer outputBuffer_).emit (.append rest)).watchWriting
    | none => none
  else some w

/-- The direct write of `sendInLoop`. -/
def writeDirectly (data : List UInt8) (written : Written) : World :=
  let w := w.emit (.write data written)
  if written = .bytes data.length then w.writeCompleted else w

/-- `sendInLoop`. It only logs that the connection is disconnected and goes on. The `errno`
of `written` is the one that its test behind `LOG_ERROR` sees. -/
def sendInLoop (alloc : Nat → Bool) (data : Text) (written : Written) : Option World :=
  let w := w.emit (.sendInLoop data)
  if w.conn.channel_.isWriting = false ∧ w.conn.outputBuffer_.readableBytes = 0 then
    if written.Possible data.chars.length then
      let w := w.writeDirectly data.chars written
      if written.isFatal then some w else w.keep alloc (data.chars.drop written.taken)
    else none
  else w.keep alloc data.chars

/-- The end of `sendFileInLoop`: what is left is sent by another functor. -/
def requeue (fileDescriptor : Nat) (offset : Int) (remaining : Int) : List Act :=
  if 0 < remaining then [.queue (.sendFileInLoop fileDescriptor offset remaining.toNat)] else []

/-- `sendFileInLoop`. Its guard is for the state of a connection that is shutting down. The
`errno` of `written` is the one that its test behind `LOG_ERROR` sees. -/
def sendFileInLoop (fileDescriptor : Nat) (offset : Int) (count : Nat) (written : Written) :
    Option (World × List Act) :=
  if w.conn.state_ = .kDisconnecting then some (w, [])
  else if w.conn.channel_.isWriting = false ∧ w.conn.outputBuffer_.readableBytes = 0 then
    if written.Possible count then
      let w := w.emit (.sendfile fileDescriptor offset count written)
      match written with
      | .bytes n =>
        let remaining := ssize count - n
        some (w, (if remaining = 0 ∧ w.conn.writeCompleteCallback_ then [.queue .writeCompleteCallback_] else []) ++
          requeue fileDescriptor (offset + n) remaining)
      | .error _ =>
        some (w, if written.isFatal then [] else requeue fileDescriptor offset (ssize count))
    else none
  else some (w, requeue fileDescriptor offset (ssize count))

/-- A functor called on the loop's thread. -/
def call (alloc : Nat → Bool) (written : Written) : Functor → Option (World × List Act)
  | .connectEstablished => some w.connectEstablished
  | .connectDestroyed => some w.connectDestroyed
  | .sendInLoop data => (w.sendInLoop alloc data written).map fun w => (w, [])
  | .sendFileInLoop fileDescriptor offset count => w.sendFileInLoop fileDescriptor offset count written
  | .shutdownInLoop => some (w.shutdownInLoop, [])
  | .writeCompleteCallback_ => some (w, [.user])
  | .highWaterMarkCallback_ _ => some (w, [.user])

/-- One act of the connection's code, given the answers of the system calls that it
makes, with the acts that come next. The last two kinds are not its own code. -/
def act (alloc : Nat → Bool) (received : Received) (written : Written) : Act → Option (World × List Act)
  | .call functor => w.call alloc written functor
  | .callback .closeCallback_ => some w.handleClose
  | .callback .errorCallback_ => some (w, [])
  | .callback .readCallback_ => w.handleRead alloc received
  | .callback .writeCallback_ => w.handleWrite written
  | .drained => some (w.drained, [])
  | .disconnect => some w.disconnect
  | .remove => some (w.perform .remove, [])
  | .queue functor => some (w.queueInLoop functor, [])
  | .closeCallback_ => some (w.emit .closeCallback_, [.removeConnection])
  | .user => none
  | .removeConnection => none

end World

/-- The calls that user code can make on a connection. -/
inductive Call where
  | send (buf : Text)
  | sendFile (fileDescriptor : Nat) (offset : Int) (count : Nat)
  | shutdown
  deriving DecidableEq

/-- A call of user code on the loop's own thread: the test of `state_`, and the
method that runs at once if it passes. -/
def World.ownCall (w : World) : Call → World × List Act
  | .send buf =>
    if w.conn.connected then (w.emit (.send buf), [.call (.sendInLoop buf)]) else (w, [])
  | .sendFile fileDescriptor offset count =>
    if w.conn.connected then (w, [.call (.sendFileInLoop fileDescriptor offset count)]) else (w, [])
  | .shutdown =>
    if w.conn.connected then (w.setState .kDisconnecting, [.call .shutdownInLoop]) else (w, [])

end muduo.tcp_connection
