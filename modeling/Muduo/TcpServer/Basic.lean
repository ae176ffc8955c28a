import Muduo.TcpConnection.Basic
import Muduo.EventLoop.Basic

open transition
open muduo.kernel muduo.buffer muduo.epoll muduo.event_loop
open muduo.tcp_connection (Functor Event TcpConnection World)

namespace muduo.tcp_server

/-- The functors that the loops of a server are given. A connection is known by the
address of its object. -/
inductive Task where
  | connection (conn : Nat) (functor : Functor)
  | removeConnectionInLoop (conn : Nat)
  | other
  deriving DecidableEq

/-- The channels that the loops of a server dispatch. -/
inductive Handler where
  | connection (conn : Nat)
  | acceptor
  | other
  deriving DecidableEq

/-- What the thread of a loop still has to do in the body that it runs. -/
inductive Job where
  | connection (conn : Nat) (act : tcp_connection.Act)
  | handleRead
  | removeConnectionInLoop (conn : Nat)
  | user
  deriving DecidableEq

/-- The body of a functor. -/
def Task.entry : Task → Job
  | .connection conn functor => .connection conn (.call functor)
  | .removeConnectionInLoop conn => .removeConnectionInLoop conn
  | .other => .user

/-- A connection object on the heap. The names of a server's connections differ in
the number at their end only. -/
structure Object (L : Type) where
  name_ : BitVec 32
  loop_ : L
  conn : TcpConnection
  log : List Event

/-- A server with its loops, one thread each, and the connection objects that exist.
`descriptors` holds the open sockets of connections, each with the object it belongs to,
`held` says to which objects user code keeps a `TcpConnectionPtr`, and `ran` holds the
functors of a loop's batch that have returned. -/
structure TcpServer (L : Type) where
  loop_ : L
  loops_ : List L
  next_ : Nat
  nextConnId_ : BitVec 32
  writeCompleteCallback_ : Bool
  connections_ : BitVec 32 → Option Nat
  objects : Nat → Option (Object L)
  descriptors : Nat → Option Nat
  held : Nat → Bool
  threads : L → LoopThread Task Handler
  ran : L → List Task
  todos : L → List Job
  pollers : L → EPollPoller

/-- A step: of a loop's thread between or in the bodies that it runs, of user code
on a loop's thread, of another thread, or of the owners of a connection. `accepted`
is the answer of `accept` with the address of the object that is then allocated. -/
inductive Input (L : Type) where
  | advance (l : L) (a : Advance Handler) (revents : Nat → Mask)
  | act (l : L) (accepted : Option (Nat × Nat)) (received : Received) (written : Written)
  | ownCall (l : L) (conn : Nat) (call : tcp_connection.Call)
  | ownRetrieve (l : L) (conn : Nat) (len : Nat)
  | setHighWaterMarkCallback (l : L) (conn : Nat) (highWaterMark : Nat)
  | userReturns (l : L)
  | ownQueue (l : L)
  | queueOther (l : L)
  | quit (l : L) (isInLoopThread : Bool)
  | hold (conn : Nat)
  | drop (conn : Nat)
  | destroy (conn : Nat)

/-- The functors bound to a `shared_ptr`; the other two are bound to `this`. -/
def isShared : Functor → Bool
  | .connectEstablished => true
  | .connectDestroyed => true
  | .sendInLoop _ => false
  | .sendFileInLoop _ _ _ => true
  | .shutdownInLoop => false
  | .writeCompleteCallback_ => true
  | .highWaterMarkCallback_ _ => true

def Task.owns (conn : Nat) : Task → Bool
  | .connection bound functor => bound == conn && isShared functor
  | .removeConnectionInLoop bound => bound == conn
  | .other => false

/-- A body in progress keeps its connection by a guard, an argument or a local. -/
def Job.owns (conn : Nat) : Job → Bool
  | .connection bound _ => bound == conn
  | .handleRead => false
  | .removeConnectionInLoop bound => bound == conn
  | .user => false

def owns (conn : Nat) : Location Task Handler → Bool
  | .handling handler _ => handler == .connection conn
  | .running task _ => task.owns conn
  | _ => false

/-- Whether a connection's channel is being dispatched or still to be dispatched in
the pass that a loop makes over `activeChannels_`. -/
def lists (conn : Nat) : Location Task Handler → Bool
  | .dispatching activeChannels => decide (.channel (.connection conn) ∈ activeChannels)
  | .handling handler activeChannels =>
    handler == .connection conn || decide (.channel (.connection conn) ∈ activeChannels)
  | _ => false

namespace TcpServer

variable {L : Type}

/-- A server that has accepted nothing, whose loops have not been entered. -/
def construct (loop_ : L) (loops_ : List L) (writeCompleteCallback_ : Bool) : TcpServer L where
  loop_ := loop_
  loops_ := loops_
  next_ := 0
  nextConnId_ := 1
  writeCompleteCallback_ := writeCompleteCallback_
  connections_ := fun _ => none
  objects := fun _ => none
  descriptors := fun _ => none
  held := fun _ => false
  threads := fun _ => .construct
  ran := fun _ => []
  todos := fun _ => []
  pollers := fun _ => .construct

/-- The loops whose functors and bodies can own a connection. -/
def loops (s : TcpServer L) : List L := s.loop_ :: s.loops_

/-- Whether something on the thread of a loop owns a connection. Functors of the batch that
have returned still do. -/
def ownedBy (s : TcpServer L) (conn : Nat) (l : L) : Bool :=
  (s.threads l).queue.any (Task.owns conn) || (s.ran l).any (Task.owns conn) || owns conn (s.threads l).at_ ||
    (s.todos l).any (Job.owns conn)

/-- Whether a connection is in `connections_`, under its own name. -/
def mapped (s : TcpServer L) (conn : Nat) : Bool :=
  (s.objects conn).any fun object => s.connections_ object.name_ == some conn

/-- Whether any `shared_ptr` owns a connection. -/
def owned (s : TcpServer L) (conn : Nat) : Bool :=
  s.held conn || s.mapped conn || s.loops.any (s.ownedBy conn)

def world (s : TcpServer L) (object : Object L) : World :=
  { conn := object.conn, poller := s.pollers object.loop_, queued := [], log := object.log }

def queueInLoop [DecidableEq L] (s : TcpServer L) (isInLoopThread : Bool) (l : L) (task : Task) : TcpServer L :=
  let thread := { s.threads l with loop := (s.threads l).loop.queueInLoop isInLoopThread task }
  { s with threads := Function.update s.threads l thread }

def setTodo [DecidableEq L] (s : TcpServer L) (l : L) (todo : List Job) : TcpServer L :=
  { s with todos := Function.update s.todos l todo }

def setObject (s : TcpServer L) (conn : Nat) (object : Object L) : TcpServer L :=
  { s with objects := Function.update s.objects conn (some object) }

/-- Go on after the code of a connection has worked on its world. -/
def resume [DecidableEq L] (s : TcpServer L) (l : L) (conn : Nat) (object : Object L) (w : World)
    (todo : List Job) : TcpServer L :=
  let s := s.setObject conn { object with conn := w.conn, log := w.log }
  let s := { s with pollers := Function.update s.pollers object.loop_ w.poller }
  w.queued.foldl (fun s functor => s.queueInLoop (decide (l = object.loop_)) object.loop_ (.connection conn functor))
    (s.setTodo l todo)

def getNextLoop (s : TcpServer L) : L × Nat :=
  match s.loops_[s.next_]? with
  | none => (s.loop_, s.next_)
  | some loop => (loop, if s.next_ + 1 < s.loops_.length then s.next_ + 1 else 0)

/-- `newConnection` on the thread of a loop, for an object at an address. -/
def newConnection [DecidableEq L] (s : TcpServer L) (l : L) (sockfd address : Nat) (rest : List Job) :
    TcpServer L :=
  let (ioLoop, next_) := s.getNextLoop
  let conn := { TcpConnection.construct address sockfd with writeCompleteCallback_ := s.writeCompleteCallback_ }
  let s := { s with
    next_
    nextConnId_ := s.nextConnId_ + 1
    connections_ := Function.update s.connections_ s.nextConnId_ (some address)
    objects := Function.update s.objects address
      (some { name_ := s.nextConnId_, loop_ := ioLoop, conn, log := [] })
    descriptors := Function.update s.descriptors sockfd (some address) }
  if l = ioLoop then s.setTodo l (.connection address (.call .connectEstablished) :: rest)
  else (s.setTodo l rest).queueInLoop false ioLoop (.connection address .connectEstablished)

/-- `removeConnection` on the thread of a loop. -/
def removeConnection [DecidableEq L] (s : TcpServer L) (l : L) (conn : Nat) (rest : List Job) : TcpServer L :=
  if l = s.loop_ then s.setTodo l (.removeConnectionInLoop conn :: rest)
  else (s.setTodo l rest).queueInLoop false s.loop_ (.removeConnectionInLoop conn)

def removeConnectionInLoop [DecidableEq L] (s : TcpServer L) (l : L) (conn : Nat) (object : Object L)
    (rest : List Job) : TcpServer L :=
  let s := { s with connections_ := Function.update s.connections_ object.name_ none }
  (s.setTodo l rest).queueInLoop (decide (l = object.loop_)) object.loop_ (.connection conn .connectDestroyed)

/-- The last owner is gone: the object goes, and its socket is closed. -/
def destroy (s : TcpServer L) (conn : Nat) (object : Object L) : TcpServer L :=
  { s with
    objects := Function.update s.objects conn none
    descriptors := Function.update s.descriptors object.conn.channel_.fd_ none }

/-- One act on the thread of a loop. `accept` answers with a closed descriptor, and
an object is allocated where there is none. -/
def act [DecidableEq L] (alloc : Nat → Bool) (s : TcpServer L) (l : L) (accepted : Option (Nat × Nat))
    (received : Received) (written : Written) : Option (TcpServer L) :=
  match s.todos l with
  | [] => none
  | .user :: _ => none
  | .handleRead :: rest =>
    match accepted with
    | none => some (s.setTodo l rest)
    | some (sockfd, address) =>
      if s.objects address = none ∧ s.descriptors sockfd = none then some (s.newConnection l sockfd address rest)
      else none
  | .removeConnectionInLoop conn :: rest =>
    (s.objects conn).map fun object => s.removeConnectionInLoop l conn object rest
  | .connection conn .removeConnection :: rest => some (s.removeConnection l conn rest)
  | .connection conn a :: rest =>
    (s.objects conn).bind fun object =>
      ((s.world object).act alloc received written a).map fun (w, next) =>
        s.resume l conn object w (next.map (.connection conn) ++ rest)

/-- The body that the thread of a loop enters. The mask of a dispatch is the one that
the last `poll` stored, and a channel whose connection is gone is not dispatched. -/
def body (s : TcpServer L) : Location Task Handler → List Job
  | .handling (.connection conn) _ =>
    match s.objects conn with
    | some object => object.conn.channel_.handleEventWithGuard.map fun callback => .connection conn (.callback callback)
    | none => []
  | .handling .acceptor _ => [.handleRead]
  | .handling .other _ => [.user]
  | .running task _ => [task.entry]
  | _ => []

/-- The connections that a call of `poll` reports. -/
def reports (conn : Nat) : Advance Handler → Bool
  | .poll activeChannels => decide (.channel (.connection conn) ∈ activeChannels)
  | _ => false

/-- The channels that the kernel can report to a loop: the acceptor's to the base
loop, and those of connections that are registered with the loop's poller. -/
def reportable [DecidableEq L] (s : TcpServer L) (l : L) : Ready Handler → Bool
  | .channel .acceptor => decide (l = s.loop_)
  | .channel (.connection conn) => (s.objects conn).any fun object =>
    decide (object.loop_ = l) && ((s.pollers l).interest object.conn.channel_.fd_).isSome
  | _ => true

def mayAdvance [DecidableEq L] (s : TcpServer L) (l : L) : Advance Handler → Bool
  | .poll activeChannels => activeChannels.all (s.reportable l)
  | _ => true

/-- The objects after `poll` has stored the reported masks. -/
def polled (s : TcpServer L) (a : Advance Handler) (revents : Nat → Mask) : TcpServer L :=
  { s with objects := fun conn => (s.objects conn).map fun object =>
      if reports conn a then
        { object with conn := { object.conn with channel_ := object.conn.channel_.set_revents (revents conn) } }
      else object }

/-- The functors that have returned, after a step of the loop's thread: the batch keeps
them until it ends. -/
def returned (s : TcpServer L) (l : L) : Advance Handler → List Task
  | .returned => s.ran l ++ (s.threads l).at_.remaining.take 1
  | .endFunctors => []
  | _ => s.ran l

/-- User code is running on the thread of a loop: in a callback, or outside of `loop()`. -/
def userRuns (s : TcpServer L) (l : L) : Bool :=
  match s.todos l, (s.threads l).at_ with
  | .user :: _, _ => true
  | .connection _ .user :: _, _ => true
  | [], .outside => true
  | _, _ => false

/-- The connection that user code on the thread of a loop works on must be one of the loop. -/
def onLoop [DecidableEq L] (s : TcpServer L) (l : L) (conn : Nat) (f : Object L → TcpServer L) :
    Option (TcpServer L) :=
  if s.userRuns l then
    (s.objects conn).bind fun object => if object.loop_ = l then some (f object) else none
  else none

def step [DecidableEq L] (alloc : Nat → Bool) (s : TcpServer L) : Input L → Option (TcpServer L)
  | .advance l a revents =>
    if s.todos l = [] ∧ s.mayAdvance l a = true then
      ((s.threads l).advance a).map fun thread =>
        let s := { s.polled a revents with
          threads := Function.update s.threads l thread
          ran := Function.update s.ran l (s.returned l a) }
        s.setTodo l (s.body thread.at_)
    else none
  | .act l accepted received written => s.act alloc l accepted received written
  | .ownCall l conn call => s.onLoop l conn fun object =>
    let (w, next) := (s.world object).ownCall call
    s.resume l conn object w (next.map (.connection conn) ++ s.todos l)
  | .ownRetrieve l conn len => s.onLoop l conn fun object => s.setObject conn
    { object with conn := { object.conn with inputBuffer_ := object.conn.inputBuffer_.retrieve len } }
  | .setHighWaterMarkCallback l conn highWaterMark => s.onLoop l conn fun object => s.setObject conn
    { object with conn := { object.conn with highWaterMark_ := highWaterMark, highWaterMarkCallback_ := true } }
  | .userReturns l => match s.todos l with
    | .user :: rest => some (s.setTodo l rest)
    | .connection _ .user :: rest => some (s.setTodo l rest)
    | _ => none
  | .ownQueue l => if s.userRuns l then some (s.queueInLoop true l .other) else none
  | .queueOther l => some (s.queueInLoop false l .other)
  | .quit l isInLoopThread =>
    if isInLoopThread = true → s.userRuns l = true then
      let thread := { s.threads l with loop := (s.threads l).loop.quit isInLoopThread }
      some { s with threads := Function.update s.threads l thread }
    else none
  | .hold conn => if s.owned conn then some { s with held := Function.update s.held conn true } else none
  | .drop conn => some { s with held := Function.update s.held conn false }
  | .destroy conn => if s.owned conn then none else (s.objects conn).map (s.destroy conn)

end TcpServer

def server (L : Type) [DecidableEq L] (alloc : Nat → Bool) : Machine (TcpServer L) (Input L) where
  step := TcpServer.step alloc

end muduo.tcp_server
