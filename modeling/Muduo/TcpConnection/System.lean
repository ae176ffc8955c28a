import Muduo.TcpConnection.Basic
import Muduo.EventLoop.Basic

open transition
open muduo.kernel muduo.buffer muduo.epoll muduo.event_loop

namespace muduo.tcp_connection

/-- The channels that the loop of the connection dispatches, besides its own one. -/
inductive Handler where
  | connection
  | other
  deriving DecidableEq

/-- The functors that the loop of the connection is given. -/
inductive Task where
  | connection (functor : Functor)
  | other
  deriving DecidableEq

/-- How far another thread is in a call on the connection: not in one, between the
test and the store of `shutdown`, or about to queue a functor. -/
inductive Caller where
  | outside
  | storing
  | queueing (functor : Functor)
  deriving DecidableEq

/-- A connection, its loop, and everybody else that acts on it. `registered` says
that the connection is in `connections_` of its server, `removals` counts the
functors `removeConnectionInLoop` bound to it that the base loop still has to run,
and `destroys` the functors `connectDestroyed` that those before have queued. -/
structure System (T : Type) where
  thread : LoopThread Task Handler
  todo : List Act
  conn : TcpConnection
  poller : EPollPoller
  log : List Event
  callers : T → Caller
  registered : Bool
  removals : Nat
  destroys : Nat

/-- A step: of the loop's thread between or in the bodies that it runs, of user code
that a body calls, of another thread in a call, or of the server on the base loop. -/
inductive Input (T : Type) where
  | advance (a : Advance Handler) (revents : Mask)
  | act (received : Received) (written : Written)
  | ownCall (call : Call)
  | ownRetrieve (len : Nat)
  | ownQueue
  | userReturns
  | load (t : T) (call : Call)
  | store (t : T)
  | push (t : T)
  | queueOther
  | quit (isInLoopThread : Bool)
  | removeConnectionInLoop
  | destroyServer

namespace System

variable {T : Type}

def world (s : System T) : World := { conn := s.conn, poller := s.poller, queued := [], log := s.log }

/-- Go on after the connection's code has worked on its world. -/
def resume (s : System T) (w : World) (todo : List Act) : System T :=
  { s with
    conn := w.conn
    poller := w.poller
    log := w.log
    todo := todo
    thread := { s.thread with
      loop := w.queued.foldl (fun loop functor => loop.queueInLoop true (.connection functor)) s.thread.loop } }

def queueInLoop (s : System T) (isInLoopThread : Bool) (task : Task) : System T :=
  { s with thread := { s.thread with loop := s.thread.loop.queueInLoop isInLoopThread task } }

/-- What the loop's thread has to do in the body that it has just entered. The mask
of a dispatch is the one that the last `poll` stored. -/
def body (conn : TcpConnection) : Location Task Handler → List Act
  | .handling .connection _ => conn.channel_.handleEventWithGuard.map Act.callback
  | .handling .other _ => [.user]
  | .running (.connection functor) _ => [.call functor]
  | .running .other _ => [.user]
  | _ => []

/-- Whether a call of `poll` reports the channel of the connection. -/
def reports : Advance Handler → Bool
  | .poll activeChannels => decide (.channel .connection ∈ activeChannels)
  | _ => false

/-- The connection after a step of the loop's thread, which stores the reported mask. -/
def polled (conn : TcpConnection) (a : Advance Handler) (revents : Mask) : TcpConnection :=
  if reports a then { conn with channel_ := conn.channel_.set_revents revents } else conn

/-- The kernel reports a descriptor only while it is registered. -/
def watched (s : System T) : Bool := (s.poller.interest s.conn.channel_.fd_).isSome

/-- User code is running on the loop's thread: in a callback, or outside of `loop()`. -/
def userRuns (s : System T) : Bool :=
  match s.todo, s.thread.at_ with
  | .user :: _, _ => true
  | [], .outside => true
  | _, _ => false

/-- `removeConnection` on the thread of the connection's loop. On the base loop it
runs `removeConnectionInLoop` at once, on another one it queues it. -/
def removeConnection (sameLoop : Bool) (s : System T) (todo : List Act) : System T :=
  if sameLoop then
    { s.queueInLoop true (.connection .connectDestroyed) with
      todo, registered := false, destroys := s.destroys + 1 }
  else { s with todo, removals := s.removals + 1 }

def act (alloc : Nat → Bool) (sameLoop : Bool) (s : System T) (received : Received) (written : Written) :
    Option (System T) :=
  match s.todo with
  | [] => none
  | .removeConnection :: rest => some (s.removeConnection sameLoop rest)
  | next :: rest =>
    (s.world.act alloc received written next).map fun (w, more) => s.resume w (more ++ rest)

/-- The test of `state_` with which a call begins on another thread. -/
def load [DecidableEq T] (s : System T) (t : T) (call : Call) : System T :=
  if s.conn.connected then
    match call with
    | .send buf =>
      { s with
        callers := Function.update s.callers t (.queueing (.sendInLoop buf))
        log := s.log ++ [.send buf] }
    | .sendFile fileDescriptor offset count =>
      { s with
        callers := Function.update s.callers t (.queueing (.sendFileInLoop fileDescriptor offset count)) }
    | .shutdown => { s with callers := Function.update s.callers t .storing }
  else s

/-- The store of `shutdown` on another thread. -/
def store [DecidableEq T] (s : System T) (t : T) : System T :=
  { s with
    conn := { s.conn with state_ := .kDisconnecting }
    log := s.log ++ [.setState .kDisconnecting]
    callers := Function.update s.callers t (.queueing .shutdownInLoop) }

def step [DecidableEq T] (alloc : Nat → Bool) (sameLoop : Bool) (s : System T) :
    Input T → Option (System T)
  | .advance a revents =>
    if s.todo = [] ∧ (reports a = true → s.watched = true) then
      (s.thread.advance a).map fun thread =>
        let conn := polled s.conn a revents
        { s with thread, conn, todo := body conn thread.at_ }
    else none
  | .act received written => s.act alloc sameLoop received written
  | .ownCall call =>
    if s.userRuns then
      let (w, next) := s.world.ownCall call
      some (s.resume w (next ++ s.todo))
    else none
  | .ownRetrieve len =>
    if s.userRuns then
      some { s with conn := { s.conn with inputBuffer_ := s.conn.inputBuffer_.retrieve len } }
    else none
  | .ownQueue => if s.userRuns then some (s.queueInLoop true .other) else none
  | .userReturns => match s.todo with
    | .user :: rest => some { s with todo := rest }
    | _ => none
  | .load t call => if s.callers t = .outside then some (s.load t call) else none
  | .store t => if s.callers t = .storing then some (s.store t) else none
  | .push t => match s.callers t with
    | .queueing functor =>
      some { s.queueInLoop false (.connection functor) with callers := Function.update s.callers t .outside }
    | _ => none
  | .queueOther => some (s.queueInLoop false .other)
  | .quit isInLoopThread =>
    if isInLoopThread = true → s.userRuns = true then
      some { s with thread := { s.thread with loop := s.thread.loop.quit isInLoopThread } }
    else none
  | .removeConnectionInLoop =>
    if sameLoop = false ∧ 0 < s.removals then
      some { s.queueInLoop false (.connection .connectDestroyed) with
        removals := s.removals - 1, registered := false, destroys := s.destroys + 1 }
    else none
  | .destroyServer =>
    if s.registered then
      if sameLoop then
        if s.userRuns then some { s with registered := false, todo := .call .connectDestroyed :: s.todo }
        else none
      else some { s.queueInLoop false (.connection .connectDestroyed) with registered := false }
    else none

/-- What a step is, for each branch that is enabled. -/
inductive Stepped [DecidableEq T] (alloc : Nat → Bool) (sameLoop : Bool) (s : System T) :
    Input T → System T → Prop where
  | advance (a : Advance Handler) (revents : Mask) (thread : LoopThread Task Handler) (htodo : s.todo = [])
      (hwatched : reports a = true → s.watched = true) (hadvance : s.thread.advance a = some thread) :
      Stepped alloc sameLoop s (.advance a revents)
        { s with thread, conn := polled s.conn a revents, todo := body (polled s.conn a revents) thread.at_ }
  | removeConnection (received : Received) (written : Written) (rest : List Act)
      (htodo : s.todo = .removeConnection :: rest) :
      Stepped alloc sameLoop s (.act received written) (s.removeConnection sameLoop rest)
  | act (received : Received) (written : Written) (a : Act) (rest : List Act) (w : World) (next : List Act)
      (htodo : s.todo = a :: rest) (hact : s.world.act alloc received written a = some (w, next)) :
      Stepped alloc sameLoop s (.act received written) (s.resume w (next ++ rest))
  | ownCall (call : Call) (huser : s.userRuns = true) : Stepped alloc sameLoop s (.ownCall call)
      (s.resume (s.world.ownCall call).1 ((s.world.ownCall call).2 ++ s.todo))
  | ownRetrieve (len : Nat) (huser : s.userRuns = true) : Stepped alloc sameLoop s (.ownRetrieve len)
      { s with conn := { s.conn with inputBuffer_ := s.conn.inputBuffer_.retrieve len } }
  | ownQueue (huser : s.userRuns = true) : Stepped alloc sameLoop s .ownQueue (s.queueInLoop true .other)
  | userReturns (rest : List Act) (htodo : s.todo = .user :: rest) :
      Stepped alloc sameLoop s .userReturns { s with todo := rest }
  | load (caller : T) (call : Call) (houtside : s.callers caller = .outside) :
      Stepped alloc sameLoop s (.load caller call) (s.load caller call)
  | store (caller : T) (hstoring : s.callers caller = .storing) :
      Stepped alloc sameLoop s (.store caller) (s.store caller)
  | push (caller : T) (functor : Functor) (hqueueing : s.callers caller = .queueing functor) :
      Stepped alloc sameLoop s (.push caller)
        { s.queueInLoop false (.connection functor) with callers := Function.update s.callers caller .outside }
  | queueOther : Stepped alloc sameLoop s .queueOther (s.queueInLoop false .other)
  | quit (isInLoopThread : Bool) (huser : isInLoopThread = true → s.userRuns = true) :
      Stepped alloc sameLoop s (.quit isInLoopThread)
      { s with thread := { s.thread with loop := s.thread.loop.quit isInLoopThread } }
  | removeConnectionInLoop (hother : sameLoop = false) (hremovals : 0 < s.removals) :
      Stepped alloc sameLoop s .removeConnectionInLoop
      { s.queueInLoop false (.connection .connectDestroyed) with
        removals := s.removals - 1, registered := false, destroys := s.destroys + 1 }
  | sweepHere (hregistered : s.registered = true) (hsame : sameLoop = true) (huser : s.userRuns = true) :
      Stepped alloc sameLoop s .destroyServer
        { s with registered := false, todo := .call .connectDestroyed :: s.todo }
  | sweepThere (hregistered : s.registered = true) (hother : sameLoop = false) :
      Stepped alloc sameLoop s .destroyServer
      { s.queueInLoop false (.connection .connectDestroyed) with registered := false }

theorem stepped [DecidableEq T] {alloc : Nat → Bool} {sameLoop : Bool} {s t : System T} {i : Input T}
    (hstep : s.step alloc sameLoop i = some t) : Stepped alloc sameLoop s i t := by
  cases i with
  | advance a revents =>
    simp only [step] at hstep
    split at hstep
    · next hidle =>
      obtain ⟨thread, hadvance, rfl⟩ := Option.map_eq_some_iff.mp hstep
      exact .advance a revents thread hidle.1 hidle.2 hadvance
    · cases hstep
  | act received written =>
    simp only [step, act] at hstep
    split at hstep
    · cases hstep
    · next rest htodo =>
      cases hstep
      exact .removeConnection received written rest htodo
    · next a rest _ htodo =>
      obtain ⟨⟨w, next⟩, hact, rfl⟩ := Option.map_eq_some_iff.mp hstep
      exact .act received written a rest w next htodo hact
  | ownCall call =>
    obtain ⟨huser, rfl⟩ := Option.ite_some_none_eq_some.mp hstep
    exact .ownCall call huser
  | ownRetrieve len =>
    obtain ⟨huser, rfl⟩ := Option.ite_some_none_eq_some.mp hstep
    exact .ownRetrieve len huser
  | ownQueue =>
    obtain ⟨huser, rfl⟩ := Option.ite_some_none_eq_some.mp hstep
    exact .ownQueue huser
  | userReturns =>
    simp only [step] at hstep
    split at hstep
    · next rest htodo =>
      cases hstep
      exact .userReturns rest htodo
    · cases hstep
  | load caller call =>
    obtain ⟨houtside, rfl⟩ := Option.ite_some_none_eq_some.mp hstep
    exact .load caller call houtside
  | store caller =>
    obtain ⟨hstoring, rfl⟩ := Option.ite_some_none_eq_some.mp hstep
    exact .store caller hstoring
  | push caller =>
    simp only [step] at hstep
    split at hstep
    · next functor hqueueing =>
      cases hstep
      exact .push caller functor hqueueing
    · cases hstep
  | queueOther =>
    cases hstep
    exact .queueOther
  | quit isInLoopThread =>
    obtain ⟨huser, rfl⟩ := Option.ite_some_none_eq_some.mp hstep
    exact .quit isInLoopThread huser
  | removeConnectionInLoop =>
    obtain ⟨⟨hother, hremovals⟩, rfl⟩ := Option.ite_some_none_eq_some.mp hstep
    exact .removeConnectionInLoop hother hremovals
  | destroyServer =>
    obtain ⟨hregistered, hsweep⟩ := Option.ite_none_right_eq_some.mp hstep
    cases sameLoop with
    | true =>
      obtain ⟨huser, rfl⟩ := Option.ite_some_none_eq_some.mp hsweep
      exact .sweepHere hregistered rfl huser
    | false =>
      cases hsweep
      exact .sweepThere hregistered rfl

end System

/-- A connection on its loop among other threads. `sameLoop` says that its loop is
the base loop of the server. -/
def system (T : Type) [DecidableEq T] (alloc : Nat → Bool) (sameLoop : Bool) :
    Machine (System T) (Input T) where
  step := System.step alloc sameLoop

end muduo.tcp_connection
