import Muduo.EventLoop.Basic

open transition
open muduo.event_loop

namespace muduo.event_loop_thread

/-- The flags of a `Thread`, and whether its destructor has let the thread go. -/
structure Thread where
  started_ : Bool
  joined_ : Bool
  detached : Bool
  deriving DecidableEq

namespace Thread

def construct : Thread := { started_ := false, joined_ := false, detached := false }

def start (self : Thread) : Thread := { self with started_ := true }

def join (self : Thread) : Thread := { self with joined_ := true }

def destroy (self : Thread) : Thread :=
  if self.started_ && !self.joined_ then { self with detached := true } else self

end Thread

/-- What `threadFunc` does next on its own thread. In `callback` the thread is in the
initialising callback, from `enter` on in `loop()`, and in `destroy` only the local
`EventLoop` is left to be destroyed. -/
inductive FuncAt where
  | unborn
  | post
  | construct
  | callback
  | lock
  | publish
  | notify
  | unlock
  | enter
  | looping
  | lockAgain
  | clear
  | unlockAgain
  | destroy
  | returned
  deriving DecidableEq, Repr

/-- What the owner of the `EventLoopThread` does next: in `startLoop` up to `take`, in
the destructor from `exit` on. `call` and `wakeup` are the two parts of `quit()`,
called through the pointer that `load` has read. -/
inductive OwnerAt where
  | start
  | waitPosted
  | lock
  | wait
  | blocked
  | take
  | exit
  | test
  | load
  | call (pointer : Bool)
  | wakeup (pointer : Bool)
  | join
  | members
  | destroyed
  deriving DecidableEq, Repr

/-- The local `EventLoop` exists. -/
def FuncAt.alive : FuncAt → Bool
  | .callback => true
  | .lock => true
  | .publish => true
  | .notify => true
  | .unlock => true
  | .enter => true
  | .looping => true
  | .lockAgain => true
  | .clear => true
  | .unlockAgain => true
  | .destroy => true
  | _ => false

/-- `startLoop` has returned the pointer. -/
def OwnerAt.hasLoop : OwnerAt → Bool
  | .start => false
  | .waitPosted => false
  | .lock => false
  | .wait => false
  | .blocked => false
  | .take => false
  | _ => true

/-- Where `threadFunc` is after a step of its loop to a position. -/
def FuncAt.follow {F H : Type} : FuncAt → Location F H → FuncAt
  | .enter, .testing => .looping
  | .looping, .outside => .lockAgain
  | func, _ => func

/-- An `EventLoopThread`, its thread with the local `loop`, and its owner. `loop_`
says whether the pointer is set, `mutex_` whether the mutex is held. `asked` records
that `quit()` has been called on the published loop, `strayed` that the destructor
has called it through a pointer that was null, or cleared or destroyed by then. -/
structure System (T F H : Type) where
  loop_ : Bool
  exiting_ : Bool
  thread_ : Thread
  mutex_ : Bool
  loop : event_loop.System T F H
  func : FuncAt
  owner : OwnerAt
  asked : Bool
  strayed : Bool

/-- A step of `threadFunc` outside of `loop()`, of the owner in `startLoop` or in the
destructor, or a step on the loop: of its own thread, or of another thread that has
the pointer. -/
inductive Input (T F H : Type) where
  | threadFunc
  | startLoop
  | destruct
  | loop (i : event_loop.Input T F H)
  deriving DecidableEq

namespace System

variable {T F H : Type}

def construct : System T F H where
  loop_ := false
  exiting_ := false
  thread_ := .construct
  mutex_ := false
  loop := .start
  func := .unborn
  owner := .start
  asked := false
  strayed := false

def threadFunc (s : System T F H) : Option (System T F H) :=
  match s.func with
  | .post => some { s with func := .construct }
  | .construct => some { s with loop := .start, func := .callback }
  | .callback => if s.loop.own = .outside then some { s with func := .lock } else none
  | .lock => if s.mutex_ = false then some { s with mutex_ := true, func := .publish } else none
  | .publish => some { s with loop_ := true, func := .notify }
  | .notify => some { s with func := .unlock }
  | .unlock => some { s with mutex_ := false, func := .enter }
  | .lockAgain => if s.mutex_ = false then some { s with mutex_ := true, func := .clear } else none
  | .clear => some { s with loop_ := false, func := .unlockAgain }
  | .unlockAgain => some { s with mutex_ := false, func := .destroy }
  | .destroy => some { s with func := .returned }
  | .unborn | .enter | .looping | .returned => none

/-- `startLoop`. Waiting may end at any time, as for a spurious wakeup; the predicate
is then tested again. -/
def startLoop (s : System T F H) : Option (System T F H) :=
  match s.owner with
  | .start => some { s with thread_ := s.thread_.start, func := .post, owner := .waitPosted }
  | .waitPosted => if s.func = .post then none else some { s with owner := .lock }
  | .lock => if s.mutex_ = false then some { s with mutex_ := true, owner := .wait } else none
  | .wait => if s.loop_ then some { s with owner := .take } else some { s with mutex_ := false, owner := .blocked }
  | .blocked => if s.mutex_ = false then some { s with mutex_ := true, owner := .wait } else none
  | .take => some { s with mutex_ := false, owner := .exit }
  | _ => none

/-- The destructor. The call of `quit()` through a pointer to a loop that is gone does
nothing that could be told. -/
def destruct (s : System T F H) : Option (System T F H) :=
  match s.owner with
  | .exit => some { s with exiting_ := true, owner := .test }
  | .test => some { s with owner := if s.loop_ then .load else .members }
  | .load => some { s with owner := .call s.loop_ }
  | .call pointer =>
    let s := { s with owner := .wakeup pointer, strayed := s.strayed || !(pointer && s.loop_ && s.func.alive) }
    if pointer && s.func.alive then
      some { s with loop := s.loop.setLoop { s.loop.thread.loop with quit_ := true }, asked := true }
    else some s
  | .wakeup pointer =>
    let s := { s with owner := .join }
    if pointer && s.func.alive then some { s with loop := s.loop.setLoop s.loop.thread.loop.wakeup } else some s
  | .join => if s.func = .returned then some { s with thread_ := s.thread_.join, owner := .members } else none
  | .members => some { s with thread_ := s.thread_.destroy, owner := .destroyed }
  | _ => none

/-- Whether a step on the loop can be taken. Its own thread works on it in the
initialising callback and in `loop()`, another thread as long as it exists. -/
def mayLoop (s : System T F H) : event_loop.Input T F H → Bool
  | .advance .enter => s.func == .enter
  | .advance _ => s.func == .looping
  | .ownPush _ => s.func == .callback || s.func == .looping
  | .ownTest => s.func == .callback || s.func == .looping
  | .ownWakeup => s.func == .callback || s.func == .looping
  | .ownQuit => s.func == .callback || s.func == .looping
  | .push _ _ => s.owner.hasLoop && s.func.alive
  | .test _ => s.owner.hasLoop && s.func.alive
  | .wakeup _ => s.owner.hasLoop && s.func.alive
  | .quit _ => s.owner.hasLoop && s.func.alive

def step [DecidableEq T] [DecidableEq H] (s : System T F H) : Input T F H → Option (System T F H)
  | .threadFunc => s.threadFunc
  | .startLoop => s.startLoop
  | .destruct => s.destruct
  | .loop i =>
    if s.mayLoop i then
      (s.loop.step i).map fun loop =>
        { s with loop, func := s.func.follow loop.thread.at_, asked := s.asked || (i.quitter.isSome && s.loop_) }
    else none

end System

/-- Every interleaving of an `EventLoopThread` with its owner and with the threads
that use its loop. -/
def ownership (T F H : Type) [DecidableEq T] [DecidableEq H] : Machine (System T F H) (Input T F H) where
  step := System.step

end muduo.event_loop_thread
