import Muduo.TcpConnection.Lifecycle

open transition
open muduo.kernel muduo.buffer muduo.epoll muduo.event_loop

namespace muduo.tcp_connection

/-- A step of a connection on its loop, or of user code that sets its high-water callback. -/
inductive LoneInput (T : Type) where
  | system (i : Input T)
  | setHighWaterMarkCallback (highWaterMark : Nat)

variable {T : Type}

/-- The dispatches of the connection that the loop's thread still has before it. -/
def due : Location Task Handler → Nat
  | .dispatching activeChannels => activeChannels.count (.channel .connection)
  | .handling _ activeChannels => activeChannels.count (.channel .connection)
  | _ => 0

/-- A connection that has just been established, and about which nothing else is to be done. -/
structure Fresh (s : System T) : Prop where
  established : Established s
  due_eq : due s.thread.at_ = 0
  queue : ∀ task ∈ s.thread.queue, task = .other

/-- The steps of a connection that no other thread calls, of a server that stays, if
`poll` reports to it what `told` admits. -/
def LeftAlone (told : Advance Handler → Mask → Prop) (_ : System T) : LoneInput T → Prop
  | .system (.advance a revents) => told a revents
  | .system (.load _ _) => False
  | .system (.store _) => False
  | .system (.push _) => False
  | .system .destroyServer => False
  | _ => True

namespace System

def setHighWaterMarkCallback (s : System T) (highWaterMark : Nat) : System T :=
  { s with conn := { s.conn with highWaterMark_ := highWaterMark, highWaterMarkCallback_ := true } }

/-- Functors queued one after the other. -/
def queueAll (s : System T) (isInLoopThread : Bool) (tasks : List Task) : System T :=
  { s with thread := { s.thread with
      loop := tasks.foldl (fun loop task => loop.queueInLoop isInLoopThread task) s.thread.loop } }

end System

/-- A connection on its loop, and the user code that uses it. -/
def lone (T : Type) [DecidableEq T] (alloc : Nat → Bool) (sameLoop : Bool) : Machine (System T) (LoneInput T) where
  step s
    | .system i => s.step alloc sameLoop i
    | .setHighWaterMarkCallback highWaterMark =>
      if s.userRuns then some (s.setHighWaterMarkCallback highWaterMark) else none

/-- Functors that are not about the connection can be queued by user code, where it runs,
and by other threads. -/
theorem System.steps_queueAll [DecidableEq T] {alloc : Nat → Bool} {sameLoop : Bool}
    {told : Advance Handler → Mask → Prop} {isInLoopThread : Bool} {tasks : List Task}
    (hother : ∀ task ∈ tasks, task = .other) (s : System T) (hruns : isInLoopThread = true → s.userRuns = true) :
    (lone T alloc sameLoop).Steps (LeftAlone told) s (s.queueAll isInLoopThread tasks) := by
  induction tasks generalizing s with
  | nil => exact Machine.Steps.refl _ _ _
  | cons task tasks ih =>
    obtain rfl : task = .other := hother task List.mem_cons_self
    have hrest := ih (fun task hmem => hother task (List.mem_cons_of_mem _ hmem))
      (s.queueInLoop isInLoopThread .other) hruns
    refine Machine.Steps.trans ?_ hrest
    cases isInLoopThread with
    | true => exact Machine.Steps.single (i := .system .ownQueue) trivial (if_pos (hruns rfl))
    | false => exact Machine.Steps.single (i := .system .queueOther) trivial rfl

end muduo.tcp_connection
