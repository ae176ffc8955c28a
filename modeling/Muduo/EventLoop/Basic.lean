import Mathlib.Algebra.Group.Nat.Defs
import Mathlib.Logic.Function.Basic
import Muduo.Library.Transition

open transition

namespace muduo.event_loop

/-- The largest value of the counter of an `eventfd`. -/
def eventfdMax : Nat := 2 ^ 64 - 2

/-- The data of a loop that other threads can touch, with functors of type `F`.
`wakeups` is the counter of `wakeupFd_`. -/
structure EventLoop (F : Type) where
  looping_ : Bool
  quit_ : Bool
  callingPendingFunctors_ : Bool
  pendingFunctors_ : List F
  wakeups : Nat
  deriving DecidableEq

namespace EventLoop

variable {F : Type}

def construct : EventLoop F where
  looping_ := false
  quit_ := false
  callingPendingFunctors_ := false
  pendingFunctors_ := []
  wakeups := 0

/-- The locked block of `queueInLoop`. -/
def push (self : EventLoop F) (cb : F) : EventLoop F :=
  { self with pendingFunctors_ := self.pendingFunctors_ ++ [cb] }

/-- The test behind the locked block of `queueInLoop`. -/
def mustWake (self : EventLoop F) (isInLoopThread : Bool) : Bool :=
  !isInLoopThread || self.callingPendingFunctors_

/-- Adding one to the non-blocking `eventfd`; a full counter refuses and stays. -/
def wakeup (self : EventLoop F) : EventLoop F :=
  { self with wakeups := if self.wakeups < eventfdMax then self.wakeups + 1 else self.wakeups }

/-- Reading the `eventfd` takes the whole count. -/
def handleRead (self : EventLoop F) : EventLoop F := { self with wakeups := 0 }

def queueInLoop (self : EventLoop F) (isInLoopThread : Bool) (cb : F) : EventLoop F :=
  if (self.push cb).mustWake isInLoopThread then (self.push cb).wakeup else self.push cb

/-- `runInLoop`, with the functor that the caller is to call at once, if any. -/
def runInLoop (self : EventLoop F) (isInLoopThread : Bool) (cb : F) : EventLoop F × Option F :=
  if isInLoopThread then (self, some cb) else (self.queueInLoop isInLoopThread cb, none)

def quit (self : EventLoop F) (isInLoopThread : Bool) : EventLoop F :=
  if isInLoopThread then { self with quit_ := true } else { self with quit_ := true }.wakeup

@[simp] theorem pendingFunctors_push (self : EventLoop F) (cb : F) :
    (self.push cb).pendingFunctors_ = self.pendingFunctors_ ++ [cb] := rfl

@[simp] theorem wakeups_push (self : EventLoop F) (cb : F) : (self.push cb).wakeups = self.wakeups := rfl

@[simp] theorem calling_push (self : EventLoop F) (cb : F) :
    (self.push cb).callingPendingFunctors_ = self.callingPendingFunctors_ := rfl

@[simp] theorem pendingFunctors_wakeup (self : EventLoop F) :
    self.wakeup.pendingFunctors_ = self.pendingFunctors_ := rfl

@[simp] theorem calling_wakeup (self : EventLoop F) :
    self.wakeup.callingPendingFunctors_ = self.callingPendingFunctors_ := rfl

/-- After a wakeup the next `poll` cannot block. -/
theorem wakeups_wakeup_pos (self : EventLoop F) : 0 < self.wakeup.wakeups := by
  unfold wakeup eventfdMax
  simp only
  split <;> omega

@[simp] theorem pendingFunctors_queueInLoop (self : EventLoop F) (isInLoopThread : Bool) (cb : F) :
    (self.queueInLoop isInLoopThread cb).pendingFunctors_ = self.pendingFunctors_ ++ [cb] := by
  unfold queueInLoop
  split <;> rfl

end EventLoop

/-- A channel that `poll` reports: the one of the `eventfd`, or another one with
whatever identifies its dispatch. -/
inductive Ready (H : Type) where
  | wakeupChannel
  | channel (h : H)
  deriving DecidableEq

/-- Where the loop's own thread is. Handlers and functors are left open: `handling`
and `running` last as long as their bodies run. -/
inductive Location (F H : Type) where
  | outside
  | testing
  | polling
  | dispatching (activeChannels : List (Ready H))
  | handling (h : H) (activeChannels : List (Ready H))
  | swapping
  | batch (functors : List F)
  | running (functor : F) (functors : List F)
  deriving DecidableEq

namespace Location

variable {F H : Type}

/-- The functors of the current batch that have not returned yet. -/
def remaining : Location F H → List F
  | .batch functors => functors
  | .running functor functors => functor :: functors
  | _ => []

/-- The functors of the current batch that have not been called yet. -/
def waiting : Location F H → List F
  | .batch functors => functors
  | .running _ functors => functors
  | _ => []

/-- Between setting and clearing `callingPendingFunctors_`. -/
def inFunctors : Location F H → Bool
  | .swapping => true
  | .batch _ => true
  | .running _ _ => true
  | _ => false

/-- In code that the loop calls: the body of a handler or of a functor. -/
def inCallback : Location F H → Bool
  | .handling _ _ => true
  | .running _ _ => true
  | _ => false

/-- Between the swap of one iteration and the dispatches of the next one, where no
further swap comes before `poll`. -/
def afterSwap : Location F H → Bool
  | .outside => true
  | .testing => true
  | .polling => true
  | .batch _ => true
  | .running _ _ => true
  | _ => false

end Location

/-- A loop and the position of its own thread. -/
structure LoopThread (F H : Type) where
  loop : EventLoop F
  at_ : Location F H
  deriving DecidableEq

/-- The steps of `loop()` and `doPendingFunctors()` between the bodies that they
call. `poll` carries the channels that the call reports. -/
inductive Advance (H : Type) where
  | enter
  | test
  | poll (activeChannels : List (Ready H))
  | dispatch
  | handled
  | beginFunctors
  | swap
  | take
  | returned
  | endFunctors
  deriving DecidableEq

namespace LoopThread

variable {F H : Type}

def construct : LoopThread F H where
  loop := .construct
  at_ := .outside

/-- One step of the loop's own thread. The `eventfd` is reported only when its
counter is positive, and its handler is the single read of `EventLoop::handleRead`. -/
def advance [DecidableEq H] (self : LoopThread F H) : Advance H → Option (LoopThread F H)
  | .enter => match self.at_ with
    | .outside => some { loop := { self.loop with looping_ := true, quit_ := false }, at_ := .testing }
    | _ => none
  | .test => match self.at_ with
    | .testing =>
      if self.loop.quit_ then some { loop := { self.loop with looping_ := false }, at_ := .outside }
      else some { self with at_ := .polling }
    | _ => none
  | .poll activeChannels => match self.at_ with
    | .polling =>
      if .wakeupChannel ∈ activeChannels → 0 < self.loop.wakeups then
        some { self with at_ := .dispatching activeChannels }
      else none
    | _ => none
  | .dispatch => match self.at_ with
    | .dispatching (.wakeupChannel :: rest) =>
      some { loop := self.loop.handleRead, at_ := .dispatching rest }
    | .dispatching (.channel h :: rest) => some { self with at_ := .handling h rest }
    | _ => none
  | .handled => match self.at_ with
    | .handling _ rest => some { self with at_ := .dispatching rest }
    | _ => none
  | .beginFunctors => match self.at_ with
    | .dispatching [] =>
      some { loop := { self.loop with callingPendingFunctors_ := true }, at_ := .swapping }
    | _ => none
  | .swap => match self.at_ with
    | .swapping =>
      some { loop := { self.loop with pendingFunctors_ := [] }, at_ := .batch self.loop.pendingFunctors_ }
    | _ => none
  | .take => match self.at_ with
    | .batch (functor :: functors) => some { self with at_ := .running functor functors }
    | _ => none
  | .returned => match self.at_ with
    | .running _ functors => some { self with at_ := .batch functors }
    | _ => none
  | .endFunctors => match self.at_ with
    | .batch [] =>
      some { loop := { self.loop with callingPendingFunctors_ := false }, at_ := .testing }
    | _ => none

/-- The steps of `advance`, one constructor for each way to take one. -/
inductive Advances (loop : EventLoop F) : Location F H → Advance H → LoopThread F H → Prop where
  | enter : Advances loop .outside .enter
      { loop := { loop with looping_ := true, quit_ := false }, at_ := .testing }
  | leave (hquit : loop.quit_ = true) : Advances loop .testing .test
      { loop := { loop with looping_ := false }, at_ := .outside }
  | stay (hquit : loop.quit_ = false) : Advances loop .testing .test { loop, at_ := .polling }
  | poll (activeChannels : List (Ready H))
      (hready : .wakeupChannel ∈ activeChannels → 0 < loop.wakeups) :
      Advances loop .polling (.poll activeChannels) { loop, at_ := .dispatching activeChannels }
  | drain (rest : List (Ready H)) : Advances loop (.dispatching (.wakeupChannel :: rest)) .dispatch
      { loop := loop.handleRead, at_ := .dispatching rest }
  | dispatch (h : H) (rest : List (Ready H)) : Advances loop (.dispatching (.channel h :: rest)) .dispatch
      { loop, at_ := .handling h rest }
  | handled (h : H) (rest : List (Ready H)) : Advances loop (.handling h rest) .handled
      { loop, at_ := .dispatching rest }
  | beginFunctors : Advances loop (.dispatching []) .beginFunctors
      { loop := { loop with callingPendingFunctors_ := true }, at_ := .swapping }
  | swap : Advances loop .swapping .swap
      { loop := { loop with pendingFunctors_ := [] }, at_ := .batch loop.pendingFunctors_ }
  | take (functor : F) (functors : List F) : Advances loop (.batch (functor :: functors)) .take
      { loop, at_ := .running functor functors }
  | returned (functor : F) (functors : List F) : Advances loop (.running functor functors) .returned
      { loop, at_ := .batch functors }
  | endFunctors : Advances loop (.batch []) .endFunctors
      { loop := { loop with callingPendingFunctors_ := false }, at_ := .testing }

theorem advances_of_advance [DecidableEq H] {s t : LoopThread F H} {a : Advance H}
    (hstep : s.advance a = some t) : Advances s.loop s.at_ a t := by
  obtain ⟨loop, position⟩ := s
  cases a <;> simp only [advance] at hstep
  case enter => split at hstep <;> cases hstep; exact .enter
  case test =>
    split at hstep
    · split at hstep
      · next hquit => cases hstep; exact .leave hquit
      · next hquit => cases hstep; exact .stay (by simpa using hquit)
    · cases hstep
  case poll activeChannels =>
    split at hstep
    · split at hstep
      · next hready => cases hstep; exact .poll _ hready
      · cases hstep
    · cases hstep
  case dispatch =>
    split at hstep <;> cases hstep
    · exact .drain _
    · exact .dispatch _ _
  case handled => split at hstep <;> cases hstep; exact .handled _ _
  case beginFunctors => split at hstep <;> cases hstep; exact .beginFunctors
  case swap => split at hstep <;> cases hstep; exact .swap
  case take => split at hstep <;> cases hstep; exact .take _ _
  case returned => split at hstep <;> cases hstep; exact .returned _ _
  case endFunctors => split at hstep <;> cases hstep; exact .endFunctors

/-- The functors that the loop has yet to call, in order. -/
def queue (self : LoopThread F H) : List F := self.at_.waiting ++ self.loop.pendingFunctors_

/-- The loop's thread calls the functors in front, one at a time. -/
theorem queue_advance [DecidableEq H] {s t : LoopThread F H} {a : Advance H} (hstep : s.advance a = some t) :
    (t.queue = s.queue ∧ ∀ functor functors, t.at_ ≠ .running functor functors) ∨
    ∃ functor functors, s.queue = functor :: t.queue ∧ t.at_ = .running functor functors := by
  have hadvances := advances_of_advance hstep
  obtain ⟨loop, position⟩ := s
  unfold queue
  cases hadvances with
  | take functor functors => exact .inr ⟨functor, functors, rfl, rfl⟩
  | swap =>
    refine .inl ⟨?_, by simp⟩
    simp [Location.waiting]
  | enter | leave | stay | poll | drain | dispatch | handled | beginFunctors | returned | endFunctors =>
    exact .inl ⟨rfl, by simp⟩

end LoopThread

/-- How far a thread is in a call of `queueInLoop` or `quit`: not in one, behind
the locked block, or about to write to the `eventfd`. -/
inductive Call where
  | outside
  | pushed
  | waking
  | quitting
  deriving DecidableEq, Repr

/-- A functor as it is queued, with the thread that queued it: `none` is the loop's
own thread. -/
structure Posted (T F : Type) where
  poster : Option T
  functor : F
  deriving DecidableEq

/-- A loop among other threads. `posted` and `executed` record the pushes in mutex
order and the functors that have returned. -/
structure System (T F H : Type) where
  thread : LoopThread (Posted T F) H
  own : Call
  others : T → Call
  posted : List (Posted T F)
  executed : List (Posted T F)

/-- A step of the system: the loop's thread between bodies, the loop's thread in a
call made by a body (or made before `loop()`), or another thread in a call. -/
inductive Input (T F H : Type) where
  | advance (a : Advance H)
  | ownPush (cb : F)
  | ownTest
  | ownWakeup
  | ownQuit
  | push (t : T) (cb : F)
  | test (t : T)
  | wakeup (t : T)
  | quit (t : T)
  deriving DecidableEq

/-- The calls of `quit()`, with the thread that makes them. -/
def Input.quitter {T F H : Type} : Input T F H → Option (Option T)
  | .ownQuit => some none
  | .quit t => some (some t)
  | _ => none

namespace System

variable {T F H : Type}

def start : System T F H where
  thread := .construct
  own := .outside
  others := fun _ => .outside
  posted := []
  executed := []

/-- Replace the loop's data. -/
def setLoop (s : System T F H) (loop : EventLoop (Posted T F)) : System T F H :=
  { s with thread := { s.thread with loop } }

/-- The functors that return by a step of the loop's thread. -/
def returning (s : System T F H) : Advance H → List (Posted T F)
  | .returned => s.thread.at_.remaining.take 1
  | _ => []

/-- Whether the loop's own thread may be calling `queueInLoop` or `quit`: in a body
that the loop calls, or outside of `loop()`. -/
def ownMayCall (s : System T F H) : Bool :=
  s.thread.at_.inCallback || match s.thread.at_ with
    | .outside => true
    | _ => false

def step [DecidableEq T] [DecidableEq H] (s : System T F H) : Input T F H → Option (System T F H)
  | .advance a =>
    if s.own = .outside then
      (s.thread.advance a).map fun thread => { s with thread, executed := s.executed ++ s.returning a }
    else none
  | .ownPush cb =>
    if s.own = .outside ∧ s.ownMayCall then
      some { s.setLoop (s.thread.loop.push ⟨none, cb⟩) with
        own := .pushed, posted := s.posted ++ [⟨none, cb⟩] }
    else none
  | .ownTest =>
    if s.own = .pushed then
      some { s with own := if s.thread.loop.mustWake true then .waking else .outside }
    else none
  | .ownWakeup =>
    if s.own = .waking then some { s.setLoop s.thread.loop.wakeup with own := .outside } else none
  | .ownQuit =>
    if s.own = .outside ∧ s.ownMayCall then some (s.setLoop (s.thread.loop.quit true)) else none
  | .push t cb =>
    if s.others t = .outside then
      some { s.setLoop (s.thread.loop.push ⟨some t, cb⟩) with
        others := Function.update s.others t .pushed, posted := s.posted ++ [⟨some t, cb⟩] }
    else none
  | .test t =>
    if s.others t = .pushed then
      let call : Call := if s.thread.loop.mustWake false then .waking else .outside
      some { s with others := Function.update s.others t call }
    else none
  | .wakeup t =>
    if s.others t = .waking ∨ s.others t = .quitting then
      some { s.setLoop s.thread.loop.wakeup with others := Function.update s.others t .outside }
    else none
  | .quit t =>
    if s.others t = .outside then
      some { s.setLoop { s.thread.loop with quit_ := true } with
        others := Function.update s.others t .quitting }
    else none

/-- What a step is, for each branch that is enabled. -/
inductive Stepped [DecidableEq T] [DecidableEq H] (s : System T F H) : Input T F H → System T F H → Prop where
  | advance (a : Advance H) (thread : LoopThread (Posted T F) H) (hown : s.own = .outside)
      (hadvance : s.thread.advance a = some thread) :
      Stepped s (.advance a) { s with thread, executed := s.executed ++ s.returning a }
  | ownPush (cb : F) (hown : s.own = .outside) (hmay : s.ownMayCall = true) : Stepped s (.ownPush cb)
      { s.setLoop (s.thread.loop.push ⟨none, cb⟩) with own := .pushed, posted := s.posted ++ [⟨none, cb⟩] }
  | ownTest (hpushed : s.own = .pushed) :
      Stepped s .ownTest { s with own := if s.thread.loop.mustWake true then .waking else .outside }
  | ownWakeup (hwaking : s.own = .waking) :
      Stepped s .ownWakeup { s.setLoop s.thread.loop.wakeup with own := .outside }
  | ownQuit (hown : s.own = .outside) (hmay : s.ownMayCall = true) :
      Stepped s .ownQuit (s.setLoop (s.thread.loop.quit true))
  | push (t : T) (cb : F) (houtside : s.others t = .outside) : Stepped s (.push t cb)
      { s.setLoop (s.thread.loop.push ⟨some t, cb⟩) with
        others := Function.update s.others t .pushed, posted := s.posted ++ [⟨some t, cb⟩] }
  | test (t : T) (hpushed : s.others t = .pushed) : Stepped s (.test t)
      { s with others := Function.update s.others t (if s.thread.loop.mustWake false then .waking else .outside) }
  | wakeup (t : T) (hwaking : s.others t = .waking ∨ s.others t = .quitting) : Stepped s (.wakeup t)
      { s.setLoop s.thread.loop.wakeup with others := Function.update s.others t .outside }
  | quit (t : T) (houtside : s.others t = .outside) : Stepped s (.quit t)
      { s.setLoop { s.thread.loop with quit_ := true } with others := Function.update s.others t .quitting }

theorem stepped [DecidableEq T] [DecidableEq H] {s t : System T F H} {i : Input T F H} (hstep : s.step i = some t) :
    Stepped s i t := by
  cases i with
  | advance a =>
    obtain ⟨hown, hadvances⟩ := Option.ite_none_right_eq_some.mp hstep
    obtain ⟨thread, hadvance, rfl⟩ := Option.map_eq_some_iff.mp hadvances
    exact .advance a thread hown hadvance
  | ownPush cb =>
    obtain ⟨⟨hown, hmay⟩, rfl⟩ := Option.ite_some_none_eq_some.mp hstep
    exact .ownPush cb hown hmay
  | ownTest =>
    obtain ⟨hpushed, rfl⟩ := Option.ite_some_none_eq_some.mp hstep
    exact .ownTest hpushed
  | ownWakeup =>
    obtain ⟨hwaking, rfl⟩ := Option.ite_some_none_eq_some.mp hstep
    exact .ownWakeup hwaking
  | ownQuit =>
    obtain ⟨⟨hown, hmay⟩, rfl⟩ := Option.ite_some_none_eq_some.mp hstep
    exact .ownQuit hown hmay
  | push t cb =>
    obtain ⟨houtside, rfl⟩ := Option.ite_some_none_eq_some.mp hstep
    exact .push t cb houtside
  | test t =>
    obtain ⟨hpushed, rfl⟩ := Option.ite_some_none_eq_some.mp hstep
    exact .test t hpushed
  | wakeup t =>
    obtain ⟨hwaking, rfl⟩ := Option.ite_some_none_eq_some.mp hstep
    exact .wakeup t hwaking
  | quit t =>
    obtain ⟨houtside, rfl⟩ := Option.ite_some_none_eq_some.mp hstep
    exact .quit t houtside

end System

/-- Every interleaving of a loop with other threads. -/
def interleaving (T F H : Type) [DecidableEq T] [DecidableEq H] :
    Machine (System T F H) (Input T F H) where
  step := System.step

end muduo.event_loop
