import Muduo.EventLoop.Wakeup

open transition

namespace muduo.event_loop

variable {F G H T : Type}

/-- A loop with its functors replaced. -/
def EventLoop.map (f : F → G) (self : EventLoop F) : EventLoop G where
  looping_ := self.looping_
  quit_ := self.quit_
  callingPendingFunctors_ := self.callingPendingFunctors_
  pendingFunctors_ := self.pendingFunctors_.map f
  wakeups := self.wakeups

def Location.map (f : F → G) : Location F H → Location G H
  | .outside => .outside
  | .testing => .testing
  | .polling => .polling
  | .dispatching activeChannels => .dispatching activeChannels
  | .handling h activeChannels => .handling h activeChannels
  | .swapping => .swapping
  | .batch functors => .batch (functors.map f)
  | .running functor functors => .running (f functor) (functors.map f)

def LoopThread.map (f : F → G) (self : LoopThread F H) : LoopThread G H where
  loop := self.loop.map f
  at_ := self.at_.map f

@[simp] theorem Location.inCallback_map (f : F → G) (at_ : Location F H) :
    (at_.map f).inCallback = at_.inCallback := by
  cases at_ <;> rfl

theorem EventLoop.map_wakeup (f : F → G) (self : EventLoop F) : self.wakeup.map f = (self.map f).wakeup := rfl

theorem EventLoop.map_push (f : F → G) (self : EventLoop F) (cb : F) :
    (self.push cb).map f = (self.map f).push (f cb) := by
  simp [EventLoop.map, push]

theorem EventLoop.map_quit (f : F → G) (self : EventLoop F) (isInLoopThread : Bool) :
    (self.quit isInLoopThread).map f = (self.map f).quit isInLoopThread := by
  unfold quit
  split <;> rfl

theorem EventLoop.map_queueInLoop (f : F → G) (self : EventLoop F) (isInLoopThread : Bool) (cb : F) :
    (self.queueInLoop isInLoopThread cb).map f = (self.map f).queueInLoop isInLoopThread (f cb) := by
  have hpush := EventLoop.map_push f self cb
  have hwake : ((self.map f).push (f cb)).mustWake isInLoopThread = (self.push cb).mustWake isInLoopThread := by
    rw [← hpush]
    rfl
  unfold queueInLoop
  rw [hwake]
  split
  · rw [EventLoop.map_wakeup, hpush]
  · exact hpush

/-- The loop's own thread does not look at its functors. -/
theorem LoopThread.advance_map [DecidableEq H] (f : F → G) (self : LoopThread F H) (a : Advance H) :
    (self.map f).advance a = (self.advance a).map (LoopThread.map f) := by
  obtain ⟨loop, at_⟩ := self
  cases a with
  | enter | handled | swap | returned => cases at_ <;> rfl
  | test =>
    cases at_ with
    | testing =>
      obtain ⟨_, quit_, _, _, _⟩ := loop
      cases quit_ <;> rfl
    | outside | polling | dispatching | handling | swapping | batch | running => rfl
  | poll activeChannels =>
    cases at_ with
    | polling =>
      change _ = Option.map _ (if .wakeupChannel ∈ activeChannels → 0 < loop.wakeups then _ else _)
      rw [apply_ite (Option.map (map f))]
      rfl
    | outside | testing | dispatching | handling | swapping | batch | running => rfl
  | dispatch =>
    cases at_ with
    | dispatching activeChannels => rcases activeChannels with _ | ⟨_ | h, rest⟩ <;> rfl
    | outside | testing | polling | handling | swapping | batch | running => rfl
  | beginFunctors =>
    cases at_ with
    | dispatching activeChannels => cases activeChannels <;> rfl
    | outside | testing | polling | handling | swapping | batch | running => rfl
  | take | endFunctors =>
    cases at_ with
    | batch functors => cases functors <;> rfl
    | outside | testing | polling | dispatching | handling | swapping | running => rfl

/-- What moves a loop's thread if `queueInLoop` and `quit` are called in one piece. -/
inductive AtomicInput (F H : Type) where
  | advance (a : Advance H)
  | queueInLoop (isInLoopThread : Bool) (cb : F)
  | quit (isInLoopThread : Bool)

/-- The calls that the loop's own thread makes. -/
def AtomicInput.isOwn : AtomicInput F H → Bool
  | .advance _ => false
  | .queueInLoop isInLoopThread _ => isInLoopThread
  | .quit isInLoopThread => isInLoopThread

/-- The loop's own thread is where it may call `queueInLoop` or `quit`: in a body, or
outside of `loop()`. -/
def Location.mayCall (at_ : Location F H) : Bool :=
  at_.inCallback || match at_ with
    | .outside => true
    | _ => false

namespace LoopThread

def atomic [DecidableEq H] (self : LoopThread F H) : AtomicInput F H → Option (LoopThread F H)
  | .advance a => self.advance a
  | .queueInLoop isInLoopThread cb =>
    if isInLoopThread = true → self.at_.mayCall = true then
      some { self with loop := self.loop.queueInLoop isInLoopThread cb }
    else none
  | .quit isInLoopThread =>
    if isInLoopThread = true → self.at_.mayCall = true then
      some { self with loop := self.loop.quit isInLoopThread }
    else none

end LoopThread

/-- A loop whose callers are never seen in the middle of a call. -/
def atomic (F H : Type) [DecidableEq H] : Machine (LoopThread F H) (AtomicInput F H) where
  step := LoopThread.atomic

/-- The loop's own thread calls from certain places only. -/
def OwnFrom (P : Location F H → Prop) (self : LoopThread F H) (i : AtomicInput F H) : Prop :=
  i.isOwn = true → P self.at_

/-- Nobody is in the middle of a call, and the loop's thread is as given but for the
names of those who have queued its functors. -/
structure Rests (thread : LoopThread F H) (s : System T F H) : Prop where
  thread_eq : s.thread.map Posted.functor = thread
  own : s.own = .outside
  others : ∀ t, s.others t = .outside

theorem Rests.start : Rests .construct (System.start : System T F H) := ⟨rfl, rfl, fun _ => rfl⟩

theorem Rests.ownMayCall {thread : LoopThread F H} {s : System T F H} (h : Rests thread s) :
    s.ownMayCall = thread.at_.mayCall := by
  rw [← h.thread_eq]
  unfold System.ownMayCall LoopThread.map
  cases s.thread.at_ <;> rfl

/-- The loop's own thread pushes from certain places only. -/
def PushesFrom (P : Location F H → Prop) (s : System T F H) : Input T F H → Prop
  | .ownPush _ => P (s.thread.at_.map Posted.functor)
  | _ => True

namespace Rests

variable {P : Location F H → Prop} {thread next : LoopThread F H} {s t : System T F H}

/-- Only the loop has changed, and every call is over. -/
theorem of_loop (h : Rests thread s) {loop : EventLoop (Posted T F)} (hat : t.thread.at_ = s.thread.at_)
    (hloop : t.thread.loop = loop) (hown : t.own = .outside) (hothers : ∀ t', t.others t' = .outside) :
    Rests { thread with loop := loop.map Posted.functor } t := by
  refine ⟨?_, hown, hothers⟩
  rw [← h.thread_eq, LoopThread.map, hat, hloop]
  rfl

variable [DecidableEq T] [DecidableEq H]

theorem advance (h : Rests thread s) {a : Advance H} (hadvance : thread.advance a = some next) :
    ∃ t, (interleaving T F H).Steps (PushesFrom P) s t ∧ Rests next t := by
  rw [← h.thread_eq, LoopThread.advance_map] at hadvance
  obtain ⟨moved, hmoved, rfl⟩ := Option.map_eq_some_iff.mp hadvance
  refine ⟨{ s with thread := moved, executed := s.executed ++ s.returning a }, ?_, rfl, h.own, h.others⟩
  refine Machine.Steps.single (i := .advance a) trivial ?_
  simp only [interleaving, System.step, h.own, if_true, hmoved, Option.map_some]

/-- The loop's own thread queues a functor: it pushes, tests, and wakes itself up if it must. -/
theorem ownQueueInLoop (h : Rests thread s) (hmay : thread.at_.mayCall = true) (hfrom : P thread.at_) (cb : F) :
    ∃ t, (interleaving T F H).Steps (PushesFrom P) s t ∧
      Rests { thread with loop := thread.loop.queueInLoop true cb } t := by
  have hmay' : s.ownMayCall = true := h.ownMayCall.trans hmay
  have hplace : P (s.thread.at_.map Posted.functor) := by
    have hthread := h.thread_eq
    subst hthread
    exact hfrom
  let pushed : System T F H := { s.setLoop (s.thread.loop.push ⟨none, cb⟩) with
    own := .pushed, posted := s.posted ++ [⟨none, cb⟩] }
  let tested : System T F H := { pushed with own := if pushed.thread.loop.mustWake true then .waking else .outside }
  have hpush : (interleaving T F H).Steps (PushesFrom P) s pushed :=
    Machine.Steps.single (i := .ownPush cb) hplace (if_pos ⟨h.own, hmay'⟩)
  have htest : (interleaving T F H).Steps (PushesFrom P) s tested :=
    hpush.tail (i := .ownTest) trivial rfl
  have hcb : thread.loop.queueInLoop true cb = (s.thread.loop.queueInLoop true ⟨none, cb⟩).map Posted.functor := by
    rw [EventLoop.map_queueInLoop, ← h.thread_eq]
    rfl
  rw [hcb]
  cases hwake : (s.thread.loop.push ⟨none, cb⟩).mustWake true with
  | false =>
    refine ⟨tested, htest, h.of_loop rfl ?_ ?_ h.others⟩
    · simp [EventLoop.queueInLoop, hwake, tested, pushed, System.setLoop]
    · simp [tested, pushed, System.setLoop, hwake]
  | true =>
    have hwaking : tested.own = .waking := by simp [tested, pushed, System.setLoop, hwake]
    refine ⟨{ tested.setLoop tested.thread.loop.wakeup with own := .outside },
      htest.tail (i := .ownWakeup) trivial (if_pos hwaking), h.of_loop rfl ?_ rfl h.others⟩
    simp [EventLoop.queueInLoop, hwake, tested, pushed, System.setLoop]

/-- Another thread queues a functor: it pushes, tests, and always wakes the loop up. -/
theorem otherQueueInLoop (h : Rests thread s) (caller : T) (cb : F) :
    ∃ t, (interleaving T F H).Steps (PushesFrom P) s t ∧
      Rests { thread with loop := thread.loop.queueInLoop false cb } t := by
  let pushed : System T F H := { s.setLoop (s.thread.loop.push ⟨some caller, cb⟩) with
    others := Function.update s.others caller .pushed, posted := s.posted ++ [⟨some caller, cb⟩] }
  let tested : System T F H := { pushed with others := Function.update pushed.others caller .waking }
  have hpush : (interleaving T F H).Steps (PushesFrom P) s pushed :=
    Machine.Steps.single (i := .push caller cb) trivial (if_pos (h.others caller))
  have htest : (interleaving T F H).Steps (PushesFrom P) s tested :=
    hpush.tail (i := .test caller) trivial (if_pos (by simp [pushed]))
  have hcb : thread.loop.queueInLoop false cb =
      (s.thread.loop.queueInLoop false ⟨some caller, cb⟩).map Posted.functor := by
    rw [EventLoop.map_queueInLoop, ← h.thread_eq]
    rfl
  rw [hcb]
  refine ⟨{ tested.setLoop tested.thread.loop.wakeup with others := Function.update tested.others caller .outside },
    htest.tail (i := .wakeup caller) trivial (if_pos (.inl (by simp [tested]))), h.of_loop rfl rfl h.own ?_⟩
  intro other
  by_cases hother : other = caller
  · subst hother
    simp
  · simpa [tested, pushed, hother, System.setLoop] using h.others other

theorem quit (h : Rests thread s) (caller : T) (isInLoopThread : Bool)
    (hmay : isInLoopThread = true → thread.at_.mayCall = true) :
    ∃ t, (interleaving T F H).Steps (PushesFrom P) s t ∧
      Rests { thread with loop := thread.loop.quit isInLoopThread } t := by
  have hquit : thread.loop.quit isInLoopThread = (s.thread.loop.quit isInLoopThread).map Posted.functor := by
    rw [EventLoop.map_quit, ← h.thread_eq]
    rfl
  rw [hquit]
  cases isInLoopThread with
  | true =>
    have hmay' : s.ownMayCall = true := h.ownMayCall.trans (hmay rfl)
    exact ⟨s.setLoop (s.thread.loop.quit true),
      Machine.Steps.single (i := .ownQuit) trivial (if_pos ⟨h.own, hmay'⟩), h.of_loop rfl rfl h.own h.others⟩
  | false =>
    let asked : System T F H := { s.setLoop { s.thread.loop with quit_ := true } with
      others := Function.update s.others caller .quitting }
    have hask : (interleaving T F H).Steps (PushesFrom P) s asked :=
      Machine.Steps.single (i := .quit caller) trivial (if_pos (h.others caller))
    refine ⟨{ asked.setLoop asked.thread.loop.wakeup with others := Function.update asked.others caller .outside },
      hask.tail (i := .wakeup caller) trivial (if_pos (.inr (by simp [asked]))), h.of_loop rfl rfl h.own ?_⟩
    intro other
    by_cases hother : other = caller
    · subst hother
      simp
    · simpa [asked, hother, System.setLoop] using h.others other

/-- Each call in one piece is a few steps of its parts. -/
theorem step (h : Rests thread s) (caller : T) {i : AtomicInput F H} (hfrom : OwnFrom P thread i)
    (hstep : thread.atomic i = some next) :
    ∃ t, Rests next t ∧ (interleaving T F H).Steps (PushesFrom P) s t := by
  cases i with
  | advance a =>
    obtain ⟨t, hsteps, hrests⟩ := h.advance (P := P) hstep
    exact ⟨t, hrests, hsteps⟩
  | queueInLoop isInLoopThread cb =>
    obtain ⟨hmay, rfl⟩ := Option.ite_some_none_eq_some.mp hstep
    cases isInLoopThread with
    | true =>
      obtain ⟨t, hsteps, hrests⟩ := h.ownQueueInLoop (hmay rfl) (hfrom rfl) cb
      exact ⟨t, hrests, hsteps⟩
    | false =>
      obtain ⟨t, hsteps, hrests⟩ := h.otherQueueInLoop (P := P) caller cb
      exact ⟨t, hrests, hsteps⟩
  | quit isInLoopThread =>
    obtain ⟨hmay, rfl⟩ := Option.ite_some_none_eq_some.mp hstep
    obtain ⟨t, hsteps, hrests⟩ := h.quit (P := P) caller isInLoopThread hmay
    exact ⟨t, hrests, hsteps⟩

end Rests

/-- A loop with calls in one piece refines the loop with calls in parts. -/
theorem atomic_refines [DecidableEq T] [DecidableEq H] {P : Location F H → Prop} (caller : T)
    {thread : LoopThread F H} (hrun : (atomic F H).Steps (OwnFrom P) .construct thread) :
    ∃ s, Rests thread s ∧ (interleaving T F H).Steps (PushesFrom P) System.start s :=
  hrun.simulate (fun _ _ _ _ h hfrom hstep => h.step caller hfrom hstep) Rests.start

end muduo.event_loop
