import Muduo.EventLoop.Basic
import Muduo.Library.Fifo

open transition fifo

namespace muduo.event_loop

variable {T F H : Type}

/-- The queue that a loop implements: what has been executed, the rest of the batch
followed by the queued functors, and every push. The swap does not show in it. -/
def System.queue (s : System T F H) : Fifo (Posted T F) where
  taken := s.executed
  held := s.thread.at_.remaining ++ s.thread.loop.pendingFunctors_
  put := s.posted

/-- A step of the loop's thread takes the front element when a functor returns, and
is invisible to the queue otherwise. -/
theorem queue_advance [DecidableEq H] {s : System T F H} {a : Advance H}
    {thread : LoopThread (Posted T F) H} (hadvance : s.thread.advance a = some thread) :
    (machine (Posted T F)).Steps Machine.Any s.queue
      (System.queue { s with thread, executed := s.executed ++ s.returning a }) := by
  have hadvances := LoopThread.advances_of_advance hadvance
  have hinvisible {q r : Fifo (Posted T F)} (heq : q = r) :
      (machine (Posted T F)).Steps Machine.Any q r := heq ▸ Machine.Steps.refl _ _ _
  generalize hloop : s.thread.loop = loop at hadvances
  generalize hat : s.thread.at_ = position at hadvances
  unfold System.queue System.returning
  rw [hat, hloop]
  cases hadvances with
  | enter | leave | stay | poll | drain | dispatch | handled | beginFunctors | swap | take | endFunctors =>
    apply hinvisible
    simp [Location.remaining, EventLoop.handleRead]
  | returned functor functors =>
    exact Machine.Steps.single trivial (i := .take) rfl

/-- Every step of the system is a run of the queue. -/
theorem queue_step [DecidableEq T] [DecidableEq H] {s t : System T F H} {i : Input T F H}
    (hstep : s.step i = some t) : (machine (Posted T F)).Steps Machine.Any s.queue t.queue := by
  have hput (s t : System T F H) (posted : Posted T F) (hat : t.thread.at_ = s.thread.at_)
      (hpending : t.thread.loop.pendingFunctors_ = s.thread.loop.pendingFunctors_ ++ [posted])
      (hexecuted : t.executed = s.executed) (hposted : t.posted = s.posted ++ [posted]) :
      (machine (Posted T F)).Steps Machine.Any s.queue t.queue := by
    apply Machine.Steps.single trivial (i := .put posted)
    simp [machine, System.queue, hat, hpending, hexecuted, hposted]
  cases System.stepped hstep with
  | advance _ _ _ hadvance => exact queue_advance hadvance
  | ownPush cb => exact hput _ _ ⟨none, cb⟩ rfl rfl rfl rfl
  | push t cb => exact hput _ _ ⟨some t, cb⟩ rfl rfl rfl rfl
  | ownTest | ownWakeup | ownQuit | test | wakeup | quit => exact Machine.Steps.refl _ _ _

/-- Every run of the system is a run of the queue. -/
theorem queue_steps [DecidableEq T] [DecidableEq H] {ok : System T F H → Input T F H → Prop}
    {s t : System T F H} (hrun : (interleaving T F H).Steps ok s t) :
    (machine (Posted T F)).Steps Machine.Any s.queue t.queue := by
  obtain ⟨q, rfl, hsteps⟩ := hrun.simulate (R := fun s q => s.queue = q) (t := s.queue)
    (by
      rintro s i s' q rfl _ hstep
      exact ⟨s'.queue, rfl, queue_step hstep⟩) rfl
  exact hsteps

/-- Anything but the end of the batch. -/
def InsideBatch (_ : System T F H) (i : Input T F H) : Prop := i ≠ .advance .endFunctors

/-- Being in the loop over the swapped-out functors. -/
def Location.inBatch : Location F H → Bool
  | .batch _ => true
  | .running _ _ => true
  | _ => false

/-- What a run inside one batch, from `s` to `t`, leaves of the batch and the queue. -/
structure SameBatch (s t : System T F H) : Prop where
  inside : t.thread.at_.inBatch = true
  batch_eq : t.executed ++ t.thread.at_.remaining = s.executed ++ s.thread.at_.remaining
  arrived : ∃ news, t.thread.loop.pendingFunctors_ = s.thread.loop.pendingFunctors_ ++ news ∧
    t.posted = s.posted ++ news

theorem SameBatch.refl {s : System T F H} (hinside : s.thread.at_.inBatch = true) : SameBatch s s :=
  ⟨hinside, rfl, [], by simp, by simp⟩

/-- A step that only touches the queue at its back. -/
theorem SameBatch.push {s t u : System T F H} (h : SameBatch s t) (news : List (Posted T F))
    (hat : u.thread.at_ = t.thread.at_) (hexecuted : u.executed = t.executed)
    (hpending : u.thread.loop.pendingFunctors_ = t.thread.loop.pendingFunctors_ ++ news)
    (hposted : u.posted = t.posted ++ news) : SameBatch s u := by
  obtain ⟨hinside, hbatch, earlier, hearlier, hall⟩ := h
  refine ⟨by rw [hat, hinside], by rw [hat, hexecuted, hbatch], earlier ++ news, ?_, ?_⟩
  · rw [hpending, hearlier, List.append_assoc]
  · rw [hposted, hall, List.append_assoc]

theorem SameBatch.step [DecidableEq T] [DecidableEq H] {s t u : System T F H} {i : Input T F H}
    (h : SameBatch s t) (hi : InsideBatch t i) (hstep : t.step i = some u) : SameBatch s u := by
  cases System.stepped hstep with
  | advance a thread _ hadvance =>
    obtain ⟨hinside, hbatch, harrived⟩ := h
    have hadvances := LoopThread.advances_of_advance hadvance
    generalize hloop : t.thread.loop = loop at hadvances
    generalize hat : t.thread.at_ = position at hadvances
    rw [hat] at hinside hbatch
    rw [hloop] at harrived
    cases hadvances with
    | enter | leave | stay | poll | drain | dispatch | handled | beginFunctors | swap => cases hinside
    | take functor functors =>
      exact ⟨rfl, by simpa [System.returning, Location.remaining] using hbatch, harrived⟩
    | returned functor functors =>
      exact ⟨rfl, by simpa [System.returning, Location.remaining, hat] using hbatch, harrived⟩
    | endFunctors => exact absurd rfl hi
  | ownPush cb | push t cb => exact h.push [⟨_, cb⟩] rfl rfl rfl rfl
  | ownTest | ownWakeup | ownQuit | test | wakeup | quit =>
    exact h.push [] rfl rfl (by simp [System.setLoop, EventLoop.quit]) (by simp [System.setLoop])

/-- Queued functors run exactly once and in order, one batch at a time. What has been
executed, the rest of the batch and the queue are together the pushes in mutex
order, so that each thread's functors run in the order in which it queued them.
From any point of a batch on, the batch executes the functors it still holds and
no others, while everything pushed meanwhile stays queued. On the loop's own
thread `runInLoop` calls its functor at once and queues nothing, on any other
thread it is `queueInLoop`. -/
theorem functors_once_in_order [DecidableEq T] [DecidableEq H] [DecidableEq F] {s : System T F H}
    (hrun : (interleaving T F H).Steps Machine.Any System.start s) :
    s.executed ++ s.thread.at_.remaining ++ s.thread.loop.pendingFunctors_ = s.posted ∧
    (∀ poster : Option T, s.executed.filter (fun p => p.poster = poster) <+:
      s.posted.filter (fun p => p.poster = poster)) ∧
    (∀ functors t, s.thread.at_ = .batch functors → (interleaving T F H).Steps InsideBatch s t →
      t.executed ++ t.thread.at_.remaining = s.executed ++ functors ∧
      t.executed.length ≤ s.executed.length + functors.length ∧
      ∃ news, t.thread.loop.pendingFunctors_ = s.thread.loop.pendingFunctors_ ++ news ∧
        t.posted = s.posted ++ news) ∧
    (∀ cb, s.thread.loop.runInLoop true cb = (s.thread.loop, some cb) ∧
      s.thread.loop.runInLoop false cb = (s.thread.loop.queueInLoop false cb, none)) := by
  have hordered : s.queue.Ordered := ordered_of_steps (queue_steps hrun)
  refine ⟨?_, fun poster => hordered.filter_taken _, ?_, fun cb => ⟨rfl, rfl⟩⟩
  · rw [List.append_assoc]
    exact hordered
  · intro functors t hat hbatch
    have hinside : s.thread.at_.inBatch = true := by
      rw [hat]
      rfl
    obtain ⟨_, heq, harrived⟩ := hbatch.invariant (fun _ _ _ h hi hstep => h.step hi hstep)
      (SameBatch.refl hinside)
    rw [hat] at heq
    refine ⟨heq, ?_, harrived⟩
    have hlength := congrArg List.length heq
    simp only [List.length_append, Location.remaining] at hlength
    omega

/-- Two threads push, and the functor that runs first queues itself again. -/
theorem functors_once_in_order_requeue :
    ∃ s, (interleaving Nat Nat Nat).run System.start [.push 1 7, .push 2 8, .advance .enter,
        .advance .test, .advance (.poll []), .advance .beginFunctors, .advance .swap, .advance .take,
        .ownPush 7, .ownTest, .ownWakeup, .advance .returned] = some s ∧
      s.executed ++ s.thread.at_.remaining ++ s.thread.loop.pendingFunctors_ = s.posted := by
  obtain ⟨s, hrun⟩ : ∃ s, (interleaving Nat Nat Nat).run System.start [.push 1 7, .push 2 8,
      .advance .enter, .advance .test, .advance (.poll []), .advance .beginFunctors, .advance .swap,
      .advance .take, .ownPush 7, .ownTest, .ownWakeup, .advance .returned] = some s := ⟨_, rfl⟩
  exact ⟨s, hrun, (functors_once_in_order (Machine.steps_of_run hrun
    (Machine.along_of_forall (fun _ _ _ => trivial) _))).1⟩

end muduo.event_loop
