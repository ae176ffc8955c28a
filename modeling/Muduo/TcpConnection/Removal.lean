import Muduo.TcpConnection.Lifecycle

open transition
open muduo.kernel muduo.buffer muduo.epoll muduo.event_loop

namespace muduo.tcp_connection

variable {T : Type}

/-- The functors that do deferred work on a connection. -/
def Functor.isDeferred : Functor → Bool
  | .sendInLoop _ => true
  | .sendFileInLoop _ _ _ => true
  | .shutdownInLoop => true
  | _ => false

/-- What holds of an established connection in every run: its acts are in order, and
other threads queue deferred work only. -/
structure Attended (s : System T) : Prop where
  orderly : Orderly s
  callers : ∀ t functor, s.callers t = .queueing functor → functor.isDeferred = true

theorem Established.attended {s : System T} (h : Established s) : Attended s := by
  refine ⟨h.orderly, ?_⟩
  cases h with
  | intro =>
    intro t functor hcaller
    cases hcaller

/-- How a call of another thread begins behind its test of `state_`. -/
def Call.begun : Call → Caller
  | .send buf => .queueing (.sendInLoop buf)
  | .sendFile fileDescriptor offset count => .queueing (.sendFileInLoop fileDescriptor offset count)
  | .shutdown => .storing

/-- How a step moves one of the other threads on in its call. -/
inductive CallerStep (thread : T) (i : Input T) : Caller → Caller → Prop where
  | same (caller : Caller) : CallerStep thread i caller caller
  | load (call : Call) (hload : i = .load thread call) : CallerStep thread i .outside call.begun
  | store : CallerStep thread i .storing (.queueing .shutdownInLoop)
  | push (functor : Functor) : CallerStep thread i (.queueing functor) .outside

theorem CallerStep.of_update [DecidableEq T] {s : System T} {thread caller : T} {i : Input T} {call : Caller}
    (h : thread = caller → CallerStep thread i (s.callers thread) call) :
    CallerStep thread i (s.callers thread) (Function.update s.callers caller call thread) := by
  by_cases hcaller : thread = caller
  · subst hcaller
    rw [Function.update_self]
    exact h rfl
  · rw [Function.update_of_ne hcaller]
    exact .same _

theorem callerStep [DecidableEq T] {alloc : Nat → Bool} {sameLoop : Bool} {s t : System T} {i : Input T}
    (hstep : s.step alloc sameLoop i = some t) (thread : T) :
    CallerStep thread i (s.callers thread) (t.callers thread) := by
  cases System.stepped hstep with
  | load caller call houtside =>
    have hbegun : thread = caller → CallerStep thread (.load caller call) (s.callers thread) call.begun := by
      rintro rfl
      rw [houtside]
      exact .load call rfl
    unfold System.load
    split
    · cases call <;> exact .of_update hbegun
    · exact .same _
  | store caller hstoring =>
    refine .of_update ?_
    rintro rfl
    rw [hstoring]
    exact .store
  | push caller functor hqueueing =>
    refine .of_update ?_
    rintro rfl
    rw [hqueueing]
    exact .push functor
  | removeConnection =>
    unfold System.removeConnection
    split <;> exact .same _
  | _ => exact .same _

theorem Attended.step [DecidableEq T] {alloc : Nat → Bool} {sameLoop : Bool} {s t : System T} {i : Input T}
    (h : Attended s) (hstep : s.step alloc sameLoop i = some t) : Attended t := by
  refine ⟨h.orderly.step hstep, ?_⟩
  intro thread functor hqueueing
  have hcaller := callerStep hstep thread
  have hbefore := h.callers thread
  rw [hqueueing] at hcaller
  generalize s.callers thread = caller at hcaller hbefore
  generalize hafter : Caller.queueing functor = after at hcaller
  cases hcaller with
  | same => exact hbefore functor hafter.symm
  | load call => cases call <;> cases hafter <;> rfl
  | store =>
    cases hafter
    rfl
  | push => cases hafter

/-- The acts of `connectDestroyed` for whose time the sweep of `~TcpServer` on the
connection's own loop keeps a local `shared_ptr`. -/
def Act.isTeardown : Act → Bool
  | .call .connectDestroyed => true
  | .remove => true
  | _ => false

/-- The calls of `connectDestroyed` that are about to be made or queued. -/
def System.pending (s : System T) : Nat :=
  s.todo.count (.call .connectDestroyed) + s.thread.queue.count (.connection .connectDestroyed)

theorem Established.unremoved {s : System T} (h : Established s) :
    s.removals = 0 ∧ s.todo.count (.call .connectDestroyed) = 0 := by
  cases h with
  | intro conn poller thread rest _ _ _ _ _ _ hrest =>
    refine ⟨rfl, ?_⟩
    rw [List.count_eq_zero]
    intro hmem
    rcases List.mem_cons.mp hmem with heq | hmem
    · cases heq
    · cases hrest _ hmem

/-- How many calls of `connectDestroyed` a step begins. -/
def System.calls (s : System T) : Input T → Nat
  | .act _ _ => if s.todo.head? = some (.call .connectDestroyed) then 1 else 0
  | _ => 0

/-- What a step does on the way on which a connection is removed and destroyed. Only
the base loop and the destructor of the server take it out of `connections_`. -/
inductive Removal (sameLoop : Bool) (s : System T) : Input T → System T → Prop where
  | kept (i : Input T) (t : System T) (hpending : t.pending = s.pending) (hcalls : s.calls i = 0)
      (hregistered : t.registered = s.registered) (hremovals : t.removals = s.removals) : Removal sameLoop s i t
  | called (received : Received) (written : Written) (t : System T) (hpending : t.pending + 1 = s.pending)
      (hcalls : s.calls (.act received written) = 1) (hregistered : t.registered = s.registered)
      (hremovals : t.removals = s.removals) : Removal sameLoop s (.act received written) t
  | asked (received : Received) (written : Written) (rest : List Act) (htodo : s.todo = .removeConnection :: rest)
      (hother : sameLoop = false) :
      Removal sameLoop s (.act received written) { s with todo := rest, removals := s.removals + 1 }
  | erased (received : Received) (written : Written) (rest : List Act) (htodo : s.todo = .removeConnection :: rest)
      (hsame : sameLoop = true) (t : System T) (hpending : t.pending = s.pending + 1)
      (hregistered : t.registered = false) (hremovals : t.removals = s.removals) :
      Removal sameLoop s (.act received written) t
  | removed (hremoval : 0 < s.removals) (t : System T) (hpending : t.pending = s.pending + 1)
      (hregistered : t.registered = false) (hremovals : t.removals = s.removals - 1) :
      Removal sameLoop s .removeConnectionInLoop t
  | swept (hmapped : s.registered = true) (t : System T) (hpending : t.pending = s.pending + 1)
      (hregistered : t.registered = false) (hremovals : t.removals = s.removals) :
      Removal sameLoop s .destroyServer t

/-- A step that adds functors to the queue and acts to what is to be done, none of
them a call of `connectDestroyed`. -/
theorem Removal.of_added {sameLoop : Bool} {s t : System T} {i : Input T} (tasks : List Task)
    (hqueue : t.thread.queue = s.thread.queue ++ tasks) (htasks : .connection .connectDestroyed ∉ tasks)
    (htodo : t.todo.count (.call .connectDestroyed) = s.todo.count (.call .connectDestroyed))
    (hcalls : s.calls i = 0) (hregistered : t.registered = s.registered) (hremovals : t.removals = s.removals) :
    Removal sameLoop s i t := by
  refine .kept i t ?_ hcalls hregistered hremovals
  rw [System.pending, System.pending, hqueue, htodo, List.count_append, List.count_eq_zero.mpr htasks,
    Nat.add_zero]

theorem System.pending_queued {s t : System T}
    (hqueue : t.thread.queue = s.thread.queue ++ [.connection .connectDestroyed])
    (htodo : t.todo.count (.call .connectDestroyed) = s.todo.count (.call .connectDestroyed)) :
    t.pending = s.pending + 1 := by
  rw [System.pending, System.pending, hqueue, htodo, List.count_append, List.count_singleton_self,
    Nat.add_assoc]

/-- Every step does one of these things. -/
theorem Attended.removal [DecidableEq T] {alloc : Nat → Bool} {sameLoop : Bool} {s t : System T} {i : Input T}
    (h : Attended s) (hstep : s.step alloc sameLoop i = some t) : Removal sameLoop s i t := by
  cases System.stepped hstep with
  | advance a revents thread hidle _ hadvance =>
    refine .kept _ _ ?_ rfl rfl rfl
    simp only [System.pending, hidle, List.count_nil]
    rcases LoopThread.queue_advance hadvance with ⟨hqueue, hnot⟩ | ⟨task, functors, hqueue, hrunning⟩
    · have hbody : (System.body (System.polled s.conn a revents) thread.at_).count
          (.call .connectDestroyed) = 0 := by
        rw [List.count_eq_zero]
        intro hmem
        unfold System.body at hmem
        split at hmem
        · obtain ⟨callback, _, heq⟩ := List.mem_map.mp hmem
          cases heq
        · cases List.mem_singleton.mp hmem
        · next functor functors hat => exact hnot _ _ hat
        · cases List.mem_singleton.mp hmem
        · cases hmem
      rw [hbody, hqueue]
    · rw [hqueue, hrunning]
      cases task with
      | connection functor =>
        simp only [System.body, List.count_cons, List.count_nil, beq_iff_eq, Task.connection.injEq,
          Act.call.injEq]
        omega
      | other => simp [System.body]
  | removeConnection received written rest htodo =>
    unfold System.removeConnection
    split
    · next hsame =>
      refine .erased _ _ rest htodo hsame _ ?_ rfl rfl
      exact System.pending_queued (queue_queueInLoop s true _) (by simp [htodo])
    · next hother =>
      exact .asked _ _ rest htodo (by simpa using hother)
  | act received written a rest w more htodo hact =>
    have hleaves := (World.act_turn hact).leaves
    have hnone : .connection .connectDestroyed ∉ w.queued.map Task.connection :=
      hleaves.not_mem_queued rfl rfl rfl fun functor hqueue =>
        h.orderly.requeue functor (by rw [htodo, hqueue]; simp)
    have hmore : more.count (.call .connectDestroyed) = 0 := List.count_eq_zero.mpr (hleaves.call _)
    by_cases ha : a = .call .connectDestroyed
    · subst ha
      refine .called _ _ _ ?_ (by simp [System.calls, htodo]) rfl rfl
      simp only [System.pending, queue_resume, List.count_append, List.count_eq_zero.mpr hnone, htodo,
        List.count_cons_self]
      simp only [System.resume, List.count_append, hmore]
      omega
    · refine .of_added _ (queue_resume s w _) hnone ?_ ?_ rfl rfl
      · simp only [System.resume, List.count_append, hmore, htodo, List.count_cons_of_ne ha, Nat.zero_add]
      · simp [System.calls, htodo, ha]
  | ownCall call =>
    refine .of_added [] ?_ (by simp) ?_ rfl rfl rfl
    · rw [queue_resume]
      cases call <;> simp only [World.ownCall] <;> split <;> rfl
    · cases call <;> simp only [World.ownCall] <;> split <;> simp [System.resume]
  | ownRetrieve | store => exact .kept _ _ rfl rfl rfl rfl
  | userReturns rest htodo =>
    refine .kept _ _ ?_ rfl rfl rfl
    simp [System.pending, htodo]
  | load caller call =>
    unfold System.load
    split
    · cases call <;> exact .kept _ _ rfl rfl rfl rfl
    · exact .kept _ _ rfl rfl rfl rfl
  | push caller functor hcaller =>
    refine .of_added _ (queue_queueInLoop s false _) ?_ rfl rfl rfl rfl
    intro hmem
    cases List.mem_singleton.mp hmem
    cases h.callers caller _ hcaller
  | queueOther => exact .of_added _ (queue_queueInLoop s false _) (by simp) rfl rfl rfl rfl
  | ownQueue => exact .of_added _ (queue_queueInLoop s true _) (by simp) rfl rfl rfl rfl
  | quit isInLoopThread =>
    refine .of_added [] ?_ (by simp) rfl rfl rfl rfl
    cases isInLoopThread <;> simp [LoopThread.queue, EventLoop.quit]
  | removeConnectionInLoop _ hremovals =>
    exact .removed hremovals _ (System.pending_queued (queue_queueInLoop s false _) rfl) rfl rfl
  | sweepHere hmapped =>
    refine .swept hmapped _ ?_ rfl rfl
    simp only [System.pending, List.count_cons_self]
    omega
  | sweepThere hmapped => exact .swept hmapped _ (System.pending_queued (queue_queueInLoop s false _) rfl) rfl rfl

end muduo.tcp_connection
