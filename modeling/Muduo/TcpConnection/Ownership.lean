import Muduo.TcpConnection.Removal
import Muduo.TcpConnection.Teardown
import Muduo.TcpServer.Stage

open transition
open muduo.kernel muduo.buffer muduo.epoll muduo.event_loop
open muduo.tcp_server (isShared isShared_of_notice)

namespace muduo.tcp_connection

variable {T : Type}

/-- The functors that are bound to a `shared_ptr` to the connection. -/
def Task.isShared : Task → Bool
  | .connection functor => tcp_server.isShared functor
  | .other => false

/-- Deferred work that is bound to the raw `this`. -/
def Functor.isBare (functor : Functor) : Bool := functor.isDeferred && !isShared functor

def Task.isBare : Task → Bool
  | .connection functor => functor.isBare
  | .other => false

/-- A connection on its loop among other threads, with the `shared_ptr`s to it.
`holders` has an entry for each one that another thread keeps, or user code on the
loop's thread, `guard` is the one that `handleEvent` locks for a dispatch, `ran` are
the functors of the running batch that have returned and still exist, and `spent`
counts the functors `removeConnectionInLoop` of which that is true on the base loop.
`executed` records the functors that the loop has executed, and whether there was an
owner. -/
structure Owning (T : Type) where
  system : System T
  holders : List (Option T)
  guard : Bool
  ran : List Task
  spent : Nat
  executed : List (Functor × Bool)

/-- A step of the system, or of the owners: somebody copies or drops a pointer, or the
base loop destroys the functors of a batch that it has run. -/
inductive OwnInput (T : Type) where
  | system (i : Input T)
  | hold (who : Option T)
  | drop (who : Option T)
  | endBatch

namespace Owning

/-- The functors of the connection's loop that exist. -/
def functors (s : Owning T) : List Task :=
  s.ran ++ s.system.thread.at_.remaining ++ s.system.thread.loop.pendingFunctors_

/-- Whether a functor owns the connection, on its own loop or on the base loop. -/
def inFunctor (s : Owning T) : Bool :=
  s.functors.any Task.isShared || decide (0 < s.system.removals + s.spent)

/-- Whether any `shared_ptr` owns the connection. -/
def owned (s : Owning T) : Bool :=
  s.system.registered || !s.holders.isEmpty || s.guard || s.system.todo.any Act.isTeardown || s.inFunctor

/-- The functor that the next act of the loop's thread executes. -/
def executing (s : Owning T) : Option Functor :=
  match s.system.todo, s.system.thread.at_ with
  | [.call functor], .running (.connection bound) _ => if bound = functor then some functor else none
  | _, _ => none

/-- Whether a step of the system is one that can be taken: other threads and user code
call through a pointer. -/
def mayCall [DecidableEq T] (s : Owning T) : Input T → Bool
  | .load t _ => decide (some t ∈ s.holders)
  | .ownCall _ => s.owned
  | .ownRetrieve _ => s.owned
  | _ => true

def isDispatched : Location Task Handler → Bool
  | .handling .connection _ => true
  | _ => false

/-- The functors of the running batch that have returned, after a step of the loop's thread. -/
def returned (s : Owning T) : Advance Handler → List Task
  | .returned => s.ran ++ s.system.thread.at_.remaining.take 1
  | .endFunctors => []
  | _ => s.ran

/-- What a step of the system does to the owners, given the state that it leads to. A
dispatch of the channel does nothing if the connection is gone. -/
def follow (s : Owning T) (system : System T) : Input T → Owning T
  | .advance a _ =>
    let locked := s.owned
    let dispatched := isDispatched system.thread.at_
    { s with
      system := if dispatched = true ∧ locked = false then { system with todo := [] } else system
      guard := dispatched && locked
      ran := s.returned a }
  | .act _ _ => { s with system, executed := s.executed ++ s.executing.toList.map fun functor => (functor, s.owned) }
  | .removeConnectionInLoop => { s with system, spent := s.spent + 1 }
  | _ => { s with system }

def step [DecidableEq T] (alloc : Nat → Bool) (sameLoop : Bool) (s : Owning T) : OwnInput T → Option (Owning T)
  | .system i =>
    if s.mayCall i then (s.system.step alloc sameLoop i).map fun system => s.follow system i else none
  | .hold who => if s.owned then some { s with holders := who :: s.holders } else none
  | .drop who =>
    if who ∈ s.holders ∧ (∀ t ∈ who, s.system.callers t = .outside) then
      some { s with holders := s.holders.erase who }
    else none
  | .endBatch => some { s with spent := 0 }

/-- Whether deferred work is still to be executed that does not own the connection. -/
def awaits (s : Owning T) : Bool :=
  s.executing.any Functor.isBare || s.system.thread.queue.any Task.isBare

/-- Whether `connectDestroyed` has run, or has come to its last act. -/
def removes (s : Owning T) : Bool :=
  decide (Destroyed s.system) || s.system.todo.head? == some .remove

/-- The connection without the pointers that a step destroys, if it destroys any: the
guard of a dispatch, those in the functors of a batch, the local one of the sweep in
`~TcpServer`, or one that somebody keeps. -/
def without [DecidableEq T] (s : Owning T) : OwnInput T → Option (Owning T)
  | .system (.advance a _) =>
    if s.guard = true ∨ a = .endFunctors then some { s with guard := false, ran := s.returned a } else none
  | .system (.act _ _) => match s.system.todo with
    | .remove :: rest => some { s with system := { s.system with todo := rest } }
    | _ => none
  | .drop who => some { s with holders := s.holders.erase who }
  | .endBatch => some { s with spent := 0 }
  | _ => none

/-- Whether a step leaves an owner if it destroys a pointer behind `connectDestroyed`
while deferred work waits that does not own the connection. -/
def leavesOwner [DecidableEq T] (s : Owning T) (i : OwnInput T) : Bool :=
  match s.without i with
  | none => true
  | some rest => !s.awaits || !s.removes || rest.owned

end Owning

/-- A connection with its owners among other threads. -/
def owning (T : Type) [DecidableEq T] (alloc : Nat → Bool) (sameLoop : Bool) :
    Machine (Owning T) (OwnInput T) where
  step := Owning.step alloc sameLoop

/-- The code of a connection only adds to its record. -/
theorem Turn.log_extends {received : Received} {written : Written} {w w' : World} {a : Act} {next : List Act}
    (h : Turn received written w a w' next) : w.log <+: w'.log := by
  cases h with
  | connectEstablished => rw [World.log_connectEstablished]; exact List.prefix_append _ _
  | connectDestroyed => exact List.prefix_rfl
  | disconnect => rw [World.disconnect_fst, World.log_handleClose]; exact List.prefix_append _ _
  | close => rw [World.log_handleClose]; exact List.prefix_append _ _
  | remove => rw [World.log_perform]; exact List.prefix_append _ _
  | endOfStream inputBuffer_ => rw [World.log_handleClose]; exact List.prefix_append _ _
  | queue | message | closeCallback_ => exact List.prefix_append _ _
  | transfer _ _ _ htransfers =>
    obtain ⟨events, hlog, _⟩ := htransfers.log
    rw [hlog]
    exact List.prefix_append _ _

/-- `connectDestroyed` is to remove the channel, or has done so. -/
def System.Removing (s : System T) : Prop := .remove ∈ s.todo ∨ Destroyed s

/-- Until `connectDestroyed` has completed it is on its way, or the connection is still
in `connections_`. -/
def System.Kept (s : System T) : Prop := s.registered = true ∨ 0 < s.pending ∨ s.Removing

theorem System.removing_step [DecidableEq T] {alloc : Nat → Bool} {sameLoop : Bool} {s t : System T}
    {i : Input T} (hstep : s.step alloc sameLoop i = some t) (h : s.Removing) : t.Removing := by
  have hchange (htodo : TodoChange s.todo t.todo) (hlog : s.log <+: t.log) : t.Removing := by
    rcases h with hmem | hdestroyed
    · exact .inl ((htodo.mem_iff rfl).mpr hmem)
    · exact .inr (hlog.subset hdestroyed)
  cases step_control hstep with
  | quiet _ _ _ _ _ _ hlog htodo =>
    refine hchange htodo ?_
    rcases hlog with hlog | ⟨buf, hlog⟩
    · exact hlog ▸ List.prefix_rfl
    · rw [hlog]
      exact List.prefix_append _ _
  | shut _ _ _ _ hlog htodo =>
    refine hchange htodo ?_
    rw [hlog]
    exact List.prefix_append _ _
  | act received written a rest w next htodo hact =>
    rcases h with hmem | hdestroyed
    · rw [htodo] at hmem
      rcases List.mem_cons.mp hmem with rfl | hmem
      · cases hact
        right
        change Event.removed ∈ (s.world.perform .remove).log
        rw [World.log_perform]
        simp
      · exact .inl (List.mem_append_right _ hmem)
    · exact .inr ((World.act_turn hact).log_extends.subset hdestroyed)

/-- `connectDestroyed` ends with the removal of the channel. -/
theorem System.removing_of_calls [DecidableEq T] {alloc : Nat → Bool} {sameLoop : Bool} {s t : System T}
    {received : Received} {written : Written} (hcalls : s.calls (.act received written) = 1)
    (hstep : s.step alloc sameLoop (.act received written) = some t) : t.Removing := by
  have hhead : s.todo.head? = some (.call .connectDestroyed) := by
    by_contra hnot
    simp [System.calls, hnot] at hcalls
  obtain ⟨rest, htodo⟩ := List.head?_eq_some_iff.mp hhead
  simp only [System.step, System.act, htodo, World.act, World.call, World.connectDestroyed, Option.map_some,
    Option.some.injEq] at hstep
  subst hstep
  left
  change Act.remove ∈ _ ++ rest
  split <;> simp

/-- No step loses the way on which a connection is destroyed. -/
theorem System.Kept.step [DecidableEq T] {alloc : Nat → Bool} {sameLoop : Bool} {s t : System T} {i : Input T}
    (h : s.Kept) (hattended : Attended s) (hstep : s.step alloc sameLoop i = some t) : t.Kept := by
  have hremoving (hbefore : s.Removing) : t.Kept := .inr (.inr (System.removing_step hstep hbefore))
  cases hattended.removal hstep with
  | kept _ _ hpending _ hregistered =>
    rcases h with hmapped | hsome | hbefore
    · exact .inl (hregistered.trans hmapped)
    · exact .inr (.inl (by omega))
    · exact hremoving hbefore
  | called received written _ _ hcalls => exact .inr (.inr (System.removing_of_calls hcalls hstep))
  | asked received written rest htodo =>
    rcases h with hmapped | hsome | hbefore
    · exact .inl hmapped
    · refine .inr (.inl ?_)
      simpa [System.pending, htodo] using hsome
    · exact hremoving hbefore
  | erased | removed | swept => exact .inr (.inl (by omega))

/-- A loop that has nothing to do in a body leaves nothing out of order. -/
theorem Attended.cleared {s : System T} (h : Attended s) : Attended { s with todo := [] } :=
  ⟨⟨by simp, by simp, ⟨by simp, h.orderly.settled.queue, h.orderly.settled.callers⟩⟩, h.callers⟩

theorem System.log_advance [DecidableEq T] {alloc : Nat → Bool} {sameLoop : Bool} {s t : System T}
    {a : Advance Handler} {revents : Mask} (hstep : s.step alloc sameLoop (.advance a revents) = some t) :
    t.log = s.log := by
  cases System.stepped hstep
  rfl

namespace Owning

/-- A connection that has just been established, is in `connections_` unless its server
is gone, and of which nobody keeps a pointer of his own yet. -/
inductive Started : Owning T → Prop where
  | intro (system : System T) (hestablished : Established system)
      (hmapped : system.registered = true ∨ .connection .connectDestroyed ∈ system.thread.queue) :
      Started { system, holders := [], guard := false, ran := [], spent := 0, executed := [] }

theorem mem_functors_of_queue {s : Owning T} {task : Task} (h : task ∈ s.system.thread.queue) :
    task ∈ s.functors := by
  unfold LoopThread.queue at h
  unfold functors
  rcases List.mem_append.mp h with hwaiting | hpending
  · refine List.mem_append_left _ (List.mem_append_right _ ?_)
    cases hat : s.system.thread.at_ with
    | batch tasks =>
      rw [hat] at hwaiting
      exact hwaiting
    | running running tasks =>
      rw [hat] at hwaiting
      exact List.mem_cons_of_mem _ hwaiting
    | outside | testing | polling | dispatching | handling | swapping => simp [hat, Location.waiting] at hwaiting
  · exact List.mem_append_right _ hpending

/-- Until `connectDestroyed` has completed, the connection is owned. -/
theorem owned_of_kept {s : Owning T} (h : s.system.Kept) (hdestroyed : ¬ Destroyed s.system) :
    s.owned = true := by
  have hteardown {a : Act} (hmem : a ∈ s.system.todo) (ha : a.isTeardown = true) : s.owned = true := by
    have hlocal : s.system.todo.any Act.isTeardown = true := List.any_eq_true.mpr ⟨a, hmem, ha⟩
    simp [owned, hlocal]
  rcases h with hmapped | hpending | hmem | hdone
  · simp [owned, hmapped]
  · rcases Nat.add_pos_iff_pos_or_pos.mp hpending with hcalled | hqueued
    · exact hteardown (List.count_pos_iff.mp hcalled) rfl
    · have hfunctor : s.functors.any Task.isShared = true :=
        List.any_eq_true.mpr ⟨_, mem_functors_of_queue (List.count_pos_iff.mp hqueued), rfl⟩
      simp [owned, inFunctor, hfunctor]
  · exact hteardown hmem rfl
  · exact absurd hdone hdestroyed

theorem owned_of_shared {s : Owning T} (task : Task) (hmem : task ∈ s.functors)
    (hshared : task.isShared = true) : s.owned = true := by
  have hfunctor : s.functors.any Task.isShared = true := List.any_eq_true.mpr ⟨task, hmem, hshared⟩
  simp [owned, inFunctor, hfunctor]

theorem owned_of_holder {s : Owning T} {who : Option T} (hmem : who ∈ s.holders) : s.owned = true := by
  have hsome : s.holders.isEmpty = false := by simpa using List.ne_nil_of_mem hmem
  simp [owned, hsome]

theorem owned_of_removal {s : Owning T} (h : 0 < s.system.removals + s.spent) : s.owned = true := by
  simp [owned, inFunctor, h]

/-- A connection is owned as long as none of its pointers goes away. -/
theorem owned_mono {s t : Owning T} (h : s.owned = true) (hregistered : t.system.registered = s.system.registered)
    (hholders : t.holders = s.holders) (hguard : s.guard = true → t.guard = true)
    (hteardown : ∀ a ∈ s.system.todo, a.isTeardown = true → ∃ b ∈ t.system.todo, b.isTeardown = true)
    (hfunctors : ∀ task ∈ s.functors, task ∈ t.functors)
    (hremovals : s.system.removals + s.spent ≤ t.system.removals + t.spent) : t.owned = true := by
  simp only [owned, inFunctor, Bool.or_eq_true, List.any_eq_true, decide_eq_true_eq, Bool.not_eq_true'] at h ⊢
  rw [hregistered, hholders]
  rcases h with (((hmapped | hheld) | hguarded) | ⟨a, hmem, ha⟩) | ⟨task, hmem, hshared⟩ | hcount
  · exact .inl (.inl (.inl (.inl hmapped)))
  · exact .inl (.inl (.inl (.inr hheld)))
  · exact .inl (.inl (.inr (hguard hguarded)))
  · exact .inl (.inr (hteardown a hmem ha))
  · exact .inr (.inl ⟨task, hfunctors task hmem, hshared⟩)
  · exact .inr (.inr (Nat.lt_of_lt_of_le hcount hremovals))

theorem executing_spec {s : Owning T} {functor : Functor} (h : s.executing = some functor) :
    s.system.todo = [.call functor] ∧
    ∃ functors, s.system.thread.at_ = .running (.connection functor) functors := by
  unfold executing at h
  split at h
  · next called bound functors htodo hat =>
    split at h
    · next hbound =>
      cases h
      exact ⟨htodo, functors, hbound ▸ hat⟩
    · cases h
  · cases h

theorem not_isBare_of_isShared {functor : Functor} (h : isShared functor = true) :
    functor.isBare = false := by
  simp [Functor.isBare, h]

/-- A step that queues only functors which own the connection leaves no other work to
wait for. -/
theorem awaits_of_added {s t : Owning T} {tasks : List Task}
    (hqueue : t.system.thread.queue = s.system.thread.queue ++ tasks)
    (htasks : ∀ task ∈ tasks, task.isBare = false)
    (hexecuting : ∀ functor, t.executing = some functor → s.executing = some functor) (h : t.awaits = true) :
    s.awaits = true := by
  simp only [awaits, Bool.or_eq_true, Option.any_eq_true, List.any_eq_true] at h ⊢
  rcases h with ⟨functor, hfunctor, hbare⟩ | ⟨task, hmem, hbare⟩
  · exact .inl ⟨functor, hexecuting functor hfunctor, hbare⟩
  · rw [hqueue] at hmem
    rcases List.mem_append.mp hmem with hmem | hmem
    · exact .inr ⟨task, hmem, hbare⟩
    · rw [htasks task hmem] at hbare
      cases hbare

/-- A step inside a body only adds functors. -/
theorem functors_of_added {s t : Owning T} {tasks : List Task}
    (hqueue : t.system.thread.queue = s.system.thread.queue ++ tasks)
    (hat : t.system.thread.at_ = s.system.thread.at_) (hran : t.ran = s.ran) :
    ∀ task ∈ s.functors, task ∈ t.functors := by
  intro task hmem
  have hpending : t.system.thread.loop.pendingFunctors_ = s.system.thread.loop.pendingFunctors_ ++ tasks := by
    unfold LoopThread.queue at hqueue
    rw [hat, List.append_assoc] at hqueue
    exact List.append_cancel_left hqueue
  unfold functors at hmem ⊢
  rw [hran, hat, hpending, ← List.append_assoc]
  exact List.mem_append_left _ hmem

/-- What a step of the loop's thread leaves of the functors. -/
theorem functors_advance {s : Owning T} {thread : LoopThread Task Handler} {a : Advance Handler}
    (hadvance : s.system.thread.advance a = some thread) :
    ∀ task ∈ ({ s with ran := s.returned a } : Owning T).functors,
      task ∈ s.returned a ++ thread.at_.remaining ++ thread.loop.pendingFunctors_ := by
  have hadvances := LoopThread.advances_of_advance hadvance
  unfold functors returned
  generalize s.system.thread.loop = loop at hadvances
  generalize s.system.thread.at_ = position at hadvances
  cases hadvances with
  | swap => simp [Location.remaining]
  | returned functor functors =>
    intro task hmem
    simp only [Location.remaining, List.take_succ_cons, List.take_zero, List.mem_append, List.mem_cons,
      List.not_mem_nil, or_false] at hmem ⊢
    tauto
  | enter | leave | stay | poll | drain | dispatch | handled | beginFunctors | take | endFunctors =>
    exact fun _ hmem => hmem

/-- A step between the bodies of the loop finds the same work waiting. -/
theorem awaits_advance {s t : Owning T} {thread : LoopThread Task Handler} {a : Advance Handler}
    (hadvance : s.system.thread.advance a = some thread) (hthread : t.system.thread = thread)
    (h : t.awaits = true) : s.awaits = true := by
  simp only [awaits, Bool.or_eq_true, Option.any_eq_true, List.any_eq_true] at h ⊢
  right
  rw [hthread] at h
  rcases LoopThread.queue_advance hadvance with ⟨hqueue, hnot⟩ | ⟨task, functors, hqueue, hrunning⟩
  · rw [hqueue] at h
    rcases h with ⟨functor, hexecuting, _⟩ | hwaiting
    · obtain ⟨_, functors, hat⟩ := executing_spec hexecuting
      exact absurd (hthread ▸ hat) (hnot _ functors)
    · exact hwaiting
  · rw [hqueue]
    rcases h with ⟨functor, hexecuting, hbare⟩ | ⟨waiting, hmem, hbare⟩
    · obtain ⟨_, functors', hat⟩ := executing_spec hexecuting
      rw [hthread, hrunning] at hat
      cases hat
      exact ⟨_, List.mem_cons_self, hbare⟩
    · exact ⟨waiting, List.mem_cons_of_mem _ hmem, hbare⟩

/-- The loop keeps a connection alive until it is destroyed, and whoever has begun a
call keeps a pointer. As long as deferred work waits there is an owner, so that all of
it so far has found one. -/
structure Safe (s : Owning T) : Prop where
  attended : Attended s.system
  kept : s.system.Kept
  callers : ∀ t, s.system.callers t ≠ .outside → some t ∈ s.holders
  awaited : s.awaits = true → s.owned = true
  found : ∀ p ∈ s.executed, p.1.isDeferred = true → p.2 = true

theorem Started.safe {s : Owning T} (h : Started s) : Safe s := by
  cases h with
  | intro system hestablished hmapped =>
    refine ⟨hestablished.attended, ?_, ?_, ?_, by simp⟩
    · exact hmapped.imp_right fun hqueue => .inl (Nat.add_pos_right _ (List.count_pos_iff.mpr hqueue))
    · cases hestablished with
      | intro => simp [System.established]
    · intro hawaits
      cases hestablished with
      | intro conn poller thread rest registered _ _ _ _ hqueue =>
        simp only [awaits, Bool.or_eq_true, Option.any_eq_true, List.any_eq_true] at hawaits
        rcases hawaits with ⟨functor, hexecuting, _⟩ | ⟨task, hmem, hbare⟩
        · have htodo := (executing_spec hexecuting).1
          simp [System.established, World.connectEstablished] at htodo
        · rcases hqueue task hmem with rfl | rfl <;> cases hbare

/-- What a step leaves if it destroys a pointer. -/
theorem owned_of_without [DecidableEq T] {s rest : Owning T} {i : OwnInput T} (hleaves : s.leavesOwner i = true)
    (hwithout : s.without i = some rest) (hawaits : s.awaits = true) (hremoves : s.removes = true) :
    rest.owned = true := by
  simpa [leavesOwner, hwithout, hawaits, hremoves] using hleaves

theorem removes_of_destroyed {s : Owning T} (h : Destroyed s.system) : s.removes = true := by
  simp [removes, h]

/-- A step between the bodies of the loop leaves an owner to the work that waits. -/
theorem Safe.awaited_advance [DecidableEq T] {alloc : Nat → Bool} {sameLoop : Bool} {s : Owning T}
    {system : System T} {a : Advance Handler} {revents : Mask} (h : Safe s)
    (hleaves : s.leavesOwner (.system (.advance a revents)) = true)
    (hsystem : s.system.step alloc sameLoop (.advance a revents) = some system) (hdestroyed : Destroyed system)
    (hawaits : (s.follow system (.advance a revents)).awaits = true) :
    (s.follow system (.advance a revents)).owned = true := by
  have hlog := System.log_advance hsystem
  have hbefore : s.removes = true := removes_of_destroyed (by rw [Destroyed, ← hlog]; exact hdestroyed)
  cases System.stepped hsystem with
  | advance _ _ thread hidle _ hadvance =>
    have hwaited : s.awaits = true := by
      refine awaits_advance hadvance ?_ hawaits
      simp only [follow]
      split <;> rfl
    have howned := h.awaited hwaited
    let rest : Owning T := { s with guard := false, ran := s.returned a }
    have hrest : rest.owned = true := by
      by_cases hlost : s.guard = true ∨ a = .endFunctors
      · exact owned_of_without hleaves (if_pos hlost) hwaited hbefore
      · obtain ⟨hguard, hgoes⟩ := not_or.mp hlost
        refine owned_mono howned rfl rfl (fun hguarded => absurd hguarded hguard)
          (fun act hmem hact => ⟨act, hmem, hact⟩) ?_ (le_refl _)
        intro task hmem
        simp only [functors, List.append_assoc, List.mem_append] at hmem ⊢
        refine hmem.imp_left fun hran => ?_
        show task ∈ s.returned a
        unfold returned
        split
        · exact List.mem_append_left _ hran
        · exact absurd rfl hgoes
        · exact hran
    simp only [follow, howned, Bool.true_eq_false, and_false, if_false]
    refine owned_mono hrest rfl rfl (by simp [rest]) (fun act hmem => ?_) (functors_advance hadvance) (le_refl _)
    rw [show rest.system.todo = [] from hidle] at hmem
    cases hmem

/-- Before the connection is destroyed the server owns it, or what destroys it does. -/
theorem Safe.owned_advance [DecidableEq T] {alloc : Nat → Bool} {sameLoop : Bool} {s : Owning T}
    {system : System T} {a : Advance Handler} {revents : Mask} (h : Safe s)
    (hsystem : s.system.step alloc sameLoop (.advance a revents) = some system) (hkept : system.Kept)
    (hundestroyed : ¬ Destroyed system) : (s.follow system (.advance a revents)).owned = true := by
  have hbefore : ¬ Destroyed s.system := by
    rw [Destroyed, ← System.log_advance hsystem]
    exact hundestroyed
  simp only [follow, owned_of_kept h.kept hbefore, Bool.true_eq_false, and_false, if_false]
  exact owned_of_kept hkept hundestroyed

/-- A step of the connection's code leaves an owner to the work that waits. -/
theorem Safe.awaited_act [DecidableEq T] {alloc : Nat → Bool} {sameLoop : Bool} {s : Owning T}
    {system : System T} {received : Received} {written : Written} (h : Safe s)
    (hleaves : s.leavesOwner (.system (.act received written)) = true)
    (hsystem : s.system.step alloc sameLoop (.act received written) = some system)
    (hawaits : (s.follow system (.act received written)).awaits = true) :
    (s.follow system (.act received written)).owned = true := by
  cases System.stepped hsystem with
  | removeConnection _ _ rest htodo =>
    unfold System.removeConnection
    split
    · refine owned_of_shared (.connection .connectDestroyed) (mem_functors_of_queue ?_) rfl
      simp [follow, System.queueInLoop, LoopThread.queue]
    · refine owned_of_removal ?_
      change 0 < s.system.removals + 1 + s.spent
      omega
  | act _ _ a rest w more htodo hact =>
    have hleft := (World.act_turn hact).leaves
    obtain ⟨functors, hqueued, hkinds⟩ := hleft.queued
    have hqueue := queue_resume s.system w (more ++ rest)
    have hwaited : s.awaits = true := by
      refine awaits_of_added hqueue ?_ ?_ hawaits
      · intro task hmem
        obtain ⟨functor, hfunctor, rfl⟩ := List.mem_map.mp hmem
        rw [hqueued] at hfunctor
        refine not_isBare_of_isShared (isShared_of_notice ((hkinds functor hfunctor).imp_right ?_))
        rintro rfl
        exact h.attended.orderly.requeue functor (by rw [htodo]; exact List.mem_cons_self)
      · intro functor hexecuting
        have hcall : .call functor ∈ more ++ rest := by
          rw [show more ++ rest = [.call functor] from (executing_spec hexecuting).1]
          exact List.mem_singleton_self _
        rcases List.mem_append.mp hcall with hmem | hmem
        · exact absurd hmem (hleft.call functor)
        · cases h.attended.orderly.tail _ (by rw [htodo]; exact hmem)
    have hadded := functors_of_added (s := s) (t := s.follow _ (.act received written)) hqueue rfl rfl
    by_cases ha : a = .remove
    · subst ha
      have hrest := owned_of_without hleaves (by simp only [without, htodo]; rfl) hwaited (by simp [removes, htodo])
      exact owned_mono hrest rfl rfl id
        (fun act hmem hteardown => ⟨act, List.mem_append_right _ hmem, hteardown⟩) hadded (le_refl _)
    · refine owned_mono (h.awaited hwaited) rfl rfl id ?_ hadded (le_refl _)
      intro act hmem hteardown
      rw [htodo] at hmem
      rcases List.mem_cons.mp hmem with rfl | hmem
      · obtain rfl : act = .call .connectDestroyed := by
          cases act with
          | call functor => cases functor <;> first | rfl | cases hteardown
          | remove => exact absurd rfl ha
          | callback | drained | disconnect | queue | user | closeCallback_ | removeConnection => cases hteardown
        simp only [World.act, World.call, World.connectDestroyed, Option.some.injEq, Prod.mk.injEq] at hact
        obtain ⟨-, rfl⟩ := hact
        refine ⟨.remove, List.mem_append_left _ ?_, rfl⟩
        split <;> simp
      · exact ⟨act, List.mem_append_right _ hmem, hteardown⟩

/-- A step inside a body leaves an owner to the work that waits, if it destroys no
pointer and queues nothing that has to wait without one. -/
theorem Safe.awaited_of_added {s t : Owning T} {tasks : List Task} (h : Safe s)
    (hqueue : t.system.thread.queue = s.system.thread.queue ++ tasks)
    (htasks : ∀ task ∈ tasks, task.isBare = false)
    (hat : t.system.thread.at_ = s.system.thread.at_) (hran : t.ran = s.ran)
    (hexecuting : ∀ functor, t.executing = some functor → s.executing = some functor)
    (hregistered : t.system.registered = s.system.registered) (hholders : t.holders = s.holders)
    (hguard : t.guard = s.guard)
    (hteardown : ∀ a ∈ s.system.todo, a.isTeardown = true → a ∈ t.system.todo)
    (hremovals : t.system.removals + t.spent = s.system.removals + s.spent) (hawaits : t.awaits = true) :
    t.owned = true := by
  refine owned_mono (h.awaited (awaits_of_added hqueue htasks hexecuting hawaits)) hregistered hholders
    (fun hguarded => hguard.trans hguarded) ?_ (functors_of_added hqueue hat hran) (le_of_eq hremovals.symm)
  exact fun a hmem ha => ⟨a, hteardown a hmem ha, ha⟩

theorem Safe.awaited_of_same {s t : Owning T} (h : Safe s)
    (hqueue : t.system.thread.queue = s.system.thread.queue) (hat : t.system.thread.at_ = s.system.thread.at_)
    (hran : t.ran = s.ran) (hexecuting : ∀ functor, t.executing = some functor → s.executing = some functor)
    (hregistered : t.system.registered = s.system.registered) (hholders : t.holders = s.holders)
    (hguard : t.guard = s.guard)
    (hteardown : ∀ a ∈ s.system.todo, a.isTeardown = true → a ∈ t.system.todo)
    (hremovals : t.system.removals + t.spent = s.system.removals + s.spent) (hawaits : t.awaits = true) :
    t.owned = true := by
  have hnone : t.system.thread.queue = s.system.thread.queue ++ [] := by rw [hqueue, List.append_nil]
  exact h.awaited_of_added hnone (by simp) hat hran hexecuting hregistered hholders hguard hteardown hremovals hawaits

/-- User code runs no functor of the loop. -/
theorem not_executing_of_userRuns {s t : Owning T} {functor : Functor} {next : List Act}
    (huser : s.system.userRuns = true) (hexecuting : t.executing = some functor)
    (hat : t.system.thread.at_ = s.system.thread.at_) (htodo : t.system.todo = next ++ s.system.todo) : False := by
  obtain ⟨hcall, functors, hrunning⟩ := executing_spec hexecuting
  unfold System.userRuns at huser
  split at huser
  · next rest hrest =>
    rw [htodo, hrest] at hcall
    have hmem : Act.user ∈ [Act.call functor] := by
      rw [← hcall]
      simp
    simp at hmem
  · next houtside =>
    rw [hat, houtside] at hrunning
    cases hrunning
  · cases huser

theorem load_eq [DecidableEq T] (s : System T) (thread : T) (call : Call) :
    ∃ callers log, s.load thread call = { s with callers, log } := by
  unfold System.load
  split
  · cases call <;> exact ⟨_, _, rfl⟩
  · exact ⟨_, _, rfl⟩

/-- A thread is in a call only if it has begun it. -/
theorem callers_step [DecidableEq T] {alloc : Nat → Bool} {sameLoop : Bool} {s t : System T} {i : Input T}
    {thread : T} (hstep : s.step alloc sameLoop i = some t) (h : t.callers thread ≠ .outside) :
    s.callers thread ≠ .outside ∨ ∃ call, i = .load thread call := by
  have hcaller := callerStep hstep thread
  generalize s.callers thread = caller at hcaller ⊢
  generalize t.callers thread = after at hcaller h
  cases hcaller with
  | same => exact .inl h
  | load call hload => exact .inr ⟨call, hload⟩
  | store => exact .inl (by simp)
  | push => exact .inl (by simp)

/-- Every step of the system leaves an owner to the work that waits. -/
theorem Safe.awaited_system [DecidableEq T] {alloc : Nat → Bool} {sameLoop : Bool} {s : Owning T}
    {system : System T} {i : Input T} (h : Safe s) (hleaves : s.leavesOwner (.system i) = true)
    (hsystem : s.system.step alloc sameLoop i = some system) (hkept : system.Kept)
    (hawaits : (s.follow system i).awaits = true) : (s.follow system i).owned = true := by
  cases System.stepped hsystem with
  | advance =>
    exact (Classical.em (Destroyed _)).elim (fun hdestroyed => h.awaited_advance hleaves hsystem hdestroyed hawaits)
      (fun hundestroyed => h.owned_advance hsystem hkept hundestroyed)
  | removeConnection | act => exact h.awaited_act hleaves hsystem hawaits
  | ownCall call huser =>
    refine h.awaited_of_same ?_ rfl rfl ?_ rfl rfl rfl ?_ rfl hawaits
    · change (s.system.resume _ _).thread.queue = _
      rw [queue_resume]
      cases call <;> simp only [World.ownCall] <;> split <;> exact List.append_nil _
    · intro functor hexecuting
      exact (not_executing_of_userRuns huser hexecuting rfl rfl).elim
    · exact fun a hmem _ => List.mem_append_right _ hmem
  | ownRetrieve | store =>
    exact h.awaited_of_same rfl rfl rfl (fun _ => id) rfl rfl rfl (fun _ hmem _ => hmem) rfl hawaits
  | ownQueue =>
    exact h.awaited_of_added (queue_queueInLoop s.system true .other) (by simp [Task.isBare]) rfl rfl
      (fun _ => id) rfl rfl rfl (fun _ hmem _ => hmem) rfl hawaits
  | userReturns rest htodo =>
    refine h.awaited_of_same rfl rfl rfl ?_ rfl rfl rfl ?_ rfl hawaits
    · intro functor hexecuting
      have hcall : .call functor ∈ rest := by
        rw [show rest = [.call functor] from (executing_spec hexecuting).1]
        exact List.mem_singleton_self _
      cases h.attended.orderly.tail _ (by rw [htodo]; exact hcall)
    · intro a hmem ha
      rw [htodo] at hmem
      rcases List.mem_cons.mp hmem with rfl | hmem
      · cases ha
      · exact hmem
  | load caller call =>
    obtain ⟨callers, log, heq⟩ := load_eq s.system caller call
    rw [heq] at hawaits ⊢
    exact h.awaited_of_same rfl rfl rfl (fun _ => id) rfl rfl rfl (fun _ hmem _ => hmem) rfl hawaits
  | push caller functor hqueueing => exact owned_of_holder (h.callers caller (by rw [hqueueing]; simp))
  | queueOther =>
    exact h.awaited_of_added (queue_queueInLoop s.system false .other) (by simp [Task.isBare]) rfl rfl
      (fun _ => id) rfl rfl rfl (fun _ hmem _ => hmem) rfl hawaits
  | quit isInLoopThread =>
    refine h.awaited_of_same ?_ rfl rfl (fun _ => id) rfl rfl rfl (fun _ hmem _ => hmem) rfl hawaits
    cases isInLoopThread <;> simp [follow, LoopThread.queue, EventLoop.quit]
  | removeConnectionInLoop => exact owned_of_removal (Nat.add_pos_right _ (Nat.succ_pos _))
  | sweepHere => simp [follow, owned, Act.isTeardown]
  | sweepThere =>
    refine owned_of_shared (.connection .connectDestroyed) (mem_functors_of_queue ?_) rfl
    simp [follow, System.queueInLoop, LoopThread.queue]

/-- Deferred work that the loop executes finds an owner. It has been waited for, or is
bound to one itself. -/
theorem Safe.owned_of_executing {s : Owning T} {functor : Functor} (h : Safe s)
    (hexecuting : s.executing = some functor) (hdeferred : functor.isDeferred = true) : s.owned = true := by
  by_cases hshared : isShared functor = true
  · obtain ⟨_, functors, hat⟩ := executing_spec hexecuting
    refine owned_of_shared (.connection functor) ?_ hshared
    simp [Owning.functors, hat, Location.remaining]
  · refine h.awaited ?_
    simp [awaits, hexecuting, Functor.isBare, hdeferred, hshared]

/-- A step of the owners destroys no pointer that is needed. -/
theorem Safe.owned_of_released [DecidableEq T] {s rest : Owning T} {i : OwnInput T} (h : Safe s)
    (hleaves : s.leavesOwner i = true) (hwithout : s.without i = some rest) (hsystem : rest.system = s.system)
    (hawaits : s.awaits = true) : rest.owned = true := by
  by_cases hdestroyed : Destroyed s.system
  · exact owned_of_without hleaves hwithout hawaits (removes_of_destroyed hdestroyed)
  · exact owned_of_kept (hsystem ▸ h.kept) (hsystem ▸ hdestroyed)

theorem Safe.step [DecidableEq T] {alloc : Nat → Bool} {sameLoop : Bool} {s t : Owning T} {i : OwnInput T}
    (h : Safe s) (hleaves : s.leavesOwner i = true) (hstep : s.step alloc sameLoop i = some t) : Safe t := by
  cases i with
  | system i =>
    simp only [Owning.step] at hstep
    split at hstep
    · next hmay =>
      obtain ⟨system, hsystem, rfl⟩ := Option.map_eq_some_iff.mp hstep
      have hattended := h.attended.step hsystem
      have hkept := h.kept.step h.attended hsystem
      have hawaited := h.awaited_system hleaves hsystem hkept
      have hcallers (thread : T) (hbusy : system.callers thread ≠ .outside) : some thread ∈ s.holders := by
        rcases callers_step hsystem hbusy with hbefore | ⟨call, rfl⟩
        · exact h.callers thread hbefore
        · simpa [mayCall] using hmay
      cases i with
      | advance a revents =>
        simp only [follow] at hawaited ⊢
        split
        · next hgone =>
          rw [if_pos hgone] at hawaited
          have hdestroyed : Destroyed s.system := by
            by_contra hnot
            rw [owned_of_kept h.kept hnot] at hgone
            cases hgone.2
          refine ⟨hattended.cleared, .inr (.inr (.inr ?_)), hcallers, hawaited, h.found⟩
          change Event.removed ∈ system.log
          rw [System.log_advance hsystem]
          exact hdestroyed
        · next hhere =>
          rw [if_neg hhere] at hawaited
          exact ⟨hattended, hkept, hcallers, hawaited, h.found⟩
      | act received written =>
        refine ⟨hattended, hkept, hcallers, hawaited, ?_⟩
        intro p hmem hdeferred
        simp only [follow] at hmem
        rcases List.mem_append.mp hmem with hmem | hmem
        · exact h.found p hmem hdeferred
        · obtain ⟨functor, hexecuting, rfl⟩ := List.mem_map.mp hmem
          exact h.owned_of_executing (Option.mem_toList.mp hexecuting) hdeferred
      | _ => exact ⟨hattended, hkept, hcallers, hawaited, h.found⟩
    · cases hstep
  | hold who =>
    simp only [Owning.step] at hstep
    split at hstep
    · cases hstep
      exact ⟨h.attended, h.kept, fun thread hbusy => List.mem_cons_of_mem _ (h.callers thread hbusy),
        fun _ => owned_of_holder List.mem_cons_self, h.found⟩
    · cases hstep
  | drop who =>
    simp only [Owning.step] at hstep
    split at hstep
    · next hdrop =>
      cases hstep
      refine ⟨h.attended, h.kept, ?_, fun hawaits => h.owned_of_released hleaves rfl rfl hawaits, h.found⟩
      intro thread hbusy
      refine (List.mem_erase_of_ne ?_).mpr (h.callers thread hbusy)
      rintro rfl
      exact hbusy (hdrop.2 thread rfl)
    · cases hstep
  | endBatch =>
    cases hstep
    exact ⟨h.attended, h.kept, h.callers, fun hawaits => h.owned_of_released hleaves rfl rfl hawaits, h.found⟩

end Owning

/-- No pointer is destroyed that deferred work waits with. -/
def LeavesOwner [DecidableEq T] (s : Owning T) (i : OwnInput T) : Prop := s.leavesOwner i = true

instance [DecidableEq T] (s : Owning T) (i : OwnInput T) : Decidable (LeavesOwner s i) :=
  inferInstanceAs (Decidable (s.leavesOwner i = true))

/-- Deferred work runs on a living connection. In every run in which no step behind
`connectDestroyed` destroys the last pointer while a `sendInLoop` or a `shutdownInLoop`
waits, every `sendInLoop`, `sendFileInLoop` and `shutdownInLoop` has found an owner of
the connection when it was executed. -/
theorem deferred_work_finds_owner [DecidableEq T] {alloc : Nat → Bool} {sameLoop : Bool} {s₀ s : Owning T}
    (hstart : Owning.Started s₀) (hrun : (owning T alloc sameLoop).Steps LeavesOwner s₀ s) :
    ∀ p ∈ s.executed, p.1.isDeferred = true → p.2 = true :=
  (hrun.invariant (fun _ _ _ h hleaves hstep => Owning.Safe.step h hleaves hstep) hstart.safe).found

/-- The connection that has just been established, with its owners. -/
def ownedEstablished : Owning Unit :=
  { system := justEstablished, holders := [], guard := false, ran := [], spent := 0, executed := [] }

theorem started_ownedEstablished : Owning.Started ownedEstablished :=
  .intro justEstablished established_justEstablished (.inl rfl)

/-- Another thread calls `send`, and is about to queue the payload when the peer closes
and the connection is destroyed. Then it queues it, and keeps its pointer or not,
until the loop executes the functor in its next batch. -/
def sendBehindDestroy (owner : List (OwnInput Unit)) : List (OwnInput Unit) :=
  let before : List (Input Unit) := [.load () (.send payload)] ++ peerCloses ++ takeNext ++
    List.replicate 2 (.act (.data []) (.bytes 0)) ++ [.push ()]
  let after : List (Input Unit) := [.advance .returned 0] ++ dispatchNext [.wakeupChannel] 0 ++ takeNext ++
    [.act (.data []) (.error .EPIPE)]
  [.hold (some ())] ++ before.map .system ++ owner ++ [.endBatch] ++ after.map .system

theorem deferred_work_finds_owner_kept :
    ∃ s, (owning Unit (fun _ => true) false).run ownedEstablished (sendBehindDestroy []) = some s ∧
      ∀ p ∈ s.executed, p.1.isDeferred = true → p.2 = true := by
  have hruns : ((owning Unit (fun _ => true) false).run ownedEstablished
      (sendBehindDestroy [])).isSome = true := by decide +kernel
  obtain ⟨s, hrun⟩ := Option.isSome_iff_exists.mp hruns
  exact ⟨s, hrun, deferred_work_finds_owner started_ownedEstablished
    (Machine.steps_of_run hrun (by decide +kernel))⟩

/-- The thread drops its pointer after `send` has returned, and the payload is sent on
a connection that nobody owns any more. -/
theorem deferred_work_finds_no_owner :
    ∃ s, (owning Unit (fun _ => true) false).run ownedEstablished
        (sendBehindDestroy [.drop (some ())]) = some s ∧
      s.executed = [(.connectDestroyed, true), (.sendInLoop payload, false)] ∧
      ¬ ∀ p ∈ s.executed, p.1.isDeferred = true → p.2 = true := by
  have hruns : ((owning Unit (fun _ => true) false).run ownedEstablished
      (sendBehindDestroy [.drop (some ())])).map Owning.executed =
        some [(.connectDestroyed, true), (.sendInLoop payload, false)] := by
    decide +kernel
  obtain ⟨s, hrun, hexecuted⟩ := Option.map_eq_some_iff.mp hruns
  refine ⟨s, hrun, hexecuted, ?_⟩
  intro hall
  have hfound := hall (.sendInLoop payload, false) (by rw [hexecuted]; simp) rfl
  cases hfound

end muduo.tcp_connection
