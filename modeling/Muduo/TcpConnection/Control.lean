import Muduo.TcpConnection.System
import Muduo.TcpConnection.Effects

open transition
open muduo.kernel muduo.buffer muduo.epoll muduo.event_loop

namespace muduo.tcp_connection

variable {T : Type}

/-- How a step that is not an act changes what the loop's thread still has to do: it
does not, it ends user code or a call of the server, it enters a body, or it calls a
functor from user code. -/
inductive TodoChange : List Act → List Act → Prop where
  | same (todo : List Act) : TodoChange todo todo
  | ended (a : Act) (todo : List Act) (ha : a = .user ∨ a = .removeConnection) : TodoChange (a :: todo) todo
  | dispatched (callbacks : List EventCallback) : TodoChange [] (callbacks.map Act.callback)
  | entered : TodoChange [] [.user]
  | taken (functor : Functor) : TodoChange [] [.call functor]
  | called (functor : Functor) (todo : List Act) (hcall : functor ≠ .connectEstablished)
      (huser : todo = [] ∨ ∃ rest, todo = .user :: rest) : TodoChange todo (.call functor :: todo)

/-- The removals of the connection that have been asked of the server, whether they
are still to be made or have led to `connectDestroyed`. -/
def System.removalCount (s : System T) : Nat :=
  s.destroys + s.removals + s.todo.count .removeConnection

/-- What a step can do to the connection: leave its state and its channel alone, run
an act, or make it start to shut down. -/
inductive Control (alloc : Nat → Bool) (s : System T) : Input T → System T → Prop where
  | quiet (i : Input T) (t : System T) (hstate : t.conn.state_ = s.conn.state_)
      (hchannel : ∃ revents, t.conn.channel_ = { s.conn.channel_ with revents_ := revents })
      (hbuffer : t.conn.outputBuffer_ = s.conn.outputBuffer_) (hpoller : t.poller = s.poller)
      (hlog : t.log = s.log ∨ ∃ buf, t.log = s.log ++ [.send buf]) (htodo : TodoChange s.todo t.todo)
      (hremovals : t.removalCount = s.removalCount) : Control alloc s i t
  | act (received : Received) (written : Written) (a : Act) (rest : List Act) (w : World) (next : List Act)
      (htodo : s.todo = a :: rest) (hact : s.world.act alloc received written a = some (w, next)) :
      Control alloc s (.act received written) (s.resume w (next ++ rest))
  | shut (i : Input T) (t : System T) (hconn : t.conn = { s.conn with state_ := .kDisconnecting })
      (hpoller : t.poller = s.poller) (hlog : t.log = s.log ++ [.setState .kDisconnecting])
      (htodo : TodoChange s.todo t.todo) (hremovals : t.removalCount = s.removalCount)
      (hi : s.conn.state_ = .kConnected ∨ ∃ caller, i = .store caller) : Control alloc s i t

theorem userRuns_todo {s : System T} (h : s.userRuns = true) :
    s.todo = [] ∨ ∃ rest, s.todo = .user :: rest := by
  unfold System.userRuns at h
  split at h
  · next rest htodo => exact .inr ⟨rest, htodo⟩
  · next htodo _ => exact .inl htodo
  · cases h

theorem revents_of_same {conn : TcpConnection} :
    ∃ revents, conn.channel_ = { conn.channel_ with revents_ := revents } := ⟨conn.channel_.revents_, rfl⟩

theorem todoChange_body (conn : TcpConnection) (at_ : Location Task Handler) :
    TodoChange [] (System.body conn at_) := by
  unfold System.body
  split
  · exact .dispatched _
  · exact .entered
  · exact .taken _
  · exact .entered
  · exact .same []

theorem count_body (conn : TcpConnection) (at_ : Location Task Handler) :
    (System.body conn at_).count .removeConnection = 0 := by
  rw [List.count_eq_zero]
  unfold System.body
  split <;> simp

theorem step_control [DecidableEq T] {alloc : Nat → Bool} {sameLoop : Bool} {s t : System T} {i : Input T}
    (hstep : s.step alloc sameLoop i = some t) : Control alloc s i t := by
  have hquiet {t : System T} (hconn : t.conn = s.conn) (hpoller : t.poller = s.poller) (hlog : t.log = s.log)
      (htodo : TodoChange s.todo t.todo) (hremovals : t.removalCount = s.removalCount) : Control alloc s i t :=
    .quiet i t (by rw [hconn]) (by rw [hconn]; exact revents_of_same) (by rw [hconn]) hpoller (.inl hlog) htodo
      hremovals
  cases System.stepped hstep with
  | advance a revents thread hidle =>
    have htodo : TodoChange s.todo (System.body (System.polled s.conn a revents) thread.at_) := by
      rw [hidle]
      exact todoChange_body _ _
    have hbody {t : System T} (hdestroys : t.destroys = s.destroys) (hremovals : t.removals = s.removals)
        (htodo' : t.todo = System.body (System.polled s.conn a revents) thread.at_) :
        t.removalCount = s.removalCount := by
      rw [System.removalCount, hdestroys, hremovals, htodo', System.removalCount, hidle, count_body]
      rfl
    unfold System.polled at htodo ⊢
    split at htodo
    · next hreports =>
      rw [if_pos hreports]
      exact .quiet _ _ rfl ⟨revents, rfl⟩ rfl rfl (.inl rfl) htodo
        (hbody rfl rfl (by simp [System.polled, hreports]))
    · next hreports =>
      rw [if_neg hreports]
      exact hquiet rfl rfl rfl htodo (hbody rfl rfl (by simp [System.polled, hreports]))
  | removeConnection received written rest htodo =>
    unfold System.removeConnection
    split
    · refine hquiet rfl rfl rfl (by rw [htodo]; exact .ended _ _ (.inr rfl)) ?_
      simp only [System.removalCount, System.queueInLoop, htodo, List.count_cons_self]
      omega
    · refine hquiet rfl rfl rfl (by rw [htodo]; exact .ended _ _ (.inr rfl)) ?_
      simp only [System.removalCount, htodo, List.count_cons_self]
      omega
  | act received written a rest w next htodo hact => exact .act received written a rest w next htodo hact
  | ownCall call huser =>
    have htodo := userRuns_todo huser
    cases call with
    | send buf =>
      simp only [World.ownCall]
      split
      · exact .quiet _ _ rfl revents_of_same rfl rfl (.inr ⟨buf, rfl⟩)
          (.called _ _ (by simp) htodo) (by simp [System.removalCount, System.resume])
      · exact hquiet rfl rfl rfl (.same _) rfl
    | sendFile fileDescriptor offset count =>
      simp only [World.ownCall]
      split
      · exact hquiet rfl rfl rfl (.called _ _ (by simp) htodo) (by simp [System.removalCount, System.resume])
      · exact hquiet rfl rfl rfl (.same _) rfl
    | shutdown =>
      simp only [World.ownCall]
      split
      · next hconnected =>
        refine .shut _ _ rfl rfl rfl (.called _ _ (by simp) htodo)
          (by simp [System.removalCount, System.resume]) (.inl ?_)
        simpa [System.world, TcpConnection.connected] using hconnected
      · exact hquiet rfl rfl rfl (.same _) rfl
  | ownRetrieve len => exact .quiet _ _ rfl revents_of_same rfl rfl (.inl rfl) (.same _) rfl
  | userReturns rest htodo =>
    exact hquiet rfl rfl rfl (by rw [htodo]; exact .ended _ _ (.inl rfl)) (by simp [System.removalCount, htodo])
  | load caller call =>
    unfold System.load
    split
    · cases call with
      | send buf => exact .quiet _ _ rfl revents_of_same rfl rfl (.inr ⟨buf, rfl⟩) (.same _) rfl
      | sendFile | shutdown => exact hquiet rfl rfl rfl (.same _) rfl
    · exact hquiet rfl rfl rfl (.same _) rfl
  | store caller => exact .shut _ _ rfl rfl rfl (.same _) rfl (.inr ⟨caller, rfl⟩)
  | push | queueOther | ownQueue | quit | sweepThere => exact hquiet rfl rfl rfl (.same _) rfl
  | removeConnectionInLoop _ hremovals =>
    refine hquiet rfl rfl rfl (.same _) ?_
    simp only [System.removalCount, System.queueInLoop]
    omega
  | sweepHere _ _ huser =>
    exact hquiet rfl rfl rfl (.called _ _ (by simp) (userRuns_todo huser)) (by simp [System.removalCount])

/-- The acts that may stand behind another one. The others are always next, because
nothing comes between them and the act that left them. -/
def Act.isPlain : Act → Bool
  | .call _ => false
  | .callback _ => true
  | .drained => false
  | .disconnect => false
  | .remove => true
  | .queue _ => false
  | .user => true
  | .closeCallback_ => true
  | .removeConnection => true

/-- The acts that close the connection. -/
def Act.closes (received : Received) : Act → Bool
  | .disconnect => true
  | .callback .closeCallback_ => true
  | .callback .readCallback_ => received = .data []
  | _ => false

/-- What a turn leaves to be done, and what it queues. -/
structure Turn.Leaves (a : Act) (w w' : World) (next : List Act) : Prop where
  tail : ∀ b ∈ next.tail, b.isPlain = true
  call : ∀ functor, .call functor ∉ next
  queue : ∀ functor, .queue functor ∈ next → functor.isResend = true
  queued : ∃ functors, w'.queued = w.queued ++ functors ∧
    ∀ functor ∈ functors, functor.isNotice = true ∨ a = .queue functor

theorem Turn.leaves {received : Received} {written : Written} {w w' : World} {a : Act} {next : List Act}
    (h : Turn received written w a w' next) : Turn.Leaves a w w' next := by
  have hnothing : ∃ functors, w.queued = w.queued ++ functors ∧
      ∀ functor ∈ functors, functor.isNotice = true ∨ a = .queue functor := ⟨[], by simp, by simp⟩
  cases h with
  | connectEstablished => exact ⟨by simp, by simp, by simp, hnothing⟩
  | connectDestroyed => split <;> exact ⟨by simp [Act.isPlain], by simp, by simp, hnothing⟩
  | disconnect => exact ⟨by simp, by simp, by simp, hnothing⟩
  | remove => exact ⟨by simp, by simp, by simp, hnothing⟩
  | queue functor => exact ⟨by simp, by simp, by simp, [functor], rfl, by simp⟩
  | close => exact ⟨by simp [Act.isPlain], by simp, by simp, hnothing⟩
  | endOfStream => exact ⟨by simp [Act.isPlain], by simp, by simp, hnothing⟩
  | message => exact ⟨by simp, by simp, by simp, hnothing⟩
  | closeCallback_ => exact ⟨by simp, by simp, by simp, hnothing⟩
  | transfer _ _ _ htransfers _ hnext _ =>
    have hqueued : ∃ functors, w'.queued = w.queued ++ functors ∧
        ∀ functor ∈ functors, functor.isNotice = true ∨ a = .queue functor := by
      obtain ⟨functors, heq, hnotices⟩ := htransfers.queued
      exact ⟨functors, heq, fun functor hmem => .inl (hnotices functor hmem)⟩
    rcases hnext with rfl | rfl | rfl | ⟨functor, hresend, rfl⟩
    · exact ⟨by simp, by simp, by simp, hqueued⟩
    · exact ⟨by simp, by simp, by simp, hqueued⟩
    · exact ⟨by simp, by simp, by simp, hqueued⟩
    · exact ⟨by simp, by simp, by simpa using hresend, hqueued⟩

/-- An act queues notices, and what it is there to queue again, and nothing else. -/
theorem Turn.Leaves.not_mem_queued {w w' : World} {a : Act} {next : List Act} {functor : Functor}
    (h : Turn.Leaves a w w' next) (hnone : w.queued = []) (hnotice : functor.isNotice = false)
    (hresend : functor.isResend = false) (hrequeue : ∀ functor, a = .queue functor → functor.isResend = true) :
    .connection functor ∉ w'.queued.map Task.connection := by
  obtain ⟨functors, hqueued, hkinds⟩ := h.queued
  rw [hqueued, hnone, List.nil_append]
  intro hmem
  obtain ⟨other, hother, heq⟩ := List.mem_map.mp hmem
  cases heq
  rcases hkinds _ hother with hkind | hqueue
  · rw [hnotice] at hkind
    cases hkind
  · have hagain := hrequeue _ hqueue
    rw [hresend] at hagain
    cases hagain

@[simp] theorem queue_queueInLoop (s : System T) (isInLoopThread : Bool) (task : Task) :
    (s.queueInLoop isInLoopThread task).thread.queue = s.thread.queue ++ [task] := by
  simp [System.queueInLoop, LoopThread.queue]

theorem queue_resume (s : System T) (w : World) (todo : List Act) :
    (s.resume w todo).thread.queue = s.thread.queue ++ w.queued.map Task.connection := by
  have hfold (functors : List Functor) (loop : EventLoop Task) :
      (functors.foldl (fun loop functor => loop.queueInLoop true (.connection functor)) loop).pendingFunctors_ =
        loop.pendingFunctors_ ++ functors.map Task.connection := by
    induction functors generalizing loop with
    | nil => simp
    | cons functor functors ih =>
      rw [List.foldl_cons, ih, EventLoop.pendingFunctors_queueInLoop, List.map_cons, List.append_assoc,
        List.singleton_append]
  simp only [System.resume, LoopThread.queue, hfold, List.append_assoc]

/-- `connectEstablished` is neither being called nor on its way. -/
structure Settled (s : System T) : Prop where
  todo : .call .connectEstablished ∉ s.todo
  queue : .connection .connectEstablished ∉ s.thread.queue
  callers : ∀ t, s.callers t ≠ .queueing .connectEstablished

/-- What holds of the acts and the functors of an established connection. -/
structure Orderly (s : System T) : Prop where
  tail : ∀ a ∈ s.todo.tail, a.isPlain = true
  requeue : ∀ functor, .queue functor ∈ s.todo → functor.isResend = true
  settled : Settled s

theorem TodoChange.tail {todo todo' : List Act} (h : TodoChange todo todo')
    (htail : ∀ a ∈ todo.tail, a.isPlain = true) : ∀ a ∈ todo'.tail, a.isPlain = true := by
  cases h with
  | same => exact htail
  | ended a todo => exact fun b hb => htail b (List.mem_of_mem_tail hb)
  | dispatched callbacks =>
    intro a hmem
    obtain ⟨callback, _, rfl⟩ := List.mem_map.mp (List.mem_of_mem_tail hmem)
    rfl
  | entered => simp
  | taken => simp
  | called functor todo _ huser =>
    rcases huser with rfl | ⟨rest, rfl⟩
    · simp
    · intro a hmem
      rcases List.mem_cons.mp hmem with rfl | hmem
      · rfl
      · exact htail a hmem

/-- The acts that only other acts leave. -/
def Act.isFollowUp : Act → Bool
  | .call _ => false
  | .callback _ => false
  | .drained => true
  | .disconnect => true
  | .remove => true
  | .queue _ => true
  | .user => false
  | .closeCallback_ => true
  | .removeConnection => false

theorem TodoChange.count_eq {todo todo' : List Act} (h : TodoChange todo todo') {a : Act}
    (ha : a.isFollowUp = true) : todo'.count a = todo.count a := by
  cases h with
  | same => rfl
  | ended b todo hb =>
    rw [List.count_cons_of_ne]
    rintro rfl
    rcases hb with rfl | rfl <;> cases ha
  | dispatched callbacks =>
    rw [List.count_nil, List.count_eq_zero]
    intro hmem
    obtain ⟨callback, _, rfl⟩ := List.mem_map.mp hmem
    cases ha
  | entered =>
    rw [List.count_nil, List.count_eq_zero, List.mem_singleton]
    rintro rfl
    cases ha
  | taken functor =>
    rw [List.count_nil, List.count_eq_zero, List.mem_singleton]
    rintro rfl
    cases ha
  | called functor todo =>
    rw [List.count_cons_of_ne]
    rintro rfl
    cases ha

theorem TodoChange.mem_iff {todo todo' : List Act} (h : TodoChange todo todo') {a : Act}
    (ha : a.isFollowUp = true) : a ∈ todo' ↔ a ∈ todo := by
  rw [← List.count_pos_iff, ← List.count_pos_iff, h.count_eq ha]

theorem Settled.of_queue {s t : System T} (h : Settled s) (tasks : List Task)
    (htodo : .call .connectEstablished ∈ t.todo → .call .connectEstablished ∈ s.todo)
    (hqueue : t.thread.queue = s.thread.queue ++ tasks) (htasks : .connection .connectEstablished ∉ tasks)
    (hcallers : ∀ caller, t.callers caller = s.callers caller ∨
      t.callers caller ≠ .queueing .connectEstablished) : Settled t := by
  refine ⟨fun hmem => h.todo (htodo hmem), ?_, ?_⟩
  · rw [hqueue, List.mem_append, not_or]
    exact ⟨h.queue, htasks⟩
  · intro caller
    rcases hcallers caller with heq | hne
    · rw [heq]
      exact h.callers caller
    · exact hne

theorem Settled.update [DecidableEq T] {s : System T} {caller : T} {call : Caller}
    (hcall : call ≠ .queueing .connectEstablished) (other : T) :
    Function.update s.callers caller call other = s.callers other ∨
      Function.update s.callers caller call other ≠ .queueing .connectEstablished := by
  by_cases hother : other = caller
  · subst other
    exact .inr (by simpa using hcall)
  · exact .inl (by simp [hother])

theorem Settled.step [DecidableEq T] {alloc : Nat → Bool} {sameLoop : Bool} {s t : System T} {i : Input T}
    (h : Settled s) (hrequeue : ∀ functor, .queue functor ∈ s.todo → functor.isResend = true)
    (hstep : s.step alloc sameLoop i = some t) : Settled t := by
  have hsame {t : System T} (htodo : .call .connectEstablished ∈ t.todo → .call .connectEstablished ∈ s.todo)
      (hqueue : t.thread.queue = s.thread.queue) (hcallers : t.callers = s.callers) : Settled t :=
    h.of_queue [] htodo (by simpa using hqueue) (by simp) (fun caller => .inl (by rw [hcallers]))
  cases System.stepped hstep with
  | advance a revents thread _ _ hadvance =>
    rcases LoopThread.queue_advance hadvance with ⟨hqueue, hidle⟩ | ⟨task, rest, hqueue, hrunning⟩
    · refine hsame (fun hmem => ?_) hqueue rfl
      simp only [System.body] at hmem
      split at hmem <;> simp_all
    · have hne : task ≠ .connection .connectEstablished := fun heq => h.queue (by rw [hqueue, heq]; simp)
      have hrest : .connection .connectEstablished ∉ thread.queue := fun hmem =>
        h.queue (by rw [hqueue]; exact List.mem_cons_of_mem _ hmem)
      refine ⟨?_, hrest, h.callers⟩
      simp only [hrunning, System.body]
      cases task with
      | connection functor => simpa [eq_comm] using hne
      | other => simp
  | removeConnection _ _ rest htodo =>
    have hrest (hmem : .call .connectEstablished ∈ rest) : .call .connectEstablished ∈ s.todo := by
      rw [htodo]
      exact List.mem_cons_of_mem _ hmem
    unfold System.removeConnection
    split
    · exact h.of_queue _ hrest (queue_queueInLoop s true _) (by simp) (fun _ => .inl rfl)
    · exact hsame hrest rfl rfl
  | act _ _ a rest w more htodo hact =>
    have hleaves := (World.act_turn hact).leaves
    refine h.of_queue _ ?_ (queue_resume s w _) ?_ (fun _ => .inl rfl)
    · intro hmem
      rcases List.mem_append.mp hmem with hmem | hmem
      · exact absurd hmem (hleaves.call _)
      · rw [htodo]
        exact List.mem_cons_of_mem _ hmem
    · exact hleaves.not_mem_queued rfl rfl rfl fun functor hqueue => hrequeue functor (by rw [htodo, hqueue]; simp)
  | ownCall call =>
    cases call <;> simp only [World.ownCall] <;> split <;>
      exact h.of_queue _ (by simp [System.resume]) (queue_resume s _ _)
        (by simp [System.world, World.emit, World.setState])
        (fun _ => .inl rfl)
  | ownRetrieve => exact hsame id rfl rfl
  | userReturns rest htodo =>
    refine hsame (fun hmem => ?_) rfl rfl
    rw [htodo]
    exact List.mem_cons_of_mem _ hmem
  | load caller call =>
    unfold System.load
    split
    · cases call <;> exact h.of_queue [] id (by simp) (by simp) (Settled.update (by simp))
    · exact h
  | store caller => exact h.of_queue [] id (by simp [System.store]) (by simp) (Settled.update (by simp))
  | push caller functor hcaller =>
    refine h.of_queue _ id (queue_queueInLoop s false _) ?_ (Settled.update (by simp))
    intro hmem
    cases List.mem_singleton.mp hmem
    exact h.callers caller hcaller
  | queueOther | removeConnectionInLoop | sweepThere =>
    exact h.of_queue _ id (queue_queueInLoop s false _) (by simp) (fun _ => .inl rfl)
  | ownQueue => exact h.of_queue _ id (queue_queueInLoop s true _) (by simp) (fun _ => .inl rfl)
  | quit isInLoopThread => exact hsame id (by simp [LoopThread.queue, EventLoop.quit]; split <;> rfl) rfl
  | sweepHere => exact hsame (by simp) rfl rfl

/-- Each step keeps acts and functors in order. -/
theorem Orderly.step [DecidableEq T] {alloc : Nat → Bool} {sameLoop : Bool} {s t : System T} {i : Input T}
    (h : Orderly s) (hstep : s.step alloc sameLoop i = some t) : Orderly t := by
  obtain ⟨htail, hrequeue, hsettled⟩ := h
  have hsettled' := hsettled.step hrequeue hstep
  cases step_control hstep with
  | quiet _ _ _ _ _ _ _ htodo _ =>
    exact ⟨htodo.tail htail, fun functor hmem => hrequeue functor ((htodo.mem_iff rfl).mp hmem), hsettled'⟩
  | shut _ _ _ _ _ htodo _ _ =>
    exact ⟨htodo.tail htail, fun functor hmem => hrequeue functor ((htodo.mem_iff rfl).mp hmem), hsettled'⟩
  | act received written a rest w next htodo hact =>
    have hleaves := (World.act_turn hact).leaves
    rw [htodo] at htail
    refine ⟨?_, ?_, hsettled'⟩
    · intro b hmem
      have hmem' : b ∈ next.tail ∨ b ∈ rest := by
        cases next with
        | nil => exact .inr (List.mem_of_mem_tail hmem)
        | cons first more => exact List.mem_append.mp hmem
      rcases hmem' with hmem' | hmem'
      · exact hleaves.tail b hmem'
      · exact htail b hmem'
    · intro functor hmem
      rcases List.mem_append.mp hmem with hmem | hmem
      · exact hleaves.queue functor hmem
      · cases htail _ hmem

end muduo.tcp_connection
