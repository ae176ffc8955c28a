import Muduo.TcpConnection.Stream
import Muduo.TcpConnection.Control

open transition record
open muduo.kernel muduo.buffer muduo.epoll muduo.event_loop

namespace muduo.tcp_connection

variable {T : Type}

/-- What a call asks of the connection's own thread. -/
inductive Request where
  | send (data : Text)
  | shutdown
  deriving DecidableEq

def Request.payload : Request → List UInt8
  | .send data => data.chars
  | .shutdown => []

def Functor.requests : Functor → List Request
  | .sendInLoop data => [.send data]
  | .shutdownInLoop => [.shutdown]
  | _ => []

def Act.requests : Act → List Request
  | .call functor => functor.requests
  | _ => []

def Task.requests : Task → List Request
  | .connection functor => functor.requests
  | .other => []

def Caller.requests : Caller → List Request
  | .queueing functor => functor.requests
  | _ => []

/-- The requests in flight of the only caller, another thread or the loop's own one:
those being served, those queued, and the one about to be queued. -/
def System.flight (caller : Option T) (s : System T) : List Request :=
  s.todo.flatMap Act.requests ++ s.thread.queue.flatMap Task.requests ++
    caller.elim [] fun t => (s.callers t).requests

/-- The functors of a connection that only sends and shuts down. -/
def Functor.isCalm : Functor → Bool
  | .connectEstablished => false
  | .connectDestroyed => false
  | .sendInLoop _ => true
  | .sendFileInLoop _ _ _ => false
  | .shutdownInLoop => true
  | .writeCompleteCallback_ => true
  | .highWaterMarkCallback_ _ => true

/-- The acts of a connection that only sends, shuts down, and serves its channel. -/
def Act.isCalm : Act → Bool
  | .call functor => functor.isCalm
  | .callback _ => true
  | .drained => true
  | .disconnect => false
  | .remove => false
  | .queue _ => false
  | .user => true
  | .closeCallback_ => false
  | .removeConnection => false

theorem requests_of_isNotice {functor : Functor} (h : functor.isNotice = true) :
    functor.requests = [] ∧ functor.isCalm = true := by
  cases functor <;> first | exact ⟨rfl, rfl⟩ | cases h

/-- What an act does that neither closes nor tears down. -/
inductive CalmTurn (alloc : Nat → Bool) (written : Written) (w : World) : Act → World → List Act → Prop where
  | sendInLoop (data : Text) (w' : World) (hsend : w.sendInLoop alloc data written = some w') :
      CalmTurn alloc written w (.call (.sendInLoop data)) w' []
  | shutdownInLoop : CalmTurn alloc written w (.call .shutdownInLoop) w.shutdownInLoop []
  | drained : CalmTurn alloc written w .drained w.drained []
  | handleWrite (w' : World) (next : List Act) (hwrite : w.handleWrite written = some (w', next)) :
      CalmTurn alloc written w (.callback .writeCallback_) w' next
  | quiet (a : Act) (w' : World) (next : List Act) (ha : a.requests = [] ∧ a ≠ .drained)
      (hstate : w'.conn.state_ = w.conn.state_) (hbuffer : w'.conn.outputBuffer_ = w.conn.outputBuffer_)
      (hchannel : w'.conn.channel_ = w.conn.channel_)
      (hlog : w'.log = w.log ∨ w'.log = w.log ++ [.messageCallback_]) (hnext : next = [] ∨ next = [.user]) :
      CalmTurn alloc written w a w' next

theorem World.calm_turn {alloc : Nat → Bool} {received : Received} {written : Written} {w w' : World} {a : Act}
    {next : List Act} (h : w.act alloc received written a = some (w', next)) (hcalm : a.isCalm = true)
    (hcloses : a.closes received = false) : CalmTurn alloc written w a w' next := by
  cases a with
  | call functor =>
    cases functor with
    | sendInLoop data =>
      obtain ⟨sent, hsend, heq⟩ := Option.map_eq_some_iff.mp h
      cases heq
      exact .sendInLoop data _ hsend
    | shutdownInLoop =>
      cases h
      exact .shutdownInLoop
    | writeCompleteCallback_ | highWaterMarkCallback_ =>
      cases h
      exact .quiet _ _ _ ⟨rfl, by simp⟩ rfl rfl rfl (.inl rfl) (.inr rfl)
    | connectEstablished | connectDestroyed | sendFileInLoop => cases hcalm
  | callback callback =>
    cases callback with
    | closeCallback_ => cases hcloses
    | errorCallback_ =>
      cases h
      exact .quiet _ _ _ ⟨rfl, by simp⟩ rfl rfl rfl (.inl rfl) (.inl rfl)
    | readCallback_ =>
      rcases World.handleRead_cases h with ⟨inputBuffer_, rfl, rfl⟩ |
        ⟨bytes, inputBuffer_, rfl, ⟨rfl, _⟩ | ⟨_, rfl, rfl⟩⟩
      · exact .quiet _ _ _ ⟨rfl, by simp⟩ rfl rfl rfl (.inl rfl) (.inl rfl)
      · simp [Act.closes] at hcloses
      · exact .quiet _ _ _ ⟨rfl, by simp⟩ rfl rfl rfl (.inr rfl) (.inr rfl)
    | writeCallback_ => exact .handleWrite w' next h
  | drained =>
    cases h
    exact .drained
  | user => cases h
  | disconnect | remove | queue | closeCallback_ | removeConnection => cases hcalm

theorem CalmTurn.isCalm {alloc : Nat → Bool} {written : Written} {w w' : World} {a : Act} {next : List Act}
    (h : CalmTurn alloc written w a w' next) : ∀ b ∈ next, b.isCalm = true := by
  cases h with
  | sendInLoop => simp
  | shutdownInLoop => simp
  | drained => simp
  | handleWrite _ _ hwrite =>
    rcases World.next_handleWrite hwrite with rfl | rfl
    · simp
    · simp [Act.isCalm]
  | quiet _ _ _ _ _ _ _ _ hnext =>
    rcases hnext with rfl | rfl
    · simp
    · simp [Act.isCalm]

def Call.isFile : Call → Bool
  | .sendFile _ _ _ => true
  | _ => false

/-- Whether a step belongs to a run in which one caller sends and shuts down, nobody
closes or destroys the connection, and no write fails for good. -/
def System.graceful [DecidableEq T] (caller : Option T) (s : System T) : Input T → Bool
  | .act received written => !written.isFatal && s.todo.head?.all fun a => !a.closes received
  | .ownCall call => caller.isNone && !call.isFile
  | .load t call => decide (caller = some t) && !call.isFile
  | .removeConnectionInLoop => false
  | .destroyServer => false
  | _ => true

def Graceful [DecidableEq T] (caller : Option T) (s : System T) (i : Input T) : Prop :=
  s.graceful caller i = true

instance [DecidableEq T] (caller : Option T) (s : System T) (i : Input T) : Decidable (Graceful caller s i) :=
  inferInstanceAs (Decidable (s.graceful caller i = true))

/-- What holds of the calls on a connection that has one caller. -/
structure Alone (caller : Option T) (s : System T) : Prop where
  orderly : Orderly s
  todo : ∀ a ∈ s.todo, a.isCalm = true
  queue : ∀ functor, .connection functor ∈ s.thread.queue → functor.isCalm = true
  others : ∀ t, caller ≠ some t → s.callers t = .outside
  calls : ∀ t functor, s.callers t = .queueing functor → functor.isCalm = true
  own : caller = none → s.thread.queue.flatMap Task.requests = []

theorem Alone.of_queue {caller : Option T} {s t : System T} (h : Alone caller s) (horderly : Orderly t)
    (tasks : List Task) (htodo : ∀ a ∈ t.todo, a.isCalm = true) (hqueue : t.thread.queue = s.thread.queue ++ tasks)
    (htasks : ∀ functor, .connection functor ∈ tasks → functor.isCalm = true)
    (hown : caller = none → tasks.flatMap Task.requests = [])
    (hcallers : ∀ other, t.callers other = s.callers other ∨
      caller = some other ∧ ∀ functor, t.callers other = .queueing functor → functor.isCalm = true) :
    Alone caller t := by
  refine ⟨horderly, htodo, ?_, ?_, ?_, ?_⟩
  · intro functor hmem
    rw [hqueue] at hmem
    rcases List.mem_append.mp hmem with hmem | hmem
    · exact h.queue functor hmem
    · exact htasks functor hmem
  · intro other hother
    rcases hcallers other with heq | ⟨heq, _⟩
    · rw [heq]
      exact h.others other hother
    · exact absurd heq hother
  · intro other functor hcall
    rcases hcallers other with heq | ⟨_, hcalm⟩
    · exact h.calls other functor (heq ▸ hcall)
    · exact hcalm functor hcall
  · intro hnone
    rw [hqueue, List.flatMap_append, h.own hnone, hown hnone, List.append_nil]

/-- What a step does to the requests in flight: they stay as they are, an act serves
the first one, or the caller makes one more. -/
inductive Flow (alloc : Nat → Bool) (caller : Option T) (s : System T) : Input T → System T → Prop where
  | quiet (i : Input T) (t : System T) (hstate : t.conn.state_ = s.conn.state_)
      (hbuffer : t.conn.outputBuffer_ = s.conn.outputBuffer_)
      (hwriting : t.conn.channel_.isWriting = s.conn.channel_.isWriting) (hlog : t.log = s.log)
      (hflight : t.flight caller = s.flight caller) : Flow alloc caller s i t
  | act (received : Received) (written : Written) (a : Act) (rest : List Act) (w : World) (next : List Act)
      (htodo : s.todo = a :: rest) (hturn : CalmTurn alloc written s.world a w next)
      (hflight : s.flight caller = a.requests ++ (s.resume w (next ++ rest)).flight caller) :
      Flow alloc caller s (.act received written) (s.resume w (next ++ rest))
  | send (i : Input T) (t : System T) (data : Text) (hconnected : s.conn.state_ = .kConnected)
      (hconn : t.conn = s.conn) (hlog : t.log = s.log ++ [.send data])
      (hflight : t.flight caller = s.flight caller ++ [.send data]) : Flow alloc caller s i t
  | shut (i : Input T) (t : System T) (hconn : t.conn = { s.conn with state_ := .kDisconnecting })
      (hlog : t.log = s.log ++ [.setState .kDisconnecting])
      (hflight : t.flight caller = s.flight caller ++ [.shutdown]) : Flow alloc caller s i t

theorem requests_of_isPlain {acts : List Act} (h : ∀ a ∈ acts, a.isPlain = true) :
    acts.flatMap Act.requests = [] := by
  apply List.flatMap_eq_nil_iff.mpr
  intro a hmem
  have hplain := h a hmem
  cases a <;> first | rfl | cases hplain

/-- While user code runs on the loop's thread, no request is being served. -/
theorem Alone.requests_of_userRuns {caller : Option T} {s : System T} (h : Alone caller s)
    (huser : s.userRuns = true) : s.todo.flatMap Act.requests = [] := by
  rcases userRuns_todo huser with htodo | ⟨rest, htodo⟩
  · rw [htodo]
    rfl
  · have htail := h.orderly.tail
    rw [htodo] at htail
    rw [htodo, List.flatMap_cons]
    exact requests_of_isPlain htail

/-- The loop's own thread has no other requests in flight when it makes one. -/
theorem Alone.flight_of_userRuns {s : System T} (h : Alone none s) (huser : s.userRuns = true) :
    s.flight none = [] := by
  rw [System.flight, h.requests_of_userRuns huser, h.own rfl]
  rfl

/-- The loop's thread enters a body that is not a functor. -/
theorem body_of_not_running (conn : TcpConnection) {at_ : Location Task Handler}
    (hidle : ∀ functor functors, at_ ≠ .running functor functors) :
    ∀ a ∈ System.body conn at_, a.isCalm = true ∧ a.requests = [] := by
  unfold System.body
  split
  · intro a hmem
    obtain ⟨callback, _, rfl⟩ := List.mem_map.mp hmem
    exact ⟨rfl, rfl⟩
  · simp [Act.isCalm, Act.requests]
  · exact absurd rfl (hidle _ _)
  · exact absurd rfl (hidle _ _)
  · simp

theorem polled_same (conn : TcpConnection) (a : Advance Handler) (revents : Mask) :
    (System.polled conn a revents).state_ = conn.state_ ∧
    (System.polled conn a revents).outputBuffer_ = conn.outputBuffer_ ∧
    (System.polled conn a revents).channel_.isWriting = conn.channel_.isWriting := by
  unfold System.polled
  split <;> exact ⟨rfl, rfl, rfl⟩

/-- The loop's thread between bodies takes the request in front of the queue, if any. -/
theorem Alone.advance [DecidableEq T] {alloc : Nat → Bool} {sameLoop : Bool} {caller : Option T} {s t : System T}
    {a : Advance Handler} {revents : Mask} (h : Alone caller s) (horderly : Orderly t)
    (hstep : s.step alloc sameLoop (.advance a revents) = some t) :
    Alone caller t ∧ Flow alloc caller s (.advance a revents) t := by
  cases System.stepped hstep with
  | advance _ _ thread hidle _ hadvance =>
    obtain ⟨hstate, hbuffer, hwriting⟩ := polled_same s.conn a revents
    rcases LoopThread.queue_advance hadvance with ⟨hqueue, hnot⟩ | ⟨task, rest, hqueue, hrunning⟩
    · have hbody := body_of_not_running (System.polled s.conn a revents) hnot
      refine ⟨h.of_queue horderly [] (fun b hmem => (hbody b hmem).1) (by simpa using hqueue) (by simp)
        (fun _ => rfl) (fun _ => .inl rfl), .quiet _ _ hstate hbuffer hwriting rfl ?_⟩
      have hnone : (System.body (System.polled s.conn a revents) thread.at_).flatMap Act.requests = [] :=
        List.flatMap_eq_nil_iff.mpr fun b hmem => (hbody b hmem).2
      simp only [System.flight, hidle, hqueue, hnone]
      rfl
    · have hbody : ∀ b ∈ System.body (System.polled s.conn a revents) thread.at_, b.isCalm = true := by
        rw [hrunning]
        cases task with
        | connection functor => simpa [System.body, Act.isCalm] using h.queue functor (by rw [hqueue]; simp)
        | other => simp [System.body, Act.isCalm]
      have hrequests : (System.body (System.polled s.conn a revents) thread.at_).flatMap Act.requests =
          task.requests := by
        rw [hrunning]
        cases task with
        | connection functor => simp [System.body, Act.requests, Task.requests]
        | other => simp [System.body, Act.requests, Task.requests]
      refine ⟨⟨horderly, hbody, ?_, h.others, h.calls, ?_⟩, .quiet _ _ hstate hbuffer hwriting rfl ?_⟩
      · intro functor hmem
        exact h.queue functor (by rw [hqueue]; exact List.mem_cons_of_mem _ hmem)
      · intro hnone
        have hown := h.own hnone
        rw [hqueue, List.flatMap_cons] at hown
        exact (List.append_eq_nil_iff.mp hown).2
      · simp only [System.flight, hidle, hqueue, hrequests, List.flatMap_nil, List.nil_append,
          List.flatMap_cons]

/-- An act on the loop's thread serves a request, or none. -/
theorem Alone.act [DecidableEq T] {alloc : Nat → Bool} {sameLoop : Bool} {caller : Option T} {s t : System T}
    {received : Received} {written : Written} (h : Alone caller s) (horderly : Orderly t)
    (hgraceful : Graceful caller s (.act received written))
    (hstep : s.step alloc sameLoop (.act received written) = some t) :
    Alone caller t ∧ Flow alloc caller s (.act received written) t := by
  cases System.stepped hstep with
  | removeConnection _ _ rest htodo =>
    have hcalm := h.todo .removeConnection (by rw [htodo]; simp)
    cases hcalm
  | act _ _ a rest w next htodo hact =>
    have hcalm := h.todo a (by rw [htodo]; simp)
    have hcloses : a.closes received = false := by
      simp only [Graceful, System.graceful, htodo, Bool.and_eq_true] at hgraceful
      simpa using hgraceful.2
    have hturn := World.calm_turn hact hcalm hcloses
    have hleaves := (World.act_turn hact).leaves
    obtain ⟨functors, hqueued, hkinds⟩ := hleaves.queued
    have hqueued' : w.queued = functors := hqueued
    have hnotices : ∀ functor ∈ functors, functor.isNotice = true := by
      intro functor hmem
      refine (hkinds functor hmem).resolve_right ?_
      rintro rfl
      cases hcalm
    have hqueue := queue_resume s w (next ++ rest)
    have hnone : (w.queued.map Task.connection).flatMap Task.requests = [] := by
      rw [List.flatMap_eq_nil_iff]
      intro task hmem
      obtain ⟨functor, hnotice, rfl⟩ := List.mem_map.mp hmem
      exact (requests_of_isNotice (hnotices functor (hqueued' ▸ hnotice))).1
    have hnext : next.flatMap Act.requests = [] := by
      rw [List.flatMap_eq_nil_iff]
      intro b hmem
      cases b with
      | call functor => exact absurd hmem (hleaves.call functor)
      | _ => rfl
    refine ⟨h.of_queue horderly _ ?_ hqueue ?_ (fun _ => hnone) (fun _ => .inl rfl),
      .act received written a rest w next htodo hturn ?_⟩
    · intro b hmem
      rcases List.mem_append.mp hmem with hmem | hmem
      · exact hturn.isCalm b hmem
      · exact h.todo b (by rw [htodo]; exact List.mem_cons_of_mem _ hmem)
    · intro functor hmem
      obtain ⟨notice, hnotice, heq⟩ := List.mem_map.mp hmem
      cases heq
      exact (requests_of_isNotice (hnotices _ (hqueued' ▸ hnotice))).2
    · simp only [System.flight, hqueue, htodo, List.flatMap_append, List.flatMap_cons, hnone, List.append_nil]
      simp [System.resume, hnext]

theorem flight_call {s : System T} (functor : Functor) (w : World) (hqueued : w.queued = []) :
    (s.resume w (.call functor :: s.todo)).flight none = functor.requests ++ s.flight none := by
  rw [System.flight, queue_resume, hqueued, System.flight]
  simp [System.resume, Act.requests]

/-- A call of user code on the loop's thread, which runs the method at once. -/
theorem Alone.ownCall [DecidableEq T] {alloc : Nat → Bool} {sameLoop : Bool} {caller : Option T} {s t : System T}
    {call : Call} (h : Alone caller s) (horderly : Orderly t) (hgraceful : Graceful caller s (.ownCall call))
    (hstep : s.step alloc sameLoop (.ownCall call) = some t) :
    Alone caller t ∧ Flow alloc caller s (.ownCall call) t := by
  have hnone : caller = none := by
    simp only [Graceful, System.graceful, Bool.and_eq_true] at hgraceful
    simpa using hgraceful.1
  subst hnone
  cases System.stepped hstep with
  | ownCall _ huser =>
    have hempty := h.flight_of_userRuns huser
    have hcalled {w : World} {functor : Functor} (horderly : Orderly (s.resume w (.call functor :: s.todo)))
        (hcalm : functor.isCalm = true) (hqueued : w.queued = []) :
        Alone none (s.resume w (.call functor :: s.todo)) := by
      refine h.of_queue horderly [] ?_ (by rw [queue_resume, hqueued]; simp) (by simp) (fun _ => rfl)
        (fun _ => .inl rfl)
      intro b hmem
      rcases List.mem_cons.mp hmem with rfl | hmem
      · exact hcalm
      · exact h.todo b hmem
    have hsame (horderly : Orderly (s.resume s.world s.todo)) : Alone none (s.resume s.world s.todo) ∧
        Flow alloc none s (.ownCall call) (s.resume s.world s.todo) :=
      ⟨h.of_queue horderly [] h.todo (queue_resume s s.world _) (by simp) (fun _ => rfl) (fun _ => .inl rfl),
        .quiet _ _ rfl rfl rfl rfl rfl⟩
    cases call with
    | send buf =>
      by_cases hconnected : s.world.conn.connected = true
      · simp only [World.ownCall, hconnected, if_true] at horderly ⊢
        refine ⟨hcalled horderly rfl rfl, .send _ _ buf ?_ rfl rfl ?_⟩
        · simpa [System.world, TcpConnection.connected] using hconnected
        · exact (flight_call (.sendInLoop buf) _ rfl).trans (by rw [hempty]; rfl)
      · simp only [World.ownCall, hconnected] at horderly ⊢
        exact hsame horderly
    | sendFile => cases hgraceful
    | shutdown =>
      by_cases hconnected : s.world.conn.connected = true
      · simp only [World.ownCall, hconnected, if_true] at horderly ⊢
        refine ⟨hcalled horderly rfl rfl, .shut _ _ rfl rfl ?_⟩
        exact (flight_call .shutdownInLoop _ rfl).trans (by rw [hempty]; rfl)
      · simp only [World.ownCall, hconnected] at horderly ⊢
        exact hsame horderly

theorem flight_update [DecidableEq T] {s t : System T} {thread : T} (call : Caller) (htodo : t.todo = s.todo)
    (hqueue : t.thread.queue = s.thread.queue) (hcallers : t.callers = Function.update s.callers thread call)
    (hbefore : (s.callers thread).requests = []) :
    t.flight (some thread) = s.flight (some thread) ++ call.requests := by
  simp [System.flight, htodo, hqueue, hcallers, hbefore]

/-- A call that the only caller makes on another thread. -/
theorem Alone.update [DecidableEq T] {s t : System T} {thread : T} {call : Caller}
    (h : Alone (some thread) s) (horderly : Orderly t) (htodo : t.todo = s.todo)
    (hqueue : t.thread.queue = s.thread.queue) (hcallers : t.callers = Function.update s.callers thread call)
    (hcalm : ∀ functor, call = .queueing functor → functor.isCalm = true) : Alone (some thread) t := by
  refine h.of_queue horderly [] (by rw [htodo]; exact h.todo) (by simpa using hqueue) (by simp) (by simp) ?_
  intro other
  rw [hcallers]
  by_cases hother : other = thread
  · subst hother
    simpa using .inr hcalm
  · simp [hother]

/-- Each step of such a run keeps the calls in order and moves the requests. -/
theorem Alone.step [DecidableEq T] {alloc : Nat → Bool} {sameLoop : Bool} {caller : Option T} {s t : System T}
    {i : Input T} (h : Alone caller s) (hgraceful : Graceful caller s i)
    (hstep : s.step alloc sameLoop i = some t) : Alone caller t ∧ Flow alloc caller s i t := by
  have horderly := h.orderly.step hstep
  have hother {t : System T} (horderly : Orderly t) (htodo : t.todo = s.todo)
      (hqueue : ∃ n, t.thread.queue = s.thread.queue ++ List.replicate n .other) (hcallers : t.callers = s.callers)
      (hstate : t.conn.state_ = s.conn.state_) (hbuffer : t.conn.outputBuffer_ = s.conn.outputBuffer_)
      (hwriting : t.conn.channel_.isWriting = s.conn.channel_.isWriting) (hlog : t.log = s.log) :
      Alone caller t ∧ Flow alloc caller s i t := by
    obtain ⟨n, hqueue⟩ := hqueue
    have hnone : (List.replicate n Task.other).flatMap Task.requests = [] := by
      simp [List.flatMap_eq_nil_iff, Task.requests]
    refine ⟨h.of_queue horderly _ (by rw [htodo]; exact h.todo) hqueue (by simp) (fun _ => hnone)
      (fun _ => .inl (by rw [hcallers])), .quiet _ _ hstate hbuffer hwriting hlog ?_⟩
    simp only [System.flight, htodo, hqueue, hcallers, List.flatMap_append, hnone, List.append_nil]
  cases System.stepped hstep with
  | advance => exact h.advance horderly hstep
  | removeConnection | act => exact h.act horderly hgraceful hstep
  | ownCall => exact h.ownCall horderly hgraceful hstep
  | ownRetrieve => exact hother horderly rfl ⟨0, by simp⟩ rfl rfl rfl rfl rfl
  | ownQueue => exact hother horderly rfl ⟨1, queue_queueInLoop s true _⟩ rfl rfl rfl rfl rfl
  | queueOther => exact hother horderly rfl ⟨1, queue_queueInLoop s false _⟩ rfl rfl rfl rfl rfl
  | quit isInLoopThread =>
    refine hother horderly rfl ⟨0, ?_⟩ rfl rfl rfl rfl rfl
    simp only [LoopThread.queue, EventLoop.quit]
    split <;> simp
  | userReturns rest htodo =>
    refine ⟨h.of_queue horderly [] (fun b hmem => h.todo b (by rw [htodo]; exact List.mem_cons_of_mem _ hmem))
      (by simp) (by simp) (fun _ => rfl) (fun _ => .inl rfl), .quiet _ _ rfl rfl rfl rfl ?_⟩
    simp only [System.flight, htodo, List.flatMap_cons]
    rfl
  | load thread call houtside =>
    obtain ⟨hcaller, hcall⟩ : caller = some thread ∧ call.isFile = false := by
      simpa [Graceful, System.graceful] using hgraceful
    subst hcaller
    have hbefore : (s.callers thread).requests = [] := by rw [houtside]; rfl
    unfold System.load at horderly ⊢
    split at horderly
    · next hconnected =>
      rw [if_pos hconnected]
      have hstate : s.conn.state_ = .kConnected := by simpa [TcpConnection.connected] using hconnected
      cases call with
      | send buf =>
        exact ⟨h.update horderly rfl rfl rfl (by rintro _ ⟨⟩; rfl),
          .send _ _ buf hstate rfl rfl (flight_update (.queueing (.sendInLoop buf)) rfl rfl rfl hbefore)⟩
      | sendFile => cases hcall
      | shutdown =>
        refine ⟨h.update horderly rfl rfl rfl (by rintro _ ⟨⟩), .quiet _ _ rfl rfl rfl rfl ?_⟩
        refine (flight_update .storing ?_ ?_ ?_ hbefore).trans (List.append_nil _) <;> rfl
    · next hconnected =>
      rw [if_neg hconnected]
      exact hother horderly rfl ⟨0, by simp⟩ rfl rfl rfl rfl rfl
  | store thread hstoring =>
    have hcaller : caller = some thread := by
      by_contra hne
      rw [h.others thread hne] at hstoring
      cases hstoring
    subst hcaller
    have hbefore : (s.callers thread).requests = [] := by rw [hstoring]; rfl
    exact ⟨h.update horderly rfl rfl rfl (by rintro _ ⟨⟩; rfl),
      .shut _ _ rfl rfl (flight_update (.queueing .shutdownInLoop) rfl rfl rfl hbefore)⟩
  | push thread functor hqueueing =>
    have hcaller : caller = some thread := by
      by_contra hne
      rw [h.others thread hne] at hqueueing
      cases hqueueing
    subst hcaller
    have hqueue := queue_queueInLoop s false (.connection functor)
    refine ⟨h.of_queue horderly [.connection functor] h.todo hqueue ?_ (by simp) ?_,
      .quiet _ _ rfl rfl rfl rfl ?_⟩
    · intro other hmem
      cases List.mem_singleton.mp hmem
      exact h.calls thread functor hqueueing
    · intro other
      by_cases hother : other = thread
      · subst hother
        exact .inr ⟨rfl, by simp⟩
      · exact .inl (by simp [hother])
    · simp only [System.flight] at hqueue ⊢
      rw [hqueue]
      simp [Caller.requests, Task.requests, hqueueing, System.queueInLoop]
  | removeConnectionInLoop | sweepHere | sweepThere => cases hgraceful

end muduo.tcp_connection
