import Muduo.TcpConnection.Alone
import Muduo.TcpServer.View

open transition
open muduo.kernel muduo.buffer muduo.epoll muduo.event_loop
open muduo.tcp_connection (Act Functor Event TcpConnection World Turn System)

namespace muduo.tcp_server

variable {L : Type} [DecidableEq L]

/-- The threads after a functor has been queued on a loop. -/
def push (isInLoopThread : Bool) (l : L) (threads : L → LoopThread Task Handler) (task : Task) :
    L → LoopThread Task Handler :=
  Function.update threads l { threads l with loop := (threads l).loop.queueInLoop isInLoopThread task }

/-- Only the loop that the functors are queued on changes. -/
theorem foldl_push (isInLoopThread : Bool) (l : L) (threads : L → LoopThread Task Handler) (tasks : List Task) :
    tasks.foldl (push isInLoopThread l) threads = Function.update threads l { threads l with
      loop := tasks.foldl (fun loop task => loop.queueInLoop isInLoopThread task) (threads l).loop } := by
  induction tasks generalizing threads with
  | nil => exact (Function.update_eq_self l threads).symm
  | cons task tasks ih =>
    rw [List.foldl_cons, ih, push, Function.update_idem, Function.update_self]
    rfl

theorem threads_queueAll (s : TcpServer L) (isInLoopThread : Bool) (l : L) (conn : Nat) (functors : List Functor) :
    (functors.foldl (fun s functor => s.queueInLoop isInLoopThread l (.connection conn functor)) s).threads =
      (functors.map (.connection conn)).foldl (push isInLoopThread l) s.threads := by
  induction functors generalizing s with
  | nil => rfl
  | cons functor functors ih => exact ih _

theorem threads_resume (s : TcpServer L) (l : L) (conn : Nat) (object : Object L) (w : World) (todo : List Job) :
    (s.resume l conn object w todo).threads =
      (w.queued.map (.connection conn)).foldl (push (decide (l = object.loop_)) object.loop_) s.threads :=
  threads_queueAll _ _ _ _ _

theorem loop_foldl_map {F G : Type} (f : F → G) (isInLoopThread : Bool) (loop : EventLoop F) (tasks : List F) :
    (tasks.foldl (fun loop task => loop.queueInLoop isInLoopThread task) loop).map f =
      (tasks.map f).foldl (fun loop task => loop.queueInLoop isInLoopThread task) (loop.map f) := by
  induction tasks generalizing loop with
  | nil => rfl
  | cons task tasks ih => rw [List.foldl_cons, ih, EventLoop.map_queueInLoop, List.map_cons, List.foldl_cons]

/-- A loop's thread on which functors have been queued, as a connection sees it. -/
theorem view_foldl_push (conn : Nat) (isInLoopThread : Bool) (target : L) (threads : L → LoopThread Task Handler)
    (tasks : List Task) (l : L) :
    (tasks.foldl (push isInLoopThread target) threads l).view (Task.view conn) (Handler.view conn) = if l = target then
      { (threads l).view (Task.view conn) (Handler.view conn) with
        loop := (tasks.map (Task.view conn)).foldl (fun loop task => loop.queueInLoop isInLoopThread task)
          ((threads l).view (Task.view conn) (Handler.view conn)).loop }
    else (threads l).view (Task.view conn) (Handler.view conn) := by
  rw [foldl_push]
  by_cases hl : l = target
  · subst hl
    rw [Function.update_self, if_pos rfl]
    simp only [LoopThread.view, loop_foldl_map]
  · rw [Function.update_of_ne hl, if_neg hl]

/-- A step on one thread that works on other connections, or on none. -/
structure Foreign (conn : Nat) (s t : TcpServer L) (l : L) (done new : List Job) (isInLoopThread : Bool)
    (target : L) (tasks : List Task) : Prop where
  works : Works s t l done new target tasks
  threads : t.threads = tasks.foldl (push isInLoopThread target) s.threads
  inside : isInLoopThread = true → target = l
  done_foreign : ∀ job ∈ done, job.owns conn = false
  new_foreign : ∀ job ∈ new, job.owns conn = false
  tasks_foreign : ∀ task ∈ tasks, task.entry.owns conn = false

omit [DecidableEq L] in
/-- A loop's thread has no dispatch of a connection before it that it does not await. -/
theorem due_view_eq_zero {conn : Nat} {at_ : Location Task Handler} (h : ¬ Awaits (.connection conn) at_) :
    tcp_connection.due (at_.view (Task.view conn) (Handler.view conn)) = 0 := by
  have hnone {activeChannels : List (Ready Handler)} (hnot : .channel (.connection conn) ∉ activeChannels) :
      (activeChannels.map (Ready.map (Handler.view conn))).count (.channel .connection) = 0 := by
    rw [List.count_eq_zero, listed_view]
    exact hnot
  cases at_ with
  | dispatching activeChannels => exact hnone h
  | handling handler activeChannels => exact hnone fun hmem => h (.inr hmem)
  | outside | testing | polling | swapping | batch | running => rfl

/-- A connection of a server is where a connection on its own is. -/
structure Alike {T : Type} (s : TcpServer L) (conn : Nat) (object : Object L) (q : System T) : Prop where
  thread : q.thread = (s.threads object.loop_).view (Task.view conn) (Handler.view conn)
  todo : q.todo = view conn (isOutside (s.threads object.loop_).at_) (s.todos object.loop_)
  conn_eq : q.conn = object.conn
  log : q.log = object.log
  agrees : Agrees q.poller q.conn.channel_
  registered : q.registered = true ↔ s.connections_ object.name_ = some conn
  removals : object.loop_ ≠ s.loop_ → q.removals = (s.work s.loop_).count (.removeConnectionInLoop conn)
  unqueued : .removeConnectionInLoop conn ∉ (s.threads object.loop_).queue

/-- A connection object after `poll`, which stores the mask if it reports the channel. -/
def Object.polled (object : Object L) (conn : Nat) (a : Advance Handler) (revents : Nat → Mask) : Object L :=
  { object with conn := System.polled object.conn (a.map (Handler.view conn)) (revents conn) }

omit [DecidableEq L] in
theorem TcpServer.objects_polled {s : TcpServer L} {conn : Nat} {object : Object L}
    (hobject : s.objects conn = some object) (a : Advance Handler) (revents : Nat → Mask) :
    (s.polled a revents).objects conn = some (object.polled conn a revents) := by
  simp only [TcpServer.polled, hobject, Option.map_some, Object.polled, System.polled, reports_view]
  split <;> rfl

/-- Only `poll` on its own loop reports to a connection, and only while the kernel watches it. -/
theorem TcpServer.reported {s : TcpServer L} {l : L} {a : Advance Handler} {conn : Nat} {object : Object L}
    (hobject : s.objects conn = some object) (hmay : s.mayAdvance l a = true) (hreports : reports conn a = true) :
    object.loop_ = l ∧ ((s.pollers object.loop_).interest object.conn.channel_.fd_).isSome = true := by
  cases a with
  | poll activeChannels =>
    have hlisted : .channel (.connection conn) ∈ activeChannels := of_decide_eq_true hreports
    have hreportable := List.all_eq_true.mp hmay _ hlisted
    simp only [reportable, hobject, Option.any_some, Bool.and_eq_true, decide_eq_true_eq] at hreportable
    obtain ⟨rfl, hinterest⟩ := hreportable
    exact ⟨rfl, hinterest⟩
  | enter | test | dispatch | handled | beginFunctors | swap | take | returned | endFunctors => cases hreports

/-- Entering a body brings no removal. -/
theorem TcpServer.count_enter {s : TcpServer L} {l : L} {a : Advance Handler} {thread : LoopThread Task Handler}
    (hidle : s.todos l = []) (hadvance : (s.threads l).advance a = some thread) (revents : Nat → Mask) (conn : Nat)
    (m : L) : ((s.enter l a revents thread).work m).count (.removeConnectionInLoop conn) =
      (s.work m).count (.removeConnectionInLoop conn) := by
  obtain hsame | ⟨_, handler, activeChannels, hat, hmore⟩ := work_enter hidle hadvance revents m
  · rw [hsame]
  · obtain ⟨_, _, _, hnone⟩ := (s.polled a revents).body_handling handler activeChannels conn
    rw [hmore, hat, List.count_append, List.count_eq_zero.mpr hnone, Nat.zero_add]

theorem Works.count_eq {s t : TcpServer L} {l target : L} {done new : List Job} {tasks : List Task}
    (h : Works s t l done new target tasks) {job : Job} (hdone : job ∉ done) (hnew : job ∉ new)
    (htasks : ∀ task ∈ tasks, task.entry ≠ job) (m : L) : (t.work m).count job = (s.work m).count job := by
  have hfilter := h.filter_eq (· == job) (fun other hmem => ?_) (fun other hmem => ?_) (fun task hmem => ?_) m
  · simp only [List.count_eq_length_filter, hfilter]
  · exact beq_eq_false_iff_ne.mpr fun heq => hdone (heq ▸ hmem)
  · exact beq_eq_false_iff_ne.mpr fun heq => hnew (heq ▸ hmem)
  · exact beq_eq_false_iff_ne.mpr (htasks task hmem)

namespace Foreign

variable {s t : TcpServer L} {conn : Nat} {l target : L} {done new : List Job} {isInLoopThread : Bool}
  {tasks : List Task}

/-- The removal of the connection is neither done nor asked for. -/
theorem count_eq (h : Foreign conn s t l done new isInLoopThread target tasks) (m : L) :
    (t.work m).count (.removeConnectionInLoop conn) = (s.work m).count (.removeConnectionInLoop conn) := by
  have howns : (Job.removeConnectionInLoop conn).owns conn = true := beq_self_eq_true conn
  refine h.works.count_eq (fun hmem => ?_) (fun hmem => ?_) (fun task hmem heq => ?_) m
  · rw [h.done_foreign _ hmem] at howns
    cases howns
  · rw [h.new_foreign _ hmem] at howns
    cases howns
  · rw [← heq, h.tasks_foreign task hmem] at howns
    cases howns

/-- The body of the loop's thread as the connection sees it: unless user code returns, the
same as before. -/
theorem view_todo (h : Foreign conn s t l done new isInLoopThread target tasks)
    (huser : done = [] → new ≠ [] → s.userRuns l = true) (m : L) :
    view conn (isOutside (t.threads m).at_) (t.todos m) = view conn (isOutside (s.threads m).at_) (s.todos m) ∨
    view conn (isOutside (s.threads m).at_) (s.todos m) =
      .user :: view conn (isOutside (t.threads m).at_) (t.todos m) := by
  obtain ⟨rest, htodo, htodos⟩ := h.works.todos
  rw [h.works.at_, htodos]
  by_cases hm : m = l
  · subst hm
    have hbefore := view_append_of_none (isOutside (s.threads m).at_)
      (fun job hmem => Job.view_eq_none (h.done_foreign job hmem)) rest
    have hafter := view_append_of_none (isOutside (s.threads m).at_)
      (fun job hmem => Job.view_eq_none (h.new_foreign job hmem)) rest
    rw [Function.update_self, hafter, htodo, hbefore]
    by_cases hnew : new = []
    · rw [if_pos hnew]
      by_cases hdone : done = []
      · rw [if_pos hdone]
        exact .inl rfl
      · rw [if_neg hdone]
        exact (behind_cases _ _).imp Eq.symm id
    · rw [if_neg hnew]
      by_cases hdone : done = []
      · have hruns := behind_view_of_userRuns (huser hdone hnew) conn
        rw [htodo, hbefore, if_pos hdone] at hruns
        rw [if_pos hdone, hruns]
        exact .inl rfl
      · rw [if_neg hdone]
        exact .inl rfl
  · rw [Function.update_of_ne hm]
    exact .inl rfl

/-- Where functors are queued from inside, the connection sees user code. -/
theorem behind_todo (h : Foreign conn s t l done new isInLoopThread target tasks)
    (huser : done = [] → s.userRuns l = true) :
    behind (isOutside (s.threads l).at_) (view conn (isOutside (s.threads l).at_) (s.todos l)) =
      view conn (isOutside (s.threads l).at_) (s.todos l) := by
  by_cases hdone : done = []
  · exact behind_view_of_userRuns (huser hdone) conn
  · obtain ⟨rest, htodo, _⟩ := h.works.todos
    have hbefore := view_append_of_none (isOutside (s.threads l).at_)
      (fun job hmem => Job.view_eq_none (h.done_foreign job hmem)) rest
    rw [htodo, hbefore, if_neg hdone, behind_behind]

end Foreign

namespace Alike

variable {T : Type} {s t : TcpServer L} {conn : Nat} {object : Object L} {q : System T}

omit [DecidableEq L] in
/-- The connection on its own runs user code wherever the server works on something else. -/
theorem userRuns (h : Alike s conn object q)
    (hbehind : behind (isOutside (s.threads object.loop_).at_) q.todo = q.todo) : q.userRuns = true := by
  refine userRuns_of_behind hbehind.symm fun houtside => ?_
  rw [h.thread]
  refine Location.view_eq_outside_iff.mpr ?_
  cases hat : (s.threads object.loop_).at_ <;> first | rfl | (rw [hat] at houtside; cases houtside)

variable [DecidableEq T] {alloc : Nat → Bool} {sameLoop : Bool}
  {told : Advance tcp_connection.Handler → Mask → Prop}

/-- A step on other connections is user code, what other threads queue, or nothing. -/
theorem foreign {l target : L} {done new : List Job} {isInLoopThread : Bool} {tasks : List Task}
    (h : Alike s conn object q) (hforeign : Foreign conn s t l done new isInLoopThread target tasks)
    (hentry : t.connections_ object.name_ = some conn ↔ s.connections_ object.name_ = some conn)
    (huser : done = [] → new ≠ [] ∨ isInLoopThread = true → s.userRuns l = true) :
    ∃ q', (tcp_connection.lone T alloc sameLoop).Steps (tcp_connection.LeftAlone told) q q' ∧
      Alike t conn object q' := by
  have hother : ∀ task ∈ tasks.map (Task.view conn), task = .other := by
    intro task hmem
    obtain ⟨task, htask, rfl⟩ := List.mem_map.mp hmem
    exact Task.view_eq_other (hforeign.tasks_foreign task htask)
  have hruns : object.loop_ = target → isInLoopThread = true → q.userRuns = true := by
    rintro htarget hinside
    have hl : l = object.loop_ := (htarget.trans (hforeign.inside hinside)).symm
    subst hl
    have hbehind := hforeign.behind_todo fun hdone => huser hdone (.inr hinside)
    rw [← h.todo] at hbehind
    exact h.userRuns hbehind
  -- the functors are queued first, while user code can still queue them
  obtain ⟨queued, hqueued, hthread, htodo, hdata⟩ : ∃ queued : System T,
      (tcp_connection.lone T alloc sameLoop).Steps (tcp_connection.LeftAlone told) q queued ∧
      queued.thread = (t.threads object.loop_).view (Task.view conn) (Handler.view conn) ∧ queued.todo = q.todo ∧
      (queued.conn = q.conn ∧ queued.poller = q.poller ∧ queued.log = q.log ∧ queued.registered = q.registered ∧
        queued.removals = q.removals) := by
    by_cases htarget : object.loop_ = target
    · refine ⟨q.queueAll isInLoopThread (tasks.map (Task.view conn)),
        System.steps_queueAll hother q (hruns htarget), ?_, rfl, rfl, rfl, rfl, rfl, rfl⟩
      rw [hforeign.threads, view_foldl_push, if_pos htarget, System.queueAll, h.thread]
    · refine ⟨q, Machine.Steps.refl _ _ _, ?_, rfl, rfl, rfl, rfl, rfl, rfl⟩
      rw [hforeign.threads, view_foldl_push, if_neg htarget, h.thread]
  obtain ⟨hconn, hpoller, hlog, hregistered, hremovals⟩ := hdata
  have hunqueued : .removeConnectionInLoop conn ∉ (t.threads object.loop_).queue := by
    rw [hforeign.works.queue]
    intro hmem
    rcases List.mem_append.mp hmem with hmem | hmem
    · exact h.unqueued hmem
    · split at hmem
      · have hnot := hforeign.tasks_foreign _ hmem
        simp [Task.entry, Job.owns] at hnot
      · cases hmem
  have halike {q' : System T} (hthread' : q'.thread = queued.thread)
      (htodo' : q'.todo = view conn (isOutside (t.threads object.loop_).at_) (t.todos object.loop_))
      (hconn' : q'.conn = queued.conn) (hpoller' : q'.poller = queued.poller) (hlog' : q'.log = queued.log)
      (hregistered' : q'.registered = queued.registered) (hremovals' : q'.removals = queued.removals) :
      Alike t conn object q' := by
    refine ⟨hthread'.trans hthread, htodo', (hconn'.trans hconn).trans h.conn_eq, (hlog'.trans hlog).trans h.log, ?_,
      ?_, fun hloop => ?_, hunqueued⟩
    · rw [hconn', hconn, hpoller', hpoller]
      exact h.agrees
    · rw [hregistered', hregistered, hentry]
      exact h.registered
    · rw [hremovals', hremovals, hforeign.works.loop_, hforeign.count_eq]
      refine h.removals ?_
      rw [← hforeign.works.loop_]
      exact hloop
  obtain hsame | hreturns := hforeign.view_todo (fun hdone hnew => huser hdone (.inl hnew)) object.loop_
  · exact ⟨queued, hqueued, halike rfl (htodo.trans (h.todo.trans hsame.symm)) rfl rfl rfl rfl rfl⟩
  · rw [← h.todo, ← htodo] at hreturns
    refine ⟨{ queued with todo := view conn (isOutside (t.threads object.loop_).at_) (t.todos object.loop_) },
      hqueued.tail (i := .system .userReturns) trivial ?_, halike rfl rfl rfl rfl rfl rfl rfl⟩
    simp only [tcp_connection.lone, tcp_connection.System.step, hreturns]

omit [DecidableEq T] in
/-- Its own code works on a connection. -/
theorem resumed {w v : World} {done rest : List Job} (h : Alike s conn object q)
    (htodo : s.todos object.loop_ = done ++ rest) (hdone : .removeConnectionInLoop conn ∉ done)
    (htwin : tcp_connection.Twin w v) (hagrees : Agrees v.poller v.conn.channel_) (acts : List Act) :
    Alike (s.resume object.loop_ conn object w (acts.map (.connection conn) ++ rest)) conn
      { object with conn := w.conn, log := w.log }
      (q.resume v (acts ++ view conn (isOutside (s.threads object.loop_).at_) rest)) := by
  have hworks := TcpServer.works_resume htodo conn object w (acts.map (.connection conn))
  have hdata := TcpServer.sameData_resume s object.loop_ conn object w (acts.map (.connection conn) ++ rest)
  have hfunctors : (w.queued.map (Task.connection conn)).map (Task.view conn) = w.queued.map .connection := by
    simp [Task.view, Function.comp_def]
  refine ⟨?_, ?_, htwin.conn_eq, htwin.log_eq, hagrees, ?_, ?_, ?_⟩
  · have hview := view_foldl_push conn (decide (object.loop_ = object.loop_)) object.loop_ s.threads
      (w.queued.map (.connection conn)) object.loop_
    rw [← threads_resume s object.loop_ conn object w (acts.map (.connection conn) ++ rest), if_pos rfl, hfunctors,
      List.foldl_map, ← h.thread, decide_eq_true (rfl : object.loop_ = object.loop_)] at hview
    rw [hview, System.resume, htwin.queued_eq]
  · have htodos : (s.resume object.loop_ conn object w (acts.map (.connection conn) ++ rest)).todos =
        Function.update s.todos object.loop_ (acts.map (.connection conn) ++ rest) := by
      obtain ⟨behind, hbehind, htodos⟩ := hworks.todos
      rw [htodo] at hbehind
      rw [htodos, List.append_cancel_left hbehind]
    rw [hworks.at_, htodos, Function.update_self, view_map_append]
    rfl
  · rw [hdata.connections_]
    exact h.registered
  · intro hloop
    rw [hworks.loop_] at hloop ⊢
    rw [hworks.count_eq hdone (by simp) (by simp [Task.entry])]
    exact h.removals hloop
  · rw [hworks.queue, if_pos rfl]
    intro hmem
    rcases List.mem_append.mp hmem with hmem | hmem
    · exact h.unqueued hmem
    · simp at hmem

omit [DecidableEq L] [DecidableEq T] in
/-- Both work on the same world, but for the other channels of the poller. -/
theorem twin (h : Alike s conn object q) : tcp_connection.Twin (s.world object) q.world := by
  refine ⟨q.poller, ?_⟩
  simp only [System.world, TcpServer.world, h.conn_eq, h.log]

/-- The connection carries out an act. -/
theorem turned {received : Received} {written : Written} {a : Act} {rest : List Job} {w : World} {next : List Act}
    (h : Alike s conn object q) (htodo : s.todos object.loop_ = .connection conn a :: rest)
    (hact : (s.world object).act alloc received written a = some (w, next)) :
    ∃ q', (tcp_connection.lone T alloc sameLoop).Steps (tcp_connection.LeftAlone told) q q' ∧
      Alike (s.resume object.loop_ conn object w (next.map (.connection conn) ++ rest)) conn
        { object with conn := w.conn, log := w.log } q' := by
  obtain ⟨v, hv, htwin⟩ := (h.twin.act a).exists_eq hact
  have hview : q.todo = a :: view conn (isOutside (s.threads object.loop_).at_) rest := by
    rw [h.todo, htodo, view_cons_of_some (a := a) (by simp [Job.view])]
  have hhead : s.todos object.loop_ = [.connection conn a] ++ rest := htodo
  refine ⟨_, Machine.Steps.single (i := .system (.act received written)) trivial ?_,
    h.resumed hhead (by simp) htwin ((tcp_connection.World.act_turn hv).confined.agrees h.agrees) next⟩
  have hstep : q.act alloc sameLoop received written = (q.world.act alloc received written a).map fun turn =>
      q.resume turn.1 (turn.2 ++ view conn (isOutside (s.threads object.loop_).at_) rest) := by
    unfold System.act
    rw [hview]
    cases a <;> first | rfl | cases hact
  exact hstep.trans (by rw [hv, Option.map_some])

/-- User code calls a method of the connection. -/
theorem called {call : tcp_connection.Call} (h : Alike s conn object q) (huser : s.userRuns object.loop_ = true) :
    ∃ q', (tcp_connection.lone T alloc sameLoop).Steps (tcp_connection.LeftAlone told) q q' ∧
      Alike (s.resume object.loop_ conn object ((s.world object).ownCall call).1
        (((s.world object).ownCall call).2.map (.connection conn) ++ s.todos object.loop_)) conn
        { object with conn := ((s.world object).ownCall call).1.conn, log := ((s.world object).ownCall call).1.log }
        q' := by
  obtain ⟨htwin, hnext⟩ := h.twin.ownCall call
  obtain ⟨hchannel, hpoller, _⟩ := ownCall_spec q.world call
  have hruns : q.userRuns = true := h.userRuns (by rw [h.todo, behind_view_of_userRuns huser])
  refine ⟨_, Machine.Steps.single (i := .system (.ownCall call)) trivial (if_pos hruns), ?_⟩
  have hagrees : Agrees (q.world.ownCall call).1.poller (q.world.ownCall call).1.conn.channel_ := by
    rw [hchannel, hpoller]
    exact h.agrees
  have hresumed := h.resumed (List.nil_append _).symm (by simp) htwin hagrees ((s.world object).ownCall call).2
  rw [← hnext, ← h.todo] at hresumed
  rw [← hnext]
  exact hresumed

/-- The connection asks for its removal. On the base loop that goes on at once. -/
theorem asked {rest : List Job} (h : Alike s conn object q)
    (htodo : s.todos object.loop_ = .connection conn .removeConnection :: rest) :
    ∃ q', (tcp_connection.lone T alloc (decide (object.loop_ = s.loop_))).Steps (tcp_connection.LeftAlone told) q q' ∧
      Alike (s.removeConnection object.loop_ conn rest) conn object q' := by
  have hview : q.todo = .removeConnection :: view conn (isOutside (s.threads object.loop_).at_) rest := by
    rw [h.todo, htodo, view_cons_of_some (a := .removeConnection) (by simp [Job.view])]
  by_cases hbase : object.loop_ = s.loop_
  · refine ⟨q, Machine.Steps.refl _ _ _, ?_⟩
    rw [TcpServer.removeConnection, if_pos hbase]
    refine ⟨h.thread, ?_, h.conn_eq, h.log, h.agrees, h.registered, fun hloop => absurd hbase hloop, h.unqueued⟩
    simp only [TcpServer.setTodo, Function.update_self]
    rw [hview, view_cons_of_some (a := .removeConnection) (by simp [Job.view])]
  · refine ⟨q.removeConnection false (view conn (isOutside (s.threads object.loop_).at_) rest),
      Machine.Steps.single (i := .system (.act (.data []) (.bytes 0))) trivial ?_, ?_⟩
    · simp only [tcp_connection.lone, tcp_connection.System.step, System.act, hview, hbase, decide_false]
    · obtain ⟨new, tasks, hworks, ⟨hsame, _⟩ | ⟨rfl, rfl⟩⟩ := TcpServer.works_removeConnection htodo conn
      · exact absurd hsame hbase
      have hthread : (s.removeConnection object.loop_ conn rest).threads object.loop_ = s.threads object.loop_ := by
        rw [TcpServer.removeConnection, if_neg hbase]
        exact Function.update_of_ne hbase _ _
      have hrest : (s.removeConnection object.loop_ conn rest).todos object.loop_ = rest := by
        rw [TcpServer.removeConnection, if_neg hbase]
        exact Function.update_self _ _ _
      refine ⟨?_, ?_, h.conn_eq, h.log, h.agrees, ?_, fun _ => ?_, ?_⟩
      · rw [hthread]
        exact h.thread
      · rw [hthread, hrest]
        rfl
      · rw [(TcpServer.sameData_removeConnection s object.loop_ conn rest).connections_]
        exact h.registered
      · rw [hworks.loop_, hworks.work_other (Ne.symm hbase), if_pos rfl, List.count_append, ← h.removals hbase]
        simp [System.removeConnection, Task.entry]
      · rw [hthread]
        exact h.unqueued

/-- The base loop removes the connection, which its own loop may be. -/
theorem removed {rest : List Job} (h : Alike s conn object q)
    (htodo : s.todos s.loop_ = .removeConnectionInLoop conn :: rest) :
    ∃ q', (tcp_connection.lone T alloc (decide (object.loop_ = s.loop_))).Steps (tcp_connection.LeftAlone told) q q' ∧
      Alike (s.removeConnectionInLoop s.loop_ conn object rest) conn object q' := by
  have hworks := TcpServer.works_removeConnectionInLoop htodo conn object
  have hthreads : (s.removeConnectionInLoop s.loop_ conn object rest).threads =
      push (decide (s.loop_ = object.loop_)) object.loop_ s.threads (.connection conn .connectDestroyed) := rfl
  have hentry : (s.removeConnectionInLoop s.loop_ conn object rest).connections_ object.name_ = none :=
    Function.update_self _ _ _
  have hthread : ((s.removeConnectionInLoop s.loop_ conn object rest).threads object.loop_).view (Task.view conn)
      (Handler.view conn) = { q.thread with
        loop := q.thread.loop.queueInLoop (decide (s.loop_ = object.loop_)) (.connection .connectDestroyed) } := by
    rw [hthreads, push, Function.update_self, LoopThread.view_queueInLoop, ← h.thread]
    simp [Task.view]
  have hunqueued : .removeConnectionInLoop conn ∉
      ((s.removeConnectionInLoop s.loop_ conn object rest).threads object.loop_).queue := by
    rw [hworks.queue, if_pos rfl]
    intro hmem
    rcases List.mem_append.mp hmem with hmem | hmem
    · exact h.unqueued hmem
    · cases List.mem_singleton.mp hmem
  by_cases hbase : object.loop_ = s.loop_
  · have hview : q.todo = .removeConnection :: view conn (isOutside (s.threads s.loop_).at_) rest := by
      rw [h.todo, hbase, htodo, view_cons_of_some (a := .removeConnection) (by simp [Job.view])]
    refine ⟨q.removeConnection true (view conn (isOutside (s.threads s.loop_).at_) rest),
      Machine.Steps.single (i := .system (.act (.data []) (.bytes 0))) trivial ?_, ?_⟩
    · simp only [tcp_connection.lone, tcp_connection.System.step, System.act, hview, hbase, decide_true]
    · refine ⟨?_, ?_, h.conn_eq, h.log, h.agrees, ?_, fun hloop => absurd hbase hloop, hunqueued⟩
      · rw [hthread, decide_eq_true hbase.symm]
        rfl
      · rw [hworks.at_, hbase]
        have hrest : (s.removeConnectionInLoop s.loop_ conn object rest).todos s.loop_ = rest :=
          Function.update_self _ _ _
        rw [hrest]
        rfl
      · rw [hentry]
        exact ⟨fun hmapped => absurd hmapped Bool.false_ne_true, by simp⟩
  · obtain ⟨behind, hbehind, hbefore, hafter⟩ := hworks.work_self
    have hcount : (s.work s.loop_).count (.removeConnectionInLoop conn) =
        ((s.removeConnectionInLoop s.loop_ conn object rest).work s.loop_).count (.removeConnectionInLoop conn) + 1 := by
      rw [hbefore, hafter, if_neg (Ne.symm hbase), List.append_nil, List.singleton_append, List.count_cons_self,
        List.nil_append]
    have hremovals := h.removals hbase
    refine ⟨{ q.queueInLoop false (.connection .connectDestroyed) with
        removals := q.removals - 1, registered := false, destroys := q.destroys + 1 },
      Machine.Steps.single (i := .system .removeConnectionInLoop) trivial ?_, ?_⟩
    · refine if_pos ⟨decide_eq_false hbase, ?_⟩
      omega
    · refine ⟨?_, ?_, h.conn_eq, h.log, h.agrees, ?_, fun _ => ?_, hunqueued⟩
      · rw [hthread, decide_eq_false (Ne.symm hbase)]
        rfl
      · rw [hworks.at_]
        have hrest : (s.removeConnectionInLoop s.loop_ conn object rest).todos object.loop_ =
            s.todos object.loop_ := Function.update_of_ne hbase _ _
        rw [hrest]
        exact h.todo
      · rw [hentry]
        exact ⟨fun hmapped => absurd hmapped Bool.false_ne_true, by simp⟩
      · rw [hworks.loop_]
        simp only
        omega

/-- User code that the connection called returns. -/
theorem returned {rest : List Job} (h : Alike s conn object q)
    (htodo : s.todos object.loop_ = .connection conn .user :: rest) :
    ∃ q', (tcp_connection.lone T alloc sameLoop).Steps (tcp_connection.LeftAlone told) q q' ∧
      Alike (s.setTodo object.loop_ rest) conn object q' := by
  have hworks : Works s (s.setTodo object.loop_ rest) object.loop_ [.connection conn .user] [] object.loop_ [] :=
    (Works.idle object.loop_ object.loop_ rfl rfl (fun _ => rfl) rfl fun _ => rfl).setTodo htodo []
  have hview : q.todo = .user :: view conn (isOutside (s.threads object.loop_).at_) rest := by
    rw [h.todo, htodo, view_cons_of_some (a := .user) (by simp [Job.view])]
  refine ⟨{ q with todo := view conn (isOutside (s.threads object.loop_).at_) rest },
    Machine.Steps.single (i := .system .userReturns) trivial ?_, h.thread, ?_, h.conn_eq, h.log, h.agrees, h.registered,
    fun hloop => ?_, h.unqueued⟩
  · simp only [tcp_connection.lone, tcp_connection.System.step, hview]
  · simp only [TcpServer.setTodo, Function.update_self]
  · rw [hworks.count_eq (by simp) (by simp) (by simp)]
    exact h.removals hloop

omit [DecidableEq L] in
/-- User code takes bytes out of the input buffer of the connection. -/
theorem retrieved (h : Alike s conn object q) (huser : s.userRuns object.loop_ = true) (len : Nat) :
    ∃ q', (tcp_connection.lone T alloc sameLoop).Steps (tcp_connection.LeftAlone told) q q' ∧
      Alike (s.setObject conn { object with
          conn := { object.conn with inputBuffer_ := object.conn.inputBuffer_.retrieve len } }) conn
        { object with conn := { object.conn with inputBuffer_ := object.conn.inputBuffer_.retrieve len } } q' := by
  have hruns : q.userRuns = true := h.userRuns (by rw [h.todo, behind_view_of_userRuns huser])
  refine ⟨{ q with conn := { q.conn with inputBuffer_ := q.conn.inputBuffer_.retrieve len } },
    Machine.Steps.single (i := .system (.ownRetrieve len)) trivial (if_pos hruns), h.thread, h.todo, ?_, h.log, h.agrees,
    h.registered, h.removals, h.unqueued⟩
  simp only [h.conn_eq]

omit [DecidableEq L] in
/-- User code sets the high-water callback of the connection. -/
theorem marked (h : Alike s conn object q) (huser : s.userRuns object.loop_ = true) (highWaterMark : Nat) :
    ∃ q', (tcp_connection.lone T alloc sameLoop).Steps (tcp_connection.LeftAlone told) q q' ∧
      Alike (s.setObject conn { object with
          conn := { object.conn with highWaterMark_ := highWaterMark, highWaterMarkCallback_ := true } }) conn
        { object with conn := { object.conn with highWaterMark_ := highWaterMark, highWaterMarkCallback_ := true } }
        q' := by
  have hruns : q.userRuns = true := h.userRuns (by rw [h.todo, behind_view_of_userRuns huser])
  refine ⟨q.setHighWaterMarkCallback highWaterMark,
    Machine.Steps.single (i := .setHighWaterMarkCallback highWaterMark) trivial (if_pos hruns), h.thread, h.todo, ?_,
    h.log, h.agrees, h.registered, h.removals, h.unqueued⟩
  simp only [System.setHighWaterMarkCallback, h.conn_eq]

/-- A loop is told to quit. -/
theorem quit {l : L} {isInLoopThread : Bool} (h : Alike s conn object q)
    (huser : isInLoopThread = true → s.userRuns l = true) :
    ∃ q', (tcp_connection.lone T alloc sameLoop).Steps (tcp_connection.LeftAlone told) q q' ∧
      Alike { s with
        threads := Function.update s.threads l
          { s.threads l with loop := (s.threads l).loop.quit isInLoopThread } } conn object q' := by
  have hworks := TcpServer.works_quit s l isInLoopThread
  have hremovals (hloop : object.loop_ ≠ s.loop_) := (h.removals hloop).trans
    (hworks.count_eq (List.not_mem_nil) (List.not_mem_nil) (by simp) s.loop_).symm
  have hunqueued := h.unqueued
  have hqueue := hworks.queue object.loop_
  rw [ite_self, List.append_nil] at hqueue
  rw [← hqueue] at hunqueued
  by_cases hl : object.loop_ = l
  · subst hl
    have hruns (hinside : isInLoopThread = true) : q.userRuns = true :=
      h.userRuns (by rw [h.todo, behind_view_of_userRuns (huser hinside)])
    refine ⟨{ q with thread := { q.thread with loop := q.thread.loop.quit isInLoopThread } },
      Machine.Steps.single (i := .system (.quit isInLoopThread)) trivial (if_pos hruns), ?_, ?_, h.conn_eq, h.log, h.agrees,
      h.registered, hremovals, hunqueued⟩
    · simp only [Function.update_self, LoopThread.view_quit, h.thread]
    · simp only [Function.update_self]
      exact h.todo
  · refine ⟨q, Machine.Steps.refl _ _ _, ?_, ?_, h.conn_eq, h.log, h.agrees, h.registered, hremovals, hunqueued⟩
    · simp only [Function.update_of_ne hl]
      exact h.thread
    · simp only [Function.update_of_ne hl]
      exact h.todo

/-- A connection's own loop enters a body. An empty one is over at once to the connection. -/
theorem entered {a : Advance Handler} {revents : Nat → Mask} {thread : LoopThread Task Handler}
    (h : Alike s conn object q) (hobject : s.objects conn = some object)
    (hknown : Agrees (s.pollers object.loop_) object.conn.channel_) (hidle : s.todos object.loop_ = [])
    (hmay : s.mayAdvance object.loop_ a = true) (hadvance : (s.threads object.loop_).advance a = some thread)
    (htold : told (a.map (Handler.view conn)) (revents conn)) :
    ∃ q', (tcp_connection.lone T alloc sameLoop).Steps (tcp_connection.LeftAlone told) q q' ∧
      Alike (s.enter object.loop_ a revents thread) conn (object.polled conn a revents) q' := by
  have hqueue := LoopThread.queue_advance hadvance
  have hremoving : ∀ rest, thread.at_ ≠ .running (.removeConnectionInLoop conn) rest := by
    intro rest hat
    obtain ⟨_, hnone⟩ | ⟨functor, functors, hqueue, hrunning⟩ := hqueue
    · exact hnone _ _ hat
    · rw [hat] at hrunning
      cases hrunning
      exact h.unqueued (by rw [hqueue]; exact List.mem_cons_self)
  have hunqueued : .removeConnectionInLoop conn ∉ thread.queue := by
    intro hmem
    obtain ⟨hsame, _⟩ | ⟨functor, functors, hqueue, _⟩ := hqueue
    · exact h.unqueued (hsame ▸ hmem)
    · exact h.unqueued (by rw [hqueue]; exact List.mem_cons_of_mem _ hmem)
  have hconn : System.polled q.conn (a.map (Handler.view conn)) (revents conn) =
      (object.polled conn a revents).conn := by
    rw [h.conn_eq]
    rfl
  let entered : System T := { q with
    thread := thread.view (Task.view conn) (Handler.view conn)
    conn := (object.polled conn a revents).conn
    todo := System.body (object.polled conn a revents).conn (thread.at_.view (Task.view conn) (Handler.view conn)) }
  have hentered : (tcp_connection.lone T alloc sameLoop).Steps (tcp_connection.LeftAlone told) q entered := by
    refine Machine.Steps.single (i := .system (.advance (a.map (Handler.view conn)) (revents conn))) htold ?_
    have hnothing : q.todo = [] := by
      rw [h.todo, hidle]
      rfl
    have hwatched : System.reports (a.map (Handler.view conn)) = true → q.watched = true := by
      rw [reports_view]
      intro hreports
      refine h.agrees.kAdded_iff.mp ?_
      rw [h.conn_eq]
      exact hknown.kAdded_iff.mpr (TcpServer.reported hobject hmay hreports).2
    have hthread := LoopThread.advance_view (Task.view conn) (Handler.view conn) hadvance
    rw [← h.thread] at hthread
    simp only [tcp_connection.lone, tcp_connection.System.step, hnothing, hthread, Option.map_some, hconn]
    exact if_pos ⟨trivial, hwatched⟩
  have halike {todo : List Act} (htodo : todo =
      view conn (isOutside thread.at_) ((s.polled a revents).body thread.at_)) :
      Alike (s.enter object.loop_ a revents thread) conn (object.polled conn a revents) { entered with todo } := by
    have hthread : (s.enter object.loop_ a revents thread).threads object.loop_ = thread := Function.update_self _ _ _
    have htodos : (s.enter object.loop_ a revents thread).todos object.loop_ =
        (s.polled a revents).body thread.at_ := Function.update_self _ _ _
    refine ⟨(congrArg (LoopThread.view (Task.view conn) (Handler.view conn)) hthread).symm, ?_, rfl, h.log, ?_, h.registered, fun hother => ?_, ?_⟩
    · change todo = view conn (isOutside ((s.enter object.loop_ a revents thread).threads object.loop_).at_)
        ((s.enter object.loop_ a revents thread).todos object.loop_)
      rw [hthread, htodos]
      exact htodo
    · change Agrees q.poller (object.polled conn a revents).conn.channel_
      rw [← hconn, System.polled]
      split
      · exact tcp_connection.agrees_revents h.agrees _
      · exact h.agrees
    · exact (h.removals hother).trans (TcpServer.count_enter hidle hadvance revents conn s.loop_).symm
    · exact fun hmem => hunqueued (hthread ▸ hmem)
  obtain hsame | ⟨huser, hempty⟩ := view_body (TcpServer.objects_polled hobject a revents) thread.at_ hremoving
  · exact ⟨entered, hentered, halike hsame⟩
  · refine ⟨{ entered with todo := [] }, hentered.tail (i := .system .userReturns) trivial ?_, halike hempty.symm⟩
    have htodo : entered.todo = [.user] := huser
    simp only [tcp_connection.lone, tcp_connection.System.step, htodo]

omit [DecidableEq T] in
/-- Another loop enters a body, of which the connection sees nothing. -/
theorem entered_other {l : L} {a : Advance Handler} {revents : Nat → Mask} {thread : LoopThread Task Handler}
    (h : Alike s conn object q) (hobject : s.objects conn = some object) (hl : object.loop_ ≠ l)
    (hidle : s.todos l = []) (hmay : s.mayAdvance l a = true) (hadvance : (s.threads l).advance a = some thread) :
    Alike (s.enter l a revents thread) conn (object.polled conn a revents) q := by
  have hquiet : TcpServer.reports conn a = false := by
    by_contra hreports
    exact hl (TcpServer.reported hobject hmay (by simpa using hreports)).1
  have hsame : object.polled conn a revents = object := by
    rw [Object.polled, System.polled, reports_view, hquiet]
    rfl
  have hthread : (s.enter l a revents thread).threads object.loop_ = s.threads object.loop_ :=
    Function.update_of_ne hl _ _
  have htodos : (s.enter l a revents thread).todos object.loop_ = s.todos object.loop_ := Function.update_of_ne hl _ _
  rw [hsame]
  refine ⟨?_, ?_, h.conn_eq, h.log, h.agrees, h.registered, fun hother => ?_, ?_⟩
  · rw [hthread]
    exact h.thread
  · rw [hthread, htodos]
    exact h.todo
  · exact (h.removals hother).trans (TcpServer.count_enter hidle hadvance revents conn s.loop_).symm
  · rw [hthread]
    exact h.unqueued

end Alike

omit [DecidableEq L] in
/-- Until a connection is established it is in `connections_`, nobody removes it, and its
loop has nothing to do on it but `connectEstablished`. -/
theorem Sound.fresh {s : TcpServer L} {conn : Nat} {object : Object L} {a : Act} {rest : List Job} (h : Sound s)
    (hobject : s.objects conn = some object) (hlog : object.log = [])
    (htodo : s.todos object.loop_ = .connection conn a :: rest) :
    a = .call .connectEstablished ∧ s.connections_ object.name_ = some conn ∧
    .removeConnectionInLoop conn ∉ s.work s.loop_ ∧
    ∀ job ∈ rest ++ (s.threads object.loop_).queue.map Task.entry, job.owns conn = false := by
  have hwork : s.work object.loop_ =
      .connection conn a :: (rest ++ (s.threads object.loop_).queue.map Task.entry) := by
    rw [TcpServer.work, htodo, List.cons_append]
  have hstage := (h.kept conn object hobject).stage
  rw [hlog, hwork, acts_cons, acts_self, List.singleton_append] at hstage
  cases hstage with
  | up hconnected | down hconnected => cases hconnected
  | connecting _ _ hahead hmapped hremoving =>
    obtain ⟨rfl, hnothing⟩ := List.cons.inj hahead
    refine ⟨rfl, hmapped, hremoving, fun job hmem => ?_⟩
    by_contra howns
    cases job with
    | connection bound a =>
      obtain rfl : bound = conn := by simpa [Job.owns] using howns
      have hacts := mem_acts.mpr hmem
      rw [hnothing] at hacts
      cases hacts
    | removeConnectionInLoop bound =>
      obtain rfl : bound = conn := by simpa [Job.owns] using howns
      have hmore : .removeConnectionInLoop bound ∈ s.work object.loop_ := by
        rw [hwork]
        exact List.mem_cons_of_mem _ hmem
      exact hremoving ((h.placed.proper _ _ hmore).1 ▸ hmore)
    | handleRead | user => exact howns rfl

/-- `connectEstablished` leaves a connection of a server where a connection on its own starts. -/
theorem Sound.started {T : Type} {alloc : Nat → Bool} {s : TcpServer L} {conn fd : Nat} {object : Object L}
    {received : Received} {written : Written} {a : Act} {rest : List Job} {w : World} {next : List Act} (h : Sound s)
    (hobject : s.objects conn = some object) (hlog : object.log = [])
    (hchannel : object.conn.channel_ = .construct conn fd)
    (htodo : s.todos object.loop_ = .connection conn a :: rest)
    (hact : (s.world object).act alloc received written a = some (w, next)) :
    ∃ s₀ : System T, tcp_connection.Fresh s₀ ∧
      Alike (s.resume object.loop_ conn object w (next.map (.connection conn) ++ rest)) conn
        { object with conn := w.conn, log := w.log } s₀ := by
  have hagrees := (h.kept conn object hobject).agrees
  have hworks : Works s (s.resume object.loop_ conn object w (next.map (.connection conn) ++ rest)) object.loop_
      [.connection conn a] (next.map (.connection conn)) object.loop_ (w.queued.map (.connection conn)) :=
    TcpServer.works_resume htodo conn object w _
  have hdata := TcpServer.sameData_resume s object.loop_ conn object w (next.map (.connection conn) ++ rest)
  have hthreads := threads_resume s object.loop_ conn object w (next.map (.connection conn) ++ rest)
  obtain ⟨rfl, hmapped, hremoving, hnone⟩ := h.fresh hobject hlog htodo
  have hworld : s.world object =
      { conn := object.conn, poller := s.pollers object.loop_, queued := [], log := [] } := by
    rw [TcpServer.world, hlog]
  rw [hworld] at hact
  obtain ⟨rfl, hnext⟩ : w = (World.connectEstablished
      { conn := object.conn, poller := s.pollers object.loop_, queued := [], log := [] }).1 ∧ next = [.user] := by
    cases hact
    exact ⟨rfl, rfl⟩
  subst hnext
  have hqueued : (World.connectEstablished
      { conn := object.conn, poller := s.pollers object.loop_, queued := [], log := [] }).1.queued = [] := rfl
  rw [hqueued, List.map_nil, List.foldl_nil] at hthreads
  have htodos := Function.update_self object.loop_ ([Act.user].map (.connection conn) ++ rest) s.todos
  have hqueue : ∀ task ∈ ((s.threads object.loop_).view (Task.view conn) (Handler.view conn)).queue,
      task = .other := by
    intro task hmem
    rw [LoopThread.queue_view] at hmem
    obtain ⟨task, htask, rfl⟩ := List.mem_map.mp hmem
    exact Task.view_eq_other (hnone _ (List.mem_append_right _ (List.mem_map_of_mem htask)))
  refine ⟨System.established object.conn (s.pollers object.loop_)
    ((s.threads object.loop_).view (Task.view conn) (Handler.view conn))
    (view conn (isOutside (s.threads object.loop_).at_) rest) true,
    ⟨.intro _ _ _ _ _ conn fd hchannel hagrees (fun task hmem => .inl (hqueue task hmem)) ?_, ?_, hqueue⟩, ?_, ?_,
    rfl, rfl, ?_, ?_, fun _ => ?_, ?_⟩
  · intro b hmem
    exact eq_user_of_mem_view (fun job hjob => Job.view_eq_none (hnone job (List.mem_append_left _ hjob))) hmem
  · -- a channel that the poller does not know is not listed
    refine due_view_eq_zero fun hawaits => ?_
    obtain ⟨listed, hlisted, _, hindex⟩ := h.listed _ _ hawaits
    obtain rfl : listed = object := Option.mem_unique hlisted hobject
    rw [hchannel] at hindex
    exact hindex rfl
  · rw [hthreads]
    rfl
  · rw [hthreads]
    refine Eq.trans ?_ (congrArg (view conn (isOutside (s.threads object.loop_).at_)) htodos).symm
    rw [view_map_append]
    rfl
  · exact (tcp_connection.Confined.connectEstablished _).agrees hagrees
  · rw [hdata.connections_]
    exact ⟨fun _ => hmapped, fun _ => rfl⟩
  · rw [hworks.loop_, hworks.count_eq (by simp) (by simp) (by simp [Task.entry])]
    exact (List.count_eq_zero.mpr hremoving).symm
  · rw [hthreads]
    intro hmem
    have hnot := hnone _ (List.mem_append_right _ (List.mem_map_of_mem hmem))
    simp [Task.entry, Job.owns] at hnot

end muduo.tcp_server
