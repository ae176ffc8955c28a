import Muduo.EventLoopThreadPool
import Muduo.TcpServer.Stage

open transition
open muduo.kernel muduo.buffer muduo.epoll muduo.event_loop
open muduo.tcp_connection (Act Functor Event TcpConnection World Turn)

namespace muduo.tcp_server

variable {L : Type} [DecidableEq L] {alloc : Nat → Bool}

/-- The server after a step of a loop's thread, which enters a body. -/
def TcpServer.enter (s : TcpServer L) (l : L) (a : Advance Handler) (revents : Nat → Mask)
    (thread : LoopThread Task Handler) : TcpServer L :=
  { s.polled a revents with
    threads := Function.update s.threads l thread
    ran := Function.update s.ran l (s.returned l a)
    todos := Function.update s.todos l ((s.polled a revents).body thread.at_) }

/-- What a step of a server can do. A loop's thread enters a body, carries out an act of
a connection or a job of the server, or user code on it works on a connection;
functors are queued, and objects are held, dropped and destroyed. -/
inductive Change (alloc : Nat → Bool) (s : TcpServer L) : Input L → TcpServer L → Prop where
  | advanced (l : L) (a : Advance Handler) (revents : Nat → Mask) (thread : LoopThread Task Handler)
      (hidle : s.todos l = []) (hmay : s.mayAdvance l a = true) (hadvance : (s.threads l).advance a = some thread) :
      Change alloc s (.advance l a revents) (s.enter l a revents thread)
  | turned (l : L) (accepted : Option (Nat × Nat)) (received : Received) (written : Written) (conn : Nat) (a : Act)
      (rest : List Job) (object : Object L) (w : World) (next : List Act)
      (htodo : s.todos l = .connection conn a :: rest) (hobject : s.objects conn = some object)
      (hact : (s.world object).act alloc received written a = some (w, next)) :
      Change alloc s (.act l accepted received written)
        (s.resume l conn object w (next.map (.connection conn) ++ rest))
  | asked (l : L) (accepted : Option (Nat × Nat)) (received : Received) (written : Written) (conn : Nat)
      (rest : List Job) (htodo : s.todos l = .connection conn .removeConnection :: rest) :
      Change alloc s (.act l accepted received written) (s.removeConnection l conn rest)
  | removed (l : L) (accepted : Option (Nat × Nat)) (received : Received) (written : Written) (conn : Nat)
      (rest : List Job) (object : Object L) (htodo : s.todos l = .removeConnectionInLoop conn :: rest)
      (hobject : s.objects conn = some object) :
      Change alloc s (.act l accepted received written) (s.removeConnectionInLoop l conn object rest)
  | refused (l : L) (received : Received) (written : Written) (rest : List Job)
      (htodo : s.todos l = .handleRead :: rest) :
      Change alloc s (.act l none received written) (s.setTodo l rest)
  | accepted (l : L) (sockfd address : Nat) (received : Received) (written : Written) (rest : List Job)
      (htodo : s.todos l = .handleRead :: rest) (hfree : s.objects address = none)
      (hclosed : s.descriptors sockfd = none) :
      Change alloc s (.act l (some (sockfd, address)) received written) (s.newConnection l sockfd address rest)
  | called (conn : Nat) (call : tcp_connection.Call) (object : Object L) (hobject : s.objects conn = some object)
      (huser : s.userRuns object.loop_ = true) :
      Change alloc s (.ownCall object.loop_ conn call) (s.resume object.loop_ conn object
        ((s.world object).ownCall call).1
        (((s.world object).ownCall call).2.map (.connection conn) ++ s.todos object.loop_))
  | adjusted (i : Input L) (conn : Nat) (object : Object L) (c : TcpConnection)
      (hobject : s.objects conn = some object) (hstate : c.state_ = object.conn.state_)
      (hchannel : c.channel_ = object.conn.channel_) :
      Change alloc s i (s.setObject conn { object with conn := c })
  | returned (l : L) (job : Job) (rest : List Job) (htodo : s.todos l = job :: rest)
      (hjob : job = .user ∨ ∃ conn, job = .connection conn .user) :
      Change alloc s (.userReturns l) (s.setTodo l rest)
  | queued (i : Input L) (isInLoopThread : Bool) (l : L) :
      Change alloc s i (s.queueInLoop isInLoopThread l .other)
  | quit (l : L) (isInLoopThread : Bool) :
      Change alloc s (.quit l isInLoopThread) { s with
        threads := Function.update s.threads l
          { s.threads l with loop := (s.threads l).loop.quit isInLoopThread } }
  | kept (i : Input L) (held : Nat → Bool) : Change alloc s i { s with held }
  | destroyed (conn : Nat) (object : Object L) (hobject : s.objects conn = some object)
      (howned : s.owned conn = false) : Change alloc s (.destroy conn) (s.destroy conn object)

theorem step_change {s t : TcpServer L} {i : Input L} (hstep : s.step alloc i = some t) : Change alloc s i t := by
  cases i with
  | advance l a revents =>
    simp only [TcpServer.step] at hstep
    split at hstep
    · next hmay =>
      obtain ⟨thread, hadvance, rfl⟩ := Option.map_eq_some_iff.mp hstep
      exact .advanced l a revents thread hmay.1 hmay.2 hadvance
    · cases hstep
  | act l accepted received written =>
    simp only [TcpServer.step, TcpServer.act] at hstep
    split at hstep
    · cases hstep
    · cases hstep
    · next rest htodo =>
      split at hstep
      · cases hstep
        exact .refused l received written rest htodo
      · next sockfd address =>
        split at hstep
        · next hfree =>
          cases hstep
          exact .accepted l sockfd address received written rest htodo hfree.1 hfree.2
        · cases hstep
    · next conn rest htodo =>
      obtain ⟨object, hobject, rfl⟩ := Option.map_eq_some_iff.mp hstep
      exact .removed l accepted received written conn rest object htodo hobject
    · next conn rest htodo =>
      cases hstep
      exact .asked l accepted received written conn rest htodo
    · next conn a rest _ htodo =>
      obtain ⟨object, hobject, hturn⟩ := Option.bind_eq_some_iff.mp hstep
      obtain ⟨⟨w, next⟩, hact, rfl⟩ := Option.map_eq_some_iff.mp hturn
      exact .turned l accepted received written conn a rest object w next htodo hobject hact
  | ownCall l conn call =>
    simp only [TcpServer.step, TcpServer.onLoop] at hstep
    split at hstep
    · next huser =>
      obtain ⟨object, hobject, hloop⟩ := Option.bind_eq_some_iff.mp hstep
      split at hloop
      · next heq =>
        cases hloop
        subst heq
        exact .called conn call object hobject huser
      · cases hloop
    · cases hstep
  | ownRetrieve l conn len =>
    simp only [TcpServer.step, TcpServer.onLoop] at hstep
    split at hstep
    · obtain ⟨object, hobject, hloop⟩ := Option.bind_eq_some_iff.mp hstep
      split at hloop
      · cases hloop
        exact .adjusted _ conn object _ hobject rfl rfl
      · cases hloop
    · cases hstep
  | setHighWaterMarkCallback l conn highWaterMark =>
    simp only [TcpServer.step, TcpServer.onLoop] at hstep
    split at hstep
    · obtain ⟨object, hobject, hloop⟩ := Option.bind_eq_some_iff.mp hstep
      split at hloop
      · cases hloop
        exact .adjusted _ conn object _ hobject rfl rfl
      · cases hloop
    · cases hstep
  | userReturns l =>
    simp only [TcpServer.step] at hstep
    split at hstep
    · next rest htodo =>
      cases hstep
      exact .returned l _ rest htodo (.inl rfl)
    · next conn rest htodo =>
      cases hstep
      exact .returned l _ rest htodo (.inr ⟨conn, rfl⟩)
    · cases hstep
  | ownQueue l =>
    simp only [TcpServer.step] at hstep
    split at hstep
    · cases hstep
      exact .queued _ true l
    · cases hstep
  | queueOther l =>
    cases hstep
    exact .queued _ false l
  | quit l isInLoopThread =>
    simp only [TcpServer.step] at hstep
    split at hstep
    · cases hstep
      exact .quit l isInLoopThread
    · cases hstep
  | hold conn =>
    simp only [TcpServer.step] at hstep
    split at hstep
    · cases hstep
      exact .kept _ _
    · cases hstep
  | drop conn =>
    cases hstep
    exact .kept _ _
  | destroy conn =>
    simp only [TcpServer.step] at hstep
    split at hstep
    · cases hstep
    · next howned =>
      obtain ⟨object, hobject, rfl⟩ := Option.map_eq_some_iff.mp hstep
      exact .destroyed conn object hobject (by simpa using howned)

namespace TcpServer

/-- What the thread of a loop has yet to do, in its body and in the functors that it is
to call. -/
def work (s : TcpServer L) (l : L) : List Job := s.todos l ++ (s.threads l).queue.map Task.entry

@[simp] theorem queue_queueInLoop (s : TcpServer L) (isInLoopThread : Bool) (l : L) (task : Task) (other : L) :
    ((s.queueInLoop isInLoopThread l task).threads other).queue =
      (s.threads other).queue ++ if other = l then [task] else [] := by
  by_cases hother : other = l
  · subst hother
    simp [queueInLoop, LoopThread.queue]
  · simp [queueInLoop, hother]

@[simp] theorem at_queueInLoop (s : TcpServer L) (isInLoopThread : Bool) (l : L) (task : Task) (other : L) :
    ((s.queueInLoop isInLoopThread l task).threads other).at_ = (s.threads other).at_ := by
  by_cases hother : other = l
  · subst hother
    simp [queueInLoop]
  · simp [queueInLoop, hother]

end TcpServer

/-- A step on one thread: the jobs `done` in front of its body make way for others, and
some functors are queued on one loop. -/
structure Works (s t : TcpServer L) (l : L) (done new : List Job) (target : L) (tasks : List Task) : Prop where
  loop_ : t.loop_ = s.loop_
  loops_ : t.loops_ = s.loops_
  at_ : ∀ m, (t.threads m).at_ = (s.threads m).at_
  todos : ∃ rest, s.todos l = done ++ rest ∧ t.todos = Function.update s.todos l (new ++ rest)
  queue : ∀ m, (t.threads m).queue = (s.threads m).queue ++ if m = target then tasks else []

namespace Works

variable {s t : TcpServer L} {l target : L} {done new rest : List Job} {tasks : List Task}

/-- Nothing is done. -/
theorem idle (l target : L) (hloop : t.loop_ = s.loop_) (hloops : t.loops_ = s.loops_)
    (hat : ∀ m, (t.threads m).at_ = (s.threads m).at_) (htodos : t.todos = s.todos)
    (hqueue : ∀ m, (t.threads m).queue = (s.threads m).queue) : Works s t l [] [] target [] := by
  refine ⟨hloop, hloops, hat, ⟨s.todos l, rfl, ?_⟩, ?_⟩
  · rw [htodos, List.nil_append, Function.update_eq_self]
  · intro m
    rw [hqueue, ite_self, List.append_nil]

/-- A body goes on. -/
theorem setTodo (h : Works s t l [] [] target []) (htodo : s.todos l = done ++ rest) (new : List Job) :
    Works s (t.setTodo l (new ++ rest)) l done new target [] := by
  obtain ⟨hloop, hloops, hat, ⟨all, hall, htodos⟩, hqueue⟩ := h
  refine ⟨hloop, hloops, hat, ⟨rest, htodo, ?_⟩, hqueue⟩
  change Function.update t.todos l (new ++ rest) = _
  rw [htodos, Function.update_idem]

/-- One more functor is queued. -/
theorem queueInLoop (h : Works s t l done new target tasks) (isInLoopThread : Bool) (task : Task) :
    Works s (t.queueInLoop isInLoopThread target task) l done new target (tasks ++ [task]) := by
  obtain ⟨hloop, hloops, hat, htodos, hqueue⟩ := h
  refine ⟨hloop, hloops, ?_, htodos, ?_⟩
  · intro m
    rw [TcpServer.at_queueInLoop, hat]
  · intro m
    rw [TcpServer.queue_queueInLoop, hqueue]
    by_cases hm : m = target <;> simp [hm]

/-- The functors that the code of a connection queues. -/
theorem queueAll (h : Works s t l done new target tasks) (isInLoopThread : Bool) (conn : Nat)
    (functors : List Functor) :
    Works s (functors.foldl (fun t functor => t.queueInLoop isInLoopThread target (.connection conn functor)) t)
      l done new target (tasks ++ functors.map (.connection conn)) := by
  induction functors generalizing t tasks with
  | nil =>
    rw [List.map_nil, List.append_nil]
    exact h
  | cons functor functors ih =>
    have hnext := ih (h.queueInLoop isInLoopThread (.connection conn functor))
    rw [List.append_assoc, List.singleton_append] at hnext
    exact hnext

end Works

namespace TcpServer

/-- A step that leaves everything but the threads alone. -/
structure SameData (s t : TcpServer L) : Prop where
  nextConnId_ : t.nextConnId_ = s.nextConnId_
  connections_ : t.connections_ = s.connections_
  objects : t.objects = s.objects
  descriptors : t.descriptors = s.descriptors
  pollers : t.pollers = s.pollers

theorem sameData_queueAll (s : TcpServer L) (isInLoopThread : Bool) (l : L) (conn : Nat)
    (functors : List Functor) :
    SameData s (functors.foldl (fun s functor => s.queueInLoop isInLoopThread l (.connection conn functor)) s) := by
  induction functors generalizing s with
  | nil => exact ⟨rfl, rfl, rfl, rfl, rfl⟩
  | cons functor functors ih =>
    obtain ⟨hid, hmap, hobjects, hfds, hpollers⟩ := ih (s.queueInLoop isInLoopThread l (.connection conn functor))
    exact ⟨hid, hmap, hobjects, hfds, hpollers⟩

/-- Going on with a connection after its code has worked on its world. -/
theorem works_resume {s : TcpServer L} {l : L} {done rest : List Job} (htodo : s.todos l = done ++ rest)
    (conn : Nat) (object : Object L) (w : World) (new : List Job) :
    Works s (s.resume l conn object w (new ++ rest)) l done new object.loop_ (w.queued.map (.connection conn)) := by
  have hidle : Works s { s.setObject conn { object with conn := w.conn, log := w.log } with
      pollers := Function.update s.pollers object.loop_ w.poller } l [] [] object.loop_ [] :=
    Works.idle l object.loop_ rfl rfl (fun _ => rfl) rfl fun _ => rfl
  exact (hidle.setTodo htodo new).queueAll (decide (l = object.loop_)) conn w.queued

/-- A method of a connection called on its own thread puts its acts in front. -/
theorem works_ownCall (s : TcpServer L) (conn : Nat) (object : Object L) (call : tcp_connection.Call) :
    Works s (s.resume object.loop_ conn object ((s.world object).ownCall call).1
      (((s.world object).ownCall call).2.map (.connection conn) ++ s.todos object.loop_)) object.loop_ []
      (((s.world object).ownCall call).2.map (.connection conn)) object.loop_
      (((s.world object).ownCall call).1.queued.map (.connection conn)) :=
  works_resume (List.nil_append _).symm conn object _ _

theorem sameData_resume (s : TcpServer L) (l : L) (conn : Nat) (object : Object L) (w : World)
    (todo : List Job) :
    SameData { s.setObject conn { object with conn := w.conn, log := w.log } with
      pollers := Function.update s.pollers object.loop_ w.poller } (s.resume l conn object w todo) := by
  obtain ⟨hid, hmap, hobjects, hfds, hpollers⟩ := sameData_queueAll
    (({ s.setObject conn { object with conn := w.conn, log := w.log } with
      pollers := Function.update s.pollers object.loop_ w.poller } : TcpServer L).setTodo l todo)
    (decide (l = object.loop_)) object.loop_ conn w.queued
  exact ⟨hid, hmap, hobjects, hfds, hpollers⟩

theorem objects_resume (s : TcpServer L) (l : L) (conn : Nat) (object : Object L) (w : World) (todo : List Job) :
    (s.resume l conn object w todo).objects =
      Function.update s.objects conn (some { object with conn := w.conn, log := w.log }) :=
  (sameData_resume s l conn object w todo).objects

/-- A loop is told to quit. -/
theorem works_quit (s : TcpServer L) (l : L) (isInLoopThread : Bool) :
    Works s { s with
      threads := Function.update s.threads l
        { s.threads l with loop := (s.threads l).loop.quit isInLoopThread } } l [] [] l [] := by
  refine Works.idle l l rfl rfl ?_ rfl ?_
  · intro m
    by_cases hm : m = l
    · subst hm
      simp
    · simp [hm]
  · intro m
    by_cases hm : m = l
    · subst hm
      simp only [Function.update_self, LoopThread.queue, EventLoop.quit]
      split <;> rfl
    · simp [hm]

/-- The server is asked for the removal of a connection. -/
theorem works_removeConnection {s : TcpServer L} {l : L} {job : Job} {rest : List Job}
    (htodo : s.todos l = job :: rest) (conn : Nat) :
    ∃ new tasks, Works s (s.removeConnection l conn rest) l [job] new s.loop_ tasks ∧
      (l = s.loop_ ∧ new = [.removeConnectionInLoop conn] ∧ tasks = [] ∨
        new = [] ∧ tasks = [.removeConnectionInLoop conn]) := by
  have hidle : Works s s l [] [] s.loop_ [] := Works.idle l s.loop_ rfl rfl (fun _ => rfl) rfl fun _ => rfl
  unfold removeConnection
  split
  · next hbase => exact ⟨_, _, hidle.setTodo htodo [.removeConnectionInLoop conn], .inl ⟨hbase, rfl, rfl⟩⟩
  · exact ⟨_, _, (hidle.setTodo htodo []).queueInLoop false _, .inr ⟨rfl, rfl⟩⟩

theorem sameData_removeConnection (s : TcpServer L) (l : L) (conn : Nat) (rest : List Job) :
    SameData s (s.removeConnection l conn rest) := by
  unfold removeConnection
  split <;> exact ⟨rfl, rfl, rfl, rfl, rfl⟩

/-- The server removes a connection. -/
theorem works_removeConnectionInLoop {s : TcpServer L} {l : L} {job : Job} {rest : List Job}
    (htodo : s.todos l = job :: rest) (conn : Nat) (object : Object L) :
    Works s (s.removeConnectionInLoop l conn object rest) l [job] [] object.loop_
      [.connection conn .connectDestroyed] := by
  have hidle : Works s { s with connections_ := Function.update s.connections_ object.name_ none } l [] []
      object.loop_ [] := Works.idle l object.loop_ rfl rfl (fun _ => rfl) rfl fun _ => rfl
  exact (hidle.setTodo htodo []).queueInLoop (decide (l = object.loop_)) _

omit [DecidableEq L] in
/-- The server chooses loops as the pool does that holds them. -/
theorem getNextLoop_pool (s : TcpServer L) {pool : event_loop_thread_pool.EventLoopThreadPool L}
    (hsound : pool.Sound) (hbase : pool.baseLoop_ = s.loop_) (hloops : pool.loops_ = s.loops_)
    (hnext : pool.next_.toNat = s.next_) :
    ∃ next_, pool.getNextLoop = some (s.getNextLoop.1, { pool with next_ }) ∧ next_.toNat = s.getNextLoop.2 := by
  by_cases hempty : pool.loops_ = []
  · have hchoice : s.getNextLoop = (s.loop_, s.next_) := by
      rw [getNextLoop, ← hloops, hempty]
      rfl
    rw [event_loop_thread_pool.EventLoopThreadPool.getNextLoop_base hempty, hbase, hchoice]
    exact ⟨pool.next_, by rw [← hbase], hnext⟩
  · obtain ⟨loop, next_, hread, heq, hround⟩ :=
      event_loop_thread_pool.EventLoopThreadPool.getNextLoop_eq hsound hempty
    have hchoice : s.getNextLoop = (loop, if s.next_ + 1 < s.loops_.length then s.next_ + 1 else 0) := by
      rw [getNextLoop, ← hloops, ← hnext, hread]
    have hlt := hsound.next_toNat_lt hempty
    rw [hnext, hloops] at hround hlt
    rw [hchoice]
    refine ⟨next_, heq, hround.trans ?_⟩
    split
    · next hinside => exact Nat.mod_eq_of_lt hinside
    · next hlast => rw [show s.next_ + 1 = s.loops_.length by omega, Nat.mod_self]

omit [DecidableEq L] in
theorem getNextLoop_mem (s : TcpServer L) : s.getNextLoop.1 ∈ s.loops := by
  unfold getNextLoop loops
  split
  · exact List.mem_cons_self
  · next loop hloop => exact List.mem_cons_of_mem _ (List.mem_of_getElem? hloop)

/-- The object of a new connection. -/
def newObject (s : TcpServer L) (sockfd address : Nat) : Object L where
  name_ := s.nextConnId_
  loop_ := s.getNextLoop.1
  conn := { TcpConnection.construct address sockfd with writeCompleteCallback_ := s.writeCompleteCallback_ }
  log := []

/-- The server with the record of a new connection. -/
def recorded (s : TcpServer L) (sockfd address : Nat) : TcpServer L :=
  { s with
    next_ := s.getNextLoop.2
    nextConnId_ := s.nextConnId_ + 1
    connections_ := Function.update s.connections_ s.nextConnId_ (some address)
    objects := Function.update s.objects address (some (s.newObject sockfd address))
    descriptors := Function.update s.descriptors sockfd (some address) }

theorem newConnection_eq (s : TcpServer L) (l : L) (sockfd address : Nat) (rest : List Job) :
    s.newConnection l sockfd address rest =
      if l = s.getNextLoop.1 then
        (s.recorded sockfd address).setTodo l (.connection address (.call .connectEstablished) :: rest)
      else ((s.recorded sockfd address).setTodo l rest).queueInLoop false s.getNextLoop.1
        (.connection address .connectEstablished) := rfl

/-- The server takes a new connection. -/
theorem works_newConnection {s : TcpServer L} {l : L} {job : Job} {rest : List Job}
    (htodo : s.todos l = job :: rest) (sockfd address : Nat) :
    ∃ new tasks, Works s (s.newConnection l sockfd address rest) l [job] new s.getNextLoop.1 tasks ∧
      (l = s.getNextLoop.1 ∧ new = [.connection address (.call .connectEstablished)] ∧ tasks = [] ∨
        new = [] ∧ tasks = [.connection address .connectEstablished]) := by
  have hidle : Works s (s.recorded sockfd address) l [] [] s.getNextLoop.1 [] :=
    Works.idle l s.getNextLoop.1 rfl rfl (fun _ => rfl) rfl fun _ => rfl
  rw [newConnection_eq]
  split
  · next hsame =>
    exact ⟨_, _, hidle.setTodo htodo [.connection address (.call .connectEstablished)], .inl ⟨hsame, rfl, rfl⟩⟩
  · exact ⟨_, _, (hidle.setTodo htodo []).queueInLoop false _, .inr ⟨rfl, rfl⟩⟩

theorem sameData_newConnection (s : TcpServer L) (l : L) (sockfd address : Nat) (rest : List Job) :
    SameData (s.recorded sockfd address) (s.newConnection l sockfd address rest) := by
  rw [newConnection_eq]
  split <;> exact ⟨rfl, rfl, rfl, rfl, rfl⟩

end TcpServer

/-- The acts on a connection among some jobs. -/
def acts (conn : Nat) (jobs : List Job) : List Act :=
  jobs.filterMap fun
    | .connection other a => if other = conn then some a else none
    | _ => none

@[simp] theorem acts_nil (conn : Nat) : acts conn [] = [] := rfl

@[simp] theorem acts_append (conn : Nat) (jobs others : List Job) :
    acts conn (jobs ++ others) = acts conn jobs ++ acts conn others := List.filterMap_append

theorem acts_cons (conn : Nat) (job : Job) (jobs : List Job) :
    acts conn (job :: jobs) = acts conn [job] ++ acts conn jobs := acts_append conn [job] jobs

@[simp] theorem acts_self (conn : Nat) (a : Act) : acts conn [.connection conn a] = [a] := by simp [acts]

theorem acts_other {conn other : Nat} (hne : other ≠ conn) (a : Act) : acts conn [.connection other a] = [] := by
  simp [acts, hne]

@[simp] theorem acts_map_self (conn : Nat) (next : List Act) : acts conn (next.map (.connection conn)) = next := by
  induction next with
  | nil => rfl
  | cons a next ih => rw [List.map_cons, acts_cons, acts_self, ih, List.singleton_append]

theorem acts_map_other {conn other : Nat} (hne : other ≠ conn) (next : List Act) :
    acts conn (next.map (.connection other)) = [] := by
  induction next with
  | nil => rfl
  | cons a next ih => rw [List.map_cons, acts_cons, acts_other hne, ih, List.append_nil]

@[simp] theorem acts_entry_self (conn : Nat) (functors : List Functor) :
    acts conn ((functors.map (Task.connection conn)).map Task.entry) = functors.map Act.call := by
  rw [List.map_map]
  have hentry : Task.entry ∘ Task.connection conn = Job.connection conn ∘ Act.call := rfl
  rw [hentry, ← List.map_map, acts_map_self]

theorem mem_acts {conn : Nat} {a : Act} {jobs : List Job} : a ∈ acts conn jobs ↔ .connection conn a ∈ jobs := by
  unfold acts
  rw [List.mem_filterMap]
  constructor
  · rintro ⟨job, hmem, hjob⟩
    split at hjob
    · split at hjob
      · next other b heq =>
        cases hjob
        subst heq
        exact hmem
      · cases hjob
    · cases hjob
  · intro hmem
    exact ⟨_, hmem, by simp⟩

/-- The acts on a connection are among the jobs about it. -/
theorem acts_filter_owns (conn : Nat) (jobs : List Job) : acts conn (jobs.filter (Job.owns conn)) = acts conn jobs := by
  induction jobs with
  | nil => rfl
  | cons job jobs ih =>
    by_cases howns : job.owns conn = true
    · rw [List.filter_cons_of_pos howns, acts_cons, ih, ← acts_cons]
    · have hnone : acts conn [job] = [] := by
        cases job with
        | connection other a =>
          refine acts_other ?_ a
          simpa [Job.owns] using howns
        | handleRead | removeConnectionInLoop | user => rfl
      rw [List.filter_cons_of_neg howns, ih, acts_cons conn job jobs, hnone, List.nil_append]

namespace Works

variable {s t : TcpServer L} {l target : L} {done new : List Job} {tasks : List Task}

/-- The work of the acting thread. -/
theorem work_self (h : Works s t l done new target tasks) :
    ∃ rest, s.todos l = done ++ rest ∧ s.work l = done ++ (rest ++ (s.threads l).queue.map Task.entry) ∧
      t.work l = new ++ (rest ++ (s.threads l).queue.map Task.entry) ++
        if l = target then tasks.map Task.entry else [] := by
  obtain ⟨rest, hrest, htodos⟩ := h.todos
  refine ⟨rest, hrest, ?_, ?_⟩
  · rw [TcpServer.work, hrest, List.append_assoc]
  · rw [TcpServer.work, htodos, h.queue, Function.update_self]
    by_cases hl : l = target <;> simp [hl]

/-- The work of the other threads. -/
theorem work_other (h : Works s t l done new target tasks) {m : L} (hm : m ≠ l) :
    t.work m = s.work m ++ if m = target then tasks.map Task.entry else [] := by
  obtain ⟨rest, _, htodos⟩ := h.todos
  rw [TcpServer.work, TcpServer.work, htodos, h.queue, Function.update_of_ne hm]
  by_cases htarget : m = target <;> simp [htarget]

/-- The jobs of a kind that the step neither does nor makes stay as they are. -/
theorem filter_eq (h : Works s t l done new target tasks) (p : Job → Bool)
    (hdone : ∀ job ∈ done, p job = false) (hnew : ∀ job ∈ new, p job = false)
    (htasks : ∀ task ∈ tasks, p task.entry = false) (m : L) : (t.work m).filter p = (s.work m).filter p := by
  have hnone {jobs : List Job} (hjobs : ∀ job ∈ jobs, p job = false) : jobs.filter p = [] := by
    apply List.filter_eq_nil_iff.mpr
    intro job hmem
    rw [hjobs job hmem]
    exact Bool.false_ne_true
  have hentries : (if m = target then tasks.map Task.entry else []).filter p = [] := by
    apply hnone
    intro job hmem
    split at hmem
    · obtain ⟨task, htask, rfl⟩ := List.mem_map.mp hmem
      exact htasks task htask
    · cases hmem
  by_cases hm : m = l
  · subst hm
    obtain ⟨rest, _, hbefore, hafter⟩ := h.work_self
    rw [hbefore, hafter]
    simp only [List.filter_append, hnone hnew, hnone hdone, hentries, List.nil_append, List.append_nil]
  · rw [h.work_other hm, List.filter_append, hentries, List.append_nil]

/-- What the step does not make was there before. -/
theorem mem_work (h : Works s t l done new target tasks) {m : L} {job : Job} (hmem : job ∈ t.work m) :
    job ∈ s.work m ∨ m = l ∧ job ∈ new ∨ m = target ∧ ∃ task ∈ tasks, job = task.entry := by
  have hentry (hmem : job ∈ if m = target then tasks.map Task.entry else []) :
      m = target ∧ ∃ task ∈ tasks, job = task.entry := by
    split at hmem
    · next htarget =>
      obtain ⟨task, htask, heq⟩ := List.mem_map.mp hmem
      exact ⟨htarget, task, htask, heq.symm⟩
    · cases hmem
  by_cases hm : m = l
  · subst hm
    obtain ⟨rest, _, hbefore, hafter⟩ := h.work_self
    rw [hafter] at hmem
    rcases List.mem_append.mp hmem with hmem | hmem
    · rcases List.mem_append.mp hmem with hmem | hmem
      · exact .inr (.inl ⟨rfl, hmem⟩)
      · left
        rw [hbefore]
        exact List.mem_append_right _ hmem
    · exact .inr (.inr (hentry hmem))
  · rw [h.work_other hm] at hmem
    rcases List.mem_append.mp hmem with hmem | hmem
    · exact .inl hmem
    · exact .inr (.inr (hentry hmem))

/-- A job that the step neither does nor makes stays where it is. -/
theorem mem_iff (h : Works s t l done new target tasks) {job : Job} (hdone : job ∉ done) (hnew : job ∉ new)
    (htasks : ∀ task ∈ tasks, task.entry ≠ job) (m : L) : job ∈ t.work m ↔ job ∈ s.work m := by
  have hfilter := h.filter_eq (fun other => decide (other = job)) (fun other hmem => ?_) (fun other hmem => ?_)
    (fun task hmem => ?_) m
  · have hmem (jobs : List Job) : job ∈ jobs ↔ job ∈ jobs.filter fun other => decide (other = job) := by simp
    rw [hmem (t.work m), hfilter, ← hmem (s.work m)]
  · exact decide_eq_false fun heq => hdone (heq ▸ hmem)
  · exact decide_eq_false fun heq => hnew (heq ▸ hmem)
  · exact decide_eq_false (htasks task hmem)

/-- The acts ahead of a connection when its loop's thread has done the first of them. -/
theorem acts_head {conn : Nat} {a : Act} (h : Works s t l [.connection conn a] new target tasks) :
    ∃ rest, s.todos l = .connection conn a :: rest ∧
      acts conn (s.work l) = a :: acts conn (rest ++ (s.threads l).queue.map Task.entry) ∧
      acts conn (t.work l) = acts conn new ++ acts conn (rest ++ (s.threads l).queue.map Task.entry) ++
        acts conn (if l = target then tasks.map Task.entry else []) := by
  obtain ⟨rest, hrest, hbefore, hafter⟩ := h.work_self
  refine ⟨rest, hrest, ?_, ?_⟩
  · rw [hbefore, acts_append, acts_self, List.singleton_append]
  · rw [hafter, acts_append, acts_append]

/-- The acts ahead of a connection when none has been done. -/
theorem acts_eq {conn : Nat} (h : Works s t l done new target tasks) (hdone : acts conn done = [])
    (hnew : acts conn new = []) (m : L) :
    acts conn (t.work m) = acts conn (s.work m) ++ acts conn (if m = target then tasks.map Task.entry else []) := by
  by_cases hm : m = l
  · subst hm
    obtain ⟨rest, _, hbefore, hafter⟩ := h.work_self
    rw [hbefore, hafter]
    simp only [acts_append, hnew, hdone, List.nil_append]
  · rw [h.work_other hm, acts_append]

end Works

/-- A channel is being dispatched or still to be dispatched in the pass that a loop
makes over `activeChannels_`. -/
def Awaits (handler : Handler) : Location Task Handler → Prop
  | .dispatching activeChannels => .channel handler ∈ activeChannels
  | .handling current activeChannels => current = handler ∨ .channel handler ∈ activeChannels
  | _ => False

theorem lists_iff_awaits (conn : Nat) (at_ : Location Task Handler) :
    lists conn at_ = true ↔ Awaits (.connection conn) at_ := by
  cases at_ <;> simp [lists, Awaits]

/-- Only `poll` brings channels into the pass. -/
theorem awaits_advance {thread next : LoopThread Task Handler} {a : Advance Handler} {handler : Handler}
    (hadvance : thread.advance a = some next) (hawaits : Awaits handler next.at_) :
    Awaits handler thread.at_ ∨ ∃ activeChannels, a = .poll activeChannels ∧ .channel handler ∈ activeChannels := by
  have hadvances := LoopThread.advances_of_advance hadvance
  obtain ⟨loop, position⟩ := thread
  cases hadvances with
  | poll activeChannels hready => exact .inr ⟨activeChannels, rfl, hawaits⟩
  | drain rest => exact .inl (List.mem_cons_of_mem _ hawaits)
  | handled current rest => exact .inl (.inr hawaits)
  | dispatch current rest =>
    left
    rcases hawaits with rfl | hmem
    · exact List.mem_cons_self
    · exact List.mem_cons_of_mem _ hmem
  | enter | leave | stay | beginFunctors | swap | take | returned | endFunctors => cases hawaits

/-- An object after `poll` has stored a mask in its channel. -/
def Object.store (object : Object L) (mask : Mask) : Object L :=
  { object with conn := { object.conn with channel_ := object.conn.channel_.set_revents mask } }

namespace TcpServer

variable {s : TcpServer L} {l : L} {a : Advance Handler} {thread : LoopThread Task Handler}

theorem at_enter (s : TcpServer L) (l : L) (a : Advance Handler) (revents : Nat → Mask)
    (thread : LoopThread Task Handler) (m : L) :
    ((s.enter l a revents thread).threads m).at_ = if m = l then thread.at_ else (s.threads m).at_ := by
  simp only [enter, Function.update_apply]
  split <;> rfl

/-- A body that a loop's thread enters is a functor that was ahead, or a dispatch. -/
theorem work_enter (hidle : s.todos l = []) (hadvance : (s.threads l).advance a = some thread)
    (revents : Nat → Mask) (m : L) :
    (s.enter l a revents thread).work m = s.work m ∨
    m = l ∧ ∃ handler activeChannels, thread.at_ = .handling handler activeChannels ∧
      (s.enter l a revents thread).work m = (s.polled a revents).body thread.at_ ++ s.work m := by
  by_cases hm : m = l
  · subst hm
    simp only [work, enter, Function.update_self, hidle, List.nil_append]
    rcases LoopThread.queue_advance hadvance with ⟨hqueue, hnone⟩ | ⟨task, tasks, hqueue, hat⟩
    · rw [hqueue]
      cases hposition : thread.at_ with
      | handling handler activeChannels => exact .inr ⟨trivial, handler, activeChannels, rfl, rfl⟩
      | running task tasks => exact absurd hposition (hnone task tasks)
      | outside | testing | polling | dispatching | swapping | batch => exact .inl rfl
    · rw [hqueue, hat]
      exact .inl rfl
  · left
    simp only [work, enter, Function.update_of_ne hm]

omit [DecidableEq L] in
/-- `poll` stores masks in the objects, and does nothing else to them. -/
theorem polled_object {conn : Nat} {object : Object L} (hobject : s.objects conn = some object)
    (a : Advance Handler) (revents : Nat → Mask) :
    ∃ mask, (s.polled a revents).objects conn = some (object.store mask) := by
  simp only [polled, hobject, Option.map_some]
  split
  · exact ⟨revents conn, rfl⟩
  · exact ⟨object.conn.channel_.revents_, rfl⟩

omit [DecidableEq L] in
theorem of_polled_object {conn : Nat} {object' : Object L} {a : Advance Handler} {revents : Nat → Mask}
    (hobject' : (s.polled a revents).objects conn = some object') :
    ∃ object mask, s.objects conn = some object ∧ object' = object.store mask := by
  obtain ⟨object, hobject, _⟩ := Option.map_eq_some_iff.mp hobject'
  obtain ⟨mask, hstored⟩ := polled_object hobject a revents
  rw [hobject'] at hstored
  exact ⟨object, mask, hobject, Option.some.inj hstored⟩

omit [DecidableEq L] in
/-- A dispatch brings callbacks of the channel that is dispatched. -/
theorem body_handling (s : TcpServer L) (handler : Handler) (activeChannels : List (Ready Handler)) (conn : Nat) :
    ∃ callbacks : List EventCallback,
      acts conn (s.body (.handling handler activeChannels)) = callbacks.map .callback ∧
      (callbacks ≠ [] → handler = .connection conn) ∧
      .removeConnectionInLoop conn ∉ s.body (.handling handler activeChannels) := by
  cases handler with
  | connection other =>
    simp only [body]
    split
    · next object _ =>
      have hmap : (object.conn.channel_.handleEventWithGuard.map fun callback =>
          Job.connection other (.callback callback)) =
          (object.conn.channel_.handleEventWithGuard.map Act.callback).map (.connection other) := by
        rw [List.map_map]
        rfl
      by_cases hother : other = conn
      · subst hother
        refine ⟨object.conn.channel_.handleEventWithGuard, ?_, fun _ => rfl, by simp⟩
        rw [hmap, acts_map_self]
      · refine ⟨[], ?_, fun hsome => absurd rfl hsome, by simp⟩
        rw [hmap, acts_map_other hother, List.map_nil]
    · exact ⟨[], rfl, fun hsome => absurd rfl hsome, by simp⟩
  | acceptor => exact ⟨[], rfl, fun hsome => absurd rfl hsome, by simp [body]⟩
  | other => exact ⟨[], rfl, fun hsome => absurd rfl hsome, by simp [body]⟩

/-- Entering a body puts callbacks in front of what is ahead of a connection, if it
dispatches the connection's channel. -/
theorem acts_enter (hidle : s.todos l = []) (hadvance : (s.threads l).advance a = some thread)
    (revents : Nat → Mask) (conn : Nat) (m : L) :
    ∃ callbacks : List EventCallback,
      acts conn ((s.enter l a revents thread).work m) = callbacks.map .callback ++ acts conn (s.work m) ∧
      (callbacks ≠ [] → Awaits (.connection conn) thread.at_) := by
  rcases work_enter hidle hadvance revents m with hsame | ⟨_, handler, activeChannels, hat, hmore⟩
  · exact ⟨[], by rw [hsame]; rfl, fun hsome => absurd rfl hsome⟩
  · obtain ⟨callbacks, hacts, hsome, _⟩ := (s.polled a revents).body_handling handler activeChannels conn
    refine ⟨callbacks, ?_, fun hne => ?_⟩
    · rw [hmore, hat, acts_append, hacts]
    · rw [hat]
      exact .inl (hsome hne)

/-- Entering a body brings no removal. -/
theorem mem_work_enter (hidle : s.todos l = []) (hadvance : (s.threads l).advance a = some thread)
    (revents : Nat → Mask) (conn : Nat) (m : L) :
    .removeConnectionInLoop conn ∈ (s.enter l a revents thread).work m ↔ .removeConnectionInLoop conn ∈ s.work m := by
  rcases work_enter hidle hadvance revents m with hsame | ⟨_, handler, activeChannels, hat, hmore⟩
  · rw [hsame]
  · obtain ⟨_, _, _, hnone⟩ := (s.polled a revents).body_handling handler activeChannels conn
    rw [hmore, hat, List.mem_append]
    exact or_iff_right hnone

end TcpServer

end muduo.tcp_server
