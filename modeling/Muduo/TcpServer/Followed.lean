import Muduo.TcpConnection.Calm
import Muduo.TcpServer.Alone

open transition
open muduo.kernel muduo.buffer muduo.epoll muduo.event_loop
open muduo.tcp_connection (Act Functor Event TcpConnection World Turn)

namespace muduo.tcp_server

variable {L : Type} [DecidableEq L]

/-- What `poll` reports to each connection is what `told` admits. -/
def Input.Tells (told : Advance tcp_connection.Handler → Mask → Prop) : Input L → Prop
  | .advance _ a revents => ∀ conn, told (a.map (Handler.view conn)) (revents conn)
  | _ => True

omit [DecidableEq L] in
theorem Input.tells_anything (i : Input L) : i.Tells fun _ _ => True := by
  cases i with
  | advance => exact fun _ => trivial
  | act | ownCall | ownRetrieve | setHighWaterMarkCallback | userReturns | ownQueue | queueOther | quit | hold | drop
    | destroy => trivial

/-- `poll` lists each channel at most once, and connections with gentle masks. -/
def Input.Gently : Input L → Prop
  | .advance _ (.poll activeChannels) revents => activeChannels.Nodup ∧
    ∀ conn, .channel (.connection conn) ∈ activeChannels → tcp_connection.Gentle (revents conn)
  | _ => True

omit [DecidableEq L] in
theorem Input.Gently.tells {i : Input L} (h : i.Gently) : i.Tells tcp_connection.Gently := by
  cases i with
  | advance l a revents =>
    intro conn
    cases a with
    | poll activeChannels =>
      obtain ⟨hnodup, hgentle⟩ := h
      refine ⟨?_, fun hmem => hgentle conn ((listed_view conn activeChannels).mp hmem)⟩
      rw [count_view]
      exact List.nodup_iff_count_le_one.mp hnodup _
    | enter | test | dispatch | handled | beginFunctors | swap | take | returned | endFunctors => trivial
  | act | ownCall | ownRetrieve | setHighWaterMarkCallback | userReturns | ownQueue | queueOther | quit | hold | drop
    | destroy => trivial

/-- The steps of a server whose connections run as they do on their own. -/
def Plain (told : Advance tcp_connection.Handler → Mask → Prop) (s : TcpServer L) (i : Input L) : Prop :=
  NamesFree s i ∧ i.Tells told

/-- A job is over, and nothing comes of it. -/
theorem Works.popped {s : TcpServer L} {l : L} {job : Job} {rest : List Job} (htodo : s.todos l = job :: rest) :
    Works s (s.setTodo l rest) l [job] [] l [] :=
  (Works.idle l l rfl rfl (fun _ => rfl) rfl fun _ => rfl).setTodo htodo []

/-- A step that queues nothing. -/
theorem Foreign.of_works {s t : TcpServer L} {conn : Nat} {l target : L} {done new : List Job}
    (hworks : Works s t l done new target []) (hthreads : t.threads = s.threads)
    (hdone : ∀ job ∈ done, job.owns conn = false) (hnew : ∀ job ∈ new, job.owns conn = false) :
    Foreign conn s t l done new false target [] :=
  ⟨hworks, hthreads, by simp, hdone, hnew, fun _ hmem => absurd hmem List.not_mem_nil⟩

/-- A connection object that waits for `connectEstablished`, or is where a run of a
connection on its own is. -/
inductive Tracked (T : Type) [DecidableEq T] (alloc : Nat → Bool)
    (told : Advance tcp_connection.Handler → Mask → Prop) (s : TcpServer L) (conn : Nat) (object : Object L) : Prop where
  | fresh (fd : Nat) (hlog : object.log = []) (hchannel : object.conn.channel_ = .construct conn fd)
  | followed (s₀ q : tcp_connection.System T) (hstart : tcp_connection.Fresh s₀)
      (hsteps : (tcp_connection.lone T alloc (decide (object.loop_ = s.loop_))).Steps (tcp_connection.LeftAlone told) s₀ q)
      (halike : Alike s conn object q)

section

variable {T : Type} [DecidableEq T] {alloc : Nat → Bool} {told : Advance tcp_connection.Handler → Mask → Prop}
  {s t : TcpServer L} {conn : Nat} {object object' : Object L}

namespace Tracked

/-- A step that the connection on its own can follow. -/
theorem next (h : Tracked T alloc told s conn object) (hbase : t.loop_ = s.loop_) (hloop : object'.loop_ = object.loop_)
    (hfresh : ∀ fd, object.log = [] → object.conn.channel_ = .construct conn fd →
      object'.log = [] ∧ object'.conn.channel_ = .construct conn fd)
    (hfollows : ∀ q : tcp_connection.System T, Alike s conn object q → ∃ q',
      (tcp_connection.lone T alloc (decide (object.loop_ = s.loop_))).Steps (tcp_connection.LeftAlone told) q q' ∧
        Alike t conn object' q') : Tracked T alloc told t conn object' := by
  cases h with
  | fresh fd hlog hchannel =>
    obtain ⟨hlog', hchannel'⟩ := hfresh fd hlog hchannel
    exact .fresh fd hlog' hchannel'
  | followed s₀ q hstart hsteps halike =>
    obtain ⟨q', hmore, halike'⟩ := hfollows q halike
    refine .followed s₀ q' hstart ?_ halike'
    rw [hbase, hloop]
    exact hsteps.trans hmore

/-- A step on other connections, or on none. -/
theorem foreign {l target : L} {done new : List Job} {isInLoopThread : Bool} {tasks : List Task}
    (h : Tracked T alloc told s conn object) (hforeign : Foreign conn s t l done new isInLoopThread target tasks)
    (hentry : t.connections_ object.name_ = some conn ↔ s.connections_ object.name_ = some conn)
    (huser : done = [] → new ≠ [] ∨ isInLoopThread = true → s.userRuns l = true) :
    Tracked T alloc told t conn object :=
  h.next hforeign.works.loop_ rfl (fun _ => .intro) fun _ halike => halike.foreign hforeign hentry huser

end Tracked

/-- All connection objects are tracked. -/
def Tracks (T : Type) [DecidableEq T] (alloc : Nat → Bool) (told : Advance tcp_connection.Handler → Mask → Prop)
    (s : TcpServer L) : Prop :=
  ∀ conn object, s.objects conn = some object → Tracked T alloc told s conn object

namespace Tracks

variable {l : L} {rest : List Job}

/-- The loop's thread enters a body. -/
theorem entered {a : Advance Handler} {revents : Nat → Mask} {thread : LoopThread Task Handler}
    (h : Tracks T alloc told s) (hs : Sound s) (hidle : s.todos l = []) (hmay : s.mayAdvance l a = true)
    (hadvance : (s.threads l).advance a = some thread)
    (htold : ∀ conn, told (a.map (Handler.view conn)) (revents conn)) :
    Tracks T alloc told (s.enter l a revents thread) := by
  intro conn object' hobject'
  obtain ⟨object, _, hobject, _⟩ := TcpServer.of_polled_object hobject'
  have hagrees := (hs.kept conn object hobject).agrees
  obtain rfl : object.polled conn a revents = object' :=
    Option.mem_unique (TcpServer.objects_polled hobject a revents) hobject'
  refine (h conn object hobject).next rfl rfl (fun fd hlog hchannel => ⟨hlog, ?_⟩) fun q halike => ?_
  · -- the kernel does not watch the channel yet, so that nothing is stored in it
    have hquiet : TcpServer.reports conn a = false := by
      by_contra hreports
      have hadded := hagrees.kAdded_iff.mpr (TcpServer.reported hobject hmay (by simpa using hreports)).2
      rw [hchannel] at hadded
      cases hadded
    rw [Object.polled, tcp_connection.System.polled, reports_view, hquiet]
    exact hchannel
  · by_cases hl : object.loop_ = l
    · subst hl
      exact halike.entered hobject hagrees hidle hmay hadvance (htold conn)
    · exact ⟨q, Machine.Steps.refl _ _ _, halike.entered_other hobject hl hidle hmay hadvance⟩

/-- The code of a connection carries out an act. -/
theorem turned {received : Received} {written : Written} {a : Act} {w : World} {next : List Act}
    (h : Tracks T alloc told s) (hs : Sound s) (htodo : s.todos l = .connection conn a :: rest)
    (hobject : s.objects conn = some object)
    (hact : (s.world object).act alloc received written a = some (w, next)) :
    Tracks T alloc told (s.resume l conn object w (next.map (.connection conn) ++ rest)) := by
  obtain rfl := hs.placed.loop_eq htodo hobject
  have hworks : Works s (s.resume object.loop_ conn object w (next.map (.connection conn) ++ rest)) object.loop_
      [.connection conn a] (next.map (.connection conn)) object.loop_ (w.queued.map (.connection conn)) :=
    TcpServer.works_resume htodo conn object w _
  intro other o hother
  obtain ⟨rfl, rfl⟩ | ⟨hne, hother⟩ := objects_of_update (TcpServer.objects_resume s object.loop_ conn object w _) hother
  · cases h other object hobject with
    | fresh fd hlog hchannel =>
      obtain ⟨s₀, hstart, halike⟩ := hs.started (T := T) hobject hlog hchannel htodo hact
      exact .followed s₀ s₀ hstart (Machine.Steps.refl _ _ _) halike
    | followed s₀ q hstart hsteps halike =>
      obtain ⟨q', hmore, halike'⟩ := halike.turned htodo hact
      refine .followed s₀ q' hstart ?_ halike'
      rw [hworks.loop_]
      exact hsteps.trans hmore
  · have hdata := TcpServer.sameData_resume s object.loop_ conn object w (next.map (.connection conn) ++ rest)
    refine (h other o hother).foreign ⟨hworks, threads_resume _ _ _ _ _ _, fun _ => rfl, ?_, ?_, ?_⟩ ?_ (by simp)
    · simp [Job.owns, Ne.symm hne]
    · simp [Job.owns, Ne.symm hne]
    · simp [Task.entry, Job.owns, Ne.symm hne]
    · rw [hdata.connections_]
      exact Iff.rfl

/-- User code calls a method of a connection. -/
theorem called (h : Tracks T alloc told s) (hs : Sound s) (call : tcp_connection.Call) (hobject : s.objects conn = some object)
    (huser : s.userRuns object.loop_ = true) :
    Tracks T alloc told (s.resume object.loop_ conn object ((s.world object).ownCall call).1
      (((s.world object).ownCall call).2.map (.connection conn) ++ s.todos object.loop_)) := by
  have hworks := TcpServer.works_ownCall s conn object call
  intro other o hother
  obtain ⟨rfl, rfl⟩ | ⟨hne, hother⟩ := objects_of_update (TcpServer.objects_resume s object.loop_ conn object _ _) hother
  · refine (h other object hobject).next hworks.loop_ rfl ?_ fun q halike => halike.called huser
    -- a connection that is not established is not connected
    intro fd hlog hchannel
    have hstage := (hs.kept other object hobject).stage
    rw [hlog] at hstage
    cases hstage with
    | up hconnected | down hconnected => cases hconnected
    | connecting hstate =>
      have hconnected : object.conn.connected = false := by
        rw [TcpConnection.connected, hstate]
        rfl
      have hsame : (s.world object).ownCall call = (s.world object, []) := by
        cases call <;> simp [World.ownCall, TcpServer.world, hconnected]
      rw [hsame]
      exact ⟨hlog, hchannel⟩
  · have hdata := TcpServer.sameData_resume s object.loop_ conn object ((s.world object).ownCall call).1
      (((s.world object).ownCall call).2.map (.connection conn) ++ s.todos object.loop_)
    refine (h other o hother).foreign ⟨hworks, threads_resume _ _ _ _ _ _, fun _ => rfl, ?_, ?_, ?_⟩ ?_
      fun _ _ => huser
    · simp
    · simp [Job.owns, Ne.symm hne]
    · simp [Task.entry, Job.owns, Ne.symm hne]
    · rw [hdata.connections_]
      exact Iff.rfl

/-- A connection asks for its removal. -/
theorem asked (h : Tracks T alloc told s) (hs : Sound s)
    (htodo : s.todos l = .connection conn .removeConnection :: rest) :
    Tracks T alloc told (s.removeConnection l conn rest) := by
  have hdata := TcpServer.sameData_removeConnection s l conn rest
  intro other o hother
  rw [hdata.objects] at hother
  by_cases hne : other = conn
  · subst hne
    obtain rfl := hs.placed.loop_eq htodo hother
    obtain ⟨_, _, hworks, _⟩ := TcpServer.works_removeConnection htodo other
    exact (h other o hother).next hworks.loop_ rfl (fun _ => .intro) fun q halike =>
      halike.asked htodo
  · have hidle : Works s s l [] [] s.loop_ [] := Works.idle l s.loop_ rfl rfl (fun _ => rfl) rfl fun _ => rfl
    have hdone : ∀ job ∈ [Job.connection conn .removeConnection], job.owns other = false := by
      simp [Job.owns, Ne.symm hne]
    unfold TcpServer.removeConnection
    split
    · refine (h other o hother).foreign (.of_works (hidle.setTodo htodo [.removeConnectionInLoop conn]) rfl hdone ?_)
        Iff.rfl (by simp)
      simp [Job.owns, Ne.symm hne]
    · refine (h other o hother).foreign ⟨(hidle.setTodo htodo []).queueInLoop false (.removeConnectionInLoop conn), rfl,
        by simp, hdone, by simp, ?_⟩ Iff.rfl (by simp)
      simp [Task.entry, Job.owns, Ne.symm hne]

/-- The base loop removes a connection. -/
theorem removed (h : Tracks T alloc told s) (hs : Sound s)
    (htodo : s.todos l = .removeConnectionInLoop conn :: rest) (hobject : s.objects conn = some object)
    (hfree : ∀ other, s.connections_ object.name_ = some other → other = conn) :
    Tracks T alloc told (s.removeConnectionInLoop l conn object rest) := by
  obtain ⟨rfl, _⟩ := hs.placed.head htodo
  have hworks := TcpServer.works_removeConnectionInLoop htodo conn object
  intro other o hother
  have hsame : s.objects other = some o := hother
  by_cases hne : other = conn
  · subst hne
    obtain rfl : o = object := Option.mem_unique hsame hobject
    exact (h other o hother).next rfl rfl (fun _ => .intro) fun q halike =>
      halike.removed htodo
  · have hforeign : Foreign other s (s.removeConnectionInLoop s.loop_ conn object rest) s.loop_
        [.removeConnectionInLoop conn] [] (decide (s.loop_ = object.loop_)) object.loop_
        [.connection conn .connectDestroyed] := by
      refine ⟨hworks, rfl, fun hinside => (of_decide_eq_true hinside).symm, ?_, by simp, ?_⟩
      · simp [Job.owns, Ne.symm hne]
      · simp [Task.entry, Job.owns, Ne.symm hne]
    refine (h other o hother).foreign hforeign ?_ (by simp)
    · change Function.update s.connections_ object.name_ none o.name_ = some other ↔ _
      by_cases hname : o.name_ = object.name_
      · rw [hname, Function.update_self]
        exact ⟨by simp, fun hentry => absurd (hfree other hentry) hne⟩
      · rw [Function.update_of_ne hname]

/-- The base loop takes a new connection, under a name that is free. -/
theorem accepted {sockfd address : Nat} (h : Tracks T alloc told s) (htodo : s.todos l = .handleRead :: rest)
    (hname : s.connections_ s.nextConnId_ = none) :
    Tracks T alloc told (s.newConnection l sockfd address rest) := by
  have hdata := TcpServer.sameData_newConnection s l sockfd address rest
  intro other o hother
  obtain ⟨rfl, rfl⟩ | ⟨hne, hother⟩ := objects_of_update hdata.objects hother
  · exact .fresh sockfd rfl rfl
  · have hentry : (s.newConnection l sockfd address rest).connections_ o.name_ = some other ↔
        s.connections_ o.name_ = some other := by
      rw [hdata.connections_]
      change Function.update s.connections_ s.nextConnId_ (some address) o.name_ = some other ↔ _
      by_cases hsame : o.name_ = s.nextConnId_
      · rw [hsame, Function.update_self, hname]
        exact ⟨fun heq => absurd (Option.some.inj heq).symm hne, by simp⟩
      · rw [Function.update_of_ne hsame]
    have htodo' : s.todos l = [.handleRead] ++ rest := htodo
    have hdone : ∀ job ∈ [Job.handleRead], job.owns other = false := by simp [Job.owns]
    have hidle : Works s (s.recorded sockfd address) l [] [] s.getNextLoop.1 [] :=
      Works.idle l s.getNextLoop.1 rfl rfl (fun _ => rfl) rfl fun _ => rfl
    rw [TcpServer.newConnection_eq] at hentry ⊢
    by_cases hsame : l = s.getNextLoop.1
    · rw [if_pos hsame] at hentry ⊢
      refine (h other o hother).foreign (.of_works
        (hidle.setTodo htodo' [.connection address (.call .connectEstablished)]) rfl hdone ?_) hentry (by simp)
      simp [Job.owns, Ne.symm hne]
    · rw [if_neg hsame] at hentry ⊢
      refine (h other o hother).foreign
        ⟨(hidle.setTodo htodo' []).queueInLoop false (.connection address .connectEstablished), rfl, by simp, hdone,
          by simp, ?_⟩ hentry (by simp)
      simp [Task.entry, Job.owns, Ne.symm hne]

/-- A job that nobody's code is in is over. -/
theorem popped {job : Job} (h : Tracks T alloc told s) (htodo : s.todos l = job :: rest)
    (hjob : ∀ conn, job.owns conn = false) : Tracks T alloc told (s.setTodo l rest) := by
  intro conn object hobject
  exact (h conn object hobject).foreign (.of_works (Works.popped htodo) rfl (by simp [hjob conn]) (by simp)) Iff.rfl
    (by simp)

/-- A user callback of a connection returns. -/
theorem returned (h : Tracks T alloc told s) (hs : Sound s) (htodo : s.todos l = .connection conn .user :: rest) :
    Tracks T alloc told (s.setTodo l rest) := by
  intro other o hother
  have hsame : s.objects other = some o := hother
  by_cases hne : other = conn
  · subst hne
    obtain rfl := hs.placed.loop_eq htodo hsame
    exact (h other o hother).next rfl rfl (fun _ => .intro) fun q halike => halike.returned htodo
  · exact (h other o hother).foreign (.of_works (Works.popped htodo) rfl (by simp [Job.owns, Ne.symm hne]) (by simp))
      Iff.rfl (by simp)

/-- User code changes what belongs to one connection. -/
theorem adjusted (h : Tracks T alloc told s) (hobject : s.objects conn = some object)
    (hself : Tracked T alloc told (s.setObject conn object') conn object') :
    Tracks T alloc told (s.setObject conn object') := by
  intro other o hother
  have hobjects : (s.setObject conn object').objects = Function.update s.objects conn (some object') := rfl
  obtain ⟨rfl, rfl⟩ | ⟨hne, hother⟩ := objects_of_update hobjects hother
  · exact hself
  · exact (h other o hother).next rfl rfl (fun _ => .intro) fun q halike =>
      ⟨q, Machine.Steps.refl _ _ _, halike.thread, halike.todo, halike.conn_eq, halike.log, halike.agrees,
        halike.registered, halike.removals, halike.unqueued⟩

/-- Something else is queued. -/
theorem queued {isInLoopThread : Bool} (h : Tracks T alloc told s)
    (huser : isInLoopThread = true → s.userRuns l = true) :
    Tracks T alloc told (s.queueInLoop isInLoopThread l .other) := by
  intro conn object hobject
  have hidle : Works s s l [] [] l [] := Works.idle l l rfl rfl (fun _ => rfl) rfl fun _ => rfl
  exact (h conn object hobject).foreign ⟨hidle.queueInLoop isInLoopThread .other, rfl, fun _ => rfl, by simp, by simp,
    by simp [Task.entry, Job.owns]⟩ Iff.rfl (by simpa using huser)

/-- A loop is told to quit. -/
theorem quit {isInLoopThread : Bool} (h : Tracks T alloc told s)
    (huser : isInLoopThread = true → s.userRuns l = true) :
    Tracks T alloc told { s with
      threads := Function.update s.threads l
        { s.threads l with loop := (s.threads l).loop.quit isInLoopThread } } := by
  intro conn object hobject
  exact (h conn object hobject).next rfl rfl (fun _ => .intro) fun q halike => halike.quit huser

/-- Objects go, or are held and dropped. -/
theorem kept (h : Tracks T alloc told s) (hbase : t.loop_ = s.loop_) (hloops : t.loops_ = s.loops_) (hthreads : t.threads = s.threads)
    (htodos : t.todos = s.todos) (hconnections : t.connections_ = s.connections_)
    (hobjects : ∀ conn object, t.objects conn = some object → s.objects conn = some object) :
    Tracks T alloc told t := by
  intro conn object hobject
  have hworks : Works s t s.loop_ [] [] s.loop_ [] :=
    Works.idle s.loop_ s.loop_ hbase hloops (fun _ => by rw [hthreads]) htodos fun _ => by rw [hthreads]
  exact (h conn object (hobjects conn object hobject)).foreign (.of_works hworks hthreads (by simp) (by simp))
    (by rw [hconnections]) (by simp)

/-- An act on the thread of a loop. -/
theorem act {accepted : Option (Nat × Nat)} {received : Received} {written : Written} (h : Tracks T alloc told s)
    (hs : Sound s) (hfree : NamesFree s (.act l accepted received written))
    (hstep : s.act alloc l accepted received written = some t) : Tracks T alloc told t := by
  unfold TcpServer.act at hstep
  split at hstep
  · cases hstep
  · cases hstep
  · next rest htodo =>
    cases accepted with
    | none =>
      cases hstep
      exact h.popped htodo fun _ => rfl
    | some connection =>
      obtain ⟨_, rfl⟩ := Option.ite_some_none_eq_some.mp hstep
      refine h.accepted htodo ?_
      simpa [NamesFree, TcpServer.namesFree, htodo] using hfree
  · next conn rest htodo =>
    obtain ⟨object, hobject, rfl⟩ := Option.map_eq_some_iff.mp hstep
    refine h.removed hs htodo hobject fun other hentry => ?_
    have hall : ∀ other, s.connections_ object.name_ = some other → other = conn := by
      simpa [NamesFree, TcpServer.namesFree, htodo, hobject, Option.all_eq_true] using hfree
    exact hall other hentry
  · next conn rest htodo =>
    cases hstep
    exact h.asked hs htodo
  · next conn a rest _ htodo =>
    obtain ⟨object, hobject, hturn⟩ := Option.bind_eq_some_iff.mp hstep
    obtain ⟨⟨w, next⟩, hact, rfl⟩ := Option.map_eq_some_iff.mp hturn
    exact h.turned hs htodo hobject hact

/-- Every step of a server that is plain can be followed by each of its connections on its own. -/
theorem step {i : Input L} (h : Tracks T alloc told s) (hs : Sound s) (hplain : Plain told s i)
    (hstep : s.step alloc i = some t) : Tracks T alloc told t := by
  have honLoop {l : L} {conn : Nat} {f : Object L → TcpServer L} (hworks : s.onLoop l conn f = some t) :
      ∃ object, s.objects conn = some object ∧ object.loop_ = l ∧ s.userRuns object.loop_ = true ∧ t = f object := by
    obtain ⟨huser, hfound⟩ := Option.ite_none_right_eq_some.mp hworks
    obtain ⟨object, hobject, hloop⟩ := Option.bind_eq_some_iff.mp hfound
    obtain ⟨rfl, rfl⟩ := Option.ite_some_none_eq_some.mp hloop
    exact ⟨object, hobject, rfl, huser, rfl⟩
  cases i with
  | advance l a revents =>
    obtain ⟨⟨hidle, hmay⟩, hentered⟩ := Option.ite_none_right_eq_some.mp hstep
    obtain ⟨thread, hadvance, rfl⟩ := Option.map_eq_some_iff.mp hentered
    exact h.entered hs hidle hmay hadvance hplain.2
  | act l accepted received written => exact h.act hs hplain.1 hstep
  | ownCall l conn call =>
    obtain ⟨object, hobject, rfl, huser, rfl⟩ := honLoop hstep
    exact h.called hs call hobject huser
  | ownRetrieve l conn len =>
    obtain ⟨object, hobject, rfl, huser, rfl⟩ := honLoop hstep
    refine h.adjusted hobject ?_
    exact (h conn object hobject).next rfl rfl (fun _ => .intro) fun q halike => halike.retrieved huser len
  | setHighWaterMarkCallback l conn highWaterMark =>
    obtain ⟨object, hobject, rfl, huser, rfl⟩ := honLoop hstep
    refine h.adjusted hobject ?_
    exact (h conn object hobject).next rfl rfl (fun _ => .intro) fun q halike => halike.marked huser highWaterMark
  | userReturns l =>
    simp only [TcpServer.step] at hstep
    split at hstep
    · next rest htodo =>
      cases hstep
      exact h.popped htodo fun _ => rfl
    · next conn rest htodo =>
      cases hstep
      exact h.returned hs htodo
    · cases hstep
  | ownQueue l =>
    obtain ⟨huser, rfl⟩ := Option.ite_some_none_eq_some.mp hstep
    exact h.queued fun _ => huser
  | queueOther l =>
    cases hstep
    exact h.queued (by simp)
  | quit l isInLoopThread =>
    obtain ⟨huser, rfl⟩ := Option.ite_some_none_eq_some.mp hstep
    exact h.quit huser
  | hold conn =>
    obtain ⟨_, rfl⟩ := Option.ite_some_none_eq_some.mp hstep
    exact h.kept rfl rfl rfl rfl rfl fun _ _ hobject => hobject
  | drop conn =>
    cases hstep
    exact h.kept rfl rfl rfl rfl rfl fun _ _ hobject => hobject
  | destroy conn =>
    obtain ⟨_, hgone⟩ := Option.ite_none_left_eq_some.mp hstep
    obtain ⟨object, _, rfl⟩ := Option.map_eq_some_iff.mp hgone
    refine h.kept rfl rfl rfl rfl rfl fun other o hother => ?_
    have hleft : Function.update s.objects conn none other = some o := hother
    rw [Function.update_apply] at hleft
    split at hleft
    · cases hleft
    · exact hleft

end Tracks

end

section

variable {T : Type} [DecidableEq T] {alloc : Nat → Bool} {told : Advance tcp_connection.Handler → Mask → Prop}
  {loop_ : L} {loops_ : List L} {writeCompleteCallback_ : Bool} {s : TcpServer L} {conn : Nat} {object : Object L}

theorem tracks_of_steps
    (hrun : (server L alloc).Steps (Plain told) (.construct loop_ loops_ writeCompleteCallback_) s) :
    Sound s ∧ Tracks T alloc told s :=
  hrun.invariant (P := fun s => Sound s ∧ Tracks T alloc told s)
    (fun _ _ _ h hplain hstep => ⟨h.1.step hplain.1 hstep, h.2.step h.1 hplain hstep⟩)
    ⟨construct_sound loop_ loops_ writeCompleteCallback_, fun _ _ hobject => by cases hobject⟩

/-- Every connection of a server runs as it does on its own. In every run of a server whose
names are free, each connection that has been established is where a run of the connection
on its own has come to, since `connectEstablished`: with its loop as the connection sees it,
whatever other connections, loops and functors do in between. -/
theorem connections_alone
    (hrun : (server L alloc).Steps (Plain told) (.construct loop_ loops_ writeCompleteCallback_) s)
    (hobject : s.objects conn = some object) (hup : object.log ≠ []) :
    ∃ s₀ q : tcp_connection.System T, tcp_connection.Fresh s₀ ∧
      (tcp_connection.lone T alloc (decide (object.loop_ = s.loop_))).Steps (tcp_connection.LeftAlone told) s₀ q ∧
      Alike s conn object q := by
  cases (tracks_of_steps (T := T) hrun).2 conn object hobject with
  | fresh _ hlog => exact absurd hlog hup
  | followed s₀ q hstart hsteps halike => exact ⟨s₀, q, hstart, hsteps, halike⟩

theorem connections_alone_closed :
    ∃ s object, (server Bool fun _ => true).run (.construct false [true] false) acceptedAndClosed = some s ∧
      s.objects 7 = some object ∧ ∃ s₀ q : tcp_connection.System Unit, tcp_connection.Fresh s₀ ∧
        (tcp_connection.lone Unit (fun _ => true) (decide (object.loop_ = s.loop_))).Steps
          (tcp_connection.LeftAlone fun _ _ => True) s₀ q ∧ Alike s 7 object q := by
  have hruns : ((server Bool fun _ => true).run (.construct false [true] false) acceptedAndClosed).bind
      (fun s => (s.objects 7).map fun object => object.log.isEmpty) = some false := by decide +kernel
  obtain ⟨s, hrun, hfound⟩ := Option.bind_eq_some_iff.mp hruns
  obtain ⟨object, hobject, hlog⟩ := Option.map_eq_some_iff.mp hfound
  have hfree : (server Bool fun _ => true).Along NamesFree (.construct false [true] false) acceptedAndClosed := by
    decide +kernel
  have htells : (server Bool fun _ => true).Along (fun _ i => i.Tells fun _ _ => True) (.construct false [true] false)
      acceptedAndClosed :=
    Machine.along_of_forall (fun i _ _ => i.tells_anything) _
  have hplain : (server Bool fun _ => true).Along (Plain fun _ _ => True) (.construct false [true] false)
      acceptedAndClosed := hfree.and htells
  exact ⟨s, object, hrun, hobject, connections_alone (Machine.steps_of_run hrun hplain) hobject (by simpa using hlog)⟩

/-- The connections of a server that are used on their own loops' threads lead orderly
lives. In every run of a server whose names are free, and which `poll` tells of each channel
at most once a round and of nothing to be read behind a hang-up without `EPOLLIN`, the state
of every connection only moves forward, and its user is told that it is up, of messages, and
that it is down, in this order. Once its channel has been removed it is disconnected, its
poller does not know it, and its user has been told that it was up and that it is down. -/
theorem connections_orderly
    (hrun : (server L alloc).Steps (fun s i => NamesFree s i ∧ i.Gently)
      (.construct loop_ loops_ writeCompleteCallback_) s)
    (hobject : s.objects conn = some object) :
    tcp_connection.Forward object.log ∧
    (object.log = [] ∨ tcp_connection.InOrder object.log) ∧
    (.removed ∈ object.log → object.conn.state_ = .kDisconnected ∧ object.conn.channel_.index_ = .kNew ∧
      (s.pollers object.loop_).interest object.conn.channel_.fd_ = none ∧
      (tcp_connection.callbacks object.log).filter (fun c => c matches .connection _) =
        [.connection true, .connection false]) := by
  have hplain : (server L alloc).Steps (Plain tcp_connection.Gently) (.construct loop_ loops_ writeCompleteCallback_) s :=
    hrun.mono (P := fun _ => True) (fun _ _ _ _ _ _ => trivial) (fun _ _ _ h => ⟨h.1, h.2.tells⟩) trivial
  obtain ⟨hsound, htracks⟩ := tracks_of_steps (T := Unit) hplain
  cases htracks conn object hobject with
  | fresh _ hlog => simp [hlog, tcp_connection.Forward, tcp_connection.values]
  | followed s₀ q hstart hsteps halike =>
    have hcomposed := hstart.composed_of_steps hsteps
    rw [← halike.log, ← halike.conn_eq]
    refine ⟨hcomposed.forward, .inr hcomposed.inOrder, fun hremoved => ?_⟩
    have htorn := hcomposed.ending.tornDown hremoved
    refine ⟨htorn.state_eq, htorn.index_eq, ?_, htorn.connections⟩
    have hinterest := (hsound.kept conn object hobject).agrees.interest_eq
    rw [← halike.conn_eq, htorn.index_eq] at hinterest
    exact hinterest

theorem connections_orderly_closed :
    ∃ s object, (server Bool fun _ => true).run (.construct false [true] false) acceptedAndClosed = some s ∧
      s.objects 7 = some object ∧ tcp_connection.Forward object.log ∧
      (object.log = [] ∨ tcp_connection.InOrder object.log) ∧
      (.removed ∈ object.log → object.conn.state_ = .kDisconnected ∧ object.conn.channel_.index_ = .kNew ∧
        (s.pollers object.loop_).interest object.conn.channel_.fd_ = none ∧
        (tcp_connection.callbacks object.log).filter (fun c => c matches .connection _) =
          [.connection true, .connection false]) := by
  have hruns : (((server Bool fun _ => true).run (.construct false [true] false) acceptedAndClosed).bind
      (fun s => s.objects 7)).isSome = true := by decide +kernel
  obtain ⟨object, hfound⟩ := Option.isSome_iff_exists.mp hruns
  obtain ⟨s, hrun, hobject⟩ := Option.bind_eq_some_iff.mp hfound
  have hfree : (server Bool fun _ => true).Along NamesFree (.construct false [true] false) acceptedAndClosed := by
    decide +kernel
  have hgently : ∀ i ∈ acceptedAndClosed, i.Gently := by
    have hgentle : tcp_connection.Gentle EPOLLIN := fun _ => .inl (by decide)
    simp [acceptedAndClosed, Input.Gently, hgentle]
  exact ⟨s, object, hrun, hobject, connections_orderly
    (Machine.steps_of_run hrun (hfree.and (Machine.along_of_forall (fun i hmem _ => hgently i hmem) _))) hobject⟩

end

end muduo.tcp_server
