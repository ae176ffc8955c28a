import Muduo.TcpServer.Protocol

open transition
open muduo.kernel muduo.buffer muduo.epoll muduo.event_loop
open muduo.tcp_connection (Act Functor Event TcpConnection World Turn Confined)

namespace muduo.tcp_connection

namespace World

@[simp] theorem poller_writeCompleted (w : World) : w.writeCompleted.poller = w.poller := by
  unfold writeCompleted
  split <;> rfl

@[simp] theorem poller_highWater (w : World) (len : Nat) : (w.highWater len).poller = w.poller := by
  simp only [highWater]
  split <;> rfl

@[simp] theorem poller_writeDirectly (w : World) (data : List UInt8) (written : Written) :
    (w.writeDirectly data written).poller = w.poller := by
  simp only [writeDirectly]
  split <;> simp

/-- Keeping the rest of a payload makes at most one interest operation. -/
theorem poller_keep {alloc : Nat → Bool} {w w' : World} {rest : List UInt8} (h : w.keep alloc rest = some w') :
    w'.poller = w.poller ∨ w'.poller = (w.conn.channel_.perform w.poller .enableWriting).1 := by
  obtain ⟨_, rfl⟩ | ⟨_, outputBuffer_, _, rfl⟩ := keep_cases h
  · exact .inl rfl
  · have hchannel : (w.highWater rest.length).conn.channel_ = w.conn.channel_ := by rw [conn_highWater]
    have hpoller : (w.highWater rest.length).poller = w.poller := poller_highWater w rest.length
    unfold watchWriting
    split
    · exact .inl hpoller
    · right
      rw [← hchannel, ← hpoller]
      rfl

/-- A world whose poller is left alone, or makes one interest operation on its channel. -/
def Asks (w w' : World) : Prop :=
  w'.poller = w.poller ∨ ∃ channel op, channel.tie = w.conn.channel_.tie ∧
    w'.poller = (Channel.perform channel w.poller op).1

theorem asks_keep {alloc : Nat → Bool} {w u w' : World} {rest : List UInt8}
    (h : u.keep alloc rest = some w') (hchannel : u.conn = w.conn) (hpoller : u.poller = w.poller) : w.Asks w' := by
  obtain hsame | hwatched := poller_keep h
  · exact .inl (hsame.trans hpoller)
  · rw [hchannel, hpoller] at hwatched
    exact .inr ⟨w.conn.channel_, .enableWriting, rfl, hwatched⟩

theorem asks_sendInLoop {alloc : Nat → Bool} {w w' : World} {data : Text} {written : Written}
    (h : w.sendInLoop alloc data written = some w') : w.Asks w' := by
  obtain ⟨_, _, ⟨_, rfl⟩ | ⟨_, hkeep⟩⟩ | ⟨_, hkeep⟩ := sendInLoop_cases h
  · exact .inl (by simp)
  · exact asks_keep hkeep (by simp) (by simp)
  · exact asks_keep hkeep rfl rfl

theorem asks_handleWrite {w w' : World} {written : Written} {next : List Act}
    (h : w.handleWrite written = some (w', next)) : w.Asks w' := by
  obtain ⟨_, _, rfl⟩ | ⟨_, ⟨_, _, rfl⟩ | hwrote⟩ := handleWrite_cases h
  · exact .inl rfl
  · exact .inl rfl
  · obtain ⟨_, _, rfl⟩ | ⟨_, _, rfl⟩ := wrote_cases hwrote
    · refine .inr ⟨w.conn.channel_, .disableWriting, rfl, ?_⟩
      rw [poller_writeCompleted]
      rfl
    · exact .inl rfl

/-- An act of the connection's code asks its poller for one thing at most. -/
theorem asks_act {alloc : Nat → Bool} {received : Received} {written : Written} {w w' : World} {a : Act}
    {next : List Act} (h : w.act alloc received written a = some (w', next)) : w.Asks w' := by
  have hclose (inputBuffer_ : CheckedBuffer) : w.Asks (w.setInputBuffer inputBuffer_).handleClose.1 :=
    .inr ⟨w.conn.channel_, .disableAll, rfl, rfl⟩
  cases a with
  | call functor =>
    cases functor with
    | connectEstablished =>
      cases h
      exact .inr ⟨w.conn.channel_.tie, .enableReading, rfl, rfl⟩
    | connectDestroyed | writeCompleteCallback_ | highWaterMarkCallback_ =>
      cases h
      exact .inl rfl
    | sendInLoop data =>
      obtain ⟨sent, hsend, heq⟩ := Option.map_eq_some_iff.mp h
      cases heq
      exact asks_sendInLoop hsend
    | sendFileInLoop fileDescriptor offset count =>
      cases sendFileInLoop_cases h with
      | down | busy | bytes | error => exact .inl rfl
    | shutdownInLoop =>
      cases h
      left
      unfold shutdownInLoop
      split <;> rfl
  | callback callback =>
    cases callback with
    | closeCallback_ =>
      cases h
      exact hclose w.conn.inputBuffer_
    | errorCallback_ =>
      cases h
      exact .inl rfl
    | readCallback_ =>
      obtain ⟨inputBuffer_, rfl, _⟩ | ⟨_, inputBuffer_, _, ⟨_, hend⟩ | ⟨_, rfl, _⟩⟩ := handleRead_cases h
      · exact .inl rfl
      · cases hend
        exact hclose inputBuffer_
      · exact .inl rfl
    | writeCallback_ => exact asks_handleWrite h
  | drained =>
    cases h
    left
    unfold drained shutdownInLoop
    split
    · split <;> rfl
    · rfl
  | disconnect =>
    cases h
    exact hclose w.conn.inputBuffer_
  | remove =>
    cases h
    exact .inr ⟨w.conn.channel_, .remove, rfl, rfl⟩
  | queue | closeCallback_ =>
    cases h
    exact .inl rfl
  | user | removeConnection => cases h

/-- Nothing fails in a poller that agrees with the channel. -/
theorem Asks.unfailing {w w' : World} (h : w.Asks w') (hagrees : Agrees w.poller w.conn.channel_) :
    w'.poller.exited = w.poller.exited ∧ w'.poller.delErrors = w.poller.delErrors := by
  obtain hsame | ⟨channel, op, hchannel, hpoller⟩ := h
  · rw [hsame]
    exact ⟨rfl, rfl⟩
  · have hagrees' : Agrees w.poller channel := by
      obtain ⟨hinterest, hchannels⟩ := hagrees
      have hfd : channel.fd_ = w.conn.channel_.fd_ := (congrArg Channel.fd_ hchannel :)
      have haddr : channel.addr = w.conn.channel_.addr := (congrArg Channel.addr hchannel :)
      have hevents : channel.events_ = w.conn.channel_.events_ := (congrArg Channel.events_ hchannel :)
      have hindex : channel.index_ = w.conn.channel_.index_ := (congrArg Channel.index_ hchannel :)
      refine ⟨?_, ?_⟩
      · rw [hfd, haddr, hevents, hindex]
        exact hinterest
      · rw [hfd, haddr, hindex]
        exact hchannels
    obtain ⟨_, hexited, herrors, _⟩ := perform_spec hagrees' op
    rw [hpoller]
    exact ⟨hexited, herrors⟩

end World

end muduo.tcp_connection

namespace muduo.tcp_server

variable {L : Type}

/-- The jobs by which a connection that went down leaves `connections_`. -/
def Job.parts (conn : Nat) : Job → Bool
  | .connection bound .closeCallback_ => bound == conn
  | .connection bound .removeConnection => bound == conn
  | .removeConnectionInLoop bound => bound == conn
  | _ => false

theorem Job.owns_of_parts {conn : Nat} {job : Job} (h : job.parts conn = true) : job.owns conn = true := by
  cases job with
  | connection bound a => cases a <;> first | exact h | cases h
  | removeConnectionInLoop bound => exact h
  | handleRead | user => cases h

/-- A job that the step does not do is still ahead. -/
theorem Works.mem_of_mem [DecidableEq L] {s t : TcpServer L} {l target : L} {done new : List Job}
    {tasks : List Task} (h : Works s t l done new target tasks) {m : L} {job : Job} (hmem : job ∈ s.work m)
    (hdone : job ∉ done) : job ∈ t.work m := by
  by_cases hm : m = l
  · subst hm
    obtain ⟨rest, _, hbefore, hafter⟩ := h.work_self
    rw [hbefore] at hmem
    rw [hafter]
    apply List.mem_append_left
    apply List.mem_append_right
    exact (List.mem_append.mp hmem).resolve_left hdone
  · rw [h.work_other hm]
    exact List.mem_append_left _ hmem

/-- The removal of a connection from the map is ahead on some thread. -/
def Parting (s : TcpServer L) (conn : Nat) : Prop := ∃ l, ∃ job ∈ s.work l, job.parts conn = true

/-- The accounts of a server. An open socket is that of the object it belongs to, a channel
is known by the address of its object, no `epoll_ctl` has failed, and a connection that
went down stays in `connections_` only while its removal is ahead. -/
structure Accounts (s : TcpServer L) : Prop where
  opened : ∀ fd conn, s.descriptors fd = some conn →
    ∃ object, s.objects conn = some object ∧ object.conn.channel_.fd_ = fd
  addressed : ∀ conn object, s.objects conn = some object → object.conn.channel_.addr = conn
  unfailing : ∀ l, (s.pollers l).exited = false ∧ (s.pollers l).delErrors = 0
  leaving : ∀ conn object, s.objects conn = some object → object.conn.state_ = .kDisconnected →
    s.connections_ object.name_ = some conn → Parting s conn

theorem construct_accounts (loop_ : L) (loops_ : List L) (writeCompleteCallback_ : Bool) :
    Accounts (TcpServer.construct loop_ loops_ writeCompleteCallback_) := by
  refine ⟨?_, ?_, fun _ => ⟨rfl, rfl⟩, ?_⟩
  · intro fd conn hopen
    cases hopen
  · intro conn object hobject
    cases hobject
  · intro conn object hobject
    cases hobject

namespace Parting

variable {s t : TcpServer L} {conn : Nat}

/-- A connection whose removal is ahead has work left. -/
theorem not_idle (h : Parting s conn) (hidle : ∀ l, ∀ job ∈ s.work l, job.owns conn = false) : False := by
  obtain ⟨l, job, hmem, hparts⟩ := h
  have howns := Job.owns_of_parts hparts
  rw [hidle l job hmem] at howns
  cases howns

variable [DecidableEq L]

/-- The removal stays ahead while none of its jobs is done. -/
theorem of_works {l target : L} {done new : List Job} {tasks : List Task} (h : Parting s conn)
    (hworks : Works s t l done new target tasks) (hdone : ∀ job ∈ done, job.parts conn = false) :
    Parting t conn := by
  obtain ⟨m, job, hmem, hparts⟩ := h
  refine ⟨m, job, hworks.mem_of_mem hmem ?_, hparts⟩
  intro hjob
  rw [hdone job hjob] at hparts
  cases hparts

/-- Entering a body leaves the removal ahead. -/
theorem enter {l : L} {a : Advance Handler} {revents : Nat → Mask} {thread : LoopThread Task Handler}
    (h : Parting s conn) (hidle : s.todos l = []) (hadvance : (s.threads l).advance a = some thread) :
    Parting (s.enter l a revents thread) conn := by
  obtain ⟨m, job, hmem, hparts⟩ := h
  refine ⟨m, job, ?_, hparts⟩
  obtain hsame | ⟨_, _, _, _, hmore⟩ := TcpServer.work_enter hidle hadvance revents m
  · rw [hsame]
    exact hmem
  · rw [hmore]
    exact List.mem_append_right _ hmem

end Parting

namespace Accounts

variable {s t : TcpServer L} {conn : Nat} {object : Object L}

/-- A step that works on no connection's data, and on no removal without going on with it. -/
theorem of_data (h : Accounts s) (hdata : TcpServer.SameData s t)
    (hparting : ∀ conn, Parting s conn → Parting t conn) : Accounts t := by
  refine ⟨?_, ?_, ?_, ?_⟩
  · rw [hdata.descriptors, hdata.objects]
    exact h.opened
  · rw [hdata.objects]
    exact h.addressed
  · rw [hdata.pollers]
    exact h.unfailing
  · rw [hdata.objects, hdata.connections_]
    exact fun conn object hobject hstate hmapped => hparting conn (h.leaving conn object hobject hstate hmapped)

/-- A step that works on one connection, which keeps its name, its address and its socket. -/
theorem of_object {object' : Object L} (h : Accounts s) (hobject : s.objects conn = some object)
    (hobjects : t.objects = Function.update s.objects conn (some object'))
    (hdescriptors : t.descriptors = s.descriptors) (hconnections : t.connections_ = s.connections_)
    (hname : object'.name_ = object.name_) (haddr : object'.conn.channel_.addr = object.conn.channel_.addr)
    (hfd : object'.conn.channel_.fd_ = object.conn.channel_.fd_)
    (hunfailing : ∀ l, (t.pollers l).exited = false ∧ (t.pollers l).delErrors = 0)
    (hparting : ∀ other, other ≠ conn → Parting s other → Parting t other)
    (hself : object'.conn.state_ = .kDisconnected → s.connections_ object.name_ = some conn → Parting t conn) :
    Accounts t := by
  refine ⟨?_, ?_, hunfailing, ?_⟩
  · intro fd other hopen
    rw [hdescriptors] at hopen
    obtain ⟨o, hother, hfd'⟩ := h.opened fd other hopen
    obtain ⟨rfl, hafter⟩ | hafter := objects_update hobject hobjects hother
    · exact ⟨object', hafter, hfd.trans hfd'⟩
    · exact ⟨o, hafter, hfd'⟩
  · intro other o hother
    obtain ⟨rfl, rfl⟩ | ⟨_, hother⟩ := objects_of_update hobjects hother
    · exact haddr.trans (h.addressed other object hobject)
    · exact h.addressed other o hother
  · intro other o hother hstate hmapped
    rw [hconnections] at hmapped
    obtain ⟨rfl, rfl⟩ | ⟨hne, hother⟩ := objects_of_update hobjects hother
    · rw [hname] at hmapped
      exact hself hstate hmapped
    · exact hparting other hne (h.leaving other o hother hstate hmapped)

variable [DecidableEq L] {alloc : Nat → Bool}

/-- The loop's thread enters a body. -/
theorem entered {l : L} {a : Advance Handler} {revents : Nat → Mask} {thread : LoopThread Task Handler}
    (h : Accounts s) (hidle : s.todos l = []) (hadvance : (s.threads l).advance a = some thread) :
    Accounts (s.enter l a revents thread) := by
  refine ⟨?_, ?_, h.unfailing, ?_⟩
  · intro fd conn hopen
    obtain ⟨object, hobject, hfd⟩ := h.opened fd conn hopen
    obtain ⟨mask, hstored⟩ := TcpServer.polled_object hobject a revents
    exact ⟨object.store mask, hstored, hfd⟩
  · intro conn object' hobject'
    obtain ⟨object, mask, hobject, rfl⟩ := TcpServer.of_polled_object hobject'
    exact h.addressed conn object hobject
  · intro conn object' hobject' hstate hmapped
    obtain ⟨object, mask, hobject, rfl⟩ := TcpServer.of_polled_object hobject'
    exact (h.leaving conn object hobject hstate hmapped).enter hidle hadvance

/-- The code of a connection has worked on its world. -/
theorem resumed {l : L} {w : World} {todo : List Job} (h : Accounts s) (hobject : s.objects conn = some object)
    (hconfined : Confined (s.world object) w)
    (hunfailing : w.poller.exited = false ∧ w.poller.delErrors = 0)
    (hparting : ∀ other, other ≠ conn → Parting s other → Parting (s.resume l conn object w todo) other)
    (hself : w.conn.state_ = .kDisconnected → s.connections_ object.name_ = some conn →
      Parting (s.resume l conn object w todo) conn) : Accounts (s.resume l conn object w todo) := by
  have hdata := TcpServer.sameData_resume s l conn object w todo
  have hpollers : (s.resume l conn object w todo).pollers = Function.update s.pollers object.loop_ w.poller :=
    hdata.pollers
  refine h.of_object hobject hdata.objects hdata.descriptors hdata.connections_ rfl hconfined.addr_eq
    hconfined.fd_eq ?_ hparting hself
  intro m
  rw [hpollers, Function.update_apply]
  split
  · exact hunfailing
  · exact h.unfailing m

/-- An act of the code of a connection. If it brings the connection down, it leaves the
close callback to be called. -/
theorem turned {l : L} {received : Received} {written : Written} {a : Act} {rest : List Job} {w : World}
    {next : List Act} (h : Accounts s) (hs : Sound s) (htodo : s.todos l = .connection conn a :: rest)
    (hobject : s.objects conn = some object)
    (hact : (s.world object).act alloc received written a = some (w, next)) :
    Accounts (s.resume l conn object w (next.map (.connection conn) ++ rest)) := by
  have hturn := World.act_turn hact
  have hkept := hs.kept conn object hobject
  have hworks : Works s (s.resume l conn object w (next.map (.connection conn) ++ rest)) l [.connection conn a]
      (next.map (.connection conn)) object.loop_ (w.queued.map (.connection conn)) :=
    TcpServer.works_resume htodo conn object w _
  obtain ⟨behind, _, _, hafter⟩ := hworks.work_self
  have hmade {job : Job} (hmem : job ∈ next.map (Job.connection conn)) :
      job ∈ (s.resume l conn object w (next.map (.connection conn) ++ rest)).work l := by
    rw [hafter]
    exact List.mem_append_left _ (List.mem_append_left _ hmem)
  obtain ⟨hexited, herrors⟩ := (World.asks_act hact).unfailing hkept.agrees
  refine h.resumed hobject hturn.confined ⟨hexited.trans (h.unfailing _).1, herrors.trans (h.unfailing _).2⟩ ?_ ?_
  · intro other hne hparting
    refine hparting.of_works hworks fun job hmem => ?_
    rw [List.mem_singleton.mp hmem]
    cases a <;> first | rfl | simp [Job.parts, Ne.symm hne]
  · intro hstate hmapped
    have hdown (hnext : next = [.user, .closeCallback_]) :
        Parting (s.resume l conn object w (next.map (.connection conn) ++ rest)) conn :=
      ⟨l, .connection conn .closeCallback_, hmade (by simp [hnext]), by simp [Job.parts]⟩
    have hstill (hsame : w.conn.state_ = object.conn.state_) (hplain : (Job.connection conn a).parts conn = false) :
        Parting (s.resume l conn object w (next.map (.connection conn) ++ rest)) conn := by
      refine (h.leaving conn object hobject (hsame.symm.trans hstate) hmapped).of_works hworks fun job hmem => ?_
      rw [List.mem_singleton.mp hmem]
      exact hplain
    cases hturn with
    | connectEstablished =>
      rw [World.conn_connectEstablished] at hstate
      cases hstate
    | connectDestroyed | queue | message => exact hstill rfl rfl
    | remove =>
      refine hstill ?_ rfl
      rw [World.conn_perform]
      rfl
    | disconnect =>
      -- what is ahead of a connection that the server has not removed is never `disconnect`
      have hloop := hs.placed.loop_eq htodo hobject
      subst hloop
      have hahead : .disconnect ∈ acts conn (s.work object.loop_) := by
        rw [mem_acts, TcpServer.work, htodo]
        exact List.mem_append_left _ List.mem_cons_self
      cases hkept.stage with
      | connecting _ _ hacts =>
        rw [hacts] at hahead
        cases List.mem_singleton.mp hahead
      | up _ _ _ _ hacts => cases hacts _ hahead
      | down _ _ _ hacts => cases hacts _ hahead
    | close | endOfStream => exact hdown rfl
    | closeCallback_ =>
      exact ⟨l, .connection conn .removeConnection, hmade (by simp), by simp [Job.parts]⟩
    | transfer _ _ _ htransfers _ _ hnot =>
      refine hstill htransfers.state_eq ?_
      obtain ⟨_, _, _, _, _, _, hclose, hremove⟩ := hnot
      cases a <;> first | rfl | exact absurd rfl hclose | exact absurd rfl hremove

/-- User code on its own thread calls a method of a connection. -/
theorem called (h : Accounts s) (call : tcp_connection.Call) (hobject : s.objects conn = some object) :
    Accounts (s.resume object.loop_ conn object ((s.world object).ownCall call).1
      (((s.world object).ownCall call).2.map (.connection conn) ++ s.todos object.loop_)) := by
  obtain ⟨hchannel, hpoller, _⟩ := ownCall_spec (s.world object) call
  have hworks := TcpServer.works_ownCall s conn object call
  refine h.resumed hobject (.of_eq hchannel hpoller) ?_ (fun other _ hparting => hparting.of_works hworks (by simp)) ?_
  · rw [hpoller]
    exact h.unfailing object.loop_
  · intro hstate hmapped
    refine (h.leaving conn object hobject ?_ hmapped).of_works hworks (by simp)
    cases call <;> simp only [World.ownCall] at hstate <;> split at hstate
    all_goals first
      | exact hstate
      | cases hstate

omit [DecidableEq L] in
/-- User code changes a connection in a way that its channel does not see. -/
theorem adjusted {c : TcpConnection} (h : Accounts s) (hobject : s.objects conn = some object)
    (hstate : c.state_ = object.conn.state_) (hchannel : c.channel_ = object.conn.channel_) :
    Accounts (s.setObject conn { object with conn := c }) := by
  have hobjects : (s.setObject conn { object with conn := c }).objects =
      Function.update s.objects conn (some { object with conn := c }) := rfl
  refine h.of_object hobject hobjects rfl rfl rfl (congrArg Channel.addr hchannel) (congrArg Channel.fd_ hchannel)
    h.unfailing (fun _ _ => id) ?_
  intro hdown hmapped
  exact h.leaving conn object hobject (hstate.symm.trans hdown) hmapped

/-- The server is asked for the removal of a connection. -/
theorem asked {l : L} {rest : List Job} (h : Accounts s)
    (htodo : s.todos l = .connection conn .removeConnection :: rest) :
    Accounts (s.removeConnection l conn rest) := by
  obtain ⟨new, tasks, hworks, hnew⟩ := TcpServer.works_removeConnection htodo conn
  refine h.of_data (TcpServer.sameData_removeConnection s l conn rest) fun other hparting => ?_
  by_cases hother : conn = other
  · subst hother
    obtain ⟨hbase, rfl, rfl⟩ | ⟨rfl, rfl⟩ := hnew
    · obtain ⟨behind, _, _, hafter⟩ := hworks.work_self
      refine ⟨l, .removeConnectionInLoop conn, ?_, by simp [Job.parts]⟩
      rw [hafter]
      simp
    · refine ⟨s.loop_, .removeConnectionInLoop conn, ?_, by simp [Job.parts]⟩
      rw [TcpServer.work, hworks.queue, if_pos rfl]
      simp [Task.entry]
  · refine hparting.of_works hworks fun job hmem => ?_
    rw [List.mem_singleton.mp hmem]
    simp [Job.parts, hother]

/-- The server removes a connection: it is out of the map then. -/
theorem removed {l : L} {rest : List Job} (h : Accounts s) (htodo : s.todos l = .removeConnectionInLoop conn :: rest)
    (hobject : s.objects conn = some object) : Accounts (s.removeConnectionInLoop l conn object rest) := by
  have hworks := TcpServer.works_removeConnectionInLoop htodo conn object
  refine ⟨h.opened, h.addressed, h.unfailing, ?_⟩
  intro other object' hother hstate hmapped
  replace hother : s.objects other = some object' := hother
  replace hmapped : Function.update s.connections_ object.name_ none object'.name_ = some other := hmapped
  rw [Function.update_apply] at hmapped
  split at hmapped
  · cases hmapped
  · next hname =>
    refine (h.leaving other object' hother hstate hmapped).of_works hworks fun job hmem => ?_
    have hne : conn ≠ other := by
      rintro rfl
      exact hname (congrArg Object.name_ (Option.mem_unique hother hobject))
    rw [List.mem_singleton.mp hmem]
    simp [Job.parts, hne]

/-- The server takes a new connection on a free address, with a socket that was closed. -/
theorem accepted {l : L} {sockfd address : Nat} {rest : List Job} (h : Accounts s)
    (htodo : s.todos l = .handleRead :: rest) (hfree : s.objects address = none) :
    Accounts (s.newConnection l sockfd address rest) := by
  have hdata := TcpServer.sameData_newConnection s l sockfd address rest
  obtain ⟨new, tasks, hworks, _⟩ := TcpServer.works_newConnection htodo sockfd address
  have hobjects : (s.newConnection l sockfd address rest).objects =
      Function.update s.objects address (some (s.newObject sockfd address)) := hdata.objects
  have hconnections : (s.newConnection l sockfd address rest).connections_ =
      Function.update s.connections_ s.nextConnId_ (some address) := hdata.connections_
  have hdescriptors : (s.newConnection l sockfd address rest).descriptors =
      Function.update s.descriptors sockfd (some address) := hdata.descriptors
  have hpollers : (s.newConnection l sockfd address rest).pollers = s.pollers := hdata.pollers
  refine ⟨?_, ?_, ?_, ?_⟩
  · intro fd conn hopen
    rw [hdescriptors, Function.update_apply] at hopen
    rw [hobjects]
    split at hopen
    · next hfd =>
      cases hopen
      exact ⟨_, Function.update_self _ _ _, hfd.symm⟩
    · obtain ⟨object, hobject, hfd⟩ := h.opened fd conn hopen
      have hne : conn ≠ address := by
        rintro rfl
        rw [hfree] at hobject
        cases hobject
      rw [Function.update_of_ne hne]
      exact ⟨object, hobject, hfd⟩
  · intro conn object hobject
    obtain ⟨rfl, rfl⟩ | ⟨_, hobject⟩ := objects_of_update hobjects hobject
    · rfl
    · exact h.addressed conn object hobject
  · rw [hpollers]
    exact h.unfailing
  · intro conn object hobject hstate hmapped
    obtain ⟨rfl, rfl⟩ | ⟨hne, hobject⟩ := objects_of_update hobjects hobject
    · cases hstate
    · rw [hconnections, Function.update_apply] at hmapped
      split at hmapped
      · exact absurd (Option.some.inj hmapped).symm hne
      · refine (h.leaving conn object hobject hstate hmapped).of_works hworks fun job hmem => ?_
        rw [List.mem_singleton.mp hmem]
        rfl

omit [DecidableEq L] in
/-- The last owner of a connection goes, and its socket is closed. -/
theorem destroyed (h : Accounts s) (hobject : s.objects conn = some object) : Accounts (s.destroy conn object) := by
  have hkeep {other : Nat} {o : Object L} (hother : (s.destroy conn object).objects other = some o) :
      s.objects other = some o := by
    change Function.update s.objects conn none other = some o at hother
    rw [Function.update_apply] at hother
    split at hother
    · cases hother
    · exact hother
  refine ⟨?_, ?_, h.unfailing, ?_⟩
  · intro fd other hopen
    change Function.update s.descriptors object.conn.channel_.fd_ none fd = some other at hopen
    rw [Function.update_apply] at hopen
    split at hopen
    · cases hopen
    · next hfd =>
      obtain ⟨o, hother, hsame⟩ := h.opened fd other hopen
      have hne : other ≠ conn := by
        rintro rfl
        rw [Option.mem_unique hother hobject] at hsame
        exact hfd hsame.symm
      refine ⟨o, ?_, hsame⟩
      change Function.update s.objects conn none other = some o
      rw [Function.update_of_ne hne]
      exact hother
  · exact fun other o hother => h.addressed other o (hkeep hother)
  · exact fun other o hother => h.leaving other o (hkeep hother)

theorem step {i : Input L} (h : Accounts s) (hs : Sound s) (hstep : s.step alloc i = some t) : Accounts t := by
  have hidle {u : TcpServer L} {l target : L} {job : Job} {tasks : List Task}
      (hworks : Works s u l [job] [] target tasks) (hplain : ∀ conn, job.parts conn = false) (conn : Nat)
      (hparting : Parting s conn) : Parting u conn := by
    refine hparting.of_works hworks fun other hmem => ?_
    rw [List.mem_singleton.mp hmem]
    exact hplain conn
  have hnone (l : L) : Works s s l [] [] l [] := Works.idle l l rfl rfl (fun _ => rfl) rfl fun _ => rfl
  cases step_change hstep with
  | advanced l a revents thread htodo _ hadvance => exact h.entered htodo hadvance
  | turned l accepted received written conn a rest object w next htodo hobject hact =>
    exact h.turned hs htodo hobject hact
  | asked l accepted received written conn rest htodo => exact h.asked htodo
  | removed l accepted received written conn rest object htodo hobject => exact h.removed htodo hobject
  | refused l received written rest htodo =>
    exact h.of_data ⟨rfl, rfl, rfl, rfl, rfl⟩ (hidle ((hnone l).setTodo htodo []) fun _ => rfl)
  | accepted l sockfd address received written rest htodo hfree => exact h.accepted htodo hfree
  | called conn call object hobject => exact h.called call hobject
  | adjusted _ conn object c hobject hstate hchannel => exact h.adjusted hobject hstate hchannel
  | returned l job rest htodo hjob =>
    refine h.of_data ⟨rfl, rfl, rfl, rfl, rfl⟩ (hidle ((hnone l).setTodo htodo []) ?_)
    obtain rfl | ⟨conn, rfl⟩ := hjob <;> exact fun _ => rfl
  | queued _ isInLoopThread l =>
    exact h.of_data ⟨rfl, rfl, rfl, rfl, rfl⟩ fun conn hparting =>
      hparting.of_works ((hnone l).queueInLoop isInLoopThread .other) (by simp)
  | quit l isInLoopThread =>
    exact h.of_data ⟨rfl, rfl, rfl, rfl, rfl⟩ fun conn hparting =>
      hparting.of_works (TcpServer.works_quit s l isInLoopThread) (by simp)
  | kept => exact ⟨h.opened, h.addressed, h.unfailing, h.leaving⟩
  | destroyed conn object hobject => exact h.destroyed hobject

/-- The accounts hold in every state that a server reaches while the names are free. -/
theorem of_run (loop_ : L) (loops_ : List L) (writeCompleteCallback_ : Bool)
    (hrun : (server L alloc).Steps NamesFree (.construct loop_ loops_ writeCompleteCallback_) s) :
    Sound s ∧ Accounts s :=
  hrun.invariant (P := fun s => Sound s ∧ Accounts s)
    (fun _ _ _ h hfree hstep => ⟨h.1.step hfree hstep, h.2.step h.1 hstep⟩)
    ⟨construct_sound loop_ loops_ writeCompleteCallback_, construct_accounts loop_ loops_ writeCompleteCallback_⟩

end Accounts

variable [DecidableEq L] {alloc : Nat → Bool}

/-- A connection that its peer closed is removed, and the batches have ended in which that
was done. -/
def acceptedAndReleased : List (Input Bool) :=
  acceptedAndClosed ++ [.advance true .returned fun _ => EPOLLIN, .advance true .endFunctors fun _ => EPOLLIN,
    .advance false .endFunctors fun _ => EPOLLIN]

/-- The connection is destroyed, and the next one gets its descriptor. -/
def socketReused : List (Input Bool) :=
  acceptedAndReleased ++ [.destroy 7,
    .advance false .test fun _ => EPOLLIN, .advance false (.poll [.channel .acceptor]) fun _ => EPOLLIN,
    .advance false .dispatch fun _ => EPOLLIN, .act false (some (5, 9)) (.data []) (.bytes 0)]

/-- The sockets of connections and what the pollers know of them are accounted for in every
state that a server reaches while the names of its connections do not clash, although
closed descriptors are given out again: an open socket is that of exactly one object, no
`epoll_ctl` for a connection has ever failed, and what the kernel watches for a loop, the
wakeup channel and the acceptor's apart, are the registered channels of the loop's
connections, each with its own mask. -/
theorem sockets_accounted_for (loop_ : L) (loops_ : List L) (writeCompleteCallback_ : Bool) {s : TcpServer L}
    (hrun : (server L alloc).Steps NamesFree (.construct loop_ loops_ writeCompleteCallback_) s) :
    (∀ fd conn, s.descriptors fd = some conn ↔
      ∃ object, s.objects conn = some object ∧ object.conn.channel_.fd_ = fd) ∧
    (∀ l, (s.pollers l).exited = false ∧ (s.pollers l).delErrors = 0) ∧
    ∀ l fd event, (s.pollers l).interest fd = some event ↔
      ∃ object, s.objects event.ptr = some object ∧ object.loop_ = l ∧ object.conn.channel_.fd_ = fd ∧
        object.conn.channel_.index_ = .kAdded ∧ event.events = object.conn.channel_.events_ := by
  obtain ⟨hs, haccounts⟩ := Accounts.of_run loop_ loops_ writeCompleteCallback_ hrun
  refine ⟨?_, haccounts.unfailing, ?_⟩
  · intro fd conn
    constructor
    · exact haccounts.opened fd conn
    · rintro ⟨object, hobject, rfl⟩
      exact (hs.kept conn object hobject).descriptor
  · intro l fd event
    constructor
    · intro hevent
      obtain ⟨conn, object, hobject, rfl, rfl⟩ := hs.watched l fd (.inl (by rw [hevent]; simp))
      have hinterest := (hs.kept conn object hobject).agrees.interest_eq
      rw [hevent] at hinterest
      split at hinterest
      · next hadded =>
        cases hinterest
        refine ⟨object, ?_, rfl, rfl, hadded, rfl⟩
        rw [haccounts.addressed conn object hobject]
        exact hobject
      · cases hinterest
    · rintro ⟨object, hobject, rfl, rfl, hadded, hevents⟩
      rw [(hs.kept event.ptr object hobject).agrees.interest_eq, if_pos hadded, ← hevents,
        haccounts.addressed event.ptr object hobject]

theorem sockets_accounted_for_reused :
    ∃ s, (server Bool fun _ => true).run (.construct false [true] false) socketReused = some s ∧
      (∀ fd conn, s.descriptors fd = some conn ↔
        ∃ object, s.objects conn = some object ∧ object.conn.channel_.fd_ = fd) ∧
      (∀ l, (s.pollers l).exited = false ∧ (s.pollers l).delErrors = 0) ∧
      ∀ l fd event, (s.pollers l).interest fd = some event ↔
        ∃ object, s.objects event.ptr = some object ∧ object.loop_ = l ∧ object.conn.channel_.fd_ = fd ∧
          object.conn.channel_.index_ = .kAdded ∧ event.events = object.conn.channel_.events_ := by
  have hruns : ((server Bool fun _ => true).run (.construct false [true] false)
      socketReused).isSome = true := by decide +kernel
  obtain ⟨s, hrun⟩ := Option.isSome_iff_exists.mp hruns
  exact ⟨s, hrun, sockets_accounted_for false [true] false (Machine.steps_of_run hrun (by decide +kernel))⟩

end muduo.tcp_server
