import Muduo.TcpServer.Placed

open transition
open muduo.kernel muduo.buffer muduo.epoll muduo.event_loop
open muduo.tcp_connection (Act Functor Event TcpConnection World Turn Confined)

namespace muduo.tcp_server

variable {L : Type}

/-- What holds for each connection object: it is on one of the server's loops, in a
stage that its work and its place in `connections_` account for, it has a socket of
its own, and its channel agrees with the poller of its loop. -/
structure Kept (s : TcpServer L) (conn : Nat) (object : Object L) : Prop where
  loop_mem : object.loop_ ∈ s.loops
  stage : Stage object.conn object.log (acts conn (s.work object.loop_))
    (s.connections_ object.name_ = some conn) (.removeConnectionInLoop conn ∈ s.work s.loop_)
  descriptor : s.descriptors object.conn.channel_.fd_ = some conn
  agrees : Agrees (s.pollers object.loop_) object.conn.channel_

/-- What holds throughout while the names of connections do not clash. The pollers know
no channels but those of connections on their loops, and a loop's pass only has
channels that are registered. -/
structure Sound (s : TcpServer L) : Prop where
  placed : Placed s
  kept : ∀ conn object, s.objects conn = some object → Kept s conn object
  listed : ∀ l conn, Awaits (.connection conn) (s.threads l).at_ →
    ∃ object, s.objects conn = some object ∧ object.loop_ = l ∧ object.conn.channel_.index_ ≠ .kNew
  watched : ∀ l fd, (s.pollers l).interest fd ≠ none ∨ (s.pollers l).channels_ fd ≠ none →
    ∃ conn object, s.objects conn = some object ∧ object.loop_ = l ∧ object.conn.channel_.fd_ = fd

theorem construct_sound (loop_ : L) (loops_ : List L) (writeCompleteCallback_ : Bool) :
    Sound (TcpServer.construct loop_ loops_ writeCompleteCallback_) := by
  refine ⟨⟨?_, ?_, ?_, ?_, ?_⟩, ?_, ?_, ?_⟩
  · intro l job hmem
    cases hmem
  · intro l task hmem
    cases hmem
  · intro l job hmem
    cases hmem
  · intro l hpass
    cases hpass
  · intro l hawaits
    cases hawaits
  · intro conn object hobject
    cases hobject
  · intro l conn hawaits
    cases hawaits
  · intro l fd hentry
    rcases hentry with hentry | hentry <;> exact absurd rfl hentry

theorem inPass_of_awaits {handler : Handler} {at_ : Location Task Handler} (h : Awaits handler at_) :
    inPass at_ = true := by
  cases at_ with
  | dispatching | handling => rfl
  | outside | testing | polling | swapping | batch | running => cases h

/-- Jobs that are about one connection say the same as far as those jobs are the same. -/
theorem share_eq {conn : Nat} {jobs others : List Job}
    (h : others.filter (Job.owns conn) = jobs.filter (Job.owns conn)) :
    acts conn others = acts conn jobs ∧
      (.removeConnectionInLoop conn ∈ others ↔ .removeConnectionInLoop conn ∈ jobs) := by
  refine ⟨?_, ?_⟩
  · rw [← acts_filter_owns, h, acts_filter_owns]
  · have howns : (Job.removeConnectionInLoop conn).owns conn = true := by simp [Job.owns]
    have hmem (jobs : List Job) : .removeConnectionInLoop conn ∈ jobs ↔
        .removeConnectionInLoop conn ∈ jobs.filter (Job.owns conn) := by simp [howns]
    rw [hmem others, h, ← hmem jobs]

variable {s t : TcpServer L} {conn : Nat} {object : Object L}

/-- A connection is in the same stage as far as the jobs about it are the same. -/
theorem Kept.of_share (h : Kept s conn object)
    (hshare : ∀ m, (t.work m).filter (Job.owns conn) = (s.work m).filter (Job.owns conn)) :
    Stage object.conn object.log (acts conn (t.work object.loop_)) (s.connections_ object.name_ = some conn)
      (.removeConnectionInLoop conn ∈ t.work s.loop_) := by
  rw [(share_eq (hshare object.loop_)).1, propext (share_eq (hshare s.loop_)).2]
  exact h.stage

/-- A connection is unaffected by what happens to others. -/
theorem Kept.of_others (h : Kept s conn object) (hloop : t.loop_ = s.loop_) (hloops : t.loops_ = s.loops_)
    (hshare : ∀ m, (t.work m).filter (Job.owns conn) = (s.work m).filter (Job.owns conn))
    (hmapped : s.connections_ object.name_ = some conn → t.connections_ object.name_ = some conn)
    (hdescriptor : t.descriptors object.conn.channel_.fd_ = s.descriptors object.conn.channel_.fd_)
    (hagrees : Agrees (t.pollers object.loop_) object.conn.channel_) : Kept t conn object := by
  refine ⟨?_, ?_, hdescriptor.trans h.descriptor, hagrees⟩
  · rw [TcpServer.loops, hloop, hloops]
    exact h.loop_mem
  · rw [hloop]
    exact (h.of_share hshare).of_conn rfl rfl rfl hmapped

/-- The thread that has a job about a connection owns it. -/
theorem Placed.ownedBy_of_work (h : Placed s) {l : L} {job : Job} (hmem : job ∈ s.work l)
    (howns : job.owns conn = true) : s.ownedBy conn l = true := by
  rcases List.mem_append.mp hmem with hmem | hmem
  · have hany : (s.todos l).any (Job.owns conn) = true := List.any_eq_true.mpr ⟨job, hmem, howns⟩
    simp [TcpServer.ownedBy, hany]
  · obtain ⟨task, htask, rfl⟩ := List.mem_map.mp hmem
    have hbound := h.bound l task htask
    have htaskOwns : task.owns conn = true := by
      cases task with
      | connection bound functor =>
        have hsame : bound = conn := by simpa [Task.entry, Job.owns] using howns
        have hshared : isShared functor = true := hbound
        simp [Task.owns, hsame, hshared]
      | removeConnectionInLoop bound => exact howns
      | other => cases howns
    have hany : (s.threads l).queue.any (Task.owns conn) = true := List.any_eq_true.mpr ⟨task, htask, htaskOwns⟩
    simp [TcpServer.ownedBy, hany]

/-- A job that is about a connection keeps it alive. -/
theorem Placed.owned_of_work (h : Placed s) {l : L} (hl : l ∈ s.loops) {job : Job} (hmem : job ∈ s.work l)
    (howns : job.owns conn = true) : s.owned conn = true := by
  have hany : s.loops.any (s.ownedBy conn) = true :=
    List.any_eq_true.mpr ⟨l, hl, h.ownedBy_of_work hmem howns⟩
  simp [TcpServer.owned, hany]

/-- The only act ahead of a new connection is `connectEstablished`. -/
theorem acts_of_new [DecidableEq L] {l target : L} {job : Job} {new : List Job} {tasks : List Task}
    (hworks : Works s t l [job] new target tasks) (hunknown : ∀ m, ∀ job ∈ s.work m, job.owns conn = false)
    (hnew : l = target ∧ new = [.connection conn (.call .connectEstablished)] ∧ tasks = [] ∨
      new = [] ∧ tasks = [.connection conn .connectEstablished]) :
    acts conn (t.work target) = [.call .connectEstablished] := by
  have hnothing {jobs : List Job} (hjobs : ∀ job ∈ jobs, job.owns conn = false) : acts conn jobs = [] := by
    apply List.eq_nil_iff_forall_not_mem.mpr
    intro a hmem
    have hnot := hjobs _ (mem_acts.mp hmem)
    simp [Job.owns] at hnot
  obtain ⟨rfl, rfl, rfl⟩ | ⟨rfl, rfl⟩ := hnew
  · obtain ⟨rest, _, hbefore, hafter⟩ := hworks.work_self
    have hrest : acts conn (rest ++ (s.threads l).queue.map Task.entry) = [] := by
      apply hnothing
      intro other hmem
      refine hunknown l other ?_
      rw [hbefore]
      exact List.mem_append_right _ hmem
    rw [hafter, if_pos rfl, List.map_nil, List.append_nil, acts_append, acts_self, hrest, List.append_nil]
  · have hjob : acts conn [job] = [] := by
      apply hnothing
      intro other hmem
      obtain ⟨rest, _, hbefore, _⟩ := hworks.work_self
      refine hunknown l other ?_
      rw [hbefore]
      exact List.mem_append_left _ hmem
    rw [hworks.acts_eq hjob rfl, if_pos rfl, hnothing (hunknown target), ← List.map_singleton, acts_entry_self]
    rfl

/-- The objects after one of them has been replaced, or added. -/
theorem objects_of_update {object' : Object L} {other : Nat} {o : Object L}
    (hobjects : t.objects = Function.update s.objects conn (some object')) (hother : t.objects other = some o) :
    other = conn ∧ o = object' ∨ other ≠ conn ∧ s.objects other = some o := by
  rw [hobjects] at hother
  by_cases hne : other = conn
  · subst hne
    rw [Function.update_self] at hother
    exact .inl ⟨rfl, (Option.some.inj hother).symm⟩
  · rw [Function.update_of_ne hne] at hother
    exact .inr ⟨hne, hother⟩

theorem objects_update {object' : Object L} {other : Nat} {o : Object L} (hobject : s.objects conn = some object)
    (hobjects : t.objects = Function.update s.objects conn (some object')) (hother : s.objects other = some o) :
    o = object ∧ t.objects other = some object' ∨ t.objects other = some o := by
  rw [hobjects]
  by_cases hne : other = conn
  · subst hne
    rw [Function.update_self]
    exact .inl ⟨Option.mem_unique hother hobject, rfl⟩
  · rw [Function.update_of_ne hne]
    exact .inr hother

namespace Sound

/-- A connection is owned as long as its poller knows its channel. -/
theorem owned_of_index (h : Sound s) (hobject : s.objects conn = some object)
    (hindex : object.conn.channel_.index_ ≠ .kNew) : s.owned conn = true := by
  have hkept := h.kept conn object hobject
  have hmappedOwned (hmapped : s.connections_ object.name_ = some conn) : s.owned conn = true := by
    simp [TcpServer.owned, TcpServer.mapped, hobject, hmapped]
  cases hkept.stage with
  | connecting _ hnew => exact absurd hnew hindex
  | up _ _ _ _ _ hmapped => exact hmappedOwned hmapped
  | down _ _ _ _ howed =>
    rcases howed hindex with hremoving | ⟨a, hmem, _⟩
    · exact h.placed.owned_of_work List.mem_cons_self hremoving (by simp [Job.owns])
    · exact h.placed.owned_of_work hkept.loop_mem (mem_acts.mp hmem) (by simp [Job.owns])

/-- Only the threads of the server's loops have jobs about connections. -/
theorem loop_mem_of_work (h : Sound s) {l : L} {job : Job} (hmem : job ∈ s.work l) (howns : job.owns conn = true) :
    l ∈ s.loops := by
  have hproper := h.placed.proper l job hmem
  cases job with
  | connection bound a =>
    obtain ⟨object, hobject, hloop⟩ := Option.map_eq_some_iff.mp hproper
    rw [← hloop]
    exact (h.kept bound object hobject).loop_mem
  | removeConnectionInLoop bound =>
    rw [hproper.1]
    exact List.mem_cons_self
  | handleRead | user => cases howns

/-- Nothing is to be done on a connection that is not owned. -/
theorem not_owns (h : Sound s) (howned : s.owned conn = false) {l : L} {job : Job} (hmem : job ∈ s.work l) :
    job.owns conn = false := by
  by_contra howns
  have hyes : job.owns conn = true := by simpa using howns
  rw [h.placed.owned_of_work (h.loop_mem_of_work hmem hyes) hmem hyes] at howned
  cases howned

/-- Two connections have different sockets. -/
theorem fd_ne (h : Sound s) {other : Nat} {object' : Object L} (hobject : s.objects conn = some object)
    (hother : s.objects other = some object') (hne : other ≠ conn) :
    object'.conn.channel_.fd_ ≠ object.conn.channel_.fd_ := by
  intro heq
  have hfd := (h.kept conn object hobject).descriptor
  have hfd' := (h.kept other object' hother).descriptor
  rw [heq, hfd] at hfd'
  exact hne (Option.some.inj hfd').symm

/-- What is behind an act of a connection is plain or queued. -/
theorem waits (h : Sound s) {l : L} {job : Job} {rest : List Job} (htodo : s.todos l = job :: rest) (conn : Nat) :
    Stage.Waits (acts conn (rest ++ (s.threads l).queue.map Task.entry)) := by
  intro b hmem
  rcases List.mem_append.mp (mem_acts.mp hmem) with hmem | hmem
  · left
    refine h.placed.tails l (.connection conn b) ?_
    rw [htodo]
    exact hmem
  · right
    obtain ⟨task, htask, hentry⟩ := List.mem_map.mp hmem
    have hbound := h.placed.bound l task htask
    cases task with
    | connection bound functor =>
      obtain ⟨_, rfl⟩ := Job.connection.inj hentry
      exact ⟨functor, hbound, rfl⟩
    | removeConnectionInLoop | other => cases hentry

/-- No job is about an object that does not exist. -/
theorem unknown (h : Sound s) (hfree : s.objects conn = none) : ∀ m, ∀ job ∈ s.work m, job.owns conn = false := by
  intro m job hmem
  by_contra howns
  refine (h.placed.proper m job hmem).home_ne_none (by simpa using howns) ?_
  rw [TcpServer.home, hfree, Option.map_none]

/-- No poller knows a descriptor that is closed. -/
theorem unwatched (h : Sound s) {fd : Nat} (hclosed : s.descriptors fd = none) (l : L) :
    (s.pollers l).interest fd = none ∧ (s.pollers l).channels_ fd = none := by
  have hentries (hentry : (s.pollers l).interest fd ≠ none ∨ (s.pollers l).channels_ fd ≠ none) : False := by
    obtain ⟨other, object', hother, _, hfd⟩ := h.watched l fd hentry
    have hopen := (h.kept other object' hother).descriptor
    rw [hfd, hclosed] at hopen
    cases hopen
  refine ⟨?_, ?_⟩
  · by_contra hentry
    exact hentries (.inl hentry)
  · by_contra hentry
    exact hentries (.inr hentry)

/-- A step that leaves the objects on their loops, with their sockets, and the channels of
a pass registered. -/
theorem of_objects (s : TcpServer L) (hplaced : Placed t)
    (hkept : ∀ conn object, t.objects conn = some object → Kept t conn object)
    (hlisted : ∀ m conn, Awaits (.connection conn) (t.threads m).at_ →
      ∃ object, s.objects conn = some object ∧ object.loop_ = m ∧ object.conn.channel_.index_ ≠ .kNew)
    (hwatched : ∀ m fd, (t.pollers m).interest fd ≠ none ∨ (t.pollers m).channels_ fd ≠ none →
      ∃ conn object, s.objects conn = some object ∧ object.loop_ = m ∧ object.conn.channel_.fd_ = fd)
    (hsame : ∀ conn object, s.objects conn = some object → ∃ object', t.objects conn = some object' ∧
      object'.loop_ = object.loop_ ∧ object'.conn.channel_.fd_ = object.conn.channel_.fd_ ∧
      (inPass (t.threads object.loop_).at_ = true → object.conn.channel_.index_ ≠ .kNew →
        object'.conn.channel_.index_ ≠ .kNew)) : Sound t := by
  refine ⟨hplaced, hkept, ?_, ?_⟩
  · intro m conn hawaits
    obtain ⟨object, hobject, hloop, hindex⟩ := hlisted m conn hawaits
    obtain ⟨object', hobject', hloop', _, hknown⟩ := hsame conn object hobject
    subst hloop
    exact ⟨object', hobject', hloop', hknown (inPass_of_awaits hawaits) hindex⟩
  · intro m fd hentry
    obtain ⟨conn, object, hobject, hloop, hfd⟩ := hwatched m fd hentry
    obtain ⟨object', hobject', hloop', hfd', _⟩ := hsame conn object hobject
    exact ⟨conn, object', hobject', hloop'.trans hloop, hfd'.trans hfd⟩

variable [DecidableEq L]

/-- A step that works on no connection's data. -/
theorem of_data {l target : L} {done new : List Job} {tasks : List Task} (h : Sound s) (hplaced : Placed t)
    (hworks : Works s t l done new target tasks) (hdata : TcpServer.SameData s t)
    (hstage : ∀ conn object, s.objects conn = some object → Stage object.conn object.log
      (acts conn (t.work object.loop_)) (s.connections_ object.name_ = some conn)
      (.removeConnectionInLoop conn ∈ t.work s.loop_)) : Sound t := by
  refine ⟨hplaced, ?_, ?_, ?_⟩
  · intro conn object hobject
    rw [hdata.objects] at hobject
    obtain ⟨hmem, _, hfd, hagrees⟩ := h.kept conn object hobject
    refine ⟨?_, ?_, ?_, ?_⟩
    · rw [TcpServer.loops, hworks.loop_, hworks.loops_]
      exact hmem
    · rw [hdata.connections_, hworks.loop_]
      exact hstage conn object hobject
    · rw [hdata.descriptors]
      exact hfd
    · rw [hdata.pollers]
      exact hagrees
  · intro m conn hawaits
    rw [hworks.at_] at hawaits
    rw [hdata.objects]
    exact h.listed m conn hawaits
  · intro m fd hentry
    rw [hdata.pollers] at hentry
    rw [hdata.objects]
    exact h.watched m fd hentry

/-- A step that only does, or queues, what is not about any connection. -/
theorem of_plain {l target : L} {done new : List Job} {tasks : List Task} (h : Sound s) (hplaced : Placed t)
    (hworks : Works s t l done new target tasks) (hdata : TcpServer.SameData s t)
    (hdone : ∀ conn, ∀ job ∈ done, job.owns conn = false) (hnew : ∀ conn, ∀ job ∈ new, job.owns conn = false)
    (htasks : ∀ conn, ∀ task ∈ tasks, task.entry.owns conn = false) : Sound t := by
  refine h.of_data hplaced hworks hdata ?_
  intro conn object hobject
  exact (h.kept conn object hobject).of_share
    (hworks.filter_eq (Job.owns conn) (hdone conn) (hnew conn) (htasks conn))

/-- A step that leaves both the work and the data alone. -/
theorem of_idle {l target : L} (h : Sound s) (hworks : Works s t l [] [] target [])
    (hdata : TcpServer.SameData s t) : Sound t := by
  have hhome : t.home = s.home := by
    unfold TcpServer.home
    rw [hdata.objects]
  refine h.of_plain ?_ hworks hdata (by simp) (by simp) (by simp)
  refine h.placed.of_works hworks ?_ (by simp) (by simp) (by simp) (.inr (.inl rfl)) (by simp)
  intro m job hmem
  rw [hhome]
  exact h.placed.proper m job hmem

/-- `accept` has failed. -/
theorem refused {l : L} {rest : List Job} (h : Sound s) (htodo : s.todos l = .handleRead :: rest) :
    Sound (s.setTodo l rest) := by
  have hworks : Works s (s.setTodo l rest) l [.handleRead] [] l [] :=
    (Works.idle l l rfl rfl (fun _ => rfl) rfl fun _ => rfl).setTodo htodo []
  refine h.of_plain ?_ hworks ⟨rfl, rfl, rfl, rfl, rfl⟩ ?_ (by simp) (by simp)
  · exact h.placed.of_done hworks rfl (by simp) (by simp) (by simp) (by simp)
  · intro conn job hmem
    rw [List.mem_singleton.mp hmem]
    rfl

/-- User code returns. -/
theorem returned {l : L} {job : Job} {rest : List Job} (h : Sound s) (htodo : s.todos l = job :: rest)
    (hjob : job = .user ∨ ∃ conn, job = .connection conn .user) : Sound (s.setTodo l rest) := by
  have hworks : Works s (s.setTodo l rest) l [job] [] l [] :=
    (Works.idle l l rfl rfl (fun _ => rfl) rfl fun _ => rfl).setTodo htodo []
  have hplaced : Placed (s.setTodo l rest) :=
    h.placed.of_done hworks rfl (by simp) (by simp) (by simp) (by simp)
  refine h.of_data hplaced hworks ⟨rfl, rfl, rfl, rfl, rfl⟩ ?_
  intro conn object hobject
  have hkept := h.kept conn object hobject
  by_cases howns : job.owns conn = true
  · rcases hjob with rfl | ⟨other, rfl⟩
    · cases howns
    · obtain rfl : other = conn := by simpa [Job.owns] using howns
      have hloop := h.placed.loop_eq htodo hobject
      subst hloop
      obtain ⟨behind, _, hbefore, hafter⟩ := hworks.acts_head
      have hstage := hkept.stage
      rw [hbefore] at hstage
      rw [hafter, List.map_nil, ite_self, acts_nil, List.nil_append, List.append_nil,
        propext (hworks.mem_iff (by simp) (by simp) (by simp) s.loop_)]
      exact hstage.returned
  · exact hkept.of_share (hworks.filter_eq (Job.owns conn) (by simpa using howns) (by simp) (by simp))

/-- The server is asked for the removal of a connection. -/
theorem asked {l : L} {rest : List Job} (h : Sound s) (htodo : s.todos l = .connection conn .removeConnection :: rest) :
    Sound (s.removeConnection l conn rest) := by
  have hplaced := h.placed.asked htodo
  obtain ⟨new, tasks, hworks, hnew⟩ := TcpServer.works_removeConnection htodo conn
  have hasked : .removeConnectionInLoop conn ∈ (s.removeConnection l conn rest).work s.loop_ := by
    obtain ⟨hbase, rfl, rfl⟩ | ⟨rfl, rfl⟩ := hnew
    · obtain ⟨behind, _, _, hafter⟩ := hworks.work_self
      rw [← hbase, hafter]
      simp
    · rw [TcpServer.work, hworks.queue, if_pos rfl]
      simp [Task.entry]
  have hmade (other : Nat) (hother : conn ≠ other) : (∀ job ∈ new, job.owns other = false) ∧
      ∀ task ∈ tasks, task.entry.owns other = false := by
    obtain ⟨_, rfl, rfl⟩ | ⟨rfl, rfl⟩ := hnew <;> simp [Job.owns, Task.entry, hother]
  have hnone : acts conn new = [] ∧ ∀ m, acts conn (if m = s.loop_ then tasks.map Task.entry else []) = [] := by
    obtain ⟨_, rfl, rfl⟩ | ⟨rfl, rfl⟩ := hnew
    · exact ⟨rfl, fun m => by rw [List.map_nil, ite_self, acts_nil]⟩
    · refine ⟨rfl, fun m => ?_⟩
      split <;> rfl
  refine h.of_data hplaced hworks (TcpServer.sameData_removeConnection s l conn rest) ?_
  intro other object hobject
  have hkept := h.kept other object hobject
  by_cases hother : conn = other
  · subst hother
    have hloop := h.placed.loop_eq htodo hobject
    subst hloop
    obtain ⟨behind, _, hbefore, hafter⟩ := hworks.acts_head
    have hstage := hkept.stage
    rw [hbefore] at hstage
    rw [hafter, hnone.1, hnone.2, List.nil_append, List.append_nil]
    exact hstage.removed hasked
  · exact hkept.of_share (hworks.filter_eq (Job.owns other) (by simp [Job.owns, hother]) (hmade other hother).1
      (hmade other hother).2)

/-- The code of a connection has worked on its world, on its own loop. -/
theorem resumed {done rest : List Job} {w : World} {next : List Act} (h : Sound s)
    (hobject : s.objects conn = some object) (htodo : s.todos object.loop_ = done ++ rest)
    (hdone : ∀ job ∈ done, ∃ a, job = .connection conn a)
    (hplaced : Placed (s.resume object.loop_ conn object w (next.map (.connection conn) ++ rest)))
    (hconfined : Confined (s.world object) w)
    (hindex : inPass (s.threads object.loop_).at_ = true → object.conn.channel_.index_ ≠ .kNew →
      w.conn.channel_.index_ ≠ .kNew)
    (hstage : ∀ removing : Prop, (removing ↔ .removeConnectionInLoop conn ∈ s.work s.loop_) → Stage w.conn w.log
      (acts conn ((s.resume object.loop_ conn object w (next.map (.connection conn) ++ rest)).work object.loop_))
      (s.connections_ object.name_ = some conn) removing) :
    Sound (s.resume object.loop_ conn object w (next.map (.connection conn) ++ rest)) := by
  have hworks := TcpServer.works_resume htodo conn object w (next.map (.connection conn))
  have hdata := TcpServer.sameData_resume s object.loop_ conn object w (next.map (.connection conn) ++ rest)
  generalize s.resume object.loop_ conn object w (next.map (.connection conn) ++ rest) = t at *
  have hobjects : t.objects = Function.update s.objects conn (some { object with conn := w.conn, log := w.log }) :=
    hdata.objects
  have hpollers : t.pollers = Function.update s.pollers object.loop_ w.poller := hdata.pollers
  have hconnections : t.connections_ = s.connections_ := hdata.connections_
  have hdescriptors : t.descriptors = s.descriptors := hdata.descriptors
  have hkept := h.kept conn object hobject
  have hself : Kept t conn { object with conn := w.conn, log := w.log } := by
    refine ⟨?_, ?_, ?_, ?_⟩
    · rw [TcpServer.loops, hworks.loop_, hworks.loops_]
      exact hkept.loop_mem
    · rw [hconnections, hworks.loop_]
      refine hstage _ (hworks.mem_iff ?_ (by simp) ?_ s.loop_)
      · intro hmem
        obtain ⟨a, heq⟩ := hdone _ hmem
        cases heq
      · simp [Task.entry]
    · rw [hdescriptors, hconfined.fd_eq]
      exact hkept.descriptor
    · rw [hpollers]
      simpa using hconfined.agrees hkept.agrees
  have hothers {other : Nat} {object' : Object L} (hne : other ≠ conn) (hother : s.objects other = some object') :
      Kept t other object' := by
    have hbefore := h.kept other object' hother
    refine hbefore.of_others hworks.loop_ hworks.loops_ ?_ ?_ ?_ ?_
    · refine hworks.filter_eq (Job.owns other) ?_ ?_ ?_
      · intro job hmem
        obtain ⟨a, rfl⟩ := hdone job hmem
        simp [Job.owns, Ne.symm hne]
      · simp [Job.owns, Ne.symm hne]
      · simp [Task.entry, Job.owns, Ne.symm hne]
    · rw [hconnections]
      exact id
    · rw [hdescriptors]
    · rw [hpollers]
      by_cases hloop : object'.loop_ = object.loop_
      · obtain ⟨hinterest, hchannels⟩ := hconfined.frame hkept.agrees _ (h.fd_ne hobject hother hne)
        have hagrees := hbefore.agrees
        rw [hloop] at hagrees
        rw [hloop, Function.update_self]
        exact hagrees.of_entries hinterest hchannels
      · rw [Function.update_of_ne hloop]
        exact hbefore.agrees
  refine of_objects s hplaced ?_ ?_ ?_ ?_
  · intro other object' hother
    rcases objects_of_update hobjects hother with ⟨rfl, rfl⟩ | ⟨hne, hother⟩
    · exact hself
    · exact hothers hne hother
  · intro m other hawaits
    rw [hworks.at_] at hawaits
    exact h.listed m other hawaits
  · intro m fd hentry
    rw [hpollers] at hentry
    by_cases hm : m = object.loop_
    · subst hm
      by_cases hfd : fd = object.conn.channel_.fd_
      · exact ⟨conn, object, hobject, rfl, hfd.symm⟩
      · obtain ⟨hinterest, hchannels⟩ := hconfined.frame hkept.agrees fd hfd
        rw [Function.update_self, hinterest, hchannels] at hentry
        exact h.watched object.loop_ fd hentry
    · rw [Function.update_of_ne hm] at hentry
      exact h.watched m fd hentry
  · intro other object' hother
    rcases objects_update hobject hobjects hother with ⟨rfl, hafter⟩ | hafter
    · refine ⟨_, hafter, rfl, hconfined.fd_eq, ?_⟩
      rw [hworks.at_]
      exact hindex
    · exact ⟨object', hafter, rfl, rfl, fun _ => id⟩

/-- An act of the code of a connection. -/
theorem turned {l : L} {received : Received} {written : Written} {a : Act} {rest : List Job} {w : World}
    {next : List Act} (h : Sound s) (htodo : s.todos l = .connection conn a :: rest)
    (hobject : s.objects conn = some object) (hturn : Turn received written (s.world object) a w next) :
    Sound (s.resume l conn object w (next.map (.connection conn) ++ rest)) := by
  have hloop := h.placed.loop_eq htodo hobject
  subst hloop
  have hkept := h.kept conn object hobject
  have hworks : Works s (s.resume object.loop_ conn object w (next.map (.connection conn) ++ rest)) object.loop_
      [.connection conn a] (next.map (.connection conn)) object.loop_ (w.queued.map (.connection conn)) :=
    TcpServer.works_resume htodo conn object w _
  obtain ⟨behind, hbehind, hbefore, hafter⟩ := hworks.acts_head
  obtain rfl : rest = behind := by
    rw [htodo] at hbehind
    exact (List.cons.inj hbehind).2
  have hstage := hkept.stage
  rw [hbefore] at hstage
  have hresend (functor : Functor) (ha : a = .queue functor) : functor.isResend = true := by
    subst ha
    cases hstage with
    | connecting _ _ hahead => cases hahead
    | up _ _ _ _ hahead => exact hahead _ List.mem_cons_self
    | down _ _ _ hahead => exact hahead _ List.mem_cons_self
  refine h.resumed hobject (show s.todos object.loop_ = [.connection conn a] ++ rest from htodo) ?_
    (h.placed.turned htodo hobject hturn hresend) hturn.confined ?_ ?_
  · intro job hmem
    exact ⟨a, List.mem_singleton.mp hmem⟩
  · intro hpass hknown
    refine hturn.index ?_ hknown
    rintro rfl
    have hgentle := h.placed.gentle object.loop_ hpass conn .remove (by rw [htodo]; exact List.mem_cons_self)
    cases hgentle
  · intro removing hremoving
    rw [propext hremoving, hafter, if_pos rfl, acts_map_self, acts_entry_self]
    exact hstage.turn hturn rfl (h.waits htodo conn)

/-- User code on its own thread calls a method of a connection. -/
theorem called (h : Sound s) (call : tcp_connection.Call) (hobject : s.objects conn = some object)
    (huser : s.userRuns object.loop_ = true) :
    Sound (s.resume object.loop_ conn object ((s.world object).ownCall call).1
      (((s.world object).ownCall call).2.map (.connection conn) ++ s.todos object.loop_)) := by
  obtain ⟨hchannel, hpoller, hqueued, _⟩ := ownCall_spec (s.world object) call
  have hworks := TcpServer.works_ownCall s conn object call
  refine h.resumed hobject (List.nil_append _).symm (by simp) (h.placed.called call hobject huser)
    (.of_eq hchannel hpoller) ?_ ?_
  · rw [hchannel]
    exact fun _ => id
  · intro removing hremoving
    have hstage := (h.kept conn object hobject).stage
    obtain ⟨rest, hrest, hbefore, hafter⟩ := hworks.work_self
    rw [List.nil_append] at hrest hbefore
    rw [hbefore] at hstage
    rw [propext hremoving, hafter, if_pos rfl, hqueued]
    simp only [TcpServer.world, List.map_nil, List.append_nil, acts_append, acts_map_self] at hstage ⊢
    exact Stage.called (w := s.world object) hstage call

/-- User code changes a connection in a way that its channel does not see. -/
theorem adjusted {c : TcpConnection} (h : Sound s) (hobject : s.objects conn = some object)
    (hstate : c.state_ = object.conn.state_) (hchannel : c.channel_ = object.conn.channel_) :
    Sound (s.setObject conn { object with conn := c }) := by
  have hobjects : (s.setObject conn { object with conn := c }).objects =
      Function.update s.objects conn (some { object with conn := c }) := rfl
  have hplaced : Placed (s.setObject conn { object with conn := c }) :=
    h.placed.of_idle (home_setObject hobject (by rfl) hobjects) rfl rfl (fun _ => rfl) rfl fun _ => rfl
  refine of_objects s hplaced ?_ h.listed h.watched ?_
  · intro other object' hother
    rcases objects_of_update hobjects hother with ⟨rfl, rfl⟩ | ⟨_, hother⟩
    · obtain ⟨hmem, hstage, hfd, hagrees⟩ := h.kept other object hobject
      refine ⟨hmem, ?_, ?_, ?_⟩
      · exact hstage.of_conn hstate (congrArg Channel.events_ hchannel) (congrArg Channel.index_ hchannel) id
      · rw [hchannel]
        exact hfd
      · rw [hchannel]
        exact hagrees
    · obtain ⟨hmem, hstage, hfd, hagrees⟩ := h.kept other object' hother
      exact ⟨hmem, hstage, hfd, hagrees⟩
  · intro other object' hother
    rcases objects_update hobject hobjects hother with ⟨rfl, hafter⟩ | hafter
    · refine ⟨_, hafter, rfl, congrArg Channel.fd_ hchannel, fun _ => ?_⟩
      rw [hchannel]
      exact id
    · exact ⟨object', hafter, rfl, rfl, fun _ => id⟩

/-- The server removes a connection, and erases no other one. -/
theorem removed {l : L} {rest : List Job} (h : Sound s) (htodo : s.todos l = .removeConnectionInLoop conn :: rest)
    (hobject : s.objects conn = some object)
    (hname : s.connections_ object.name_ = none ∨ s.connections_ object.name_ = some conn) :
    Sound (s.removeConnectionInLoop l conn object rest) := by
  have hplaced := h.placed.removed htodo hobject
  have hworks := TcpServer.works_removeConnectionInLoop htodo conn object
  have hremoving : .removeConnectionInLoop conn ∈ s.work s.loop_ := by
    have hproper := h.placed.head htodo
    rw [← hproper.1, TcpServer.work, htodo]
    exact List.mem_append_left _ List.mem_cons_self
  refine ⟨hplaced, ?_, ?_, h.watched⟩
  · intro other object' hother
    replace hother : s.objects other = some object' := hother
    have hkept := h.kept other object' hother
    by_cases hne : conn = other
    · subst hne
      obtain rfl : object = object' := Option.mem_unique hobject hother
      refine ⟨hkept.loop_mem, ?_, hkept.descriptor, hkept.agrees⟩
      rw [hworks.acts_eq rfl rfl, if_pos rfl, ← List.map_singleton, acts_entry_self]
      exact hkept.stage.destroying hremoving
    · refine hkept.of_others hworks.loop_ hworks.loops_ (hworks.filter_eq (Job.owns other) (by simp [Job.owns, hne])
        (by simp) (by simp [Task.entry, Job.owns, hne])) (fun hmapped => ?_) rfl hkept.agrees
      have hnames : object'.name_ ≠ object.name_ := by
        intro heq
        rw [heq] at hmapped
        rcases hname with hnone | hsome
        · rw [hnone] at hmapped
          cases hmapped
        · rw [hsome] at hmapped
          exact hne (Option.some.inj hmapped)
      change Function.update s.connections_ object.name_ none object'.name_ = some other
      rw [Function.update_of_ne hnames]
      exact hmapped
  · intro m other hawaits
    rw [hworks.at_] at hawaits
    exact h.listed m other hawaits

/-- The last owner of a connection goes. -/
theorem destroyed (h : Sound s) (hobject : s.objects conn = some object) (howned : s.owned conn = false) :
    Sound (s.destroy conn object) := by
  have hnew : object.conn.channel_.index_ = .kNew := by
    by_contra hindex
    rw [h.owned_of_index hobject hindex] at howned
    cases howned
  have hkeep {other : Nat} {object' : Object L} (hother : s.objects other = some object') (hne : other ≠ conn) :
      (s.destroy conn object).objects other = some object' := by
    change Function.update s.objects conn none other = some object'
    rw [Function.update_of_ne hne]
    exact hother
  have hplaced : Placed (s.destroy conn object) := by
    refine h.placed.of_works (Works.idle s.loop_ s.loop_ rfl rfl (fun _ => rfl) rfl fun _ => rfl) ?_ (by simp)
      (by simp) (by simp) (.inr (.inl rfl)) (by simp)
    intro m job hmem
    refine (h.placed.proper m job hmem).mono fun other k howns hhome => ?_
    have hne : other ≠ conn := by
      rintro rfl
      rw [h.not_owns howned hmem] at howns
      cases howns
    obtain ⟨object', hother, hloop⟩ := Option.map_eq_some_iff.mp hhome
    rw [TcpServer.home, hkeep hother hne, Option.map_some, hloop]
  refine ⟨hplaced, ?_, ?_, ?_⟩
  · intro other object' hother
    have hne : other ≠ conn := by
      rintro rfl
      change Function.update s.objects other none other = some object' at hother
      rw [Function.update_self] at hother
      cases hother
    have hother' : s.objects other = some object' := by
      change Function.update s.objects conn none other = some object' at hother
      rw [Function.update_of_ne hne] at hother
      exact hother
    obtain ⟨hmem, hstage, hfd, hagrees⟩ := h.kept other object' hother'
    refine ⟨hmem, hstage, ?_, hagrees⟩
    change Function.update s.descriptors object.conn.channel_.fd_ none object'.conn.channel_.fd_ = some other
    rw [Function.update_of_ne (h.fd_ne hobject hother' hne)]
    exact hfd
  · intro m other hawaits
    obtain ⟨object', hother, hloop, hindex⟩ := h.listed m other hawaits
    have hne : other ≠ conn := by
      rintro rfl
      rw [hobject] at hother
      cases hother
      exact hindex hnew
    exact ⟨object', hkeep hother hne, hloop, hindex⟩
  · intro m fd hentry
    obtain ⟨other, object', hother, hloop, hfd⟩ := h.watched m fd hentry
    have hne : other ≠ conn := by
      rintro rfl
      rw [hobject] at hother
      cases hother
      obtain ⟨hinterest, hchannels⟩ := (h.kept other object hobject).agrees
      rw [hloop, hfd, hnew] at hinterest hchannels
      rcases hentry with hentry | hentry
      · exact hentry hinterest
      · exact hentry hchannels
    exact ⟨other, object', hkeep hother hne, hloop, hfd⟩

/-- The server takes a new connection under a name that is free. -/
theorem accepted {l : L} {sockfd address : Nat} {rest : List Job} (h : Sound s)
    (htodo : s.todos l = .handleRead :: rest) (hfree : s.objects address = none)
    (hclosed : s.descriptors sockfd = none) (hname : s.connections_ s.nextConnId_ = none) :
    Sound (s.newConnection l sockfd address rest) := by
  have hplaced : Placed (s.newConnection l sockfd address rest) := h.placed.accepted htodo hfree
  have hdata := TcpServer.sameData_newConnection s l sockfd address rest
  obtain ⟨new, tasks, hworks, hnew⟩ := TcpServer.works_newConnection htodo sockfd address
  generalize s.newConnection l sockfd address rest = t at *
  have hobjects : t.objects = Function.update s.objects address (some (s.newObject sockfd address)) := hdata.objects
  have hconnections : t.connections_ = Function.update s.connections_ s.nextConnId_ (some address) :=
    hdata.connections_
  have hdescriptors : t.descriptors = Function.update s.descriptors sockfd (some address) := hdata.descriptors
  have hpollers : t.pollers = s.pollers := hdata.pollers
  have hunknown := h.unknown hfree
  have hself : Kept t address (s.newObject sockfd address) := by
    have hremoval : .removeConnectionInLoop address ∉ t.work t.loop_ := by
      intro hremoving
      rcases hworks.mem_work hremoving with hmem | ⟨_, hmem⟩ | ⟨_, task, hmem, htask⟩
      · have howns := hunknown _ _ hmem
        simp [Job.owns] at howns
      · obtain ⟨_, rfl, _⟩ | ⟨rfl, _⟩ := hnew
        · cases List.mem_singleton.mp hmem
        · cases hmem
      · obtain ⟨_, _, rfl⟩ | ⟨_, rfl⟩ := hnew
        · cases hmem
        · rw [List.mem_singleton.mp hmem] at htask
          cases htask
    obtain ⟨hinterest, hchannels⟩ := h.unwatched hclosed s.getNextLoop.1
    refine ⟨?_, .connecting rfl rfl (acts_of_new hworks hunknown hnew) ?_ hremoval, ?_, ?_⟩
    · rw [TcpServer.loops, hworks.loop_, hworks.loops_]
      exact TcpServer.getNextLoop_mem s
    · rw [hconnections]
      exact Function.update_self _ _ _
    · rw [hdescriptors]
      exact Function.update_self _ _ _
    · rw [hpollers]
      exact ⟨hinterest, hchannels⟩
  have hothers {other : Nat} {object' : Object L} (hne : other ≠ address) (hother : s.objects other = some object') :
      Kept t other object' := by
    have hkept := h.kept other object' hother
    have hmade : (∀ job ∈ new, job.owns other = false) ∧ ∀ task ∈ tasks, task.entry.owns other = false := by
      obtain ⟨_, rfl, rfl⟩ | ⟨rfl, rfl⟩ := hnew <;> simp [Job.owns, Task.entry, Ne.symm hne]
    refine hkept.of_others hworks.loop_ hworks.loops_
      (hworks.filter_eq (Job.owns other) (by simp [Job.owns]) hmade.1 hmade.2) ?_ ?_ ?_
    · intro hmapped
      have hnames : object'.name_ ≠ s.nextConnId_ := by
        intro heq
        rw [heq, hname] at hmapped
        cases hmapped
      rw [hconnections, Function.update_of_ne hnames]
      exact hmapped
    · have hfd : object'.conn.channel_.fd_ ≠ sockfd := by
        intro heq
        have hopen := hkept.descriptor
        rw [heq, hclosed] at hopen
        cases hopen
      rw [hdescriptors, Function.update_of_ne hfd]
    · rw [hpollers]
      exact hkept.agrees
  refine of_objects s hplaced ?_ ?_ ?_ ?_
  · intro other object' hother
    rcases objects_of_update hobjects hother with ⟨rfl, rfl⟩ | ⟨hne, hother⟩
    · exact hself
    · exact hothers hne hother
  · intro m other hawaits
    rw [hworks.at_] at hawaits
    exact h.listed m other hawaits
  · rw [hpollers]
    exact h.watched
  · intro other object' hother
    have hne : other ≠ address := by
      rintro rfl
      rw [hfree] at hother
      cases hother
    rw [hobjects, Function.update_of_ne hne]
    exact ⟨object', hother, rfl, rfl, fun _ => id⟩

/-- The channels of a loop's pass are registered with its poller. -/
theorem listed_enter {l : L} {a : Advance Handler} {thread : LoopThread Task Handler} (h : Sound s)
    (hmay : s.mayAdvance l a = true) (hadvance : (s.threads l).advance a = some thread)
    (hawaits : Awaits (.connection conn) thread.at_) :
    ∃ object, s.objects conn = some object ∧ object.loop_ = l ∧ object.conn.channel_.index_ ≠ .kNew := by
  rcases awaits_advance hadvance hawaits with hbefore | ⟨activeChannels, rfl, hmem⟩
  · exact h.listed l conn hbefore
  · have hready := List.all_eq_true.mp hmay _ hmem
    obtain ⟨object, hobject, hregistered⟩ : ∃ object, s.objects conn = some object ∧ (object.loop_ = l ∧
        ((s.pollers l).interest object.conn.channel_.fd_).isSome = true) := by
      simpa [TcpServer.reportable, Option.any_eq_true] using hready
    obtain ⟨rfl, hsome⟩ := hregistered
    have hadded := (h.kept conn object hobject).agrees.kAdded_iff.mpr hsome
    refine ⟨object, hobject, rfl, ?_⟩
    rw [hadded]
    simp

/-- The loop's thread enters a body. -/
theorem entered {l : L} {a : Advance Handler} {revents : Nat → Mask} {thread : LoopThread Task Handler} (h : Sound s)
    (hidle : s.todos l = []) (hmay : s.mayAdvance l a = true) (hadvance : (s.threads l).advance a = some thread) :
    Sound (s.enter l a revents thread) := by
  have hlisted (conn : Nat) (hawaits : Awaits (.connection conn) thread.at_) :=
    h.listed_enter hmay hadvance hawaits
  have hplaced : Placed (s.enter l a revents thread) := by
    refine h.placed.entered hidle hmay hadvance fun conn hawaits => ?_
    obtain ⟨object, hobject, hloop, _⟩ := hlisted conn hawaits
    rw [TcpServer.home, hobject, Option.map_some, hloop]
  refine of_objects s hplaced ?_ ?_ h.watched ?_
  · intro conn object' hobject'
    obtain ⟨object, mask, hobject, rfl⟩ := TcpServer.of_polled_object hobject'
    obtain ⟨hmem, hstage, hfd, hagrees⟩ := h.kept conn object hobject
    refine ⟨hmem, ?_, hfd, ⟨hagrees.interest_eq, hagrees.channels_eq⟩⟩
    obtain ⟨callbacks, hacts, hknown⟩ := TcpServer.acts_enter hidle hadvance revents conn object.loop_
    change Stage _ object.log (acts conn ((s.enter l a revents thread).work object.loop_))
      (s.connections_ object.name_ = some conn)
      (.removeConnectionInLoop conn ∈ (s.enter l a revents thread).work s.loop_)
    rw [hacts, propext (TcpServer.mem_work_enter hidle hadvance revents conn s.loop_)]
    have hpolled : Stage (object.store mask).conn object.log (acts conn (s.work object.loop_))
        (s.connections_ object.name_ = some conn) (.removeConnectionInLoop conn ∈ s.work s.loop_) :=
      hstage.of_conn rfl rfl rfl id
    by_cases hnone : callbacks = []
    · subst hnone
      exact hpolled
    · refine hpolled.dispatched ?_ callbacks
      obtain ⟨object', hobject', _, hindex⟩ := hlisted conn (hknown hnone)
      rw [hobject] at hobject'
      cases hobject'
      exact hindex
  · intro m conn hawaits
    rw [TcpServer.at_enter] at hawaits
    split at hawaits
    · next heq =>
      subst heq
      exact hlisted conn hawaits
    · exact h.listed m conn hawaits
  · intro conn object hobject
    obtain ⟨mask, hobject'⟩ := TcpServer.polled_object hobject a revents
    exact ⟨object.store mask, hobject', rfl, rfl, fun _ => id⟩

end Sound

end muduo.tcp_server
