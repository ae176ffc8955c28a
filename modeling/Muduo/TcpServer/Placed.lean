import Muduo.TcpServer.Work

open transition
open muduo.kernel muduo.buffer muduo.epoll muduo.event_loop
open muduo.tcp_connection (Act Functor Event TcpConnection World Turn)

namespace muduo.tcp_server

variable {L : Type}

/-- The loop that a connection belongs to, if its object exists. -/
def TcpServer.home (s : TcpServer L) (conn : Nat) : Option L := (s.objects conn).map Object.loop_

/-- The loop on whose thread a job is to be done: that of its connection, or the base
loop if it works on `connections_`. -/
def Job.Proper (base : L) (home : Nat → Option L) (l : L) : Job → Prop
  | .connection conn _ => home conn = some l
  | .handleRead => l = base
  | .removeConnectionInLoop conn => l = base ∧ home conn ≠ none
  | .user => True

/-- The jobs that may stand behind another one in a body. -/
def Job.isPlain : Job → Bool
  | .connection _ a => a.isPlain
  | .handleRead => false
  | .removeConnectionInLoop _ => false
  | .user => true

/-- A functor of a connection keeps it alive. -/
def Task.isBound : Task → Bool
  | .connection _ functor => isShared functor
  | .removeConnectionInLoop _ => true
  | .other => true

/-- The acts of `connectDestroyed`. -/
def tears : Act → Bool
  | .call .connectDestroyed => true
  | .disconnect => true
  | .remove => true
  | _ => false

/-- The loop is in its pass over `activeChannels_`. -/
def inPass : Location Task Handler → Bool
  | .dispatching _ => true
  | .handling _ _ => true
  | _ => false

theorem Job.Proper.mono {base l : L} {home home' : Nat → Option L} {job : Job} (h : job.Proper base home l)
    (hhome : ∀ conn m, job.owns conn = true → home conn = some m → home' conn = some m) :
    job.Proper base home' l := by
  cases job with
  | connection conn a => exact hhome conn l (by simp [Job.owns]) h
  | handleRead => exact h
  | removeConnectionInLoop conn =>
    obtain ⟨hl, hsome⟩ := h
    obtain ⟨m, hm⟩ := Option.ne_none_iff_exists'.mp hsome
    refine ⟨hl, ?_⟩
    rw [hhome conn m (by simp [Job.owns]) hm]
    exact Option.some_ne_none m
  | user => trivial

/-- A job is only for a connection whose object exists. -/
theorem Job.Proper.home_ne_none {base l : L} {home : Nat → Option L} {job : Job} {conn : Nat}
    (h : job.Proper base home l) (howns : job.owns conn = true) : home conn ≠ none := by
  cases job with
  | connection bound a =>
    obtain rfl : bound = conn := by simpa [Job.owns] using howns
    rw [show home bound = some l from h]
    exact Option.some_ne_none l
  | removeConnectionInLoop bound =>
    obtain rfl : bound = conn := by simpa [Job.owns] using howns
    exact h.2
  | handleRead | user => cases howns

namespace TcpServer

/-- Polling stores masks only. -/
theorem home_polled (s : TcpServer L) (a : Advance Handler) (revents : Nat → Mask) :
    (s.polled a revents).home = s.home := by
  funext conn
  change Option.map Object.loop_ ((s.objects conn).map _) = _
  rw [Option.map_map]
  congr 1
  funext object
  simp only [Function.comp_apply]
  split <;> rfl

/-- A dispatch of a connection's channel runs callbacks on the connection. -/
theorem body_connection {s : TcpServer L} {conn : Nat} {activeChannels : List (Ready Handler)} {job : Job}
    (hmem : job ∈ s.body (.handling (.connection conn) activeChannels)) :
    ∃ callback, job = .connection conn (.callback callback) := by
  simp only [body] at hmem
  split at hmem
  · obtain ⟨callback, _, rfl⟩ := List.mem_map.mp hmem
    exact ⟨callback, rfl⟩
  · cases hmem

theorem body_tail {s : TcpServer L} {at_ : Location Task Handler} {job : Job} (hmem : job ∈ (s.body at_).tail) :
    job.isPlain = true := by
  cases at_ with
  | handling handler activeChannels =>
    cases handler with
    | connection conn =>
      obtain ⟨callback, rfl⟩ := body_connection (List.mem_of_mem_tail hmem)
      rfl
    | acceptor | other => cases hmem
  | outside | testing | polling | dispatching | swapping | batch | running => cases hmem

theorem body_gentle {s : TcpServer L} {at_ : Location Task Handler} {conn : Nat} {a : Act}
    (hpass : inPass at_ = true) (hmem : .connection conn a ∈ s.body at_) : tears a = false := by
  cases at_ with
  | handling handler activeChannels =>
    cases handler with
    | connection other =>
      obtain ⟨callback, heq⟩ := body_connection hmem
      obtain ⟨_, rfl⟩ := Job.connection.inj heq
      rfl
    | acceptor | other => cases List.mem_singleton.mp hmem
  | dispatching => cases hmem
  | outside | testing | polling | swapping | batch | running => cases hpass

end TcpServer

/-- Everything that the threads have yet to do is on the thread where it belongs, and
new connections are only accepted on the base loop. A functor keeps its connection
alive, and no connection is destroyed in the middle of a pass over
`activeChannels_`. -/
structure Placed (s : TcpServer L) : Prop where
  proper : ∀ l, ∀ job ∈ s.work l, job.Proper s.loop_ s.home l
  bound : ∀ l, ∀ task ∈ (s.threads l).queue, task.isBound = true
  tails : ∀ l, ∀ job ∈ (s.todos l).tail, job.isPlain = true
  gentle : ∀ l, inPass (s.threads l).at_ = true → ∀ conn a, .connection conn a ∈ s.todos l → tears a = false
  accepting : ∀ l, Awaits .acceptor (s.threads l).at_ → l = s.loop_

theorem home_setObject {s t : TcpServer L} {conn : Nat} {object object' : Object L}
    (hobject : s.objects conn = some object) (hloop : object'.loop_ = object.loop_)
    (hobjects : t.objects = Function.update s.objects conn (some object')) : t.home = s.home := by
  funext other
  unfold TcpServer.home
  rw [hobjects]
  by_cases hother : other = conn
  · subst hother
    rw [Function.update_self, hobject, Option.map_some, Option.map_some, hloop]
  · rw [Function.update_of_ne hother]

namespace Placed

variable {s t : TcpServer L} {l : L} {conn : Nat} {object : Object L} {rest : List Job}

/-- The first job of a body is on the right thread. -/
theorem head (h : Placed s) {job : Job} (htodo : s.todos l = job :: rest) : job.Proper s.loop_ s.home l := by
  apply h.proper l
  unfold TcpServer.work
  rw [htodo]
  exact List.mem_append_left _ List.mem_cons_self

/-- User code is not called in front of anything but what may stand behind it. -/
theorem plain_of_userRuns (h : Placed s) (huser : s.userRuns l = true) : ∀ job ∈ s.todos l, job.isPlain = true := by
  have hcons {job : Job} {rest : List Job} (htodo : s.todos l = job :: rest) (hjob : job.isPlain = true) :
      ∀ job ∈ s.todos l, job.isPlain = true := by
    intro other hmem
    have htails := h.tails l
    rw [htodo] at hmem htails
    rcases List.mem_cons.mp hmem with rfl | hmem
    · exact hjob
    · exact htails other hmem
  unfold TcpServer.userRuns at huser
  split at huser
  · next htodo => exact hcons htodo rfl
  · next htodo => exact hcons htodo rfl
  · next htodo _ =>
    rw [htodo]
    simp
  · cases huser

theorem loop_eq (h : Placed s) {a : Act} (htodo : s.todos l = .connection conn a :: rest)
    (hobject : s.objects conn = some object) : object.loop_ = l := by
  have hhome : s.home conn = some l := h.head htodo
  rw [TcpServer.home, hobject] at hhome
  exact Option.some.inj hhome

variable [DecidableEq L]

/-- A step on one thread, which may queue functors. -/
theorem of_works {target : L} {done new : List Job} {tasks : List Task} (h : Placed s)
    (hworks : Works s t l done new target tasks)
    (hhome : ∀ m, ∀ job ∈ s.work m, job.Proper s.loop_ t.home m)
    (hnew : ∀ job ∈ new, job.Proper s.loop_ t.home l)
    (htasks : ∀ task ∈ tasks, task.entry.Proper s.loop_ t.home target ∧ task.isBound = true)
    (htail : ∀ job ∈ new.tail, job.isPlain = true)
    (hahead : done ≠ [] ∨ new = [] ∨ ∀ job ∈ s.todos l, job.isPlain = true)
    (hgentle : ∀ conn a, .connection conn a ∈ new → tears a = true → inPass (s.threads l).at_ = false) :
    Placed t := by
  obtain ⟨rest, hrest, htodos⟩ := hworks.todos
  have hplain : new ≠ [] → ∀ job ∈ rest, job.isPlain = true := by
    intro hsome job hmem
    rcases hahead with hdone | hnone | hall
    · obtain ⟨first, others, rfl⟩ := List.exists_cons_of_ne_nil hdone
      refine h.tails l job ?_
      rw [hrest]
      exact List.mem_append_right others hmem
    · exact absurd hnone hsome
    · refine hall job ?_
      rw [hrest]
      exact List.mem_append_right done hmem
  refine ⟨?_, ?_, ?_, ?_, ?_⟩
  · intro m job hmem
    rw [hworks.loop_]
    rcases hworks.mem_work hmem with hmem | ⟨rfl, hmem⟩ | ⟨rfl, task, htask, rfl⟩
    · exact hhome m job hmem
    · exact hnew job hmem
    · exact (htasks task htask).1
  · intro m task hmem
    rw [hworks.queue] at hmem
    rcases List.mem_append.mp hmem with hmem | hmem
    · exact h.bound m task hmem
    · split at hmem
      · exact (htasks task hmem).2
      · cases hmem
  · intro m job hmem
    by_cases hm : m = l
    · subst hm
      rw [htodos, Function.update_self] at hmem
      cases new with
      | nil =>
        rw [List.nil_append] at hmem
        refine h.tails m job ?_
        rw [hrest]
        cases done with
        | nil => exact hmem
        | cons first others => exact List.mem_append_right others (List.mem_of_mem_tail hmem)
      | cons first others =>
        rcases List.mem_append.mp hmem with hmem | hmem
        · exact htail job hmem
        · exact hplain (List.cons_ne_nil _ _) job hmem
    · rw [htodos, Function.update_of_ne hm] at hmem
      exact h.tails m job hmem
  · intro m hpass conn a hmem
    rw [hworks.at_] at hpass
    by_cases hm : m = l
    · subst hm
      rw [htodos, Function.update_self] at hmem
      rcases List.mem_append.mp hmem with hmem | hmem
      · by_contra htears
        rw [hgentle conn a hmem (by simpa using htears)] at hpass
        cases hpass
      · refine h.gentle m hpass conn a ?_
        rw [hrest]
        exact List.mem_append_right done hmem
    · rw [htodos, Function.update_of_ne hm] at hmem
      exact h.gentle m hpass conn a hmem
  · intro m hawaits
    rw [hworks.at_] at hawaits
    rw [hworks.loop_]
    exact h.accepting m hawaits

end Placed

/-- Only `connectDestroyed` leaves acts of its own. -/
theorem tears_next {received : Received} {written : Written} {w w' : World} {a : Act} {next : List Act}
    (hturn : Turn received written w a w' next) {b : Act} (hmem : b ∈ next) (htears : tears b = true) :
    tears a = true := by
  cases hturn with
  | connectDestroyed => rfl
  | disconnect | remove => rfl
  | connectEstablished | closeCallback_ | message =>
    rw [List.mem_singleton.mp hmem] at htears
    cases htears
  | queue => cases hmem
  | close | endOfStream =>
    rcases List.mem_cons.mp hmem with rfl | hmem
    · cases htears
    · rw [List.mem_singleton.mp hmem] at htears
      cases htears
  | transfer _ _ _ _ _ hnext =>
    rcases hnext with rfl | rfl | rfl | ⟨functor, _, rfl⟩
    · cases hmem
    all_goals
      rw [List.mem_singleton.mp hmem] at htears
      cases htears

namespace Placed

variable [DecidableEq L] {s t : TcpServer L} {l : L} {conn : Nat} {object : Object L} {rest : List Job}

/-- A step that changes neither the objects' loops nor the work. -/
theorem of_idle (h : Placed s) (hhome : t.home = s.home) (hloop : t.loop_ = s.loop_) (hloops : t.loops_ = s.loops_)
    (hat : ∀ m, (t.threads m).at_ = (s.threads m).at_) (htodos : t.todos = s.todos)
    (hqueue : ∀ m, (t.threads m).queue = (s.threads m).queue) : Placed t := by
  refine h.of_works (Works.idle s.loop_ s.loop_ hloop hloops hat htodos hqueue) ?_ (by simp) (by simp) (by simp)
    (.inr (.inl rfl)) (by simp)
  intro m job hmem
  rw [hhome]
  exact h.proper m job hmem

/-- The code of a connection carries out an act. -/
theorem turned {received : Received} {written : Written} {a : Act} {w : World} {next : List Act} (h : Placed s)
    (htodo : s.todos l = .connection conn a :: rest) (hobject : s.objects conn = some object)
    (hturn : Turn received written (s.world object) a w next)
    (hresend : ∀ functor, a = .queue functor → functor.isResend = true) :
    Placed (s.resume l conn object w (next.map (.connection conn) ++ rest)) := by
  have hloop := h.loop_eq htodo hobject
  have hleaves := hturn.leaves
  have hsame : (s.resume l conn object w (next.map (.connection conn) ++ rest)).home = s.home :=
    home_setObject hobject (by rfl) (TcpServer.objects_resume s l conn object w _)
  have hhome : s.home conn = some l := h.head htodo
  have hworks : Works s (s.resume l conn object w (next.map (.connection conn) ++ rest)) l [.connection conn a]
      (next.map (.connection conn)) object.loop_ (w.queued.map (.connection conn)) :=
    TcpServer.works_resume htodo conn object w _
  refine h.of_works hworks ?_ ?_ ?_ ?_ (.inl (List.cons_ne_nil _ _)) ?_
  · intro m job hmem
    rw [hsame]
    exact h.proper m job hmem
  · intro job hmem
    obtain ⟨b, _, rfl⟩ := List.mem_map.mp hmem
    rw [hsame]
    exact hhome
  · intro task hmem
    obtain ⟨functor, hfunctor, rfl⟩ := List.mem_map.mp hmem
    rw [hsame, hloop]
    refine ⟨hhome, ?_⟩
    obtain ⟨functors, hqueued, hall⟩ := hleaves.queued
    rw [hqueued] at hfunctor
    have hmem : functor ∈ functors := hfunctor
    exact isShared_of_notice ((hall functor hmem).imp_right (hresend functor))
  · intro job hmem
    rw [← List.map_tail] at hmem
    obtain ⟨b, hb, rfl⟩ := List.mem_map.mp hmem
    exact hleaves.tail b hb
  · intro other b hmem htears
    obtain ⟨b', hb, heq⟩ := List.mem_map.mp hmem
    obtain ⟨rfl, rfl⟩ := Job.connection.inj heq
    by_contra hpass
    have hnot := h.gentle l (by simpa using hpass) conn a (by rw [htodo]; exact List.mem_cons_self)
    rw [tears_next hturn hb htears] at hnot
    cases hnot

/-- A job is done, and functors are queued where they belong. -/
theorem of_done {job : Job} {target : L} {new : List Job} {tasks : List Task} (h : Placed s)
    (hworks : Works s t l [job] new target tasks) (hhome : t.home = s.home)
    (hnew : ∀ job ∈ new, job.Proper s.loop_ s.home l)
    (htasks : ∀ task ∈ tasks, task.entry.Proper s.loop_ s.home target ∧ task.isBound = true)
    (htail : ∀ job ∈ new.tail, job.isPlain = true)
    (hgentle : ∀ conn a, .connection conn a ∈ new → tears a = false) : Placed t := by
  refine h.of_works hworks ?_ ?_ ?_ htail (.inl (List.cons_ne_nil _ _)) ?_
  · intro m job hmem
    rw [hhome]
    exact h.proper m job hmem
  · rw [hhome]
    exact hnew
  · rw [hhome]
    exact htasks
  · intro conn a hmem htears
    rw [hgentle conn a hmem] at htears
    cases htears

/-- The server is asked for the removal of a connection. -/
theorem asked (h : Placed s) {a : Act} (htodo : s.todos l = .connection conn a :: rest) :
    Placed (s.removeConnection l conn rest) := by
  have hhome : s.home conn = some l := h.head htodo
  have hsome : s.home conn ≠ none := by
    rw [hhome]
    exact Option.some_ne_none l
  have hsame : (s.removeConnection l conn rest).home = s.home := by
    unfold TcpServer.home
    rw [(TcpServer.sameData_removeConnection s l conn rest).objects]
  obtain ⟨new, tasks, hworks, ⟨hbase, rfl, rfl⟩ | ⟨rfl, rfl⟩⟩ := TcpServer.works_removeConnection htodo conn
  · exact h.of_done hworks hsame (by simpa [Job.Proper] using ⟨hbase, hsome⟩) (by simp) (by simp) (by simp)
  · exact h.of_done hworks hsame (by simp) (by simpa [Job.Proper, Task.entry, Task.isBound] using hsome) (by simp)
      (by simp)

/-- The server removes a connection. -/
theorem removed (h : Placed s) (htodo : s.todos l = .removeConnectionInLoop conn :: rest)
    (hobject : s.objects conn = some object) : Placed (s.removeConnectionInLoop l conn object rest) := by
  have hhome : s.home conn = some object.loop_ := by rw [TcpServer.home, hobject, Option.map_some]
  refine h.of_done (TcpServer.works_removeConnectionInLoop htodo conn object) rfl (by simp) ?_ (by simp) (by simp)
  intro task hmem
  rw [List.mem_singleton.mp hmem]
  exact ⟨hhome, rfl⟩

/-- The server takes a new connection on a free address. -/
theorem accepted {sockfd address : Nat} (h : Placed s) (htodo : s.todos l = .handleRead :: rest)
    (hfree : s.objects address = none) : Placed (s.newConnection l sockfd address rest) := by
  have hobjects : (s.newConnection l sockfd address rest).objects =
      Function.update s.objects address (some (s.newObject sockfd address)) :=
    (TcpServer.sameData_newConnection s l sockfd address rest).objects
  have hhome : (s.newConnection l sockfd address rest).home address = some s.getNextLoop.1 := by
    rw [TcpServer.home, hobjects, Function.update_self]
    rfl
  have hmore : ∀ m, ∀ job ∈ s.work m, job.Proper s.loop_ (s.newConnection l sockfd address rest).home m := by
    intro m job hmem
    refine (h.proper m job hmem).mono fun other k howns hother => ?_
    have hne : other ≠ address := by
      rintro rfl
      rw [TcpServer.home, hfree] at hother
      cases hother
    rw [TcpServer.home, hobjects, Function.update_of_ne hne]
    exact hother
  obtain ⟨new, tasks, hworks, ⟨hsame, rfl, rfl⟩ | ⟨rfl, rfl⟩⟩ :=
    TcpServer.works_newConnection htodo sockfd address
  · refine h.of_works hworks hmore ?_ (by simp) (by simp) (.inl (List.cons_ne_nil _ _)) ?_
    · intro job hmem
      rw [List.mem_singleton.mp hmem]
      exact hhome.trans (congrArg some hsame.symm)
    · intro other a hmem htears
      obtain ⟨_, rfl⟩ := Job.connection.inj (List.mem_singleton.mp hmem)
      cases htears
  · refine h.of_works hworks hmore (by simp) ?_ (by simp) (.inl (List.cons_ne_nil _ _)) (by simp)
    intro task hmem
    rw [List.mem_singleton.mp hmem]
    exact ⟨hhome, rfl⟩

/-- The loop's thread enters a body, of a channel of its own if it is a dispatch. -/
theorem entered {a : Advance Handler} {revents : Nat → Mask} {thread : LoopThread Task Handler} (h : Placed s)
    (hidle : s.todos l = []) (hmay : s.mayAdvance l a = true) (hadvance : (s.threads l).advance a = some thread)
    (hlisted : ∀ conn, Awaits (.connection conn) thread.at_ → s.home conn = some l) :
    Placed (s.enter l a revents thread) := by
  have hhome : (s.enter l a revents thread).home = s.home := TcpServer.home_polled s a revents
  have hawaits (m : L) (hm : Awaits .acceptor ((s.enter l a revents thread).threads m).at_) :
      m = s.loop_ := by
    rw [TcpServer.at_enter] at hm
    split at hm
    · next heq =>
      subst heq
      rcases awaits_advance hadvance hm with hbefore | ⟨activeChannels, rfl, hmem⟩
      · exact h.accepting m hbefore
      · have hready := List.all_eq_true.mp hmay _ hmem
        simpa [TcpServer.reportable] using hready
    · exact h.accepting m hm
  refine ⟨?_, ?_, ?_, ?_, hawaits⟩
  · intro m job hmem
    rw [hhome]
    rcases TcpServer.work_enter hidle hadvance revents m with hsame | ⟨rfl, handler, activeChannels, hat, hmore⟩
    · rw [hsame] at hmem
      exact h.proper m job hmem
    · rw [hmore] at hmem
      rcases List.mem_append.mp hmem with hmem | hmem
      · have hself : Awaits handler thread.at_ := by
          rw [hat]
          exact .inl rfl
        rw [hat] at hmem
        cases handler with
        | connection conn =>
          obtain ⟨callback, rfl⟩ := TcpServer.body_connection hmem
          exact hlisted conn hself
        | acceptor =>
          rw [List.mem_singleton.mp hmem]
          refine hawaits m ?_
          rw [TcpServer.at_enter, if_pos rfl]
          exact hself
        | other =>
          rw [List.mem_singleton.mp hmem]
          trivial
      · exact h.proper m job hmem
  · intro m task hmem
    by_cases hm : m = l
    · subst hm
      have hqueue : task ∈ thread.queue := by simpa [TcpServer.enter] using hmem
      refine h.bound m task ?_
      rcases LoopThread.queue_advance hadvance with ⟨heq, _⟩ | ⟨first, others, heq, _⟩
      · rw [← heq]
        exact hqueue
      · rw [heq]
        exact List.mem_cons_of_mem _ hqueue
    · refine h.bound m task ?_
      simpa [TcpServer.enter, hm] using hmem
  · intro m job hmem
    by_cases hm : m = l
    · subst hm
      simp only [TcpServer.enter, Function.update_self] at hmem
      exact TcpServer.body_tail hmem
    · simp only [TcpServer.enter, Function.update_of_ne hm] at hmem
      exact h.tails m job hmem
  · intro m hpass conn b hmem
    rw [TcpServer.at_enter] at hpass
    by_cases hm : m = l
    · subst hm
      rw [if_pos rfl] at hpass
      simp only [TcpServer.enter, Function.update_self] at hmem
      exact TcpServer.body_gentle hpass hmem
    · rw [if_neg hm] at hpass
      simp only [TcpServer.enter, Function.update_of_ne hm] at hmem
      exact h.gentle m hpass conn b hmem

/-- User code on its own thread calls a method of a connection. -/
theorem called (h : Placed s) (call : tcp_connection.Call) (hobject : s.objects conn = some object)
    (huser : s.userRuns object.loop_ = true) :
    Placed (s.resume object.loop_ conn object ((s.world object).ownCall call).1
      (((s.world object).ownCall call).2.map (.connection conn) ++ s.todos object.loop_)) := by
  obtain ⟨_, _, hqueued, hnext⟩ := ownCall_spec (s.world object) call
  have hworks := TcpServer.works_ownCall s conn object call
  have hsame : (s.resume object.loop_ conn object ((s.world object).ownCall call).1
      (((s.world object).ownCall call).2.map (.connection conn) ++ s.todos object.loop_)).home = s.home :=
    home_setObject hobject (by rfl) (TcpServer.objects_resume s object.loop_ conn object _ _)
  have hhome : s.home conn = some object.loop_ := by rw [TcpServer.home, hobject, Option.map_some]
  refine h.of_works hworks ?_ ?_ ?_ ?_ (.inr (.inr ?_)) ?_
  · intro m job hmem
    rw [hsame]
    exact h.proper m job hmem
  · intro job hmem
    obtain ⟨a, _, rfl⟩ := List.mem_map.mp hmem
    rw [hsame]
    exact hhome
  · rw [hqueued]
    intro task hmem
    cases hmem
  · rcases hnext with hnext | ⟨functor, _, hnext⟩ <;> simp [hnext]
  · exact h.plain_of_userRuns huser
  · intro other a hmem htears
    obtain ⟨a', ha, heq⟩ := List.mem_map.mp hmem
    obtain ⟨_, rfl⟩ := Job.connection.inj heq
    rcases hnext with hnext | ⟨functor, hnot, hnext⟩
    · rw [hnext] at ha
      cases ha
    · rw [hnext] at ha
      rw [List.mem_singleton.mp ha] at htears
      cases functor with
      | connectDestroyed => exact absurd rfl hnot
      | _ => cases htears

/-- A job that is not about any connection is queued. -/
theorem queued (h : Placed s) (isInLoopThread : Bool) (l : L) : Placed (s.queueInLoop isInLoopThread l .other) := by
  refine h.of_works ((Works.idle l l rfl rfl (fun _ => rfl) rfl fun _ => rfl).queueInLoop isInLoopThread .other)
    ?_ (by simp) ?_ (by simp) (.inr (.inl rfl)) (by simp)
  · exact fun m job hmem => h.proper m job hmem
  · intro task hmem
    rw [List.nil_append, List.mem_singleton] at hmem
    subst hmem
    exact ⟨trivial, rfl⟩

end Placed

end muduo.tcp_server
