import Muduo.EventLoopThreadPool.Start
import Muduo.TcpServer.Names
import Muduo.TcpServer.Placed

open transition rotation
open muduo.event_loop_thread_pool (EventLoopThreadPool NoStart Window baseLoop_startThreads usage)

namespace muduo.tcp_server

variable {L : Type}

/-- A server with the loops that its connections have been given, in the order in which
they were accepted. -/
structure Assigning (L : Type) where
  server : TcpServer L
  assigned : List L

/-- The loop of the connection that a step has accepted: the one that the server has
recorded under the number that it has used up. -/
def acceptedOn (s t : TcpServer L) : Option L :=
  if t.nextConnId_ = s.nextConnId_ then none else (t.connections_ s.nextConnId_).bind t.home

namespace Assigning

def start (loop_ : L) (loops_ : List L) (writeCompleteCallback_ : Bool) : Assigning L where
  server := .construct loop_ loops_ writeCompleteCallback_
  assigned := []

def step [DecidableEq L] (alloc : Nat → Bool) (s : Assigning L) (i : Input L) : Option (Assigning L) :=
  (s.server.step alloc i).map fun server =>
    { server, assigned := s.assigned ++ (acceptedOn s.server server).toList }

end Assigning

def assigning (L : Type) [DecidableEq L] (alloc : Nat → Bool) : Machine (Assigning L) (Input L) where
  step := Assigning.step alloc

/-- A step that accepts nothing: the choice of loops and the numbers stay as they are, and
each connection keeps its loop and its name. -/
structure SameAssignments (s t : TcpServer L) : Prop where
  loop_ : t.loop_ = s.loop_
  loops_ : t.loops_ = s.loops_
  next_ : t.next_ = s.next_
  nextConnId_ : t.nextConnId_ = s.nextConnId_
  objects : ∀ conn object, t.objects conn = some object →
    ∃ before, s.objects conn = some before ∧ object.loop_ = before.loop_ ∧ object.name_ = before.name_

namespace SameAssignments

variable {s t : TcpServer L}

theorem of_objects (hloop : t.loop_ = s.loop_) (hloops : t.loops_ = s.loops_) (hnext : t.next_ = s.next_)
    (hid : t.nextConnId_ = s.nextConnId_) (hobjects : t.objects = s.objects) : SameAssignments s t := by
  refine ⟨hloop, hloops, hnext, hid, fun conn object hobject => ?_⟩
  rw [hobjects] at hobject
  exact ⟨object, hobject, rfl, rfl⟩

theorem trans {u : TcpServer L} (hfirst : SameAssignments s t) (hsecond : SameAssignments t u) :
    SameAssignments s u := by
  refine ⟨hsecond.loop_.trans hfirst.loop_, hsecond.loops_.trans hfirst.loops_, hsecond.next_.trans hfirst.next_,
    hsecond.nextConnId_.trans hfirst.nextConnId_, fun conn object hobject => ?_⟩
  obtain ⟨between, hbetween, hloop, hname⟩ := hsecond.objects conn object hobject
  obtain ⟨before, hbefore, hloop', hname'⟩ := hfirst.objects conn between hbetween
  exact ⟨before, hbefore, hloop.trans hloop', hname.trans hname'⟩

/-- A step that works on the object of a connection. -/
theorem setObject {conn : Nat} {object object' : Object L} (hobject : s.objects conn = some object)
    (hloop : object'.loop_ = object.loop_) (hname : object'.name_ = object.name_) :
    SameAssignments s (s.setObject conn object') := by
  refine ⟨rfl, rfl, rfl, rfl, fun other found hfound => ?_⟩
  by_cases hother : other = conn
  · subst hother
    have hself : (s.setObject other object').objects other = some object' := Function.update_self _ _ _
    obtain rfl := Option.some.inj (hself.symm.trans hfound)
    exact ⟨object, hobject, hloop, hname⟩
  · exact ⟨found, (Function.update_of_ne hother _ _).symm.trans hfound, rfl, rfl⟩

variable [DecidableEq L]

theorem queueInLoop (s : TcpServer L) (isInLoopThread : Bool) (l : L) (task : Task) :
    SameAssignments s (s.queueInLoop isInLoopThread l task) := of_objects rfl rfl rfl rfl rfl

theorem queueAll (s : TcpServer L) (isInLoopThread : Bool) (l : L) (conn : Nat)
    (functors : List tcp_connection.Functor) : SameAssignments s
      (functors.foldl (fun s functor => s.queueInLoop isInLoopThread l (.connection conn functor)) s) := by
  induction functors generalizing s with
  | nil => exact of_objects rfl rfl rfl rfl rfl
  | cons functor functors ih => exact (queueInLoop s isInLoopThread l _).trans (ih _)

/-- The code of a connection works on the connection. -/
theorem resume {conn : Nat} {object : Object L} (hobject : s.objects conn = some object) (l : L)
    (w : tcp_connection.World) (todo : List Job) : SameAssignments s (s.resume l conn object w todo) := by
  have hset : SameAssignments s (s.setObject conn { object with conn := w.conn, log := w.log }) :=
    setObject hobject rfl rfl
  have htodo : SameAssignments (s.setObject conn { object with conn := w.conn, log := w.log })
      (({ s.setObject conn { object with conn := w.conn, log := w.log } with
        pollers := Function.update s.pollers object.loop_ w.poller } : TcpServer L).setTodo l todo) :=
    of_objects rfl rfl rfl rfl rfl
  exact hset.trans (htodo.trans (queueAll _ _ _ conn w.queued))

/-- Every step but that which accepts a connection leaves the assignments. -/
theorem of_change {alloc : Nat → Bool} {i : Input L} (h : Change alloc s i t) :
    SameAssignments s t ∨ ∃ l sockfd address rest, t = s.newConnection l sockfd address rest := by
  cases h with
  | accepted l sockfd address received written rest htodo hfree hclosed =>
    exact .inr ⟨l, sockfd, address, rest, rfl⟩
  | advanced l a revents thread hidle hmay hadvance =>
    refine .inl ⟨rfl, rfl, rfl, rfl, fun conn object hobject => ?_⟩
    obtain ⟨before, mask, hbefore, rfl⟩ := TcpServer.of_polled_object hobject
    exact ⟨before, hbefore, rfl, rfl⟩
  | turned l accepted received written conn a rest object w next htodo hobject hact =>
    exact .inl (resume hobject l w _)
  | asked l accepted received written conn rest htodo =>
    unfold TcpServer.removeConnection
    split
    · exact .inl (of_objects rfl rfl rfl rfl rfl)
    · exact .inl (of_objects rfl rfl rfl rfl rfl)
  | removed l accepted received written conn rest object htodo hobject =>
    exact .inl (of_objects rfl rfl rfl rfl rfl)
  | refused l received written rest htodo => exact .inl (of_objects rfl rfl rfl rfl rfl)
  | called conn call object hobject huser => exact .inl (resume hobject object.loop_ _ _)
  | adjusted i conn object c hobject hstate hchannel => exact .inl (setObject hobject rfl rfl)
  | returned l job rest htodo hjob => exact .inl (of_objects rfl rfl rfl rfl rfl)
  | queued i isInLoopThread l => exact .inl (queueInLoop s isInLoopThread l .other)
  | quit l isInLoopThread => exact .inl (of_objects rfl rfl rfl rfl rfl)
  | kept i held => exact .inl (of_objects rfl rfl rfl rfl rfl)
  | destroyed conn object hobject howned =>
    refine .inl ⟨rfl, rfl, rfl, rfl, fun other found hfound => ?_⟩
    by_cases hother : other = conn
    · subst hother
      have hnone : (s.destroy other object).objects other = none := Function.update_self _ _ _
      rw [hnone] at hfound
      cases hfound
    · exact ⟨found, (Function.update_of_ne hother _ _).symm.trans hfound, rfl, rfl⟩

end SameAssignments

/-- What a server does when it accepts a connection. -/
theorem newConnection_assigns [DecidableEq L] (s : TcpServer L) (l : L) (sockfd address : Nat) (rest : List Job) :
    SameAssignments (s.recorded sockfd address) (s.newConnection l sockfd address rest) ∧
    acceptedOn s (s.newConnection l sockfd address rest) = some s.getNextLoop.1 := by
  have hsame := TcpServer.sameData_newConnection s l sockfd address rest
  have hassigns : SameAssignments (s.recorded sockfd address) (s.newConnection l sockfd address rest) := by
    rw [TcpServer.newConnection_eq]
    split
    · exact .of_objects rfl rfl rfl rfl rfl
    · exact .of_objects rfl rfl rfl rfl rfl
  refine ⟨hassigns, ?_⟩
  have hmoved : ¬ (s.newConnection l sockfd address rest).nextConnId_ = s.nextConnId_ := by
    rw [hassigns.nextConnId_]
    change ¬ s.nextConnId_ + 1 = s.nextConnId_
    intro hround
    bv_omega
  have hrecorded : (s.newConnection l sockfd address rest).connections_ s.nextConnId_ = some address := by
    rw [hsame.connections_]
    exact Function.update_self _ _ _
  have hhome : (s.newConnection l sockfd address rest).home address = some s.getNextLoop.1 := by
    rw [TcpServer.home, hsame.objects]
    change Option.map _ (Function.update s.objects address _ address) = _
    rw [Function.update_self]
    rfl
  rw [acceptedOn, if_neg hmoved, hrecorded, Option.bind_some, hhome]

/-- Nobody asks the pool for a loop. -/
def NoCall (_ : event_loop_thread_pool.System L) : event_loop_thread_pool.Input L → Prop
  | .getNextLoop => False
  | _ => True

/-- A pool that nobody has asked begins with its first loop. -/
theorem untouched_pool [DecidableEq L] {loop_ : L} {nameArg : List Char} {q : event_loop_thread_pool.System L}
    (hpool : (usage L).Steps NoCall (.construct loop_ nameArg) q) :
    q.pool.baseLoop_ = loop_ ∧ q.pool.next_ = 0 ∧ q.returned = [] := by
  refine hpool.invariant (P := fun q => q.pool.baseLoop_ = loop_ ∧ q.pool.next_ = 0 ∧ q.returned = []) ?_
    ⟨rfl, rfl, rfl⟩
  rintro q i t ⟨hbase, hnext, hreturned⟩ hok hstep
  cases i with
  | setThreadNum numThreads =>
    cases hstep
    exact ⟨hbase, hnext, hreturned⟩
  | start cb loops =>
    obtain ⟨_, rfl⟩ := Option.ite_some_none_eq_some.mp hstep
    obtain ⟨_, hstarted⟩ := q.pool.start_spec cb loops
    exact ⟨(baseLoop_startThreads cb _ 0 loops).trans hbase, hstarted.trans hnext, hreturned⟩
  | getNextLoop => exact hok.elim

/-- The server goes through its loops as the pool does that was asked as often, counts its
connections, and each connection has the loop and the number of its turn. -/
structure Follows [DecidableEq L] (q : event_loop_thread_pool.System L) (s : Assigning L) : Prop where
  pool : ∃ t, (usage L).Steps NoStart q t ∧ t.pool.baseLoop_ = s.server.loop_ ∧
    t.pool.loops_ = s.server.loops_ ∧ t.pool.next_.toNat = s.server.next_ ∧ t.returned = s.assigned
  nextConnId_ : s.server.nextConnId_ = number s.assigned.length
  objects : ∀ conn object, s.server.objects conn = some object →
    ∃ k, s.assigned[k]? = some object.loop_ ∧ object.name_ = number k

namespace Follows

variable [DecidableEq L] {q : event_loop_thread_pool.System L} {s : Assigning L}

theorem of_same {server : TcpServer L} (h : Follows q s) (hsame : SameAssignments s.server server) :
    Follows q { s with server } := by
  obtain ⟨⟨t, hsteps, hbase, hloops, hnext, hreturned⟩, hid, hobjects⟩ := h
  refine ⟨⟨t, hsteps, hbase.trans hsame.loop_.symm, hloops.trans hsame.loops_.symm, hnext.trans hsame.next_.symm,
    hreturned⟩, hsame.nextConnId_.trans hid, fun conn object hobject => ?_⟩
  obtain ⟨before, hbefore, hloop, hname⟩ := hsame.objects conn object hobject
  obtain ⟨k, hk, hnumber⟩ := hobjects conn before hbefore
  exact ⟨k, by rw [hk, hloop], hname.trans hnumber⟩

/-- A connection is accepted: the pool is asked once more. -/
theorem recorded (h : Follows q s) (hsound : q.pool.Sound) (sockfd address : Nat) :
    Follows q { server := s.server.recorded sockfd address, assigned := s.assigned ++ [s.server.getNextLoop.1] } := by
  obtain ⟨⟨t, hsteps, hbase, hloops, hnext, hreturned⟩, hid, hobjects⟩ := h
  have hreached : t.pool.Sound := hsteps.invariant (P := fun t => t.pool.Sound)
    (fun _ _ _ h _ hstep => event_loop_thread_pool.sound_step h hstep) hsound
  obtain ⟨next_, hasked, hmoved⟩ := s.server.getNextLoop_pool hreached hbase hloops hnext
  have hstep : (usage L).step t .getNextLoop = some
      { pool := { t.pool with next_ }, returned := t.returned ++ [s.server.getNextLoop.1] } := by
    change t.pool.getNextLoop.map _ = _
    rw [hasked, Option.map_some]
  have hok : NoStart t .getNextLoop := trivial
  refine ⟨⟨_, hsteps.tail hok hstep, hbase, hloops, hmoved, ?_⟩, ?_, fun conn object hobject => ?_⟩
  · rw [hreturned]
  · change s.server.nextConnId_ + 1 = _
    rw [hid, number_succ, List.length_append, List.length_singleton]
  · by_cases hconn : conn = address
    · subst hconn
      have hself : (s.server.recorded sockfd conn).objects conn = some (s.server.newObject sockfd conn) :=
        Function.update_self _ _ _
      obtain rfl := Option.some.inj (hself.symm.trans hobject)
      exact ⟨s.assigned.length, by simp [TcpServer.newObject], hid⟩
    · obtain ⟨k, hk, hname⟩ := hobjects conn object ((Function.update_of_ne hconn _ _).symm.trans hobject)
      refine ⟨k, ?_, hname⟩
      rw [List.getElem?_append_left (List.getElem?_eq_some_iff.mp hk).1]
      exact hk

theorem step {alloc : Nat → Bool} {i : Input L} {t : Assigning L} (h : Follows q s) (hsound : q.pool.Sound)
    (hstep : s.step alloc i = some t) : Follows q t := by
  obtain ⟨server, hserver, rfl⟩ := Option.map_eq_some_iff.mp hstep
  obtain hsame | ⟨l, sockfd, address, rest, rfl⟩ := SameAssignments.of_change (step_change hserver)
  · have hnone : acceptedOn s.server server = none := if_pos hsame.nextConnId_
    rw [hnone]
    simpa using h.of_same hsame
  · obtain ⟨hsame, haccepted⟩ := newConnection_assigns s.server l sockfd address rest
    rw [haccepted]
    exact (h.recorded hsound sockfd address).of_same hsame

end Follows

/-- The connections of a server are spread over its loops by its pool. Whatever a server
does, the loops of its connections, in the order in which they were accepted, are what its
thread pool answers to as many calls, each connection that exists has the loop and the
number of its turn, and so no loop has been given more than its share, rounded up. -/
theorem connections_spread [DecidableEq L] {alloc : Nat → Bool} {loop_ : L} {nameArg : List Char}
    {q : event_loop_thread_pool.System L} (hpool : (usage L).Steps NoCall (.construct loop_ nameArg) q)
    {writeCompleteCallback_ : Bool} {s : Assigning L}
    (hrun : (assigning L alloc).Steps Machine.Any (.start loop_ q.pool.loops_ writeCompleteCallback_) s) :
    (∃ t, (usage L).Steps NoStart q t ∧ t.returned = s.assigned) ∧
    (∀ conn object, s.server.objects conn = some object →
      ∃ k, s.assigned[k]? = some object.loop_ ∧ object.name_ = number k) ∧
    (q.pool.loops_ = [] → ∀ l ∈ s.assigned, l = loop_) ∧
    ∀ l ∈ q.pool.loops_, s.assigned.length / q.pool.loops_.length ≤ s.assigned.count l ∧
      s.assigned.count l ≤ (s.assigned.length + q.pool.loops_.length - 1) / q.pool.loops_.length := by
  obtain ⟨hbase, hnext, hreturned⟩ := untouched_pool hpool
  have hsound : q.pool.Sound := hpool.invariant (P := fun q => q.pool.Sound)
    (fun _ _ _ h _ hstep => event_loop_thread_pool.sound_step h hstep)
    (EventLoopThreadPool.Sound.construct loop_ nameArg)
  have hstart : Follows q (.start loop_ q.pool.loops_ writeCompleteCallback_) := by
    refine ⟨⟨q, Machine.Steps.refl _ _ _, hbase, rfl, by rw [hnext]; rfl, hreturned⟩, rfl, ?_⟩
    intro conn object hobject
    cases hobject
  have hfollows : Follows q s :=
    hrun.invariant (P := Follows q) (fun _ _ _ h _ hstep => h.step hsound hstep) hstart
  obtain ⟨⟨t, hsteps, _, _, _, hasked⟩, _, hobjects⟩ := hfollows
  obtain ⟨count, _, _, _, hwindow⟩ := Window.of_steps hsound hsteps
  rw [hasked, hreturned, List.nil_append] at hwindow
  refine ⟨⟨t, hsteps, hasked⟩, hobjects, fun hempty l hmem => ?_, fun l hmem => ?_⟩
  · rw [hwindow, EventLoopThreadPool.choices, if_pos (List.isEmpty_iff.mpr hempty)] at hmem
    exact (List.eq_of_mem_replicate hmem).trans hbase
  · have hnonempty := List.ne_nil_of_mem hmem
    have hvisited : s.assigned = visited q.pool.loops_ 0 count := by
      rw [hwindow, EventLoopThreadPool.choices, if_neg (by simpa using hnonempty), hnext]
      rfl
    rw [hvisited, length_visited hnonempty]
    exact count_visited_fair hsound.distinct (Nat.zero_le _) hmem count

/-- A round of the base loop in which it accepts a connection. -/
def acceptsOn (address : Nat) : List (Input Nat) :=
  [.advance 0 (.poll [.channel .acceptor]) fun _ => 0, .advance 0 .dispatch fun _ => 0,
    .act 0 (some (address, address)) (.data []) (.bytes 0), .advance 0 .handled fun _ => 0,
    .advance 0 .beginFunctors fun _ => 0, .advance 0 .swap fun _ => 0, .advance 0 .endFunctors fun _ => 0,
    .advance 0 .test fun _ => 0]

/-- Three connections on two loops. -/
def threeOnTwo : List (Input Nat) :=
  [.advance 0 .enter fun _ => 0, .advance 0 .test fun _ => 0] ++ acceptsOn 7 ++ acceptsOn 8 ++ acceptsOn 9

theorem connections_spread_threeOnTwo :
    ∃ q s, (usage Nat).run (.construct 0 ['s']) [.setThreadNum 2, .start false [1, 2]] = some q ∧
      (assigning Nat fun _ => true).run (.start 0 q.pool.loops_ false) threeOnTwo = some s ∧
      s.assigned = [1, 2, 1] ∧ (∃ t, (usage Nat).Steps NoStart q t ∧ t.returned = s.assigned) ∧
      ∀ conn object, s.server.objects conn = some object →
        ∃ k, s.assigned[k]? = some object.loop_ ∧ object.name_ = number k := by
  have hruns : (((usage Nat).run (.construct 0 ['s']) [.setThreadNum 2, .start false [1, 2]]).bind fun q =>
      ((assigning Nat fun _ => true).run (.start 0 q.pool.loops_ false) threeOnTwo).map Assigning.assigned) =
        some [1, 2, 1] := by
    decide +kernel
  obtain ⟨q, hq, hserver⟩ := Option.bind_eq_some_iff.mp hruns
  obtain ⟨s, hs, hassigned⟩ := Option.map_eq_some_iff.mp hserver
  have hpool : (usage Nat).Steps NoCall (.construct 0 ['s']) q :=
    Machine.steps_of_run hq (Machine.along_of_forall (by simp [NoCall]) _)
  obtain ⟨hfollows, hobjects, _⟩ := connections_spread hpool
    (Machine.steps_of_run hs (Machine.along_of_forall (fun _ _ _ => trivial) _))
  exact ⟨q, s, hq, hs, hassigned, hfollows, hobjects⟩

end muduo.tcp_server
