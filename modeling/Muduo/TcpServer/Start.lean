import Muduo.Acceptor
import Muduo.EventLoop.Basic
import Muduo.EventLoopThreadPool

open transition
open muduo.event_loop muduo.event_loop_thread_pool
open muduo.inet_address (InetAddress)

namespace muduo.tcp_server_start

/-- The functors that the base loop is given: `Acceptor::listen`, and others. -/
inductive Task where
  | listen
  | other
  deriving DecidableEq

inductive Handler where
  | acceptor
  | other
  deriving DecidableEq

/-- What the thread of the base loop still has to do in the body that it runs. -/
inductive Job where
  | listen
  | handleRead
  | user
  deriving DecidableEq

def Task.entry : Task → Job
  | .listen => .listen
  | .other => .user

/-- The body that the thread of the base loop enters. -/
def body : Location Task Handler → List Job
  | .handling .acceptor _ => [.handleRead]
  | .handling .other _ => [.user]
  | .running task _ => [task.entry]
  | _ => []

/-- How far a thread is in a call of `TcpServer::start`: not in one, or in the call of
`threadPool_->start` with some threads started. -/
inductive Place where
  | outside
  | starting (i : Nat)
  deriving DecidableEq

/-- A server among threads `T`, with loops `L` and the thread of its base loop. `accepted`
records the calls of `newConnection`, each with the loop that it has chosen, `starts` and
`pools` count the calls of `start` and those of `threadPool_->start`. -/
structure System (T L : Type) where
  started_ : BitVec 32
  threadInitCallback_ : Bool
  pool : EventLoopThreadPool L
  places : T → Place
  thread : LoopThread Task Handler
  todo : List Job
  acceptor_ : acceptor.System
  accepted : List (Nat × InetAddress × L)
  starts : Nat
  pools : Nat

/-- A step: of a thread in a call of `start`, of the thread of the base loop, of a thread
that has other work for it, or of the kernel and of other descriptors and channels. -/
inductive Input (T L : Type) where
  | setThreadNum (numThreads : BitVec 32)
  | setThreadInitCallback
  | start (t : T)
  | startLoop (t : T) (loop : L)
  | runInLoop (t : T) (listens : Bool)
  | advance (a : Advance Handler)
  | act (accepted : Except acceptor.Errno Nat) (listens : Bool)
  | userReturns
  | queueOther (isInLoopThread : Bool)
  | quit (isInLoopThread : Bool)
  | outside (i : acceptor.Input)

/-- What happens to the kernel's queue, to other channels of the base loop and to other
descriptors. -/
def concernsOthers : acceptor.Input → Bool
  | .arrive _ => true
  | .perform _ _ => true
  | .openOther _ => true
  | .close _ => true
  | _ => false

namespace System

variable {T L : Type}

/-- A server that has been constructed: `NewConnectionCallback_` of its acceptor is set. -/
def construct (baseLoop : L) (nameArg : List Char) (channel sockfd : Nat) (listenAddr : InetAddress) : System T L where
  started_ := 0
  threadInitCallback_ := false
  pool := .construct baseLoop nameArg
  places := fun _ => .outside
  thread := .construct
  todo := []
  acceptor_ := { acceptor.System.start with
    acceptor_ := some
      { acceptSocket_ := sockfd
        acceptChannel_ := .construct channel sockfd
        NewConnectionCallback_ := true
        listenning_ := false }
    socket := { acceptor.ListenSocket.socket with bound := some listenAddr }
    open_ := Function.update (fun _ => none) sockfd (some .listener) }
  accepted := []
  starts := 0
  pools := 0

/-- User code is running on the thread of the base loop: in a callback, or outside of `loop()`. -/
def userRuns (s : System T L) : Bool :=
  match s.todo, s.thread.at_ with
  | .user :: _, _ => true
  | [], .outside => true
  | _, _ => false

variable [DecidableEq T] [DecidableEq L]

/-- A step of the acceptor. -/
def accept (limit : Nat) (s : System T L) (i : acceptor.Input) : Option (System T L) :=
  (s.acceptor_.step limit i).map fun acceptor_ => { s with acceptor_ }

/-- `start`, up to the turns of the loop of `threadPool_->start`. -/
def start (s : System T L) (t : T) : System T L :=
  let s' := { s with started_ := s.started_ + 1, starts := s.starts + 1 }
  if s.started_ = 0 then
    { s' with
      pool := { s.pool with started_ := true }
      places := Function.update s.places t (.starting 0)
      pools := s.pools + 1 }
  else s'

/-- `runInLoop` with `Acceptor::listen`, at the end of `start`. -/
def runInLoop (base : T) (limit : Nat) (s : System T L) (t : T) (listens : Bool) : Option (System T L) :=
  let s := { s with places := Function.update s.places t .outside }
  if t = base then s.accept limit (.listen listens)
  else some { s with thread := { s.thread with loop := s.thread.loop.queueInLoop false .listen } }

/-- The calls of `newConnection` that a turn of `handleRead` has made. -/
def newConnection (s t : System T L) : Except acceptor.Errno Nat → Option (System T L)
  | .ok connfd => match s.acceptor_.socket.queue with
    | [] => none
    | peerAddr :: _ => t.pool.getNextLoop.map fun (ioLoop, pool) =>
      { t with pool, accepted := t.accepted ++ [(connfd, peerAddr, ioLoop)] }
  | .error _ => some t

/-- One job of the thread of the base loop. -/
def act (limit : Nat) (s : System T L) (accepted : Except acceptor.Errno Nat) (listens : Bool) : Option (System T L) :=
  match s.todo with
  | .listen :: rest => { s with todo := rest }.accept limit (.listen listens)
  | .handleRead :: rest =>
    ({ s with todo := rest }.accept limit (.handleEvent accepted)).bind fun t => s.newConnection t accepted
  | _ => none

/-- What `poll` reports has been told to the channel of the acceptor. -/
def advance (limit : Nat) (s : System T L) (a : Advance Handler) : Option (System T L) :=
  (s.thread.advance a).bind fun thread =>
    let s := { s with thread, todo := body thread.at_ }
    match a with
    | .poll activeChannels =>
      if .channel .acceptor ∈ activeChannels then
        (s.accept limit (.poll false)).bind fun t =>
          if t.acceptor_.reported = true ∧ activeChannels.Nodup then some t else none
      else some s
    | _ => some s

/-- A thread whose `start` is in progress does nothing else. -/
def step (base : T) (limit : Nat) (s : System T L) (i : Input T L) : Option (System T L) :=
  if s.acceptor_.exited then none
  else match i with
  | .setThreadNum numThreads => some { s with pool := s.pool.setThreadNum numThreads }
  | .setThreadInitCallback => some { s with threadInitCallback_ := true }
  | .start t =>
    if s.places t = .outside ∧ (t = base → s.userRuns = true) then some (s.start t) else none
  | .startLoop t loop => match s.places t with
    | .starting i =>
      if (i : Int) < s.pool.numThreads_.toInt ∧ loop ∉ s.pool.baseLoop_ :: s.pool.loops_ then
        some { s with
          pool := s.pool.startThread s.threadInitCallback_ i loop
          places := Function.update s.places t (.starting (i + 1)) }
      else none
    | .outside => none
  | .runInLoop t listens => match s.places t with
    | .starting i => if (i : Int) < s.pool.numThreads_.toInt then none else s.runInLoop base limit t listens
    | .outside => none
  | .advance a => if s.places base = .outside ∧ s.todo = [] then s.advance limit a else none
  | .act accepted listens => if s.places base = .outside then s.act limit accepted listens else none
  | .userReturns => match s.todo with
    | .user :: rest => if s.places base = .outside then some { s with todo := rest } else none
    | _ => none
  | .queueOther isInLoopThread =>
    if isInLoopThread = true → s.places base = .outside ∧ s.userRuns = true then
      some { s with thread := { s.thread with loop := s.thread.loop.queueInLoop isInLoopThread .other } }
    else none
  | .quit isInLoopThread =>
    if isInLoopThread = true → s.places base = .outside ∧ s.userRuns = true then
      some { s with thread := { s.thread with loop := s.thread.loop.quit isInLoopThread } }
    else none
  | .outside i => if concernsOthers i = true then s.accept limit i else none

end System

/-- The start of a server by any threads. -/
def starting {T : Type} (L : Type) [DecidableEq T] [DecidableEq L] (base : T) (limit : Nat) :
    Machine (System T L) (Input T L) where
  step := System.step base limit

namespace System

variable {T L : Type}

/-- How often `Acceptor::listen` is still to be called on the thread of the base loop. -/
def listens (s : System T L) : Nat := s.todo.count .listen + s.thread.queue.count .listen

/-- Nothing has been accepted yet, as the socket does not listen. -/
structure Silent (s : System T L) : Prop where
  listening : s.acceptor_.socket.listening = false
  accepted : s.accepted = []
  next_ : s.pool.next_ = 0

/-- The phases of a start: before the first call, in the call of `threadPool_->start` by one
thread, with `Acceptor::listen` on its way to the base loop, and behind that. -/
inductive Phase (s : System T L) : Prop where
  | before (hsilent : s.Silent) (hpools : s.pools = 0) (hplaces : ∀ t, s.places t = .outside)
      (hloops : s.pool.loops_ = []) (hlistens : s.listens = 0)
  | starting (hsilent : s.Silent) (t : T) (i : Nat) (hpools : s.pools = 1) (hplace : s.places t = .starting i)
      (hothers : ∀ u, u ≠ t → s.places u = .outside) (hloops : s.pool.loops_.length = i) (hlistens : s.listens = 0)
  | queued (hsilent : s.Silent) (hpools : s.pools = 1) (hplaces : ∀ t, s.places t = .outside) (hlistens : s.listens = 1)
  | listening (hlistening : s.acceptor_.socket.listening = true) (hpools : s.pools = 1)
      (hplaces : ∀ t, s.places t = .outside) (hlistens : s.listens = 0)
      (hwindow : ∃ q : event_loop_thread_pool.System L, q.returned = [] ∧ q.pool.next_ = 0 ∧
        Window q { pool := s.pool, returned := s.accepted.map fun call => call.2.2 } s.accepted.length)

/-- The invariant of a start. -/
structure Sound (s : System T L) : Prop where
  acceptor_ : acceptor.Sound s.acceptor_
  exists_acceptor : ∃ self, s.acceptor_.acceptor_ = some self ∧ self.NewConnectionCallback_ = true
  outcomes : s.acceptor_.outcomes = s.accepted.map fun call => (call.2.1, .handed call.1)
  pool : s.starts ≤ 2 ^ 32 → s.pool.Sound
  started_ : s.started_ = BitVec.ofNat 32 s.starts
  pools : s.pools = (s.starts + (2 ^ 32 - 1)) / 2 ^ 32
  todo : s.todo <:+ body s.thread.at_
  covered : .listen ∈ s.thread.loop.pendingFunctors_ → s.thread.at_.afterSwap = true → 0 < s.thread.loop.wakeups
  phase : s.starts ≤ 2 ^ 32 → s.Phase

end System

/-- What the kernel, other channels and other descriptors do leaves the acceptor alone. -/
theorem acceptor_of_concernsOthers {limit : Nat} {s t : acceptor.System} {i : acceptor.Input}
    (hothers : concernsOthers i = true) (hstep : s.step limit i = some t) :
    t.acceptor_ = s.acceptor_ ∧ t.outcomes = s.outcomes ∧ t.socket.listening = s.socket.listening := by
  obtain ⟨_, hstep⟩ := Option.ite_none_left_eq_some.mp hstep
  cases i with
  | arrive peer =>
    obtain ⟨_, rfl⟩ := Option.ite_some_none_eq_some.mp hstep
    exact ⟨rfl, rfl, rfl⟩
  | perform channel op =>
    obtain ⟨_, rfl⟩ := Option.ite_some_none_eq_some.mp hstep
    exact ⟨rfl, rfl, rfl⟩
  | openOther fd =>
    obtain ⟨_, rfl⟩ := Option.ite_some_none_eq_some.mp hstep
    exact ⟨rfl, rfl, rfl⟩
  | close fd =>
    simp only at hstep
    split at hstep
    · cases hstep
      exact ⟨rfl, rfl, rfl⟩
    · cases hstep
      exact ⟨rfl, rfl, rfl⟩
    · cases hstep
  | construct channel sockfd listenAddr binds => cases hothers
  | setNewConnectionCallback => cases hothers
  | listen listens => cases hothers
  | poll => cases hothers
  | handleEvent accepted => cases hothers
  | destroy => cases hothers

/-- A functor that is queued leaves a loop that would wake up awake. -/
theorem wakeups_queueInLoop {F : Type} (loop : EventLoop F) (isInLoopThread : Bool) (cb : F) (hawake : 0 < loop.wakeups) :
    0 < (loop.queueInLoop isInLoopThread cb).wakeups := by
  unfold EventLoop.queueInLoop
  split
  · exact EventLoop.wakeups_wakeup_pos _
  · exact hawake

/-- `Acceptor::listen` that waits in `pendingFunctors_` past the swap keeps the loop awake. -/
def Covers (thread : LoopThread Task Handler) : Prop :=
  .listen ∈ thread.loop.pendingFunctors_ → thread.at_.afterSwap = true → 0 < thread.loop.wakeups

theorem Covers.advance {thread next : LoopThread Task Handler} {a : Advance Handler} (h : Covers thread)
    (hadvance : thread.advance a = some next) : Covers next := by
  have hadvances := LoopThread.advances_of_advance hadvance
  obtain ⟨loop, position⟩ := thread
  cases hadvances with
  | enter | leave | stay | take | returned => exact fun hmem _ => h hmem rfl
  | poll | drain | dispatch | handled | beginFunctors => exact fun _ hafter => absurd hafter (by simp [Location.afterSwap])
  | swap => exact fun hmem _ => absurd hmem (List.not_mem_nil)
  | endFunctors => exact fun hmem _ => h hmem rfl

/-- The thread of the base loop goes on to the next body with the functors in front. -/
theorem count_advance {thread next : LoopThread Task Handler} {a : Advance Handler}
    (hadvance : thread.advance a = some next) :
    (body next.at_).count .listen + next.queue.count .listen = thread.queue.count .listen := by
  obtain ⟨hqueue, hnot⟩ | ⟨functor, functors, hqueue, hat⟩ := LoopThread.queue_advance hadvance
  · have hnone : (body next.at_).count .listen = 0 := by
      cases hat : next.at_ with
      | running functor functors => exact absurd hat (hnot functor functors)
      | handling handler activeChannels => cases handler <;> rfl
      | outside | testing | polling | dispatching | swapping | batch => rfl
    rw [hnone, hqueue, Nat.zero_add]
  · rw [hat, hqueue]
    cases functor with
    | listen =>
      rw [List.count_cons_self, Nat.add_comm]
      rfl
    | other =>
      rw [List.count_cons_of_ne (by decide)]
      exact Nat.zero_add _

/-- A window over the calls of a pool depends on its loops and its index only. -/
theorem window_of_same {L : Type} {q s t : event_loop_thread_pool.System L} {count : Nat} (h : Window q s count)
    (hbase : t.pool.baseLoop_ = s.pool.baseLoop_) (hloops : t.pool.loops_ = s.pool.loops_)
    (hnext : t.pool.next_ = s.pool.next_) (hreturned : t.returned = s.returned) : Window q t count := by
  obtain ⟨hbase', hloops', hnext', hreturned'⟩ := h
  refine ⟨hbase.trans hbase', hloops.trans hloops', fun hnonempty => ?_, hreturned.trans hreturned'⟩
  rw [hnext]
  exact hnext' hnonempty

/-- As many calls as are made return. -/
theorem length_choices {L : Type} (pool : EventLoopThreadPool L) (count : Nat) : (pool.choices count).length = count := by
  unfold EventLoopThreadPool.choices
  split
  · exact List.length_replicate
  · next hnonempty => exact rotation.length_visited (by simpa using hnonempty) _ _

namespace System

variable {T L : Type} {s t : System T L}

/-- What the phase of a start depends on. -/
def facts (s : System T L) : Nat × (T → Place) × L × List L × BitVec 32 × Nat × Bool × List (Nat × InetAddress × L) :=
  (s.pools, s.places, s.pool.baseLoop_, s.pool.loops_, s.pool.next_, s.listens, s.acceptor_.socket.listening, s.accepted)

theorem Silent.congr (h : s.Silent) (hsame : t.facts = s.facts) : t.Silent := by
  simp only [facts, Prod.mk.injEq] at hsame
  obtain ⟨_, _, _, _, hnext, _, hlistening, haccepted⟩ := hsame
  exact ⟨hlistening.trans h.listening, haccepted.trans h.accepted, hnext.trans h.next_⟩

theorem Phase.congr (h : s.Phase) (hsame : t.facts = s.facts) : t.Phase := by
  have hfacts := hsame
  simp only [facts, Prod.mk.injEq] at hsame
  obtain ⟨hpools, hplaces, hbase, hloops, hnext, hlistens, hlistening, haccepted⟩ := hsame
  cases h with
  | before hsilent hpools' hplaces' hloops' hlistens' =>
    refine .before (hsilent.congr hfacts) (hpools.trans hpools') (fun u => ?_) (hloops.trans hloops')
      (hlistens.trans hlistens')
    rw [hplaces]
    exact hplaces' u
  | starting hsilent u i hpools' hplace hothers hloops' hlistens' =>
    refine .starting (hsilent.congr hfacts) u i (hpools.trans hpools') (by rw [hplaces, hplace]) (fun v hne => ?_) ?_
      (hlistens.trans hlistens')
    · rw [hplaces]
      exact hothers v hne
    · rw [hloops]
      exact hloops'
  | queued hsilent hpools' hplaces' hlistens' =>
    refine .queued (hsilent.congr hfacts) (hpools.trans hpools') (fun u => ?_) (hlistens.trans hlistens')
    rw [hplaces]
    exact hplaces' u
  | listening hlistening' hpools' hplaces' hlistens' hwindow =>
    obtain ⟨q, hreturned, hfirst, hwindow⟩ := hwindow
    refine .listening (hlistening.trans hlistening') (hpools.trans hpools') (fun u => ?_) (hlistens.trans hlistens')
      ⟨q, hreturned, hfirst, ?_⟩
    · rw [hplaces]
      exact hplaces' u
    · rw [haccepted]
      exact window_of_same hwindow hbase hloops hnext rfl

/-- The socket begins to listen. -/
theorem Silent.listens (h : s.Silent) (hlistening : t.acceptor_.socket.listening = true) (hpools : t.pools = 1)
    (hplaces : ∀ u, t.places u = .outside) (hlistens : t.listens = 0) (hpool : t.pool = s.pool)
    (haccepted : t.accepted = s.accepted) (hsound : s.pool.Sound) : t.Phase := by
  refine .listening hlistening hpools hplaces hlistens ⟨{ pool := s.pool, returned := [] }, rfl, h.next_, ?_⟩
  rw [hpool, haccepted, h.accepted]
  exact Window.refl hsound

namespace Sound

variable {base : T} {limit : Nat}

theorem construct (baseLoop : L) (nameArg : List Char) (channel sockfd : Nat) (listenAddr : InetAddress) :
    (System.construct baseLoop nameArg channel sockfd listenAddr : System T L).Sound := by
  refine ⟨?_, ⟨_, rfl, rfl⟩, rfl, fun _ => .construct baseLoop nameArg, rfl, ?_, List.suffix_rfl, nofun, fun _ => ?_⟩
  · exact acceptor.Sound.start.construct rfl channel rfl rfl rfl listenAddr |>.setNewConnectionCallback rfl
  · exact (Nat.div_eq_of_lt (show 0 + (2 ^ 32 - 1) < 2 ^ 32 by decide)).symm
  · exact .before ⟨rfl, rfl, rfl⟩ rfl (fun _ => rfl) rfl rfl

/-- A step that no phase depends on. -/
theorem of_facts (h : s.Sound) (hacceptor : t.acceptor_ = s.acceptor_) (hstarted : t.started_ = s.started_)
    (hstarts : t.starts = s.starts) (htodo : t.todo <:+ body t.thread.at_)
    (hcovered : Covers t.thread) (hfacts : t.facts = s.facts) : t.Sound := by
  have hsame := hfacts
  simp only [facts, Prod.mk.injEq] at hsame
  obtain ⟨hpools, _, _, hloops, hnext, _, _, haccepted⟩ := hsame
  refine ⟨hacceptor ▸ h.acceptor_, hacceptor ▸ h.exists_acceptor, ?_, fun hle => ?_, ?_, ?_, htodo, hcovered, fun hle => ?_⟩
  · rw [hacceptor, haccepted]
    exact h.outcomes
  · obtain ⟨hnodup, hlength, hlt⟩ := h.pool (hstarts ▸ hle)
    exact ⟨hloops ▸ hnodup, hloops ▸ hlength, by rw [hnext, hloops]; exact hlt⟩
  · rw [hstarted, hstarts]
    exact h.started_
  · rw [hpools, hstarts]
    exact h.pools
  · exact (h.phase (hstarts ▸ hle)).congr hfacts

/-- What the acceptor's steps other than `listen` and `handleRead` leave. -/
theorem of_acceptor (h : s.Sound) {after : acceptor.System} (hsound : acceptor.Sound after)
    (hself : ∃ self, after.acceptor_ = some self ∧ self.NewConnectionCallback_ = true)
    (houtcomes : after.outcomes = s.acceptor_.outcomes)
    (hlistening : after.socket.listening = s.acceptor_.socket.listening) : Sound { s with acceptor_ := after } := by
  refine ⟨hsound, hself, houtcomes.trans h.outcomes, h.pool, h.started_, h.pools, h.todo, h.covered, fun hle => ?_⟩
  refine (h.phase hle).congr ?_
  simp only [facts, hlistening]
  rfl

/-- The phase in which a thread is in the call of `threadPool_->start`. -/
theorem phase_of_starting (h : s.Sound) {u : T} {i : Nat} (hplace : s.places u = .starting i) (hle : s.starts ≤ 2 ^ 32) :
    s.Silent ∧ s.pools = 1 ∧ (∀ v, v ≠ u → s.places v = .outside) ∧ s.pool.loops_.length = i ∧ s.listens = 0 := by
  cases h.phase hle with
  | before _ _ hplaces =>
    rw [hplaces u] at hplace
    cases hplace
  | starting hsilent v j hpools hstarting hothers hloops hlistens =>
    obtain rfl : u = v := by
      by_contra hne
      rw [hothers u hne] at hplace
      cases hplace
    rw [hplace] at hstarting
    cases hstarting
    exact ⟨hsilent, hpools, hothers, hloops, hlistens⟩
  | queued _ _ hplaces =>
    rw [hplaces u] at hplace
    cases hplace
  | listening _ _ hplaces =>
    rw [hplaces u] at hplace
    cases hplace

/-- `Acceptor::listen` is called where it is the only thing that is left of a start. -/
theorem listen (h : s.Sound) {s' : System T L} {answer : Bool} (haccept : s'.accept limit (.listen answer) = some t)
    (hacceptor : s'.acceptor_ = s.acceptor_) (hsame : s'.accepted = s.accepted ∧ s'.pool = s.pool ∧
      s'.started_ = s.started_ ∧ s'.starts = s.starts ∧ s'.pools = s.pools)
    (htodo : s'.todo <:+ body s'.thread.at_) (hcovered : Covers s'.thread)
    (hphase : s.starts ≤ 2 ^ 32 → s.Silent ∧ s.pools = 1 ∧ (∀ u, s'.places u = .outside) ∧ s'.listens = 0) :
    t.acceptor_.exited = true ∨ t.Sound := by
  obtain ⟨haccepted, hpool, hstarted, hstarts, hpools⟩ := hsame
  obtain ⟨after, hstep, rfl⟩ := Option.map_eq_some_iff.mp haccept
  rw [hacceptor] at hstep
  obtain hexited | hsound := h.acceptor_.step hstep
  · exact .inl hexited
  obtain ⟨_, hstep⟩ := Option.ite_none_left_eq_some.mp hstep
  obtain ⟨self, hself, rfl⟩ := Option.map_eq_some_iff.mp hstep
  obtain ⟨object, hobject, hcallback⟩ := h.exists_acceptor
  obtain rfl := Option.some.inj (hself.symm.trans hobject)
  cases answer with
  | false => exact .inl rfl
  | true =>
    refine .inr ⟨hsound, ⟨_, rfl, hcallback⟩, ?_, fun hle => ?_, ?_, ?_, htodo, hcovered, fun hle => ?_⟩
    · change s.acceptor_.outcomes = s'.accepted.map _
      rw [haccepted]
      exact h.outcomes
    · change s'.starts ≤ 2 ^ 32 at hle
      change s'.pool.Sound
      rw [hpool]
      exact h.pool (hstarts ▸ hle)
    · change s'.started_ = BitVec.ofNat 32 s'.starts
      rw [hstarted, hstarts]
      exact h.started_
    · change s'.pools = (s'.starts + (2 ^ 32 - 1)) / 2 ^ 32
      rw [hpools, hstarts]
      exact h.pools
    · have hle' : s.starts ≤ 2 ^ 32 := hstarts ▸ hle
      obtain ⟨hsilent, hone, hplaces, hlistens⟩ := hphase hle'
      exact hsilent.listens rfl (hpools.trans hone) hplaces hlistens hpool haccepted (h.pool hle')

/-- The thread of the base loop goes on to the next body. -/
theorem advance (h : s.Sound) {a : Advance Handler} (hidle : s.todo = []) (hadvance : s.advance limit a = some t) :
    t.acceptor_.exited = true ∨ t.Sound := by
  obtain ⟨thread, hthread, hrest⟩ := Option.bind_eq_some_iff.mp hadvance
  have hmoved : Sound { s with thread, todo := body thread.at_ } := by
    refine h.of_facts rfl rfl rfl List.suffix_rfl (Covers.advance h.covered hthread) ?_
    have hcount := count_advance hthread
    simp only [facts, listens, hidle, hcount, List.count_nil, Nat.zero_add]
  cases a with
  | poll activeChannels =>
    simp only at hrest
    split at hrest
    · obtain ⟨next, haccept, hrest⟩ := Option.bind_eq_some_iff.mp hrest
      obtain ⟨_, rfl⟩ := Option.ite_some_none_eq_some.mp hrest
      obtain ⟨after, hstep, rfl⟩ := Option.map_eq_some_iff.mp haccept
      obtain hexited | hsound := h.acceptor_.step hstep
      · exact .inl hexited
      obtain ⟨_, hstep⟩ := Option.ite_none_left_eq_some.mp hstep
      obtain ⟨_, hpoll⟩ := Option.ite_none_left_eq_some.mp hstep
      obtain ⟨self, hself, rfl⟩ := Option.map_eq_some_iff.mp hpoll
      obtain ⟨object, hobject, hcallback⟩ := h.exists_acceptor
      obtain rfl := Option.some.inj (hself.symm.trans hobject)
      refine .inr (hmoved.of_acceptor hsound ?_ ?_ ?_)
      · unfold acceptor.System.poll
        split
        · exact ⟨self, hself, hcallback⟩
        · exact ⟨_, rfl, hcallback⟩
      · unfold acceptor.System.poll
        split <;> rfl
      · unfold acceptor.System.poll
        split <;> rfl
    · cases hrest
      exact .inr hmoved
  | enter | test | dispatch | handled | beginFunctors | swap | take | returned | endFunctors =>
    cases hrest
    exact .inr hmoved

/-- A body that is `handleRead` is done with it. -/
theorem of_todo (h : s.Sound) {job : Job} {rest : List Job} (htodo : s.todo = job :: rest) (hjob : job ≠ .listen) :
    Sound { s with todo := rest } := by
  have hsuffix := h.todo
  rw [htodo] at hsuffix
  refine h.of_facts rfl rfl rfl ((List.suffix_cons job rest).trans hsuffix) h.covered ?_
  simp only [facts, listens, htodo, List.count_cons_of_ne hjob]

/-- A functor that is not `Acceptor::listen`, or a call of `quit`. -/
theorem of_loop (h : s.Sound) {loop : EventLoop Task}
    (hmem : .listen ∈ loop.pendingFunctors_ → .listen ∈ s.thread.loop.pendingFunctors_)
    (hcount : loop.pendingFunctors_.count .listen = s.thread.loop.pendingFunctors_.count .listen)
    (hawake : 0 < s.thread.loop.wakeups → 0 < loop.wakeups) : Sound { s with thread := { s.thread with loop } } := by
  refine h.of_facts rfl rfl rfl h.todo (fun hlisten hafter => hawake (h.covered (hmem hlisten) hafter)) ?_
  simp only [facts, listens, LoopThread.queue, List.count_append, hcount]

/-- `newConnection` takes the next loop of the pool. -/
theorem newConnection [DecidableEq L] (h : s.Sound) {rest : List Job} (htodo : s.todo = .handleRead :: rest)
    {self : acceptor.Acceptor} (hcallback : self.NewConnectionCallback_ = true) {connfd : Nat} {peer : InetAddress}
    {queue : List InetAddress} (hlistening : s.acceptor_.socket.listening = true)
    (hself : s.acceptor_.acceptor_ = some self)
    (hsound : acceptor.Sound (acceptor.System.served { s.acceptor_ with reported := false } self connfd peer queue))
    {ioLoop : L} {pool : EventLoopThreadPool L} (hnext : s.pool.getNextLoop = some (ioLoop, pool)) :
    Sound { s with
      todo := rest
      acceptor_ := acceptor.System.served { s.acceptor_ with reported := false } self connfd peer queue
      pool
      accepted := s.accepted ++ [(connfd, peer, ioLoop)] } := by
  have hdone := h.of_todo htodo (by decide)
  refine ⟨hsound, ⟨self, hself, hcallback⟩, ?_, fun hle => (h.pool hle).getNextLoop hnext, h.started_, h.pools, hdone.todo,
    h.covered, fun hle => ?_⟩
  · simp only [acceptor.System.served, hcallback, h.outcomes, List.map_append, if_true]
    rfl
  · cases hdone.phase hle with
    | before hsilent => exact absurd (hsilent.listening.symm.trans hlistening) (by decide)
    | starting hsilent => exact absurd (hsilent.listening.symm.trans hlistening) (by decide)
    | queued hsilent => exact absurd (hsilent.listening.symm.trans hlistening) (by decide)
    | listening _ hpools hplaces hlistens hwindow =>
      obtain ⟨q, hreturned, hfirst, hwindow⟩ := hwindow
      obtain ⟨count, hlonger⟩ := hwindow.step (h.pool hle)
        (show NoStart (⟨s.pool, _⟩ : event_loop_thread_pool.System L) .getNextLoop from trivial)
        (by rw [event_loop_thread_pool.System.step, hnext]; rfl)
      refine .listening hlistening hpools hplaces hlistens ⟨q, hreturned, hfirst, ?_⟩
      have hcount := congrArg List.length hlonger.returned
      rw [hreturned, List.nil_append, length_choices] at hcount
      simp only [List.length_append, List.length_map, List.length_singleton] at hcount ⊢
      rw [hcount, List.map_append]
      exact hlonger

/-- One job of the thread of the base loop. -/
theorem act [DecidableEq L] (h : s.Sound) {accepted : Except acceptor.Errno Nat} {answer : Bool}
    (hact : s.act limit accepted answer = some t) : t.acceptor_.exited = true ∨ t.Sound := by
  cases htodo : s.todo with
  | nil => simp [System.act, htodo] at hact
  | cons job rest =>
    have hsuffix := h.todo
    rw [htodo] at hsuffix
    simp only [System.act, htodo] at hact
    cases job with
    | user => cases hact
    | listen =>
      refine h.listen hact rfl ⟨rfl, rfl, rfl, rfl, rfl⟩ ((List.suffix_cons _ rest).trans hsuffix) h.covered fun hle => ?_
      have hcount : s.listens = rest.count .listen + 1 + s.thread.queue.count .listen := by
        rw [listens, htodo, List.count_cons_self]
      cases h.phase hle with
      | before _ _ _ _ hnone => omega
      | starting _ _ _ _ _ _ _ hnone => omega
      | queued hsilent hpools hplaces hone =>
        refine ⟨hsilent, hpools, hplaces, ?_⟩
        change rest.count .listen + s.thread.queue.count .listen = 0
        omega
      | listening _ _ _ hnone => omega
    | handleRead =>
      obtain ⟨read, haccept, hnew⟩ := Option.bind_eq_some_iff.mp hact
      obtain ⟨after, hstep, rfl⟩ := Option.map_eq_some_iff.mp haccept
      obtain ⟨self, hself, hcallback⟩ := h.exists_acceptor
      obtain hexited | hsound := h.acceptor_.step hstep
      · left
        cases accepted with
        | error e =>
          cases hnew
          exact hexited
        | ok connfd =>
          simp only [System.newConnection] at hnew
          split at hnew
          · cases hnew
          · obtain ⟨_, _, rfl⟩ := Option.map_eq_some_iff.mp hnew
            exact hexited
      obtain ⟨_, hstep⟩ := Option.ite_none_left_eq_some.mp hstep
      obtain ⟨hreported, hevent⟩ := Option.ite_none_right_eq_some.mp hstep
      rw [show ({ s with todo := rest } : System T L).acceptor_.acceptor_ = some self from hself,
        Option.bind_some] at hevent
      cases h.acceptor_.reads hself hreported hevent with
      | @served connfd peer queue hqueue hlistening _ =>
        simp only [System.newConnection, show s.acceptor_.socket.queue = peer :: queue from hqueue] at hnew
        obtain ⟨⟨ioLoop, pool⟩, hnext, rfl⟩ := Option.map_eq_some_iff.mp hnew
        exact .inr (h.newConnection htodo hcallback hlistening hself hsound hnext)
      | failed =>
        cases hnew
        exact .inr ((h.of_todo htodo (by decide)).of_acceptor hsound ⟨self, hself, hcallback⟩ rfl rfl)

variable [DecidableEq T]

/-- A call of `start`: the first one goes on to `threadPool_->start`. -/
theorem start (h : s.Sound) (u : T) : (s.start u).Sound := by
  have hstarted : s.started_ = BitVec.ofNat 32 s.starts := h.started_
  have hpools := h.pools
  have hnext : s.started_ + 1 = BitVec.ofNat 32 (s.starts + 1) := by
    rw [hstarted]
    exact (BitVec.ofNat_add _ _).symm
  have hzero : s.started_ = 0 ↔ s.starts % 2 ^ 32 = 0 := by
    rw [hstarted, ← BitVec.toNat_inj, BitVec.toNat_ofNat]
    rfl
  unfold System.start
  split
  · next hfirst =>
    have hround := hzero.mp hfirst
    refine ⟨h.acceptor_, h.exists_acceptor, h.outcomes, fun hle => ?_, hnext, ?_, h.todo, h.covered, fun hle => ?_⟩
    · obtain ⟨hnodup, hlength, hlt⟩ := h.pool (Nat.le_of_succ_le hle)
      exact ⟨hnodup, hlength, hlt⟩
    · change s.pools + 1 = (s.starts + 1 + (2 ^ 32 - 1)) / 2 ^ 32
      omega
    · change s.starts + 1 ≤ 2 ^ 32 at hle
      have hnone : s.pools = 0 := by omega
      cases h.phase (Nat.le_of_succ_le hle) with
      | before hsilent _ hplaces hloops hlistens =>
        refine .starting ⟨hsilent.listening, hsilent.accepted, hsilent.next_⟩ u 0 ?_ (Function.update_self _ _ _)
          (fun v hne => (Function.update_of_ne hne _ _).trans (hplaces v)) ?_ hlistens
        · exact congrArg (· + 1) hnone
        · exact congrArg List.length hloops
      | starting _ _ _ hone => omega
      | queued _ hone => omega
      | listening _ hone => omega
  · next hlater =>
    have hround : s.starts % 2 ^ 32 ≠ 0 := fun hround => hlater (hzero.mpr hround)
    refine ⟨h.acceptor_, h.exists_acceptor, h.outcomes, fun hle => ?_, hnext, ?_, h.todo, h.covered, fun hle => ?_⟩
    · exact h.pool (Nat.le_of_succ_le hle)
    · change s.pools = (s.starts + 1 + (2 ^ 32 - 1)) / 2 ^ 32
      omega
    · exact (h.phase (Nat.le_of_succ_le hle)).congr rfl

/-- A turn of the loop of `threadPool_->start`. -/
theorem startLoop (h : s.Sound) {u : T} {i : Nat} (hplace : s.places u = .starting i)
    (hturn : (i : Int) < s.pool.numThreads_.toInt) {loop : L} (hnew : loop ∉ s.pool.baseLoop_ :: s.pool.loops_) :
    Sound { s with
      pool := s.pool.startThread s.threadInitCallback_ i loop
      places := Function.update s.places u (.starting (i + 1)) } := by
  have hlast : s.pool.numThreads_.toInt < 2 ^ 31 := BitVec.toInt_lt
  refine ⟨h.acceptor_, h.exists_acceptor, h.outcomes, fun hle => ?_, h.started_, h.pools, h.todo, h.covered, fun hle => ?_⟩
  · obtain ⟨hnodup, _, hlt⟩ := h.pool hle
    obtain ⟨hsilent, _, _, hloops, _⟩ := h.phase_of_starting hplace hle
    refine ⟨?_, ?_, .inl hsilent.next_⟩
    · exact List.nodup_append_comm.mp (List.nodup_cons.mpr ⟨fun hmem => hnew (List.mem_cons_of_mem _ hmem), hnodup⟩)
    · change (s.pool.loops_ ++ [loop]).length ≤ intMax
      rw [List.length_append, hloops, List.length_singleton]
      unfold intMax
      omega
  · obtain ⟨hsilent, hpools, hothers, hloops, hlistens⟩ := h.phase_of_starting hplace hle
    refine .starting ⟨hsilent.listening, hsilent.accepted, hsilent.next_⟩ u (i + 1) hpools (Function.update_self _ _ _)
      (fun v hne => (Function.update_of_ne hne _ _).trans (hothers v hne)) ?_ hlistens
    change (s.pool.loops_ ++ [loop]).length = i + 1
    rw [List.length_append, hloops, List.length_singleton]

/-- The end of `start`. On the thread of the base loop the socket listens at once, other
threads leave that to the loop. -/
theorem runInLoop (h : s.Sound) {u : T} {i : Nat} (hplace : s.places u = .starting i) {answer : Bool}
    (hrun : s.runInLoop base limit u answer = some t) : t.acceptor_.exited = true ∨ t.Sound := by
  have hplaces (hothers : ∀ v, v ≠ u → s.places v = .outside) (v : T) :
      Function.update s.places u .outside v = .outside := by
    by_cases hself : v = u
    · subst hself
      exact Function.update_self _ _ _
    · rw [Function.update_of_ne hself]
      exact hothers v hself
  simp only [System.runInLoop] at hrun
  split at hrun
  · refine h.listen hrun rfl ⟨rfl, rfl, rfl, rfl, rfl⟩ h.todo h.covered fun hle => ?_
    obtain ⟨hsilent, hpools, hothers, _, hlistens⟩ := h.phase_of_starting hplace hle
    exact ⟨hsilent, hpools, hplaces hothers, hlistens⟩
  · obtain rfl := Option.some.inj hrun
    refine .inr ⟨h.acceptor_, h.exists_acceptor, h.outcomes, h.pool, h.started_, h.pools, h.todo, fun _ _ => ?_,
      fun hle => ?_⟩
    · exact EventLoop.wakeups_wakeup_pos _
    · obtain ⟨hsilent, hpools, hothers, _, hlistens⟩ := h.phase_of_starting hplace hle
      refine .queued ⟨hsilent.listening, hsilent.accepted, hsilent.next_⟩ hpools (hplaces hothers) ?_
      simp only [listens, LoopThread.queue, List.count_append] at hlistens ⊢
      simp only [EventLoop.pendingFunctors_queueInLoop, List.count_append, List.count_singleton_self]
      omega

variable [DecidableEq L]

/-- Every step ends the process or keeps the invariant. -/
theorem step (h : s.Sound) {i : Input T L} (hstep : s.step base limit i = some t) :
    t.acceptor_.exited = true ∨ t.Sound := by
  obtain ⟨_, hstep⟩ := Option.ite_none_left_eq_some.mp hstep
  cases i with
  | setThreadNum numThreads =>
    cases hstep
    exact .inr (h.of_facts rfl rfl rfl h.todo h.covered rfl)
  | setThreadInitCallback =>
    cases hstep
    exact .inr (h.of_facts rfl rfl rfl h.todo h.covered rfl)
  | start u =>
    obtain ⟨_, rfl⟩ := Option.ite_some_none_eq_some.mp hstep
    exact .inr (h.start u)
  | startLoop u loop =>
    cases hplace : s.places u with
    | outside => simp [hplace] at hstep
    | starting i =>
      simp only [hplace] at hstep
      obtain ⟨⟨hturn, hnew⟩, rfl⟩ := Option.ite_some_none_eq_some.mp hstep
      exact .inr (h.startLoop hplace hturn hnew)
  | runInLoop u answer =>
    cases hplace : s.places u with
    | outside => simp [hplace] at hstep
    | starting i =>
      simp only [hplace] at hstep
      obtain ⟨_, hrun⟩ := Option.ite_none_left_eq_some.mp hstep
      exact h.runInLoop hplace hrun
  | advance a =>
    obtain ⟨⟨_, hidle⟩, hadvance⟩ := Option.ite_none_right_eq_some.mp hstep
    exact h.advance hidle hadvance
  | act accepted answer =>
    obtain ⟨_, hact⟩ := Option.ite_none_right_eq_some.mp hstep
    exact h.act hact
  | userReturns =>
    simp only at hstep
    split at hstep
    · next rest htodo =>
      obtain ⟨_, rfl⟩ := Option.ite_some_none_eq_some.mp hstep
      exact .inr (h.of_todo htodo (by decide))
    · cases hstep
  | queueOther isInLoopThread =>
    obtain ⟨_, rfl⟩ := Option.ite_some_none_eq_some.mp hstep
    refine .inr (h.of_loop (fun hmem => ?_) ?_ fun hawake => wakeups_queueInLoop _ _ _ hawake)
    · simpa using hmem
    · simp
  | quit isInLoopThread =>
    obtain ⟨_, rfl⟩ := Option.ite_some_none_eq_some.mp hstep
    unfold EventLoop.quit
    split
    · exact .inr (h.of_loop id rfl id)
    · exact .inr (h.of_loop id rfl fun _ => EventLoop.wakeups_wakeup_pos _)
  | outside i =>
    obtain ⟨hothers, haccept⟩ := Option.ite_none_right_eq_some.mp hstep
    obtain ⟨after, hafter, rfl⟩ := Option.map_eq_some_iff.mp haccept
    obtain hexited | hsound := h.acceptor_.step hafter
    · exact .inl hexited
    obtain ⟨hself, houtcomes, hlistening⟩ := acceptor_of_concernsOthers hothers hafter
    exact .inr (h.of_acceptor hsound (hself ▸ h.exists_acceptor) houtcomes hlistening)

theorem of_steps {baseLoop : L} {nameArg : List Char} {channel sockfd : Nat} {listenAddr : InetAddress}
    (hrun : (starting L base limit).Steps Machine.Any (.construct baseLoop nameArg channel sockfd listenAddr) s)
    (hgoes : s.acceptor_.exited = false) : s.Sound := by
  have hinvariant : s.acceptor_.exited = true ∨ s.Sound := by
    refine hrun.invariant (P := fun s => s.acceptor_.exited = true ∨ s.Sound) ?_
      (.inr (construct baseLoop nameArg channel sockfd listenAddr))
    rintro s i t (hexited | h) _ hstep
    · rw [show (starting L base limit).step s i = none from if_pos hexited] at hstep
      cases hstep
    · exact h.step hstep
  refine hinvariant.resolve_left ?_
  rw [hgoes]
  nofun

end Sound

end System

/-- Connections come after the pool. In every run of the start of a server, whichever threads
call `start` and however often, the first of every 2^32 calls and no other goes on to
`threadPool_->start`, and the connections that have come are those that have been given to
`newConnection`, in order, followed by those in the queue. As long as there are no more
calls than that, the first connection comes when no thread is in `threadPool_->start` any
more, the loops that `newConnection` has chosen are those that the pool answers with from
its first loop on, with all threads started, and the next answer is defined. -/
theorem connections_after_pool {T L : Type} [DecidableEq T] [DecidableEq L] {base : T} {limit : Nat} {baseLoop : L}
    {nameArg : List Char} {channel sockfd : Nat} {listenAddr : InetAddress} {s : System T L}
    (hrun : (starting L base limit).Steps Machine.Any (.construct baseLoop nameArg channel sockfd listenAddr) s)
    (hgoes : s.acceptor_.exited = false) :
    s.pools = (s.starts + (2 ^ 32 - 1)) / 2 ^ 32 ∧
    s.acceptor_.arrived = (s.accepted.map fun call => call.2.1) ++ s.acceptor_.socket.queue ∧
    (s.starts ≤ 2 ^ 32 → s.acceptor_.arrived ≠ [] → s.acceptor_.socket.listening = true ∧
      (∀ t, s.places t = .outside) ∧ s.listens = 0 ∧
      (s.accepted.map fun call => call.2.2) = ({ s.pool with next_ := 0 }).choices s.accepted.length ∧
      ∃ next, s.pool.getNextLoop = some next) := by
  have h := System.Sound.of_steps hrun hgoes
  have harrived : s.acceptor_.arrived = (s.accepted.map fun call => call.2.1) ++ s.acceptor_.socket.queue := by
    rw [h.acceptor_.arrived, h.outcomes, List.map_map]
    rfl
  refine ⟨h.pools, harrived, fun hle hcome => ?_⟩
  have hsilent (hsilent : s.Silent) : s.acceptor_.arrived = [] := by
    rw [harrived, hsilent.accepted, h.acceptor_.silent hsilent.listening]
    rfl
  cases h.phase hle with
  | before hbefore => exact absurd (hsilent hbefore) hcome
  | starting hstarting => exact absurd (hsilent hstarting) hcome
  | queued hqueued => exact absurd (hsilent hqueued) hcome
  | listening hlistening _ hplaces hlistens hwindow =>
    obtain ⟨q, hreturned, hfirst, hbase, hloops, _, hchosen⟩ := hwindow
    refine ⟨hlistening, hplaces, hlistens, ?_, ?_⟩
    · simp only [hreturned, List.nil_append] at hbase hloops hchosen
      rw [hchosen, EventLoopThreadPool.choices, EventLoopThreadPool.choices, hbase, hloops, hfirst]
    · obtain ⟨u, hnext⟩ := exists_getNextLoop (show (⟨s.pool, []⟩ : event_loop_thread_pool.System L).pool.Sound from h.pool hle)
      obtain ⟨next, hnext, _⟩ := Option.map_eq_some_iff.mp hnext
      exact ⟨next, hnext⟩

/-- A start is not lost. When `start` has been called, no more than 2^32 times, and no call is
in progress, the server listens, or `Acceptor::listen` waits for the base loop, exactly
once, and that loop cannot sleep before it has called it. -/
theorem start_listens {T L : Type} [DecidableEq T] [DecidableEq L] {base : T} {limit : Nat} {baseLoop : L}
    {nameArg : List Char} {channel sockfd : Nat} {listenAddr : InetAddress} {s : System T L}
    (hrun : (starting L base limit).Steps Machine.Any (.construct baseLoop nameArg channel sockfd listenAddr) s)
    (hgoes : s.acceptor_.exited = false) (hcalled : 0 < s.starts) (hle : s.starts ≤ 2 ^ 32)
    (hreturned : ∀ t, s.places t = .outside) :
    s.acceptor_.socket.listening = true ∧ s.listens = 0 ∨
    s.acceptor_.socket.listening = false ∧ s.listens = 1 ∧ (s.thread.at_ = .polling → 0 < s.thread.loop.wakeups) := by
  have h := System.Sound.of_steps hrun hgoes
  have hpools := h.pools
  cases h.phase hle with
  | before _ hnone => omega
  | starting _ t i _ hplace =>
    rw [hreturned t] at hplace
    cases hplace
  | queued hsilent _ _ hlistens =>
    refine .inr ⟨hsilent.listening, hlistens, fun hpoll => ?_⟩
    have htodo := h.todo
    rw [hpoll] at htodo
    have hidle : s.todo = [] := List.suffix_nil.mp htodo
    rw [System.listens, hidle, LoopThread.queue, hpoll] at hlistens
    have hone : s.thread.loop.pendingFunctors_.count .listen = 1 := by simpa [Location.waiting] using hlistens
    exact h.covered (List.count_pos_iff.mp (by omega)) (by rw [hpoll]; rfl)
  | listening hlistening _ _ hlistens => exact .inl ⟨hlistening, hlistens⟩

/-- Two threads call `start` while the base loop polls: the first one starts two threads and
leaves it to the base loop to listen, which then accepts three connections. -/
def startedTwice : List (Input (Fin 3) Nat) :=
  [.setThreadNum 2, .advance .enter, .advance .test, .start 1, .startLoop 1 10, .start 2, .startLoop 1 20, .runInLoop 1 true,
    .advance (.poll [.wakeupChannel]), .advance .dispatch, .advance .beginFunctors, .advance .swap, .advance .take,
    .act (.error .other) true, .advance .returned, .advance .endFunctors, .advance .test, .outside (.arrive .loopback),
    .outside (.arrive .loopback), .outside (.arrive .loopback), .advance (.poll [.channel .acceptor]), .advance .dispatch,
    .act (.ok 4) true, .advance .handled]

theorem connections_after_pool_startedTwice :
    ∃ s, (starting Nat 0 8).run (.construct 0 ['s'] 100 3 .loopback) startedTwice = some s ∧ s.starts = 2 ∧
      s.pools = (2 + (2 ^ 32 - 1)) / 2 ^ 32 ∧
      (s.accepted.map fun call => call.2.2) = ({ s.pool with next_ := 0 }).choices s.accepted.length := by
  have hruns : ((starting Nat 0 8).run (.construct 0 ['s'] 100 3 .loopback) startedTwice).map
      (fun s => (s.acceptor_.exited, s.starts, s.acceptor_.arrived.length)) = some (false, 2, 3) := by
    decide +kernel
  obtain ⟨s, hrun, heq⟩ := Option.map_eq_some_iff.mp hruns
  simp only [Prod.mk.injEq] at heq
  obtain ⟨hgoes, hstarts, hlength⟩ := heq
  obtain ⟨hpools, _, hchosen⟩ := connections_after_pool
    (Machine.steps_of_run hrun (Machine.along_of_forall (fun _ _ _ => trivial) _)) hgoes
  rw [hstarts] at hpools
  have hcome : s.acceptor_.arrived ≠ [] := List.ne_nil_of_length_pos (by omega)
  exact ⟨s, hrun, hstarts, hpools, (hchosen (by omega) hcome).2.2.2.1⟩

theorem start_listens_startedTwice :
    ∃ s, (starting Nat 0 8).run (.construct 0 ['s'] 100 3 .loopback) (startedTwice.take 8) = some s ∧
      (s.acceptor_.socket.listening = true ∧ s.listens = 0 ∨
        s.acceptor_.socket.listening = false ∧ s.listens = 1 ∧ (s.thread.at_ = .polling → 0 < s.thread.loop.wakeups)) := by
  have hruns : ((starting Nat 0 8).run (.construct 0 ['s'] 100 3 .loopback) (startedTwice.take 8)).map
      (fun s => (s.acceptor_.exited, s.starts, decide (∀ t, s.places t = .outside))) = some (false, 2, true) := by
    decide +kernel
  obtain ⟨s, hrun, heq⟩ := Option.map_eq_some_iff.mp hruns
  simp only [Prod.mk.injEq, decide_eq_true_eq] at heq
  obtain ⟨hgoes, hstarts, hreturned⟩ := heq
  exact ⟨s, hrun, start_listens (Machine.steps_of_run hrun (Machine.along_of_forall (fun _ _ _ => trivial) _)) hgoes
    (by omega) (by omega) hreturned⟩

end muduo.tcp_server_start
