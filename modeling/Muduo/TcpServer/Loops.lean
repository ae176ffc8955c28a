import Muduo.EventLoop.Atomic
import Muduo.TcpServer.Work

open transition
open muduo.kernel muduo.epoll muduo.event_loop

namespace muduo.tcp_server

variable {L : Type} [DecidableEq L] {alloc : Nat → Bool}

/-- The loop on whose own thread a step runs code that may queue functors or quit. -/
def Input.actor : Input L → Option L
  | .act l _ _ _ => some l
  | .ownCall l _ _ => some l
  | .ownQueue l => some l
  | .quit l isInLoopThread => if isInLoopThread then some l else none
  | _ => none

/-- A thread with something left to do in a body is in one, or outside of `loop()`. -/
def Busy (s : TcpServer L) : Prop := ∀ l, s.todos l ≠ [] → (s.threads l).at_.mayCall = true

omit [DecidableEq L] in
theorem Busy.of_userRuns {s : TcpServer L} (h : Busy s) {l : L} (huser : s.userRuns l = true) :
    (s.threads l).at_.mayCall = true := by
  unfold TcpServer.userRuns at huser
  split at huser
  · next htodo => exact h l (by rw [htodo]; simp)
  · next htodo => exact h l (by rw [htodo]; simp)
  · next _ hat =>
    rw [hat]
    rfl
  · cases huser

/-- The threads stay where they are, and only a thread that may call is given more to do. -/
theorem Busy.of_works {s t : TcpServer L} {l target : L} {done new : List Job} {tasks : List Task} (h : Busy s)
    (hworks : Works s t l done new target tasks) (hmay : done = [] → new ≠ [] → (s.threads l).at_.mayCall = true) :
    Busy t := by
  obtain ⟨rest, htodo, htodos⟩ := hworks.todos
  intro m hbusy
  rw [hworks.at_]
  rw [htodos] at hbusy
  by_cases hm : m = l
  · subst hm
    rw [Function.update_self] at hbusy
    cases done with
    | nil =>
      by_cases hnew : new = []
      · rw [List.nil_append] at htodo
        rw [hnew, List.nil_append, ← htodo] at hbusy
        exact h m hbusy
      · exact hmay rfl hnew
    | cons job done =>
      apply h m
      rw [htodo]
      simp
  · rw [Function.update_of_ne hm] at hbusy
    exact h m hbusy

/-- A step leaves threads with something to do where they may call. -/
theorem Busy.step {s t : TcpServer L} {i : Input L} (h : Busy s) (hstep : s.step alloc i = some t) : Busy t := by
  have hidle {u : TcpServer L} (l : L) (hloop : u.loop_ = s.loop_) (hloops : u.loops_ = s.loops_)
      (hat : ∀ m, (u.threads m).at_ = (s.threads m).at_) (htodos : u.todos = s.todos) : Busy u := by
    intro m hbusy
    rw [hat]
    rw [htodos] at hbusy
    exact h m hbusy
  have hgone {l : L} {job : Job} {rest : List Job} (htodo : s.todos l = job :: rest) : Busy (s.setTodo l rest) := by
    have hworks : Works s (s.setTodo l rest) l [job] [] l [] :=
      (Works.idle l l rfl rfl (fun _ => rfl) rfl fun _ => rfl).setTodo htodo []
    exact h.of_works hworks (by simp)
  cases step_change hstep with
  | advanced l a revents thread hnothing hmay hadvance =>
    intro m hbusy
    by_cases hm : m = l
    · subst hm
      simp only [TcpServer.enter, Function.update_self] at hbusy ⊢
      cases hat : thread.at_ with
      | handling | running | outside => rfl
      | testing | polling | dispatching | swapping | batch =>
        rw [hat] at hbusy
        exact absurd rfl hbusy
    · simp only [TcpServer.enter, Function.update_of_ne hm] at hbusy ⊢
      exact h m hbusy
  | turned l accepted received written conn a rest object w next htodo =>
    have hdone : s.todos l = [.connection conn a] ++ rest := htodo
    exact h.of_works (TcpServer.works_resume hdone conn object w _) (by simp)
  | asked l accepted received written conn rest htodo =>
    obtain ⟨new, tasks, hworks, _⟩ := TcpServer.works_removeConnection htodo conn
    exact h.of_works hworks (by simp)
  | removed l accepted received written conn rest object htodo =>
    exact h.of_works (TcpServer.works_removeConnectionInLoop htodo conn object) (by simp)
  | refused l received written rest htodo => exact hgone htodo
  | accepted l sockfd address received written rest htodo =>
    obtain ⟨new, tasks, hworks, _⟩ := TcpServer.works_newConnection htodo sockfd address
    exact h.of_works hworks (by simp)
  | called conn call object hobject huser =>
    exact h.of_works (TcpServer.works_ownCall s conn object call) fun _ _ => h.of_userRuns huser
  | returned l job rest htodo => exact hgone htodo
  | adjusted | kept | destroyed => exact hidle s.loop_ rfl rfl (fun _ => rfl) rfl
  | queued _ isInLoopThread l => exact hidle l rfl rfl (TcpServer.at_queueInLoop s isInLoopThread l _) rfl
  | quit l isInLoopThread => exact hidle l rfl rfl (TcpServer.works_quit s l isInLoopThread).at_ rfl

/-- What a step does to the thread of each loop: calls in one piece, those of its own
thread from places of a kind only. -/
def Moves (P : Location Task Handler → Prop) (s t : TcpServer L) : Prop :=
  ∀ m, (atomic Task Handler).Steps (OwnFrom P) (s.threads m) (t.threads m)

namespace Moves

variable {P : Location Task Handler → Prop} {s t : TcpServer L}

omit [DecidableEq L] in
theorem of_threads (h : t.threads = s.threads) : Moves P s t := by
  intro m
  rw [h]
  exact Machine.Steps.refl _ _ _

/-- A functor is queued on a loop. -/
theorem queueInLoop (h : Moves P s t) {isInLoopThread : Bool} {l : L} (task : Task)
    (hown : isInLoopThread = true → (t.threads l).at_.mayCall = true ∧ P (t.threads l).at_) :
    Moves P s (t.queueInLoop isInLoopThread l task) := by
  intro m
  by_cases hm : m = l
  · subst hm
    refine (h m).tail (i := .queueInLoop isInLoopThread task) (fun hinside => (hown hinside).2) ?_
    simp only [TcpServer.queueInLoop, Function.update_self]
    exact if_pos fun hinside => (hown hinside).1
  · simp only [TcpServer.queueInLoop, Function.update_of_ne hm]
    exact h m

theorem queueAll (h : Moves P s t) {isInLoopThread : Bool} {l : L} (conn : Nat) (functors : List tcp_connection.Functor)
    (hown : isInLoopThread = true → (t.threads l).at_.mayCall = true ∧ P (t.threads l).at_) :
    Moves P s (functors.foldl (fun t functor => t.queueInLoop isInLoopThread l (.connection conn functor)) t) := by
  induction functors generalizing t with
  | nil => exact h
  | cons functor functors ih =>
    apply ih (h.queueInLoop _ hown)
    rw [TcpServer.at_queueInLoop]
    exact hown

/-- The code of a connection has run on a thread that may call. -/
theorem resume {l : L} {conn : Nat} {object : Object L} {w : tcp_connection.World} {todo : List Job}
    (hmay : (s.threads l).at_.mayCall = true ∧ P (s.threads l).at_) :
    Moves P s (s.resume l conn object w todo) := by
  unfold TcpServer.resume
  refine Moves.queueAll ?_ conn w.queued ?_
  · exact Moves.of_threads rfl
  · intro hown
    obtain rfl : l = object.loop_ := of_decide_eq_true hown
    exact hmay

end Moves

/-- Each step of a server moves the threads of its loops by calls in one piece. -/
theorem moves_of_step {P : Location Task Handler → Prop} {s t : TcpServer L} {i : Input L} (hbusy : Busy s)
    (hfrom : ∀ l, i.actor = some l → (s.threads l).at_.mayCall = true → P (s.threads l).at_)
    (hstep : s.step alloc i = some t) : Moves P s t := by
  have hsame : Moves P s s := Moves.of_threads rfl
  cases i with
  | advance l a revents =>
    simp only [TcpServer.step] at hstep
    split at hstep
    · obtain ⟨thread, hadvance, rfl⟩ := Option.map_eq_some_iff.mp hstep
      intro m
      by_cases hm : m = l
      · subst hm
        simp only [TcpServer.setTodo, Function.update_self]
        exact Machine.Steps.single (i := .advance a) (fun hown => absurd hown Bool.false_ne_true) hadvance
      · simp only [TcpServer.setTodo, Function.update_of_ne hm]
        exact hsame m
    · cases hstep
  | act l accepted received written =>
    have hmay {job : Job} {rest : List Job} (htodo : s.todos l = job :: rest) :
        (s.threads l).at_.mayCall = true ∧ P (s.threads l).at_ := by
      have hcall := hbusy l (by rw [htodo]; simp)
      exact ⟨hcall, hfrom l rfl hcall⟩
    simp only [TcpServer.step, TcpServer.act] at hstep
    split at hstep
    · cases hstep
    · cases hstep
    · next rest htodo =>
      split at hstep
      · cases hstep
        exact Moves.of_threads rfl
      · split at hstep
        · cases hstep
          rw [TcpServer.newConnection_eq]
          split
          · exact Moves.of_threads rfl
          · exact Moves.queueInLoop (Moves.of_threads rfl) _ (fun hown => absurd hown Bool.false_ne_true)
        · cases hstep
    · next conn rest htodo =>
      obtain ⟨object, _, rfl⟩ := Option.map_eq_some_iff.mp hstep
      apply Moves.queueInLoop (Moves.of_threads rfl)
      intro hown
      obtain rfl : l = object.loop_ := of_decide_eq_true hown
      exact hmay htodo
    · next conn rest htodo =>
      cases hstep
      unfold TcpServer.removeConnection
      split
      · exact Moves.of_threads rfl
      · exact Moves.queueInLoop (Moves.of_threads rfl) _ (fun hown => absurd hown Bool.false_ne_true)
    · next conn a rest _ htodo =>
      obtain ⟨object, _, hturn⟩ := Option.bind_eq_some_iff.mp hstep
      obtain ⟨⟨w, next⟩, _, rfl⟩ := Option.map_eq_some_iff.mp hturn
      exact Moves.resume (hmay htodo)
  | ownCall l conn call =>
    simp only [TcpServer.step, TcpServer.onLoop] at hstep
    split at hstep
    · next huser =>
      obtain ⟨object, _, hloop⟩ := Option.bind_eq_some_iff.mp hstep
      obtain ⟨rfl, rfl⟩ := Option.ite_some_none_eq_some.mp hloop
      have hcall := hbusy.of_userRuns huser
      exact Moves.resume ⟨hcall, hfrom _ rfl hcall⟩
    · cases hstep
  | ownRetrieve l conn len | setHighWaterMarkCallback l conn highWaterMark =>
    simp only [TcpServer.step, TcpServer.onLoop] at hstep
    split at hstep
    · obtain ⟨object, _, hloop⟩ := Option.bind_eq_some_iff.mp hstep
      obtain ⟨_, rfl⟩ := Option.ite_some_none_eq_some.mp hloop
      exact Moves.of_threads rfl
    · cases hstep
  | userReturns l =>
    simp only [TcpServer.step] at hstep
    split at hstep
    · cases hstep
      exact Moves.of_threads rfl
    · cases hstep
      exact Moves.of_threads rfl
    · cases hstep
  | ownQueue l =>
    obtain ⟨huser, rfl⟩ := Option.ite_some_none_eq_some.mp hstep
    have hcall := hbusy.of_userRuns huser
    exact hsame.queueInLoop _ fun _ => ⟨hcall, hfrom l rfl hcall⟩
  | queueOther l =>
    cases hstep
    exact hsame.queueInLoop _ (fun hown => absurd hown Bool.false_ne_true)
  | quit l isInLoopThread =>
    obtain ⟨huser, rfl⟩ := Option.ite_some_none_eq_some.mp hstep
    have hcall (hown : isInLoopThread = true) := hbusy.of_userRuns (huser hown)
    intro m
    by_cases hm : m = l
    · subst hm
      simp only [Function.update_self]
      refine Machine.Steps.single (i := .quit isInLoopThread) (fun hown => ?_) (if_pos hcall)
      exact hfrom m (if_pos hown) (hcall hown)
    · simp only [Function.update_of_ne hm]
      exact hsame m
  | hold conn =>
    obtain ⟨_, rfl⟩ := Option.ite_some_none_eq_some.mp hstep
    exact Moves.of_threads rfl
  | drop conn =>
    cases hstep
    exact Moves.of_threads rfl
  | destroy conn =>
    obtain ⟨_, hgone⟩ := Option.ite_none_left_eq_some.mp hstep
    obtain ⟨object, _, rfl⟩ := Option.map_eq_some_iff.mp hgone
    exact Moves.of_threads rfl

omit [DecidableEq L] in
theorem Busy.construct (loop_ : L) (loops_ : List L) (writeCompleteCallback_ : Bool) :
    Busy (TcpServer.construct loop_ loops_ writeCompleteCallback_) :=
  fun _ hbusy => absurd rfl hbusy

/-- Along a run of a server the thread of each loop makes a run of its own. -/
theorem steps_thread {P : Location Task Handler → Prop} {ok : TcpServer L → Input L → Prop}
    (hok : ∀ s i l, ok s i → i.actor = some l → (s.threads l).at_.mayCall = true → P (s.threads l).at_)
    {loop_ : L} {loops_ : List L} {writeCompleteCallback_ : Bool} {s : TcpServer L}
    (hrun : (server L alloc).Steps ok (.construct loop_ loops_ writeCompleteCallback_) s) (m : L) :
    (atomic Task Handler).Steps (OwnFrom P) .construct (s.threads m) := by
  have hstart : Busy (TcpServer.construct loop_ loops_ writeCompleteCallback_) ∧
      (LoopThread.construct : LoopThread Task Handler) =
        (TcpServer.construct loop_ loops_ writeCompleteCallback_).threads m := ⟨Busy.construct _ _ _, rfl⟩
  obtain ⟨thread, ⟨_, rfl⟩, hsteps⟩ := hrun.simulate
    (R := fun (s : TcpServer L) thread => Busy s ∧ thread = s.threads m)
    (fun s i s' thread h hi hstep =>
      ⟨_, ⟨h.1.step hstep, rfl⟩, h.2 ▸ moves_of_step h.1 (fun l => hok s i l hi) hstep m⟩) hstart
  exact hsteps

/-- Every loop of a server is an event loop among other threads: whatever a server does,
the thread of each of its loops is where a run of the interleaving model leads, in which
nobody is in the middle of a call, and which differs in the names of those who have
queued the functors only. -/
theorem loops_interleave (loop_ : L) (loops_ : List L) (writeCompleteCallback_ : Bool) {s : TcpServer L}
    (hrun : (server L alloc).Steps Machine.Any (.construct loop_ loops_ writeCompleteCallback_) s) (m : L) :
    ∃ q : System Unit Task Handler, (interleaving Unit Task Handler).Steps Machine.Any System.start q ∧
      q.thread.map Posted.functor = s.threads m ∧ q.own = .outside ∧ ∀ t, q.others t = .outside := by
  have hsteps := steps_thread (P := fun _ => True) (fun _ _ _ _ _ _ => trivial) hrun m
  obtain ⟨q, ⟨hthread, hown, hothers⟩, hinterleaved⟩ := atomic_refines () hsteps
  refine ⟨q, ?_, hthread, hown, hothers⟩
  exact hinterleaved.mono (P := fun _ => True) (fun _ _ _ _ _ _ => trivial) (fun _ _ _ _ => trivial) trivial

/-- A base loop and an io loop, on which a connection is established that then sends. -/
def acceptedAndSends : List (Input Bool) :=
  let base (a : Advance Handler) : Input Bool := .advance false a fun _ => EPOLLIN
  let io (a : Advance Handler) : Input Bool := .advance true a fun _ => EPOLLIN
  let act (l : Bool) : Input Bool := .act l none (.data []) (.bytes 1)
  [base .enter, base .test, base (.poll [.channel .acceptor]), base .dispatch,
    .act false (some (5, 7)) (.data []) (.bytes 0), io .enter, io .test, io (.poll [.wakeupChannel]), io .dispatch,
    io .beginFunctors, io .swap, io .take, act true, .ownCall true 7 (.send ⟨[42], by decide⟩), act true,
    .userReturns true, io .returned, io .endFunctors, io .test]

theorem loops_interleave_sends :
    ∃ s, (server Bool fun _ => true).run (.construct false [true] true) acceptedAndSends = some s ∧
      ∃ q : System Unit Task Handler, (interleaving Unit Task Handler).Steps Machine.Any System.start q ∧
        q.thread.map Posted.functor = s.threads true ∧ q.own = .outside ∧ ∀ t, q.others t = .outside := by
  have hruns : ((server Bool fun _ => true).run (.construct false [true] true)
      acceptedAndSends).isSome = true := by decide +kernel
  obtain ⟨s, hrun⟩ := Option.isSome_iff_exists.mp hruns
  exact ⟨s, hrun, loops_interleave false [true] true
    (Machine.steps_of_run hrun (Machine.along_of_forall (fun _ _ _ => trivial) _)) true⟩

/-- User code works on the thread of a loop only while `loop()` is running there. -/
def InsideLoops (s : TcpServer L) (i : Input L) : Prop := ∀ l, i.actor = some l → (s.threads l).at_ ≠ .outside

instance (s : TcpServer L) (i : Input L) : Decidable (InsideLoops s i) :=
  match hactor : i.actor with
  | none => isTrue fun l hl => by rw [hactor] at hl; cases hl
  | some l => decidable_of_iff ((s.threads l).at_ ≠ .outside)
    ⟨fun h m hm => by rw [hactor] at hm; cases hm; exact h, fun h => h l hactor⟩

/-- The base loop hands a connection over while the io loop is at `poll`. -/
def handsOver : List (Input Bool) :=
  let base (a : Advance Handler) : Input Bool := .advance false a fun _ => EPOLLIN
  let io (a : Advance Handler) : Input Bool := .advance true a fun _ => EPOLLIN
  [io .enter, io .test, base .enter, base .test, base (.poll [.channel .acceptor]), base .dispatch,
    .act false (some (5, 7)) (.data []) (.bytes 0)]

end muduo.tcp_server
