import Muduo.TcpConnection.Flight
import Muduo.TcpConnection.Lifecycle

open transition record
open muduo.kernel muduo.buffer muduo.epoll muduo.event_loop

namespace muduo.tcp_connection

variable {T : Type}

/-- A connected connection with any backlog, on which nobody is in a call: of its
functors only write-complete and high-water callbacks are queued, and the record has
seen no output. -/
structure Open (s : System T) : Prop where
  state_eq : s.conn.state_ = .kConnected
  isWriting_iff : s.conn.channel_.isWriting = true ↔ s.conn.outputBuffer_.contents ≠ []
  todo : ∀ a ∈ s.todo, a = .user
  queue : ∀ functor, .connection functor ∈ s.thread.queue → functor.isNotice = true
  callers : ∀ t, s.callers t = .outside
  log : taken s.log = [] ∧ submitted s.log = [] ∧ accepted s.log = [] ∧ .shutdownWrite ∉ s.log

/-- Whether a step shuts no payload out: when `handleWrite` has drained the backlog of
a connection that is shutting down, no payload is in flight. -/
def System.drains (caller : Option T) (s : System T) : Input T → Bool
  | .act _ _ => match s.todo with
    | .drained :: _ => s.conn.state_ != .kDisconnecting ||
        ((s.flight caller).flatMap Request.payload).isEmpty
    | _ => true
  | _ => true

def Drains (caller : Option T) (s : System T) (i : Input T) : Prop := s.drains caller i = true

/-- What holds of a connection that one caller sends on and then shuts down. -/
structure Shutting (first : List UInt8) (caller : Option T) (s : System T) : Prop where
  alone : Alone caller s
  streaming : Streaming first s.world
  accepted_eq : accepted s.log = submitted s.log ++ (s.flight caller).flatMap Request.payload
  ordered : NeverAfter (· = .shutdown) (· ≠ .shutdown) (s.flight caller)
  connected : .shutdown ∈ s.flight caller ∨ .shutdownWrite ∈ s.log → s.conn.state_ ≠ .kConnected
  flushed : Flushed first s.log
  late : NeverAfter (· = .shutdownWrite) (fun event => event.accepted ≠ []) s.log

theorem requests_of_user {acts : List Act} (h : ∀ a ∈ acts, a = .user) : acts.flatMap Act.requests = [] := by
  apply List.flatMap_eq_nil_iff.mpr
  intro a hmem
  rw [h a hmem]
  rfl

theorem Open.alone {s : System T} (h : Open s) (caller : Option T) :
    Alone caller s ∧ s.flight caller = [] := by
  have hqueue : s.thread.queue.flatMap Task.requests = [] := by
    apply List.flatMap_eq_nil_iff.mpr
    intro task hmem
    cases task with
    | connection functor => exact (requests_of_isNotice (h.queue functor hmem)).1
    | other => rfl
  have hcall (functor : Functor) : .call functor ∉ s.todo := by
    intro hmem
    cases h.todo _ hmem
  refine ⟨⟨⟨?_, ?_, ⟨hcall _, ?_, ?_⟩⟩, ?_, ?_, fun t _ => h.callers t, ?_, fun _ => hqueue⟩, ?_⟩
  · intro a hmem
    rw [h.todo a (List.mem_of_mem_tail hmem)]
    rfl
  · intro functor hmem
    cases h.todo _ hmem
  · intro hmem
    cases h.queue _ hmem
  · intro t hcall
    rw [h.callers t] at hcall
    cases hcall
  · intro a hmem
    rw [h.todo a hmem]
    rfl
  · intro functor hmem
    exact (requests_of_isNotice (h.queue functor hmem)).2
  · intro t functor hcall
    rw [h.callers t] at hcall
    cases hcall
  · rw [System.flight, requests_of_user h.todo, hqueue]
    cases caller with
    | none => rfl
    | some t => simp [h.callers t, Caller.requests]

theorem Open.shutting {s : System T} (h : Open s) (caller : Option T) :
    Shutting s.conn.outputBuffer_.contents caller s := by
  obtain ⟨halone, hflight⟩ := h.alone caller
  obtain ⟨htaken, hsubmitted, haccepted, hshut⟩ := h.log
  refine ⟨halone, ⟨?_, h.isWriting_iff⟩, ?_, ?_, ?_, ?_, ?_⟩
  · change taken s.log ++ _ = _ ++ submitted s.log
    rw [htaken, hsubmitted, List.append_nil, List.nil_append]
    rfl
  · rw [haccepted, hsubmitted, hflight]
    rfl
  · rw [hflight]
    exact neverAfter_of_none (by simp)
  · rw [hflight]
    rintro (hmem | hmem)
    · cases hmem
    · exact absurd hmem hshut
  · exact (whenever_nil _ _).append hshut
  · apply neverAfter_of_no_first
    rintro event hmem rfl
    exact hshut hmem

theorem accepted_of_isTransfer {event : Event} (h : event.isTransfer = true) : event.accepted = [] := by
  cases event <;> first | rfl | cases h

/-- An act that serves the requests in front, and moves output. -/
theorem Shutting.of_act {first : List UInt8} {caller : Option T} {s t : System T} (h : Shutting first caller s)
    (halone : Alone caller t) (hstate : t.conn.state_ = s.conn.state_) (hstreaming : Streaming first t.world)
    (served : List Request) (hflight : s.flight caller = served ++ t.flight caller) (more : List Event)
    (hlog : t.log = s.log ++ more) (hmore : ∀ event ∈ more, event.accepted = [])
    (hsubmitted : submitted t.log = submitted s.log ++ served.flatMap Request.payload)
    (hshut : .shutdownWrite ∈ more → s.conn.state_ ≠ .kConnected) (hflushed : Flushed first t.log) :
    Shutting first caller t := by
  refine ⟨halone, hstreaming, ?_, ?_, ?_, hflushed, ?_⟩
  · have haccepted : accepted t.log = accepted s.log := by
      rw [accepted, hlog]
      exact flatMap_append_eq hmore
    rw [haccepted, h.accepted_eq, hflight, hsubmitted, List.flatMap_append, List.append_assoc]
  · have hordered := h.ordered
    rw [hflight] at hordered
    exact hordered.sublist (List.sublist_append_right served _)
  · rw [hstate]
    rintro (hmem | hmem)
    · exact h.connected (.inl (by rw [hflight]; exact List.mem_append_right served hmem))
    · rw [hlog] at hmem
      rcases List.mem_append.mp hmem with hmem | hmem
      · exact h.connected (.inr hmem)
      · exact hshut hmem
  · rw [hlog]
    have hsilent : ∀ event ∈ more, ¬ event.accepted ≠ [] := fun event hmem hne => hne (hmore event hmem)
    exact h.late.append (neverAfter_of_none hsilent) fun _ => hsilent

/-- Behind a call of `shutdown` there is no payload in flight. -/
theorem Shutting.accepted_of_shutdown {first : List UInt8} {caller : Option T} {s : System T}
    (h : Shutting first caller s) {rest : List Request} (hflight : s.flight caller = .shutdown :: rest) :
    accepted s.log = submitted s.log := by
  have hordered := h.ordered
  rw [hflight] at hordered
  have hnone : rest.flatMap Request.payload = [] := by
    apply List.flatMap_eq_nil_iff.mpr
    intro r hmem
    have hshutdown : r = .shutdown := by
      have hlater := (List.pairwise_cons.mp hordered).1 r hmem rfl
      simpa using hlater
    rw [hshutdown]
    rfl
  rw [h.accepted_eq, hflight, List.flatMap_cons, hnone]
  exact List.append_nil _

/-- An act of a connection that is shut down gracefully. -/
theorem Shutting.act {alloc : Nat → Bool} {first : List UInt8} {caller : Option T} {s : System T}
    {received : Received} {written : Written} {a : Act} {rest next : List Act} {w : World}
    (h : Shutting first caller s) (hfatal : written.isFatal = false)
    (hdrains : Drains caller s (.act received written)) (htodo : s.todo = a :: rest)
    (hturn : CalmTurn alloc written s.world a w next) (halone : Alone caller (s.resume w (next ++ rest)))
    (hflight : s.flight caller = a.requests ++ (s.resume w (next ++ rest)).flight caller) :
    Shutting first caller (s.resume w (next ++ rest)) := by
  have hmoved {w : World} {next : List Act} (halone : Alone caller (s.resume w (next ++ rest)))
      (htransfers : Transfers s.world w) (hstreaming : Streaming first w) (served : List Request)
      (hflight : s.flight caller = served ++ (s.resume w (next ++ rest)).flight caller)
      (hsubmitted : submitted w.log = submitted s.log ++ served.flatMap Request.payload)
      (hshut : s.conn.state_ = .kConnected → w.log.flatMap Event.shut = s.log.flatMap Event.shut)
      (hflushed : Flushed first w.log) : Shutting first caller (s.resume w (next ++ rest)) := by
    obtain ⟨hstate, _, _, ⟨events, hlog, hevents⟩, _⟩ := htransfers
    refine h.of_act halone hstate (hstreaming.of_eq rfl rfl rfl rfl) served hflight events hlog ?_ hsubmitted ?_
      hflushed
    · intro event hmem
      exact accepted_of_isTransfer (hevents event hmem)
    · intro hmem hconnected
      exact shutdownWrite_notMem hlog (hshut hconnected) hmem
  cases hturn with
  | sendInLoop data _ hsend =>
    have hshut : w.log.flatMap Event.shut = s.log.flatMap Event.shut := by
      rw [World.flatMap_sendInLoop_of_write shut_ignores (fun _ _ => rfl) hsend]
      exact List.append_nil _
    refine hmoved halone (.sendInLoop hsend) (h.streaming.sendInLoop hfatal hsend) _ hflight ?_ (fun _ => hshut)
      (h.flushed.of_transfers (w := s.world) (.sendInLoop hsend) hshut)
    rw [submitted, World.flatMap_sendInLoop_of_write submitted_ignores (fun _ _ => rfl) hsend]
    simp [Act.requests, Functor.requests, Request.payload, System.world, submitted, Event.submitted]
  | shutdownInLoop =>
    have hsubmitted : submitted s.world.shutdownInLoop.log = submitted s.log := flatMap_shutdownInLoop rfl s.world
    have haccepted := h.accepted_of_shutdown hflight
    refine hmoved halone (.shutdownInLoop s.world) h.streaming.shutdownInLoop _ hflight ?_ ?_
      (h.flushed.shutdownInLoop (w := s.world) h.streaming haccepted)
    · rw [hsubmitted]
      exact (List.append_nil _).symm
    · intro hconnected
      exact absurd hconnected (h.connected (.inl (by rw [hflight]; exact List.mem_cons_self)))
  | drained =>
    unfold World.drained at halone hflight ⊢
    split at halone
    · next hstate =>
      rw [if_pos hstate] at hflight ⊢
      have hsubmitted : submitted s.world.shutdownInLoop.log = submitted s.log :=
        flatMap_shutdownInLoop rfl s.world
      have hstate' : s.conn.state_ = .kDisconnecting := hstate
      have haccepted : accepted s.log = submitted s.log := by
        have hnone : (s.flight caller).flatMap Request.payload = [] := by
          simpa [Drains, System.drains, htodo, hstate'] using hdrains
        rw [h.accepted_eq, hnone, List.append_nil]
      refine hmoved halone (.shutdownInLoop s.world) h.streaming.shutdownInLoop [] hflight ?_ ?_
        (h.flushed.shutdownInLoop (w := s.world) h.streaming haccepted)
      · rw [hsubmitted]
        exact (List.append_nil _).symm
      · intro hconnected
        rw [hstate'] at hconnected
        cases hconnected
    · next hstate =>
      rw [if_neg hstate] at hflight ⊢
      exact hmoved halone (.refl s.world) h.streaming [] hflight (List.append_nil _).symm (fun _ => rfl) h.flushed
  | handleWrite _ _ hwrite =>
    have hshut := World.flatMap_handleWrite_of_write shut_ignores (fun _ _ => rfl) hwrite
    have hsubmitted := World.flatMap_handleWrite_of_write submitted_ignores (fun _ _ => rfl) hwrite
    refine hmoved halone (.handleWrite hwrite) (h.streaming.handleWrite hwrite).1 [] hflight ?_ (fun _ => hshut)
      (h.flushed.of_transfers (w := s.world) (.handleWrite hwrite) hshut)
    exact hsubmitted.trans (List.append_nil _).symm
  | quiet _ _ _ ha hstate hbuffer hchannel hlog hnext =>
    rw [ha.1] at hflight
    obtain ⟨more, hlog, hmore⟩ : ∃ more, w.log = s.log ++ more ∧ ∀ event ∈ more, event = .messageCallback_ := by
      rcases hlog with hlog | hlog
      · exact ⟨[], hlog.trans (List.append_nil _).symm, by simp⟩
      · exact ⟨[.messageCallback_], hlog, by simp⟩
    have hsilent {B : Type} {f : Event → List B} (hf : f .messageCallback_ = []) :
        w.log.flatMap f = s.log.flatMap f := by
      rw [hlog]
      apply flatMap_append_eq
      intro event hmem
      rw [hmore event hmem, hf]
    have habsent : .shutdownWrite ∉ more := by
      intro hmem
      cases hmore _ hmem
    have hstreaming : Streaming first w :=
      h.streaming.of_eq (by rw [hbuffer]) (by rw [hchannel]) (hsilent rfl) (hsilent rfl)
    refine h.of_act halone hstate (hstreaming.of_eq rfl rfl rfl rfl) [] hflight more hlog ?_ ?_
      (fun hmem => absurd hmem habsent) ?_
    · intro event hmem
      rw [hmore event hmem]
      rfl
    · exact (hsilent rfl).trans (List.append_nil _).symm
    · rw [System.resume, hlog]
      exact h.flushed.append habsent

/-- Each step keeps this, if it shuts no payload out. -/
theorem Shutting.step [DecidableEq T] {alloc : Nat → Bool} {sameLoop : Bool} {first : List UInt8}
    {caller : Option T} {s t : System T} {i : Input T} (h : Shutting first caller s)
    (hgraceful : Graceful caller s i) (hdrains : Drains caller s i)
    (hstep : s.step alloc sameLoop i = some t) : Shutting first caller t := by
  obtain ⟨halone, hflow⟩ := h.alone.step hgraceful hstep
  cases hflow with
  | quiet _ _ hstate hbuffer hwriting hlog hflight =>
    refine ⟨halone, h.streaming.of_eq (congrArg _ hbuffer) hwriting (congrArg taken hlog) (congrArg submitted hlog),
      ?_, ?_, ?_, ?_, ?_⟩
    · rw [hlog, hflight]
      exact h.accepted_eq
    · rw [hflight]
      exact h.ordered
    · rw [hlog, hflight, hstate]
      exact h.connected
    · rw [hlog]
      exact h.flushed
    · rw [hlog]
      exact h.late
  | act received written a rest w next htodo hturn hflight =>
    have hfatal : written.isFatal = false := by
      simp only [Graceful, System.graceful, Bool.and_eq_true] at hgraceful
      simpa using hgraceful.1
    exact h.act hfatal hdrains htodo hturn halone hflight
  | send _ _ data hconnected hconn hlog hflight =>
    have hnone : .shutdown ∉ s.flight caller := fun hmem => h.connected (.inl hmem) hconnected
    have hopen : .shutdownWrite ∉ s.log := fun hmem => h.connected (.inr hmem) hconnected
    have htaken : taken t.log = taken s.log := by
      rw [taken, hlog]
      exact flatMap_append_eq (by simp [Event.taken])
    have hsubmitted : submitted t.log = submitted s.log := by
      rw [submitted, hlog]
      exact flatMap_append_eq (by simp [Event.submitted])
    have hopen' : .shutdownWrite ∉ t.log := by simp [hlog, hopen]
    refine ⟨halone, h.streaming.of_eq (by simp [System.world, hconn]) (by simp [System.world, hconn]) htaken
      hsubmitted, ?_, ?_, ?_, ?_, ?_⟩
    · have haccepted : accepted t.log = accepted s.log ++ data.chars := by
        simp [accepted, hlog, Event.accepted]
      rw [haccepted, h.accepted_eq, hsubmitted, hflight, List.flatMap_append, ← List.append_assoc]
      simp [Request.payload]
    · rw [hflight]
      refine h.ordered.append (neverAfter_of_no_first (by simp)) ?_
      rintro ⟨r, hmem, rfl⟩
      exact absurd hmem hnone
    · rw [hflight]
      simp [hnone, hopen']
    · exact (whenever_nil _ _).append hopen'
    · apply neverAfter_of_no_first
      rintro event hmem rfl
      exact hopen' hmem
  | shut _ _ hconn hlog hflight =>
    have hsame {B : Type} {f : Event → List B} (hf : f (.setState .kDisconnecting) = []) :
        t.log.flatMap f = s.log.flatMap f := by
      rw [hlog]
      exact flatMap_append_eq (by simpa using hf)
    refine ⟨halone, h.streaming.of_eq (by simp [System.world, hconn]) (by simp [System.world, hconn]) (hsame rfl)
      (hsame rfl), ?_, ?_, ?_, ?_, ?_⟩
    · rw [accepted, submitted, hsame rfl, hsame rfl, hflight, List.flatMap_append]
      exact h.accepted_eq.trans (by simp [Request.payload, submitted])
    · rw [hflight]
      exact h.ordered.append (neverAfter_of_none (by simp)) fun _ => by simp
    · simp [hconn]
    · rw [hlog]
      exact h.flushed.append (by simp)
    · rw [hlog]
      exact h.late.append (neverAfter_of_none (by simp [Event.accepted])) fun _ => by simp [Event.accepted]

/-- A graceful shutdown from any thread. One caller sends and then shuts down, the
loop serves its functors and dispatches `EPOLLOUT`, and no write fails for good. In
every run in which each step shuts no payload out, the kernel has taken the first
backlog and every payload that the caller's calls of `send` have had accepted,
whenever `shutdownWrite` is called. -/
theorem shutdownWrite_after_accepted [DecidableEq T] {alloc : Nat → Bool} {sameLoop : Bool} {caller : Option T}
    {s₀ s : System T} (hstart : Open s₀)
    (hrun : (system T alloc sameLoop).Steps (fun s i => Graceful caller s i ∧ Drains caller s i) s₀ s) :
    ∀ before after, s.log = before ++ .shutdownWrite :: after →
      taken before = s₀.conn.outputBuffer_.contents ++ accepted s.log := by
  have hshutting := hrun.invariant (fun _ _ _ h hok hstep => h.step hok.1 hok.2 hstep) (hstart.shutting caller)
  intro before after heq
  have hlate := hshutting.late
  rw [heq] at hlate
  have hbehind := (List.pairwise_cons.mp (List.pairwise_append.mp hlate).2.1).1
  have hnone : ∀ event ∈ .shutdownWrite :: after, event.accepted = [] := by
    intro event hmem
    rcases List.mem_cons.mp hmem with rfl | hmem
    · rfl
    · simpa using hbehind event hmem rfl
  have haccepted : accepted s.log = accepted before := by
    rw [accepted, heq]
    exact flatMap_append_eq hnone
  rw [haccepted]
  exact hshutting.flushed before after heq

instance [DecidableEq T] (caller : Option T) (s : System T) (i : Input T) :
    Decidable (Graceful caller s i ∧ Drains caller s i) :=
  inferInstanceAs (Decidable (s.graceful caller i = true ∧ s.drains caller i = true))

theorem open_justEstablished : Open justEstablished := by
  have hempty : justEstablished.conn.outputBuffer_.contents = [] := CheckedBuffer.contents_fresh
  refine ⟨rfl, ?_, ?_, ?_, fun _ => rfl, ?_⟩
  · rw [hempty]
    decide
  · intro a hmem
    exact List.mem_singleton.mp hmem
  · intro functor hmem
    cases hmem
  · decide

/-- The loop wakes up behind the body that it is in, and takes the first functor. -/
def wakeUp : List (Input Unit) := dispatchNext [.wakeupChannel] 0 ++ takeNext

/-- Another thread sends and shuts down before the loop serves either. -/
def sendAndShutdown : List (Input Unit) :=
  [.load () (.send payload), .push (), .load () .shutdown, .store (), .push (),
    .userReturns, .advance .returned 0] ++ wakeUp ++
    [.act (.data []) (.bytes 2), .advance .returned 0, .advance .take 0, .act (.data []) (.bytes 0)]

theorem shutdownWrite_after_accepted_once :
    ∃ s, (system Unit (fun _ => true) false).run justEstablished sendAndShutdown = some s ∧
      ∀ before after, s.log = before ++ .shutdownWrite :: after →
        taken before = justEstablished.conn.outputBuffer_.contents ++ accepted s.log := by
  have hruns : ((system Unit (fun _ => true) false).run justEstablished sendAndShutdown).isSome = true := by
    decide +kernel
  obtain ⟨s, hrun⟩ := Option.isSome_iff_exists.mp hruns
  have hok : (system Unit (fun _ => true) false).Along (fun s i => Graceful (some ()) s i ∧ Drains (some ()) s i)
      justEstablished sendAndShutdown := by
    decide +kernel
  exact ⟨s, hrun, shutdownWrite_after_accepted open_justEstablished (Machine.steps_of_run hrun hok)⟩

/-- Another thread sends one byte, which becomes the backlog, then sends another one
and shuts down. The backlog drains before the loop runs the functors. -/
def drainsTooEarly : List (Input Unit) :=
  [.load () (.send ⟨[1], by decide⟩), .push (), .userReturns, .advance .returned 0] ++ wakeUp ++
    [.act (.data []) (.error .EWOULDBLOCK), .advance .returned 0,
      .load () (.send ⟨[2], by decide⟩), .push (), .load () .shutdown, .store ()] ++
    dispatchNext [.wakeupChannel, .channel .connection] EPOLLOUT ++
    [.act (.data []) (.bytes 1), .act (.data []) (.bytes 0)]

/-- The write side is then shut although the second byte is still in flight. -/
theorem shutdownWrite_before_accepted :
    Open justEstablished ∧ ∃ s, (system Unit (fun _ => true) false).run justEstablished drainsTooEarly = some s ∧
      (system Unit (fun _ => true) false).Along (Graceful (some ())) justEstablished drainsTooEarly ∧
      ¬ ∀ before after, s.log = before ++ .shutdownWrite :: after →
        taken before = justEstablished.conn.outputBuffer_.contents ++ accepted s.log := by
  have hruns : ((system Unit (fun _ => true) false).run justEstablished drainsTooEarly).map
      (fun s => (decide (s.log = s.log.dropLast ++ [.shutdownWrite]), taken s.log.dropLast, accepted s.log)) =
        some (true, [1], [1, 2]) := by
    decide +kernel
  obtain ⟨s, hrun, hend⟩ := Option.map_eq_some_iff.mp hruns
  obtain ⟨hlog, htaken, haccepted⟩ : s.log = s.log.dropLast ++ [.shutdownWrite] ∧
      taken s.log.dropLast = [1] ∧ accepted s.log = [1, 2] := by simpa using hend
  refine ⟨open_justEstablished, s, hrun, by decide +kernel, ?_⟩
  intro hall
  have hmoment := hall s.log.dropLast [] hlog
  have hempty : justEstablished.conn.outputBuffer_.contents = [] := CheckedBuffer.contents_fresh
  rw [htaken, haccepted, hempty] at hmoment
  simp at hmoment

end muduo.tcp_connection
