import Muduo.TcpConnection.Alone
import Muduo.TcpConnection.Forward
import Muduo.TcpConnection.Teardown

open transition
open muduo.kernel muduo.buffer muduo.epoll muduo.event_loop

namespace muduo.tcp_connection

variable {T : Type}

/-- A hang-up comes with `EPOLLIN`, or with nothing to be read. -/
def Gentle (revents : Mask) : Prop :=
  revents.meets EPOLLHUP = true → revents.meets EPOLLIN = true ∨ revents.meets kReadEvent = false

/-- `poll` reports the connection at most once, and with such a mask. -/
def Gently (a : Advance Handler) (revents : Mask) : Prop :=
  match a with
  | .poll activeChannels =>
    activeChannels.count (.channel .connection) ≤ 1 ∧ (.channel .connection ∈ activeChannels → Gentle revents)
  | _ => True

/-- What the code of a connection does to the channel unless it opens or closes the
connection, or takes the channel away. -/
inductive Steered (channel : Channel) : Channel → Prop where
  | same : Steered channel channel
  | writing (op : ChannelOp) (hop : op = .enableWriting ∨ op = .disableWriting) :
      Steered channel { channel with events_ := op.mask channel.events_, index_ := op.mark channel }

namespace Steered

theorem revents_eq {before after : Channel} (h : Steered before after) : after.revents_ = before.revents_ := by
  cases h <;> rfl

/-- A channel that is read stays in the poller. -/
theorem index_eq {before after : Channel} (h : Steered before after) (hreading : before.isReading = true)
    (hindex : before.index_ = .kAdded) : after.index_ = .kAdded := by
  cases h with
  | same => exact hindex
  | writing op hop =>
    have hmask : op.mask before.events_ ≠ kNoneEvent :=
      ne_kNoneEvent_of_meets ((mask_writing_meets_read hop before.events_).trans hreading)
    have hremove : op ≠ .remove := by rcases hop with rfl | rfl <;> simp
    simp only [ChannelOp.mark, if_neg hremove, nextIndex, hmask, and_false, if_false]

variable {alloc : Nat → Bool} {received : Received} {written : Written} {w w' : World}

theorem keep {rest : List UInt8} (h : w.keep alloc rest = some w') :
    Steered w.conn.channel_ w'.conn.channel_ := by
  obtain ⟨_, rfl⟩ | ⟨_, outputBuffer_, _, rfl⟩ := World.keep_cases h
  · exact .same
  · unfold World.watchWriting
    split
    · simp only [World.conn_emit, World.conn_setOutputBuffer, World.conn_highWater]
      exact .same
    · simp only [World.conn_perform, World.conn_emit, World.conn_setOutputBuffer, World.conn_highWater]
      exact .writing .enableWriting (.inl rfl)

theorem sendInLoop {data : Text} (h : w.sendInLoop alloc data written = some w') :
    Steered w.conn.channel_ w'.conn.channel_ := by
  have hwritten : ((w.emit (.sendInLoop data)).writeDirectly data.chars written).conn = w.conn := by
    rw [World.conn_writeDirectly, World.conn_emit]
  obtain ⟨_, _, ⟨_, rfl⟩ | ⟨_, hkeep⟩⟩ | ⟨_, hkeep⟩ := World.sendInLoop_cases h
  · rw [hwritten]
    exact .same
  · rw [← hwritten]
    exact .keep hkeep
  · exact Steered.keep (w := w.emit (.sendInLoop data)) hkeep

theorem handleWrite {next : List Act} (h : w.handleWrite written = some (w', next)) :
    Steered w.conn.channel_ w'.conn.channel_ := by
  obtain ⟨_, _, rfl⟩ | ⟨_, ⟨_, _, rfl⟩ | hwrote⟩ := World.handleWrite_cases h
  · exact .same
  · exact .same
  · obtain ⟨_, _, rfl⟩ | ⟨_, _, rfl⟩ := World.wrote_cases hwrote
    · simp only [World.conn_writeCompleted, World.conn_perform, World.conn_setOutputBuffer, World.conn_emit]
      exact .writing .disableWriting (.inr rfl)
    · exact .same

theorem not_transfers {more : List Event} (hlog : w'.log = w.log ++ more)
    (hmore : ∃ event ∈ more, event.isTransfer = false) : ¬ Transfers w w' := by
  rintro htransfers
  obtain ⟨events, hevents, hall⟩ := htransfers.log
  obtain rfl : more = events := List.append_cancel_left (hlog.symm.trans hevents)
  obtain ⟨event, hmem, hnot⟩ := hmore
  rw [hall event hmem] at hnot
  cases hnot

/-- Moving output steers the channel at most. -/
theorem of_transfers {a : Act} {next : List Act} (h : w.act alloc received written a = some (w', next))
    (htransfers : Transfers w w') : Steered w.conn.channel_ w'.conn.channel_ := by
  cases a with
  | call functor =>
    cases functor with
    | connectEstablished =>
      cases h
      exact absurd htransfers (not_transfers (World.log_connectEstablished w) ⟨_, List.mem_cons_self, rfl⟩)
    | connectDestroyed | writeCompleteCallback_ | highWaterMarkCallback_ =>
      cases h
      exact .same
    | sendInLoop data =>
      obtain ⟨sent, hsend, heq⟩ := Option.map_eq_some_iff.mp h
      cases heq
      exact .sendInLoop hsend
    | sendFileInLoop fileDescriptor offset count =>
      rw [(next_sendFileInLoop h).1]
      exact .same
    | shutdownInLoop =>
      cases h
      unfold World.shutdownInLoop
      split <;> exact .same
  | callback callback =>
    cases callback with
    | closeCallback_ =>
      cases h
      exact absurd htransfers (not_transfers (World.log_handleClose w) ⟨_, List.mem_cons_self, rfl⟩)
    | errorCallback_ =>
      cases h
      exact .same
    | readCallback_ =>
      obtain ⟨inputBuffer_, rfl, _⟩ | ⟨bytes, inputBuffer_, _, ⟨_, hclose⟩ | ⟨_, rfl, _⟩⟩ := World.handleRead_cases h
      · exact .same
      · cases hclose
        exact absurd htransfers (not_transfers (World.log_handleClose (w.setInputBuffer inputBuffer_))
          ⟨_, List.mem_cons_self, rfl⟩)
      · exact .same
    | writeCallback_ => exact .handleWrite h
  | drained =>
    cases h
    unfold World.drained World.shutdownInLoop
    split
    · split <;> exact .same
    · exact .same
  | disconnect =>
    cases h
    exact absurd htransfers (not_transfers (World.log_handleClose w) ⟨_, List.mem_cons_self, rfl⟩)
  | remove =>
    cases h
    exact absurd htransfers (not_transfers (World.log_perform w .remove) ⟨_, List.mem_cons_self, rfl⟩)
  | queue | closeCallback_ =>
    cases h
    exact .same
  | user | removeConnection => cases h

end Steered

/-- The callbacks that may close the connection or deliver a message of it. -/
def Act.arrives : Act → Bool
  | .callback .closeCallback_ => true
  | .callback .readCallback_ => true
  | _ => false

/-- What an act leaves to be done arrives later, if at all. -/
theorem Turn.arrivals_next {received : Received} {written : Written} {w w' : World} {a : Act} {next : List Act}
    (h : Turn received written w a w' next) : next.countP Act.arrives = 0 := by
  cases h with
  | connectDestroyed => split <;> rfl
  | transfer _ _ _ _ _ hnext =>
    obtain rfl | rfl | rfl | ⟨functor, _, rfl⟩ := hnext <;> rfl
  | connectEstablished | disconnect | remove | queue | close | endOfStream | message | closeCallback_ => rfl

/-- One dispatch makes at most one such callback. -/
theorem arrivals_handleEventWithGuard {channel : Channel} (h : Gentle channel.revents_) :
    (channel.handleEventWithGuard.map Act.callback).countP Act.arrives ≤ 1 := by
  have hcount (hup input error read output : Bool) (hgentle : hup = true → input = true ∨ read = false) :
      (((if hup && !input then [.closeCallback_] else []) ++ (if error then [.errorCallback_] else []) ++
        (if read then [.readCallback_] else []) ++ (if output then [.writeCallback_] else []) :
          List EventCallback).map Act.callback).countP Act.arrives ≤ 1 := by
    revert hup input error read output
    decide
  exact hcount _ _ _ _ _ h

/-- The body of a dispatch of the connection is being run. -/
def dispatched : Location Task Handler → Nat
  | .handling .connection _ => 1
  | _ => 0

theorem arrivals_body {conn : TcpConnection} (h : Gentle conn.channel_.revents_) (at_ : Location Task Handler) :
    (System.body conn at_).countP Act.arrives ≤ dispatched at_ := by
  cases at_ with
  | handling handler activeChannels =>
    cases handler with
    | connection => exact arrivals_handleEventWithGuard h
    | other => exact Nat.le_refl 0
  | running task functors => cases task <;> exact Nat.le_refl 0
  | outside | testing | polling | dispatching | swapping | batch => exact Nat.le_refl 0

/-- Only `poll` brings dispatches of the connection. -/
theorem due_advance {thread next : LoopThread Task Handler} {a : Advance Handler}
    (hadvance : thread.advance a = some next) :
    (∃ activeChannels, a = .poll activeChannels ∧ next.at_ = .dispatching activeChannels) ∨
      System.reports a = false ∧ due next.at_ + dispatched next.at_ ≤ due thread.at_ := by
  have hadvances := LoopThread.advances_of_advance hadvance
  obtain ⟨loop, at_⟩ := thread
  cases hadvances with
  | poll activeChannels => exact .inl ⟨activeChannels, rfl, rfl⟩
  | dispatch handler rest =>
    refine .inr ⟨rfl, ?_⟩
    cases handler <;> simp [due, dispatched]
  | drain rest => exact .inr ⟨rfl, by simp [due, dispatched]⟩
  | enter | leave | stay | handled | beginFunctors | swap | take | returned | endFunctors =>
    exact .inr ⟨rfl, by simp [due, dispatched]⟩

theorem Phase.isReading {strict : Bool} {s : System T} (h : Phase strict s) (hup : ¬ Down s) :
    s.conn.channel_.isReading = true := by
  cases h with
  | up _ _ hreading => exact hreading
  | down _ _ hdown => exact absurd hdown hup

/-- A connection gets at most one more callback that may close it or deliver a message
before its loop polls again, and none once it is down, when its channel is out of the
poller and nothing more is sent. Only then is `connectDestroyed` asked for. -/
structure Calm (s : System T) : Prop where
  arrivals : due s.thread.at_ + s.todo.countP Act.arrives ≤ 1
  gentle : Gentle s.conn.channel_.revents_
  disconnect : .disconnect ∉ s.todo
  queue : ∀ data, .connection (.sendInLoop data) ∉ s.thread.queue
  up : ¬ Down s → s.conn.channel_.index_ = .kAdded ∧ .call .connectDestroyed ∉ s.todo ∧
    .connection .connectDestroyed ∉ s.thread.queue
  down : Down s → due s.thread.at_ + s.todo.countP Act.arrives = 0 ∧ s.conn.channel_.index_ ≠ .kAdded ∧
    ∀ data, .call (.sendInLoop data) ∉ s.todo

namespace Calm

/-- A step that leaves the connection up or down, and its loop where it is. -/
theorem of_kept {s t : System T} (h : Calm s) (hdown : Down t ↔ Down s) (hat : t.thread.at_ = s.thread.at_)
    (hrevents : t.conn.channel_.revents_ = s.conn.channel_.revents_)
    (hindex : t.conn.channel_.index_ = .kAdded ↔ s.conn.channel_.index_ = .kAdded)
    (harrivals : t.todo.countP Act.arrives ≤ s.todo.countP Act.arrives)
    (htodo : ∀ a ∈ t.todo, a ∈ s.todo ∨ a ≠ .disconnect ∧ a ≠ .call .connectDestroyed ∧
      (Down s → ∀ data, a ≠ .call (.sendInLoop data)))
    (tasks : List Task) (hqueue : t.thread.queue = s.thread.queue ++ tasks)
    (htasks : ∀ task ∈ tasks, (∀ data, task ≠ .connection (.sendInLoop data)) ∧
      (¬ Down s → task ≠ .connection .connectDestroyed)) : Calm t := by
  refine ⟨?_, ?_, ?_, ?_, ?_, ?_⟩
  · have hbefore := h.arrivals
    rw [hat]
    omega
  · rw [hrevents]
    exact h.gentle
  · intro hmem
    obtain hmem | ⟨hne, _⟩ := htodo _ hmem
    · exact h.disconnect hmem
    · exact hne rfl
  · intro data hmem
    rw [hqueue] at hmem
    obtain hmem | hmem := List.mem_append.mp hmem
    · exact h.queue data hmem
    · exact (htasks _ hmem).1 data rfl
  · intro hup
    have hups : ¬ Down s := fun hdowns => hup (hdown.mpr hdowns)
    obtain ⟨hadded, hcall, hqueued⟩ := h.up hups
    refine ⟨hindex.mpr hadded, fun hmem => ?_, fun hmem => ?_⟩
    · obtain hmem | ⟨_, hne, _⟩ := htodo _ hmem
      · exact hcall hmem
      · exact hne rfl
    · rw [hqueue] at hmem
      obtain hmem | hmem := List.mem_append.mp hmem
      · exact hqueued hmem
      · exact (htasks _ hmem).2 hups rfl
  · intro hdownt
    obtain ⟨hnone, hindexs, hsend⟩ := h.down (hdown.mp hdownt)
    refine ⟨?_, fun hadded => hindexs (hindex.mp hadded), fun data hmem => ?_⟩
    · rw [hat]
      omega
    · obtain hmem | ⟨_, _, hne⟩ := htodo _ hmem
      · exact hsend data hmem
      · exact hne (hdown.mp hdownt) data rfl

/-- The loop's thread goes on to its next body. -/
theorem advance {s : System T} {a : Advance Handler} {revents : Mask} {thread : LoopThread Task Handler}
    (h : Calm s) (hagrees : Agrees s.poller s.conn.channel_) (hgently : Gently a revents)
    (hwatched : System.reports a = true → s.watched = true) (hadvance : s.thread.advance a = some thread) :
    Calm { s with thread, conn := System.polled s.conn a revents,
                  todo := System.body (System.polled s.conn a revents) thread.at_ } := by
  have hindex : (System.polled s.conn a revents).channel_.index_ = s.conn.channel_.index_ := by
    unfold System.polled
    split <;> rfl
  have hgentle : Gentle (System.polled s.conn a revents).channel_.revents_ := by
    unfold System.polled
    split
    · next hreports =>
      cases a with
      | poll activeChannels => exact hgently.2 (of_decide_eq_true hreports)
      | enter | test | dispatch | handled | beginFunctors | swap | take | returned | endFunctors => cases hreports
    · exact h.gentle
  have harrivals := arrivals_body hgentle thread.at_
  have htodo : ∀ b ∈ System.body (System.polled s.conn a revents) thread.at_, b ≠ .disconnect ∧
      ∀ functor, b = .call functor → .connection functor ∈ s.thread.queue := by
    intro b hmem
    unfold System.body at hmem
    split at hmem
    · obtain ⟨callback, _, rfl⟩ := List.mem_map.mp hmem
      exact ⟨by simp, by simp⟩
    · rw [List.mem_singleton.mp hmem]
      exact ⟨by simp, by simp⟩
    · next functor functors hat =>
      rw [List.mem_singleton.mp hmem]
      refine ⟨by simp, fun called heq => ?_⟩
      cases heq
      obtain ⟨_, hnone⟩ | ⟨task, tasks, hqueue, hrunning⟩ := LoopThread.queue_advance hadvance
      · exact absurd hat (hnone _ _)
      · rw [hat] at hrunning
        cases hrunning
        rw [hqueue]
        exact List.mem_cons_self
    · rw [List.mem_singleton.mp hmem]
      exact ⟨by simp, by simp⟩
    · cases hmem
  have hqueue : ∀ task ∈ thread.queue, task ∈ s.thread.queue := by
    intro task hmem
    obtain ⟨hsame, _⟩ | ⟨functor, functors, hqueue, _⟩ := LoopThread.queue_advance hadvance
    · exact hsame ▸ hmem
    · rw [hqueue]
      exact List.mem_cons_of_mem _ hmem
  have hdue : due thread.at_ + dispatched thread.at_ ≤ 1 ∧
      (Down s → due thread.at_ + dispatched thread.at_ = 0) := by
    obtain ⟨activeChannels, rfl, hat⟩ | ⟨_, hle⟩ := due_advance hadvance
    · rw [hat]
      refine ⟨hgently.1, fun hdown => List.count_eq_zero.mpr fun hmem => (h.down hdown).2.1 ?_⟩
      exact hagrees.kAdded_iff.mpr (hwatched (decide_eq_true hmem))
    · have hbefore := h.arrivals
      refine ⟨by omega, fun hdown => ?_⟩
      have hnone := (h.down hdown).1
      omega
  refine ⟨?_, hgentle, ?_, ?_, ?_, ?_⟩
  · have hone := hdue.1
    simp only
    omega
  · exact fun hmem => (htodo _ hmem).1 rfl
  · exact fun data hmem => h.queue data (hqueue _ hmem)
  · intro hup
    obtain ⟨hadded, _, hqueued⟩ := h.up hup
    exact ⟨hindex.trans hadded, fun hmem => hqueued ((htodo _ hmem).2 _ rfl), fun hmem => hqueued (hqueue _ hmem)⟩
  · intro hdown
    have hnone := hdue.2 hdown
    refine ⟨?_, ?_, fun data hmem => h.queue data ((htodo _ hmem).2 _ rfl)⟩
    · simp only
      omega
    · simp only [hindex]
      exact (h.down hdown).2.1

/-- The connection is closed. -/
theorem closed {s : System T} {w : World} {a : Act} {rest : List Act} (h : Calm s) (htodo : s.todo = a :: rest)
    (harrives : a.arrives = true) (hplain : ∀ b ∈ rest, b.isPlain = true)
    (hchannel : w.conn.channel_ = s.conn.channel_) (hqueued : w.queued = []) :
    Calm (s.resume w.handleClose.1 ([.user, .closeCallback_] ++ rest)) := by
  have harrivals := h.arrivals
  rw [htodo, List.countP_cons_of_pos harrives] at harrivals
  have hup : ¬ Down s := by
    intro hdown
    have hnone := (h.down hdown).1
    rw [htodo, List.countP_cons_of_pos harrives] at hnone
    omega
  have hdown : Down (s.resume w.handleClose.1 ([.user, .closeCallback_] ++ rest)) := by
    simp [Down, System.resume, World.log_handleClose]
  have hqueue : (s.resume w.handleClose.1 ([.user, .closeCallback_] ++ rest)).thread.queue = s.thread.queue := by
    have hnothing : w.handleClose.1.queued = [] := hqueued
    rw [queue_resume, hnothing, List.map_nil, List.append_nil]
  have hconn := World.conn_handleClose w
  have hnone : due s.thread.at_ + ([Act.user, .closeCallback_] ++ rest).countP Act.arrives = 0 := by
    have hfront : [Act.user, .closeCallback_].countP Act.arrives = 0 := rfl
    rw [List.countP_append, hfront]
    omega
  refine ⟨?_, ?_, ?_, ?_, fun hnot => absurd hdown hnot, fun _ => ⟨hnone, ?_, ?_⟩⟩
  · exact Nat.le_of_eq hnone |>.trans (Nat.zero_le 1)
  · simp only [System.resume, hconn, hchannel]
    exact h.gentle
  · intro hmem
    obtain hmem | hmem := List.mem_append.mp hmem
    · simp at hmem
    · cases hplain _ hmem
  · intro data hmem
    rw [hqueue] at hmem
    exact h.queue data hmem
  · have hadded := (h.up hup).1
    simp [System.resume, hconn, hchannel, hadded, nextIndex]
  · intro data hmem
    obtain hmem | hmem := List.mem_append.mp hmem
    · simp at hmem
    · cases hplain _ hmem

/-- The connection carries out an act. -/
theorem act {alloc : Nat → Bool} {s : System T} {received : Received} {written : Written} {w : World} {a : Act}
    {rest next : List Act} (h : Calm s) (hannounced : Announced true s) (hending : Ending s)
    (htodo : s.todo = a :: rest) (hact : s.world.act alloc received written a = some (w, next)) :
    Calm (s.resume w (next ++ rest)) := by
  have hphase := hannounced.phase
  have hplain : ∀ b ∈ rest, b.isPlain = true := by
    have htail := hannounced.orderly.tail
    rw [htodo] at htail
    exact htail
  have hhead : a ∈ s.todo := by
    rw [htodo]
    exact List.mem_cons_self
  have hturn := World.act_turn hact
  have hleaves := hturn.leaves
  have hnothing := hturn.arrivals_next
  have hkept (hdown : Down (s.resume w (next ++ rest)) ↔ Down s)
      (hrevents : w.conn.channel_.revents_ = s.conn.channel_.revents_)
      (hindex : w.conn.channel_.index_ = .kAdded ↔ s.conn.channel_.index_ = .kAdded)
      (hdisconnect : .disconnect ∉ next) : Calm (s.resume w (next ++ rest)) := by
    refine h.of_kept hdown rfl hrevents hindex ?_ ?_ _ (queue_resume s w _) ?_
    · simp only [System.resume, List.countP_append, hnothing, htodo, List.countP_cons]
      omega
    · intro b hmem
      obtain hmem | hmem := List.mem_append.mp hmem
      · refine .inr ⟨fun heq => hdisconnect (heq ▸ hmem), fun heq => ?_, fun _ data heq => ?_⟩
        · exact hleaves.call _ (heq ▸ hmem)
        · exact hleaves.call _ (heq ▸ hmem)
      · rw [htodo]
        exact .inl (List.mem_cons_of_mem _ hmem)
    · have hrequeue : ∀ functor, a = .queue functor → functor.isResend = true :=
        fun functor heq => hannounced.orderly.requeue functor (heq ▸ hhead)
      refine fun task hmem => ⟨fun data heq => ?_, fun _ heq => ?_⟩
      · exact hleaves.not_mem_queued rfl rfl rfl hrequeue (heq ▸ hmem)
      · exact hleaves.not_mem_queued rfl rfl rfl hrequeue (heq ▸ hmem)
  cases hturn with
  | connectEstablished => exact absurd hhead hannounced.orderly.settled.todo
  | connectDestroyed =>
    have hdown : Down s := by
      by_contra hup
      exact (h.up hup).2.1 hhead
    have hstate : s.world.conn.state_ ≠ .kConnected := by
      have hdisconnected : s.world.conn.state_ = .kDisconnected := hending.state_iff.mpr hdown
      simp [hdisconnected]
    refine hkept .rfl rfl .rfl ?_
    rw [if_neg hstate]
    simp
  | disconnect => exact absurd hhead h.disconnect
  | remove =>
    have hdown : Down s := (hending.pending hhead).resolve_right h.disconnect
    have hconn := World.conn_perform s.world .remove
    refine hkept ?_ (by rw [hconn]; rfl) (iff_of_false ?_ (h.down hdown).2.1) (by simp)
    · unfold Down
      rw [System.resume, World.log_perform]
      exact down_append (by simp)
    · rw [hconn]
      simp [ChannelOp.mark]
  | queue functor => exact hkept (down_append (by simp)) rfl .rfl (by simp)
  | close => exact h.closed (w := s.world) htodo rfl hplain rfl rfl
  | endOfStream inputBuffer_ => exact h.closed (w := s.world.setInputBuffer inputBuffer_) htodo rfl hplain rfl rfl
  | message bytes inputBuffer_ => exact hkept (down_append (by simp)) rfl .rfl (by simp)
  | closeCallback_ => exact hkept (down_append (by simp)) rfl .rfl (by simp)
  | transfer _ _ _ htransfers hchannel hnext =>
    have hsteered := Steered.of_transfers hact htransfers
    obtain ⟨events, hlog, hevents⟩ := htransfers.log
    refine hkept ?_ hsteered.revents_eq ?_ ?_
    · unfold Down
      rw [System.resume, hlog]
      exact down_append fun hmem => by cases hevents _ hmem
    · by_cases hdown : Down s
      · rw [hchannel (hphase.isNoneEvent hdown) fun data heq => absurd (heq ▸ hhead) ((h.down hdown).2.2 data)]
        exact .rfl
      · have hadded := (h.up hdown).1
        exact iff_of_true (hsteered.index_eq (hphase.isReading hdown) hadded) hadded
    · obtain rfl | rfl | rfl | ⟨functor, _, rfl⟩ := hnext <;> simp

end Calm

/-- What holds of a connection that is left alone. -/
structure Composed (s : System T) : Prop where
  announced : Announced true s
  ending : Ending s
  recorded : Recorded s
  forward : Forward s.log
  calm : Calm s

/-- Only what the connection does itself can close it or ask for its removal. -/
theorem Announced.down_of_removal {strict : Bool} {s : System T} (h : Announced strict s) (hremovals : 0 < s.removalCount) :
    Down s := by
  cases h.phase with
  | down _ _ hdown => exact hdown
  | up n _ _ _ hcallbacks =>
    rw [h.removals, hcallbacks] at hremovals
    simp [List.count_replicate] at hremovals

theorem Fresh.composed {s : System T} (h : Fresh s) : Composed s := by
  refine ⟨h.established.announced true, h.established.ending, h.established.recorded, h.established.forward, ?_⟩
  obtain ⟨hestablished, hdue, hqueue⟩ := h
  cases hestablished with
  | intro conn poller thread rest registered addr fd hchannel hagrees hother hrest =>
    have hconn := World.conn_connectEstablished { conn, poller, queued := [], log := [] }
    have hlog := World.log_connectEstablished { conn, poller, queued := [], log := [] }
    have htodo : ∀ a ∈ (System.established (T := T) conn poller thread rest registered).todo, a = .user := by
      intro a hmem
      obtain rfl | hmem := List.mem_cons.mp hmem
      · rfl
      · exact hrest a hmem
    have hnone : (System.established (T := T) conn poller thread rest registered).todo.countP Act.arrives = 0 := by
      rw [List.countP_eq_zero]
      intro a hmem
      rw [htodo a hmem]
      simp [Act.arrives]
    refine ⟨?_, ?_, ?_, ?_, fun _ => ⟨?_, ?_, ?_⟩, fun hdown => ?_⟩
    · rw [hnone, hdue]
      exact Nat.zero_le 1
    · simp only [System.established, hconn, hchannel]
      intro hup
      simp [Channel.construct, Mask.meets] at hup
    · intro hmem
      cases htodo _ hmem
    · intro data hmem
      cases hqueue _ hmem
    · simp only [System.established, hconn, hchannel]
      rfl
    · intro hmem
      cases htodo _ hmem
    · intro hmem
      cases hqueue _ hmem
    · simp [Down, System.established, hlog] at hdown

theorem Spares.weaken {s : System T} {i : Input T} (h : Spares true s i) : Spares false s i := by
  cases i with
  | act received written =>
    revert h
    simp only [Spares, System.spares]
    split
    · exact id
    · cases received with
      | data bytes =>
        cases s.conn.channel_.isNoneEvent with
        | true => simp
        | false => exact id
      | error errno => exact id
    · exact id
    · exact id
  | advance | ownCall | ownRetrieve | ownQueue | userReturns | load | store | push | queueOther | quit
    | removeConnectionInLoop | destroyServer => rfl

namespace Composed

variable {s : System T}

/-- Behind the end of the connection nothing of it is dispatched or sent. -/
theorem spares (h : Composed s) (i : Input T) : Spares true s i := by
  have hawake (hup : ¬ Down s) : s.conn.channel_.isNoneEvent = false :=
    isNoneEvent_eq_false_of_isReading (h.announced.phase.isReading hup)
  have harrives {a : Act} {rest : List Act} (htodo : s.todo = a :: rest) (ha : a.arrives = true) : ¬ Down s := by
    intro hdown
    have hnone := (h.calm.down hdown).1
    rw [htodo, List.countP_cons_of_pos ha] at hnone
    omega
  cases i with
  | act received written =>
    simp only [Spares, System.spares]
    split
    · next rest htodo => simp [hawake (harrives htodo rfl)]
    · next rest htodo =>
      cases received <;> simp [hawake (harrives htodo rfl)]
    · next data rest htodo =>
      have hup : ¬ Down s := by
        intro hdown
        refine (h.calm.down hdown).2.2 data ?_
        rw [htodo]
        exact List.mem_cons_self
      simp [hawake hup]
    · rfl
  | advance | ownCall | ownRetrieve | ownQueue | userReturns | load | store | push | queueOther | quit
    | removeConnectionInLoop | destroyServer => rfl

/-- Neither is anything of it in the way of its teardown. -/
theorem completes (h : Composed s) {i : Input T} (halone : LeftAlone Gently s (.system i)) : Completes s i := by
  refine ⟨(h.spares i).weaken, ?_⟩
  cases i with
  | act received written =>
    simp only [System.completes]
    split
    · next rest htodo =>
      have hdown : Down s := by
        by_contra hup
        refine (h.calm.up hup).2.1 ?_
        rw [htodo]
        exact List.mem_cons_self
      rw [h.ending.state_iff.mpr hdown]
      rfl
    · rfl
  | store caller => exact halone.elim
  | advance | ownCall | ownRetrieve | ownQueue | userReturns | load | push | queueOther | quit
    | removeConnectionInLoop | destroyServer => rfl

variable [DecidableEq T] {alloc : Nat → Bool} {sameLoop : Bool} {t : System T}

/-- Each step of the connection or of its loop keeps it calm. -/
theorem calm_step (h : Composed s) {i : Input T} (halone : LeftAlone Gently s (.system i))
    (hstep : s.step alloc sameLoop i = some t) : Calm t := by
  have hsame {t : System T} (tasks : List Task) (hlog : t.log = s.log) (hconn : t.conn.channel_ = s.conn.channel_)
      (hat : t.thread.at_ = s.thread.at_) (hqueue : t.thread.queue = s.thread.queue ++ tasks)
      (htasks : ∀ task ∈ tasks, task = .other ∨ task = .connection .connectDestroyed ∧ Down s)
      (htodo : t.todo = s.todo ∨ ∃ a, s.todo = a :: t.todo) : Calm t := by
    refine h.calm.of_kept (by rw [Down, hlog, Down]) hat (by rw [hconn]) (by rw [hconn]) ?_ ?_ tasks hqueue ?_
    · obtain heq | ⟨a, heq⟩ := htodo
      · rw [heq]
      · rw [heq]
        exact (List.sublist_cons_self a t.todo).countP_le
    · intro b hmem
      left
      obtain heq | ⟨a, heq⟩ := htodo
      · exact heq ▸ hmem
      · rw [heq]
        exact List.mem_cons_of_mem _ hmem
    · intro task hmem
      obtain rfl | ⟨rfl, hdown⟩ := htasks task hmem
      · exact ⟨by simp, by simp⟩
      · exact ⟨by simp, fun hup => absurd hdown hup⟩
  cases System.stepped hstep with
  | advance a revents thread htodo hwatched hadvance =>
    exact h.calm.advance h.ending.agrees halone hwatched hadvance
  | removeConnection received written rest htodo =>
    have hdown : Down s := by
      refine h.announced.down_of_removal ?_
      rw [System.removalCount, htodo, List.count_cons_self]
      omega
    unfold System.removeConnection
    split
    · exact hsame _ rfl rfl rfl (queue_queueInLoop s true _) (by simp [hdown]) (.inr ⟨_, htodo⟩)
    · exact hsame [] rfl rfl rfl (List.append_nil _).symm (by simp) (.inr ⟨_, htodo⟩)
  | act received written a rest w next htodo hact => exact h.calm.act h.announced h.ending htodo hact
  | ownCall call huser =>
    have hcalled (w : World) (functor : Functor) (hconnected : s.world.conn.connected = true)
        (hdestroyed : functor ≠ .connectDestroyed) (hchannel : w.conn.channel_ = s.conn.channel_)
        (hlog : .setState .kDisconnected ∈ w.log ↔ Down s) (hqueued : w.queued = []) :
        Calm (s.resume w ([.call functor] ++ s.todo)) := by
      have hstate : s.conn.state_ = .kConnected := by
        simpa [TcpConnection.connected, System.world] using hconnected
      have hup : ¬ Down s := by
        rw [← h.ending.state_iff, hstate]
        simp
      refine h.calm.of_kept hlog rfl (by rw [← hchannel]; rfl) (by rw [← hchannel]; rfl) (Nat.le_refl _) ?_ []
        (by rw [queue_resume, hqueued, List.map_nil]) (by simp)
      intro b hmem
      obtain rfl | hmem := List.mem_cons.mp hmem
      · exact .inr ⟨by simp, by simpa using hdestroyed, fun hdown => absurd hdown hup⟩
      · exact .inl hmem
    have hrefused : Calm (s.resume s.world ([] ++ s.todo)) :=
      hsame [] rfl rfl rfl (queue_resume s s.world _) (by simp) (.inl rfl)
    cases call <;> simp only [World.ownCall] <;> split <;> first
      | exact hrefused
      | exact hcalled _ _ ‹_› (by simp) rfl (down_append (by simp)) rfl
      | exact hcalled _ _ ‹_› (by simp) rfl .rfl rfl
  | ownRetrieve len => exact hsame [] rfl rfl rfl (List.append_nil _).symm (by simp) (.inl rfl)
  | ownQueue => exact hsame _ rfl rfl rfl (queue_queueInLoop s true _) (by simp) (.inl rfl)
  | userReturns rest htodo => exact hsame [] rfl rfl rfl (List.append_nil _).symm (by simp) (.inr ⟨_, htodo⟩)
  | load | store | push | sweepHere | sweepThere => exact halone.elim
  | queueOther => exact hsame _ rfl rfl rfl (queue_queueInLoop s false _) (by simp) (.inl rfl)
  | quit isInLoopThread =>
    refine hsame [] rfl rfl rfl ?_ (by simp) (.inl rfl)
    simp only [LoopThread.queue, EventLoop.quit, List.append_nil]
    split <;> rfl
  | removeConnectionInLoop _ hremovals =>
    have hdown : Down s := by
      refine h.announced.down_of_removal ?_
      rw [System.removalCount]
      omega
    exact hsame _ rfl rfl rfl (queue_queueInLoop s false _) (by simp [hdown]) (.inl rfl)

omit [DecidableEq T] in
/-- The high-water callback has no part in any of this. -/
theorem marked (h : Composed s) (highWaterMark : Nat) : Composed (s.setHighWaterMarkCallback highWaterMark) := by
  obtain ⟨htail, hrequeue, hsettled⟩ := h.announced.orderly
  have horderly : Orderly (s.setHighWaterMarkCallback highWaterMark) :=
    ⟨htail, hrequeue, hsettled.todo, hsettled.queue, hsettled.callers⟩
  have hannounced (strict : Bool) (hbefore : Announced strict s) :
      Announced strict (s.setHighWaterMarkCallback highWaterMark) :=
    ⟨horderly, hbefore.phase.of_same .rfl id rfl id rfl rfl .inl, hbefore.removals⟩
  refine ⟨hannounced true h.announced, ?_, ⟨horderly, h.recorded.last⟩, h.forward, ?_⟩
  · exact h.ending.of_kept (hannounced false h.ending.announced) rfl (fun _ => rfl) h.ending.agrees .rfl id
      h.ending.pending
  · exact h.calm.of_kept .rfl rfl rfl .rfl (Nat.le_refl _) (fun _ hmem => .inl hmem) [] (List.append_nil _).symm
      (by simp)

theorem step (h : Composed s) {i : LoneInput T} (halone : LeftAlone Gently s i)
    (hstep : (lone T alloc sameLoop).step s i = some t) : Composed t := by
  cases i with
  | system i =>
    have hintime : StoresInTime s i := by
      cases i with
      | store caller => exact halone.elim
      | advance | act | ownCall | ownRetrieve | ownQueue | userReturns | load | push | queueOther | quit
        | removeConnectionInLoop | destroyServer => rfl
    exact ⟨h.announced.step (h.spares i) hstep, h.ending.step (h.completes halone) hstep, h.recorded.step hstep,
      (h.recorded.forward_iff h.forward hstep).mpr hintime, h.calm_step halone hstep⟩
  | setHighWaterMarkCallback highWaterMark =>
    obtain ⟨_, rfl⟩ := Option.ite_some_none_eq_some.mp hstep
    exact h.marked highWaterMark

omit [DecidableEq T] in
/-- Its callbacks are where they should be. -/
theorem inOrder (h : Composed s) : InOrder s.log := by
  cases h.announced.phase with
  | up n _ _ _ hcallbacks => exact ⟨n, [], by rw [hcallbacks, List.append_nil], List.nil_prefix⟩
  | down n tail _ _ _ _ hcallbacks htail hmessages =>
    have hfilter : tail.filter (· != .message) = tail := by
      rw [List.filter_eq_self]
      intro c hmem
      have hne : c ≠ .message := fun heq => hmessages rfl (heq ▸ hmem)
      simpa using hne
    rw [hfilter] at htail
    refine ⟨n, .connection false :: tail, hcallbacks, List.cons_prefix_cons.mpr ⟨rfl, ?_⟩⟩
    obtain ⟨rfl, _⟩ | ⟨rfl, _⟩ := htail
    · exact List.nil_prefix
    · exact List.prefix_rfl

end Composed

/-- A connection that is left alone from its establishment on stays composed. -/
theorem Fresh.composed_of_steps [DecidableEq T] {alloc : Nat → Bool} {sameLoop : Bool} {s₀ s : System T} (h : Fresh s₀)
    (hsteps : (lone T alloc sameLoop).Steps (LeftAlone Gently) s₀ s) : Composed s :=
  hsteps.invariant (fun _ _ _ hcomposed halone hstep => hcomposed.step halone hstep) h.composed

end muduo.tcp_connection
