import Muduo.TcpConnection.Basic
import Muduo.Poller.Agreement

open muduo.kernel muduo.buffer muduo.epoll

namespace muduo.tcp_connection

namespace World

variable (w : World)

@[simp] theorem conn_emit (event : Event) : (w.emit event).conn = w.conn := rfl

@[simp] theorem poller_emit (event : Event) : (w.emit event).poller = w.poller := rfl

@[simp] theorem queued_emit (event : Event) : (w.emit event).queued = w.queued := rfl

@[simp] theorem log_emit (event : Event) : (w.emit event).log = w.log ++ [event] := rfl

@[simp] theorem conn_setState (state : StateE) :
    (w.setState state).conn = { w.conn with state_ := state } := rfl

@[simp] theorem poller_setState (state : StateE) : (w.setState state).poller = w.poller := rfl

@[simp] theorem log_setState (state : StateE) : (w.setState state).log = w.log ++ [.setState state] := rfl

@[simp] theorem conn_queueInLoop (functor : Functor) : (w.queueInLoop functor).conn = w.conn := rfl

@[simp] theorem poller_queueInLoop (functor : Functor) : (w.queueInLoop functor).poller = w.poller := rfl

@[simp] theorem log_queueInLoop (functor : Functor) :
    (w.queueInLoop functor).log = w.log ++ [.queueInLoop functor] := rfl

@[simp] theorem queued_queueInLoop (functor : Functor) :
    (w.queueInLoop functor).queued = w.queued ++ [functor] := rfl

@[simp] theorem conn_setInputBuffer (inputBuffer_ : CheckedBuffer) :
    (w.setInputBuffer inputBuffer_).conn = { w.conn with inputBuffer_ } := rfl

@[simp] theorem poller_setInputBuffer (inputBuffer_ : CheckedBuffer) :
    (w.setInputBuffer inputBuffer_).poller = w.poller := rfl

@[simp] theorem log_setInputBuffer (inputBuffer_ : CheckedBuffer) :
    (w.setInputBuffer inputBuffer_).log = w.log := rfl

@[simp] theorem queued_setInputBuffer (inputBuffer_ : CheckedBuffer) :
    (w.setInputBuffer inputBuffer_).queued = w.queued := rfl

@[simp] theorem conn_setOutputBuffer (outputBuffer_ : CheckedBuffer) :
    (w.setOutputBuffer outputBuffer_).conn = { w.conn with outputBuffer_ } := rfl

@[simp] theorem poller_setOutputBuffer (outputBuffer_ : CheckedBuffer) :
    (w.setOutputBuffer outputBuffer_).poller = w.poller := rfl

@[simp] theorem log_setOutputBuffer (outputBuffer_ : CheckedBuffer) :
    (w.setOutputBuffer outputBuffer_).log = w.log := rfl

@[simp] theorem conn_perform (op : ChannelOp) :
    (w.perform op).conn = { w.conn with
      channel_ := { w.conn.channel_ with
        events_ := op.mask w.conn.channel_.events_, index_ := op.mark w.conn.channel_ } } := by
  unfold perform
  rw [← perform_snd w.poller]
  rfl

@[simp] theorem log_perform (op : ChannelOp) :
    (w.perform op).log = w.log ++
      [if op = .remove then .removed else .update (op.mask w.conn.channel_.events_)] := by
  unfold perform
  simp only [log_emit, perform_snd]

@[simp] theorem queued_perform (op : ChannelOp) : (w.perform op).queued = w.queued := rfl

@[simp] theorem conn_connectionCallback : w.connectionCallback_.conn = w.conn := rfl

@[simp] theorem poller_connectionCallback : w.connectionCallback_.poller = w.poller := rfl

@[simp] theorem log_connectionCallback :
    w.connectionCallback_.log = w.log ++ [.connectionCallback_ w.conn.connected] := rfl

theorem conn_connectEstablished :
    w.connectEstablished.1.conn = { w.conn with
      state_ := .kConnected
      channel_ := { w.conn.channel_ with
        tied_ := true
        events_ := ChannelOp.enableReading.mask w.conn.channel_.events_
        index_ := nextIndex w.conn.channel_.index_ (ChannelOp.enableReading.mask w.conn.channel_.events_) } } := by
  simp only [connectEstablished, conn_connectionCallback, conn_perform, conn_setState]
  rfl

theorem log_connectEstablished :
    w.connectEstablished.1.log = w.log ++
      [.setState .kConnected, .update (ChannelOp.enableReading.mask w.conn.channel_.events_),
        .connectionCallback_ true] := by
  simp only [connectEstablished, log_connectionCallback, log_perform, log_setState, conn_perform,
    conn_setState, List.append_assoc]
  rfl

theorem conn_handleClose :
    w.handleClose.1.conn = { w.conn with
      state_ := .kDisconnected
      channel_ := { w.conn.channel_ with
        events_ := kNoneEvent
        index_ := nextIndex w.conn.channel_.index_ kNoneEvent } } := by
  simp only [handleClose, conn_connectionCallback, conn_perform, conn_setState]
  rfl

theorem log_handleClose :
    w.handleClose.1.log = w.log ++
      [.setState .kDisconnected, .update kNoneEvent, .connectionCallback_ false] := by
  simp only [handleClose, log_connectionCallback, log_perform, log_setState, conn_perform, conn_setState,
    List.append_assoc]
  rfl

/-- The guarded block of `connectDestroyed` does to the connection what `handleClose` does. -/
theorem disconnect_fst : w.disconnect.1 = w.handleClose.1 := rfl

@[simp] theorem conn_writeCompleted (w : World) : w.writeCompleted.conn = w.conn := by
  unfold writeCompleted
  split <;> rfl

@[simp] theorem conn_highWater (w : World) (len : Nat) : (w.highWater len).conn = w.conn := by
  simp only [highWater]
  split <;> rfl

@[simp] theorem conn_writeDirectly (w : World) (data : List UInt8) (written : Written) :
    (w.writeDirectly data written).conn = w.conn := by
  simp only [writeDirectly]
  split <;> simp

/-- `keep` changes nothing when nothing is left. -/
theorem keep_cases {alloc : Nat → Bool} {w w' : World} {rest : List UInt8} (h : w.keep alloc rest = some w') :
    rest = [] ∧ w' = w ∨
    0 < rest.length ∧ ∃ outputBuffer_, w.conn.outputBuffer_.append alloc rest = some outputBuffer_ ∧
      w' = (((w.highWater rest.length).setOutputBuffer outputBuffer_).emit (.append rest)).watchWriting := by
  unfold keep at h
  split at h
  · next hrest =>
    cases happend : w.conn.outputBuffer_.append alloc rest with
    | none =>
      simp only [conn_highWater, happend] at h
      cases h
    | some outputBuffer_ =>
      simp only [conn_highWater, happend] at h
      cases h
      exact .inr ⟨hrest, outputBuffer_, rfl, rfl⟩
  · next hrest =>
    cases h
    exact .inl ⟨List.length_eq_zero_iff.mp (Nat.eq_zero_of_not_pos hrest), rfl⟩

/-- `sendInLoop` writes directly if the channel is idle with no backlog, and keeps the
rest unless that write fails for good; otherwise it keeps everything. -/
theorem sendInLoop_cases {alloc : Nat → Bool} {w w' : World} {data : Text} {written : Written}
    (h : w.sendInLoop alloc data written = some w') :
    (w.conn.channel_.isWriting = false ∧ w.conn.outputBuffer_.readableBytes = 0) ∧
      written.Possible data.chars.length ∧
      (written.isFatal = true ∧ w' = (w.emit (.sendInLoop data)).writeDirectly data.chars written ∨
        written.isFatal = false ∧
          ((w.emit (.sendInLoop data)).writeDirectly data.chars written).keep alloc
            (data.chars.drop written.taken) = some w') ∨
    ¬ (w.conn.channel_.isWriting = false ∧ w.conn.outputBuffer_.readableBytes = 0) ∧
      (w.emit (.sendInLoop data)).keep alloc data.chars = some w' := by
  simp only [sendInLoop, conn_emit] at h
  split at h
  · next hdirect =>
    obtain ⟨hpossible, hwritten⟩ := Option.ite_none_right_eq_some.mp h
    refine .inl ⟨hdirect, hpossible, ?_⟩
    split at hwritten
    · next hfatal =>
      cases hwritten
      exact .inl ⟨hfatal, rfl⟩
    · next hfatal => exact .inr ⟨Bool.eq_false_of_not_eq_true hfatal, hwritten⟩
  · next hdirect => exact .inr ⟨hdirect, h⟩

theorem wrote_cases {w w' : World} {n : Nat} {next : List Act} (h : w.wrote n = (w', next)) :
    (w.conn.outputBuffer_.retrieve n).readableBytes = 0 ∧ next = [.drained] ∧
      w' = ((w.setOutputBuffer (w.conn.outputBuffer_.retrieve n)).perform .disableWriting).writeCompleted ∨
    (w.conn.outputBuffer_.retrieve n).readableBytes ≠ 0 ∧ next = [] ∧
      w' = w.setOutputBuffer (w.conn.outputBuffer_.retrieve n) := by
  simp only [wrote] at h
  split at h
  · next hempty =>
    cases h
    exact .inl ⟨hempty, rfl, rfl⟩
  · next hleft =>
    cases h
    exact .inr ⟨hleft, rfl, rfl⟩

/-- `handleWrite` does nothing on a channel that is not writing, and goes on only when
bytes of the backlog have been taken. -/
theorem handleWrite_cases {w w' : World} {written : Written} {next : List Act}
    (h : w.handleWrite written = some (w', next)) :
    w.conn.channel_.isWriting = false ∧ next = [] ∧ w' = w ∨
    w.conn.channel_.isWriting = true ∧
      (written.taken = 0 ∧ next = [] ∧ w' = w.emit (.write w.conn.outputBuffer_.contents written) ∨
        (w.emit (.write w.conn.outputBuffer_.contents written)).wrote written.taken = (w', next)) := by
  simp only [handleWrite] at h
  split at h
  · next hwriting =>
    refine .inr ⟨hwriting, ?_⟩
    obtain ⟨_, hwritten⟩ := Option.ite_none_right_eq_some.mp h
    split at hwritten
    · exact .inr (Option.some.inj hwritten)
    · next hnothing =>
      cases hwritten
      exact .inl ⟨Nat.eq_zero_of_not_pos hnothing, rfl, rfl⟩
  · next hidle =>
    cases h
    exact .inl ⟨Bool.eq_false_of_not_eq_true hidle, rfl, rfl⟩

/-- The ways in which `sendFileInLoop` ends: at once when the connection is shutting down,
with everything left when the channel is writing or there is a backlog, or with what
`sendfile` answers. -/
inductive SendsFile (w : World) (fileDescriptor : Nat) (offset : Int) (count : Nat) :
    Written → World → List Act → Prop where
  | down (written : Written) (hstate : w.conn.state_ = .kDisconnecting) :
      SendsFile w fileDescriptor offset count written w []
  | busy (written : Written) (hstate : w.conn.state_ ≠ .kDisconnecting)
      (hbusy : ¬ (w.conn.channel_.isWriting = false ∧ w.conn.outputBuffer_.readableBytes = 0)) :
      SendsFile w fileDescriptor offset count written w (requeue fileDescriptor offset (ssize count))
  | bytes (n : Nat) (hstate : w.conn.state_ ≠ .kDisconnecting)
      (hdirect : w.conn.channel_.isWriting = false ∧ w.conn.outputBuffer_.readableBytes = 0) (hpossible : n ≤ count) :
      SendsFile w fileDescriptor offset count (.bytes n) (w.emit (.sendfile fileDescriptor offset count (.bytes n)))
        ((if ssize count - n = 0 ∧ w.conn.writeCompleteCallback_ = true then [.queue .writeCompleteCallback_] else []) ++
          requeue fileDescriptor (offset + n) (ssize count - n))
  | error (errno : Errno) (hstate : w.conn.state_ ≠ .kDisconnecting)
      (hdirect : w.conn.channel_.isWriting = false ∧ w.conn.outputBuffer_.readableBytes = 0) :
      SendsFile w fileDescriptor offset count (.error errno)
        (w.emit (.sendfile fileDescriptor offset count (.error errno)))
        (if (Written.error errno).isFatal then [] else requeue fileDescriptor offset (ssize count))

theorem sendFileInLoop_cases {w w' : World} {fileDescriptor : Nat} {offset : Int} {count : Nat}
    {written : Written} {next : List Act}
    (h : w.sendFileInLoop fileDescriptor offset count written = some (w', next)) :
    SendsFile w fileDescriptor offset count written w' next := by
  simp only [sendFileInLoop] at h
  split at h
  · next hstate =>
    cases h
    exact .down written hstate
  · next hstate =>
    split at h
    · next hdirect =>
      obtain ⟨hpossible, hwritten⟩ := Option.ite_none_right_eq_some.mp h
      cases written with
      | bytes n =>
        cases hwritten
        exact .bytes n hstate hdirect hpossible
      | error errno =>
        cases hwritten
        exact .error errno hstate hdirect
    · next hbusy =>
      cases h
      exact .busy written hstate hbusy

/-- Whether `sendInLoop` leaves bytes for later, given the answer of a direct write. -/
def leaves (data : Text) (written : Written) : Bool :=
  if w.conn.channel_.isWriting = false ∧ w.conn.outputBuffer_.readableBytes = 0 then
    !written.isFatal && decide (0 < (data.chars.drop written.taken).length)
  else decide (0 < data.chars.length)

end World

/-- The code of a connection works on its own channel, and on the entries of its
descriptor in the poller. -/
structure Confined (w w' : World) : Prop where
  addr_eq : w'.conn.channel_.addr = w.conn.channel_.addr
  fd_eq : w'.conn.channel_.fd_ = w.conn.channel_.fd_
  agrees : Agrees w.poller w.conn.channel_ → Agrees w'.poller w'.conn.channel_
  frame : Agrees w.poller w.conn.channel_ → ∀ fd, fd ≠ w.conn.channel_.fd_ →
    w'.poller.interest fd = w.poller.interest fd ∧ w'.poller.channels_ fd = w.poller.channels_ fd

namespace Confined

theorem of_eq {w w' : World} (hchannel : w'.conn.channel_ = w.conn.channel_) (hpoller : w'.poller = w.poller) :
    Confined w w' := by
  refine ⟨by rw [hchannel], by rw [hchannel], ?_, ?_⟩
  · rw [hchannel, hpoller]
    exact id
  · intro _ fd _
    rw [hpoller]
    exact ⟨rfl, rfl⟩

theorem trans {w w' w'' : World} (h : Confined w w') (h' : Confined w' w'') : Confined w w'' := by
  refine ⟨h'.addr_eq.trans h.addr_eq, h'.fd_eq.trans h.fd_eq, fun hagree => h'.agrees (h.agrees hagree), ?_⟩
  intro hagree fd hfd
  obtain ⟨hinterest, hchannels⟩ := h.frame hagree fd hfd
  obtain ⟨hinterest', hchannels'⟩ := h'.frame (h.agrees hagree) fd (by rw [h.fd_eq]; exact hfd)
  exact ⟨hinterest'.trans hinterest, hchannels'.trans hchannels⟩

theorem perform (w : World) (op : ChannelOp) : Confined w (w.perform op) := by
  refine ⟨by rw [World.conn_perform], by rw [World.conn_perform], ?_, ?_⟩
  · exact fun hagree => (perform_spec hagree op).1
  · exact fun hagree => (perform_spec hagree op).2.2.2.2.2

/-- A new state, an interest operation, and a callback. -/
theorem switch (w : World) {u : World} (op : ChannelOp) (hchannel : u.conn.channel_.tie = w.conn.channel_.tie)
    (hpoller : u.poller = w.poller) : Confined w (u.perform op).connectionCallback_ := by
  have haddr : u.conn.channel_.addr = w.conn.channel_.addr := (congrArg Channel.addr hchannel :)
  have hfd : u.conn.channel_.fd_ = w.conn.channel_.fd_ := (congrArg Channel.fd_ hchannel :)
  have hevents : u.conn.channel_.events_ = w.conn.channel_.events_ := (congrArg Channel.events_ hchannel :)
  have hindex : u.conn.channel_.index_ = w.conn.channel_.index_ := (congrArg Channel.index_ hchannel :)
  have hu : Confined w u := by
    refine ⟨haddr, hfd, ?_, fun _ _ _ => by rw [hpoller]; exact ⟨rfl, rfl⟩⟩
    rintro ⟨hinterest, hchannels⟩
    refine ⟨?_, ?_⟩
    · rw [hpoller, hfd, hindex, hevents, haddr]
      exact hinterest
    · rw [hpoller, hfd, hindex, haddr]
      exact hchannels
  exact hu.trans ((perform u op).trans (of_eq rfl rfl))

theorem connectEstablished (w : World) : Confined w w.connectEstablished.1 :=
  switch w .enableReading rfl rfl

theorem handleClose (w : World) : Confined w w.handleClose.1 := switch w .disableAll rfl rfl

end Confined

/-- The events of moving output: system calls, buffering, queueing, and the interest
that follows the backlog. -/
def Event.isTransfer : Event → Bool
  | .setState _ => false
  | .update _ => true
  | .removed => false
  | .send _ => false
  | .sendInLoop _ => true
  | .write _ _ => true
  | .sendfile _ _ _ _ => true
  | .append _ => true
  | .shutdownWrite => true
  | .queueInLoop _ => true
  | .connectionCallback_ _ => false
  | .messageCallback_ => false
  | .closeCallback_ => false

/-- The two functors that tell the user about the backlog. -/
def Functor.isNotice : Functor → Bool
  | .writeCompleteCallback_ => true
  | .highWaterMarkCallback_ _ => true
  | _ => false

/-- Moving output keeps the state, the interest in reading and a channel's place in the
poller, calls nobody, and queues notices only. -/
structure Transfers (w w' : World) : Prop where
  state_eq : w'.conn.state_ = w.conn.state_
  isReading_eq : w'.conn.channel_.isReading = w.conn.channel_.isReading
  confined : Confined w w'
  log : ∃ events, w'.log = w.log ++ events ∧ ∀ event ∈ events, event.isTransfer = true
  queued : ∃ functors, w'.queued = w.queued ++ functors ∧ ∀ functor ∈ functors, functor.isNotice = true
  index : w.conn.channel_.index_ ≠ .kNew → w'.conn.channel_.index_ ≠ .kNew

namespace Transfers

theorem refl (w : World) : Transfers w w :=
  ⟨rfl, rfl, .of_eq rfl rfl, ⟨[], by simp, by simp⟩, ⟨[], by simp, by simp⟩, id⟩

theorem trans {w w' w'' : World} (h : Transfers w w') (h' : Transfers w' w'') : Transfers w w'' := by
  obtain ⟨hstate, hreading, hconfined, ⟨events, hlog, hevents⟩, ⟨functors, hqueued, hnotices⟩, hindex⟩ := h
  obtain ⟨hstate', hreading', hconfined', ⟨events', hlog', hevents'⟩, ⟨functors', hqueued', hnotices'⟩,
    hindex'⟩ := h'
  refine ⟨hstate'.trans hstate, hreading'.trans hreading, hconfined.trans hconfined',
    ⟨events ++ events', ?_, ?_⟩, ⟨functors ++ functors', ?_, ?_⟩, fun hnew => hindex' (hindex hnew)⟩
  · rw [hlog', hlog, List.append_assoc]
  · intro event hmem
    rcases List.mem_append.mp hmem with hmem | hmem
    · exact hevents event hmem
    · exact hevents' event hmem
  · rw [hqueued', hqueued, List.append_assoc]
  · intro functor hmem
    rcases List.mem_append.mp hmem with hmem | hmem
    · exact hnotices functor hmem
    · exact hnotices' functor hmem

/-- A change of the connection's buffers only. -/
theorem of_buffers {w w' : World} (hstate : w'.conn.state_ = w.conn.state_)
    (hchannel : w'.conn.channel_ = w.conn.channel_) (hpoller : w'.poller = w.poller) (hlog : w'.log = w.log)
    (hqueued : w'.queued = w.queued) : Transfers w w' := by
  refine ⟨hstate, by rw [hchannel], .of_eq hchannel hpoller, ⟨[], by simpa using hlog, by simp⟩,
    ⟨[], by simpa using hqueued, by simp⟩, ?_⟩
  rw [hchannel]
  exact id

theorem emit (w : World) {e : Event} (hevent : e.isTransfer = true) : Transfers w (w.emit e) :=
  ⟨rfl, rfl, .of_eq rfl rfl, ⟨[e], rfl, by simpa using hevent⟩, ⟨[], by simp, by simp⟩, id⟩

theorem queueInLoop (w : World) {functor : Functor} (hnotice : functor.isNotice = true) :
    Transfers w (w.queueInLoop functor) :=
  ⟨rfl, rfl, .of_eq rfl rfl, ⟨[.queueInLoop functor], rfl, by simp [Event.isTransfer]⟩,
    ⟨[functor], rfl, by simpa using hnotice⟩, id⟩

theorem setOutputBuffer (w : World) (outputBuffer_ : CheckedBuffer) :
    Transfers w (w.setOutputBuffer outputBuffer_) := of_buffers rfl rfl rfl rfl rfl

theorem setInputBuffer (w : World) (inputBuffer_ : CheckedBuffer) :
    Transfers w (w.setInputBuffer inputBuffer_) := of_buffers rfl rfl rfl rfl rfl

theorem perform (w : World) {op : ChannelOp} (hop : op = .enableWriting ∨ op = .disableWriting) :
    Transfers w (w.perform op) := by
  refine ⟨by simp, ?_, .perform w op, ⟨_, World.log_perform w op, ?_⟩, ⟨[], by simp, by simp⟩, fun _ => ?_⟩
  · rw [World.conn_perform]
    exact mask_writing_meets_read hop _
  · rcases hop with rfl | rfl <;> simp [Event.isTransfer]
  · rw [World.conn_perform]
    rcases hop with rfl | rfl <;> exact nextIndex_ne_kNew _ _

theorem writeCompleted (w : World) : Transfers w w.writeCompleted := by
  unfold World.writeCompleted
  split
  · exact queueInLoop w rfl
  · exact refl w

theorem highWater (w : World) (len : Nat) : Transfers w (w.highWater len) := by
  simp only [World.highWater]
  split
  · exact queueInLoop w rfl
  · exact refl w

theorem watchWriting (w : World) : Transfers w w.watchWriting := by
  unfold World.watchWriting
  split
  · exact refl w
  · exact perform w (.inl rfl)

theorem keep {alloc : Nat → Bool} {w w' : World} {rest : List UInt8} (h : w.keep alloc rest = some w') :
    Transfers w w' := by
  rcases World.keep_cases h with ⟨_, rfl⟩ | ⟨_, outputBuffer_, _, rfl⟩
  · exact refl _
  · have hstored := (highWater w rest.length).trans (setOutputBuffer _ outputBuffer_)
    exact (hstored.trans (emit _ rfl)).trans (watchWriting _)

theorem writeDirectly (w : World) (data : List UInt8) (written : Written) :
    Transfers w (w.writeDirectly data written) := by
  have hemit := emit w (e := .write data written) rfl
  unfold World.writeDirectly
  simp only
  split
  · exact hemit.trans (writeCompleted _)
  · exact hemit

theorem sendInLoop {alloc : Nat → Bool} {w w' : World} {data : Text} {written : Written}
    (h : w.sendInLoop alloc data written = some w') : Transfers w w' := by
  have hemit := emit w (e := .sendInLoop data) rfl
  have hdirect := hemit.trans (writeDirectly _ data.chars written)
  rcases World.sendInLoop_cases h with ⟨_, _, ⟨_, rfl⟩ | ⟨_, hkeep⟩⟩ | ⟨_, hkeep⟩
  · exact hdirect
  · exact hdirect.trans (keep hkeep)
  · exact hemit.trans (keep hkeep)

theorem shutdownInLoop (w : World) : Transfers w w.shutdownInLoop := by
  unfold World.shutdownInLoop
  split
  · exact refl w
  · exact emit w rfl

theorem drained (w : World) : Transfers w w.drained := by
  unfold World.drained
  split
  · exact shutdownInLoop w
  · exact refl w

theorem wrote (w : World) (n : Nat) : Transfers w (w.wrote n).1 := by
  unfold World.wrote
  simp only
  split
  · exact ((setOutputBuffer w _).trans (perform _ (.inr rfl))).trans (writeCompleted _)
  · exact setOutputBuffer w _

theorem handleWrite {w w' : World} {written : Written} {next : List Act}
    (h : w.handleWrite written = some (w', next)) : Transfers w w' := by
  have hemit := emit w (e := .write w.conn.outputBuffer_.contents written) rfl
  rcases World.handleWrite_cases h with ⟨_, _, rfl⟩ | ⟨_, ⟨_, _, rfl⟩ | hwrote⟩
  · exact refl _
  · exact hemit
  · have hrest := wrote (w.emit (.write w.conn.outputBuffer_.contents written)) written.taken
    rw [hwrote] at hrest
    exact hemit.trans hrest

theorem sendFileInLoop {w w' : World} {fileDescriptor : Nat} {offset : Int} {count : Nat}
    {written : Written} {next : List Act}
    (h : w.sendFileInLoop fileDescriptor offset count written = some (w', next)) : Transfers w w' := by
  have hemit := emit w (e := .sendfile fileDescriptor offset count written) rfl
  cases World.sendFileInLoop_cases h with
  | down | busy => exact refl w
  | bytes | error => exact hemit

end Transfers

/-- Reading fails, finds the end of the stream, or delivers a message. -/
theorem World.handleRead_cases {alloc : Nat → Bool} {w w' : World} {received : Received} {next : List Act}
    (h : w.handleRead alloc received = some (w', next)) :
    (∃ inputBuffer_, w' = w.setInputBuffer inputBuffer_ ∧ next = []) ∨
    ∃ bytes inputBuffer_, received = .data bytes ∧
      (bytes = [] ∧ (w', next) = (w.setInputBuffer inputBuffer_).handleClose ∨
        bytes ≠ [] ∧ w' = (w.setInputBuffer inputBuffer_).emit .messageCallback_ ∧ next = [.user]) := by
  unfold World.handleRead at h
  split at h
  · next hpossible =>
    rcases CheckedBuffer.readFd_cases alloc w.conn.inputBuffer_ hpossible with
      ⟨errno, herror, hread⟩ | ⟨bytes, hdata, hnone | ⟨longer, hread, _⟩⟩
    · simp only [hread] at h
      cases h
      exact .inl ⟨_, rfl, rfl⟩
    · simp only [hnone] at h
      cases h
    · simp only [hread] at h
      refine .inr ⟨bytes, longer, hdata, ?_⟩
      split at h
      · next hpositive =>
        cases h
        exact .inr ⟨List.length_pos_iff.mp (by omega), rfl, rfl⟩
      · split at h
        · next hzero => exact .inl ⟨List.length_eq_zero_iff.mp (by omega), (Option.some.inj h).symm⟩
        · omega
  · cases h

/-- `handleWrite` goes on behind the drain only when it has drained the backlog. -/
theorem World.next_handleWrite {w w' : World} {written : Written} {next : List Act}
    (h : w.handleWrite written = some (w', next)) : next = [] ∨ next = [.drained] := by
  rcases World.handleWrite_cases h with ⟨_, rfl, _⟩ | ⟨_, ⟨_, rfl, _⟩ | hwrote⟩
  · exact .inl rfl
  · exact .inl rfl
  · rcases World.wrote_cases hwrote with ⟨_, hnext, _⟩ | ⟨_, hnext, _⟩
    · exact .inr hnext
    · exact .inl hnext

/-- Nothing is left for later exactly when the channel's interest is left alone. -/
theorem World.channel_sendInLoop {alloc : Nat → Bool} {w w' : World} {data : Text} {written : Written}
    (h : w.sendInLoop alloc data written = some w') (hleaves : w.leaves data written = false) :
    w'.conn.channel_ = w.conn.channel_ := by
  have hnothing {u : World} {rest : List UInt8} (hrest : ¬ 0 < rest.length) (hkeep : u.keep alloc rest = some w') :
      w' = u := by
    rcases World.keep_cases hkeep with ⟨_, heq⟩ | ⟨hmore, _⟩
    · exact heq
    · exact absurd hmore hrest
  unfold World.leaves at hleaves
  rcases World.sendInLoop_cases h with ⟨hdirect, _, ⟨_, rfl⟩ | ⟨hfatal, hkeep⟩⟩ | ⟨hdirect, hkeep⟩
  · simp
  · rw [if_pos hdirect, hfatal] at hleaves
    rw [hnothing (by simpa using hleaves) hkeep]
    simp
  · rw [if_neg hdirect] at hleaves
    rw [hnothing (by simpa using hleaves) hkeep]
    rfl

theorem isWriting_of_isNoneEvent {channel : Channel} (h : channel.isNoneEvent = true) :
    channel.isWriting = false := by
  by_contra hwriting
  have hnone : channel.events_ = kNoneEvent := by simpa [Channel.isNoneEvent] using h
  exact ne_kNoneEvent_of_meets (by simpa [Channel.isWriting] using hwriting) hnone

/-- A functor that a functor of the connection leaves behind. -/
def Functor.isResend : Functor → Bool
  | .writeCompleteCallback_ => true
  | .sendFileInLoop _ _ _ => true
  | _ => false

/-- What an act of the connection's code does to its world, and which acts it leaves:
it changes the state of the connection, runs a callback, or moves output. -/
inductive Turn (received : Received) (written : Written) (w : World) : Act → World → List Act → Prop where
  | connectEstablished : Turn received written w (.call .connectEstablished) w.connectEstablished.1 [.user]
  | connectDestroyed : Turn received written w (.call .connectDestroyed) w
      (if w.conn.state_ = .kConnected then [.disconnect, .remove] else [.remove])
  | disconnect : Turn received written w .disconnect w.disconnect.1 [.user]
  | remove : Turn received written w .remove (w.perform .remove) []
  | queue (functor : Functor) : Turn received written w (.queue functor) (w.queueInLoop functor) []
  | close : Turn received written w (.callback .closeCallback_) w.handleClose.1 [.user, .closeCallback_]
  | endOfStream (inputBuffer_ : CheckedBuffer) (hdata : received = .data []) :
      Turn received written w (.callback .readCallback_) (w.setInputBuffer inputBuffer_).handleClose.1
        [.user, .closeCallback_]
  | message (bytes : List UInt8) (inputBuffer_ : CheckedBuffer) (hdata : received = .data bytes)
      (hbytes : bytes ≠ []) :
      Turn received written w (.callback .readCallback_)
        ((w.setInputBuffer inputBuffer_).emit .messageCallback_) [.user]
  | closeCallback_ : Turn received written w .closeCallback_ (w.emit .closeCallback_) [.removeConnection]
  | transfer (a : Act) (w' : World) (next : List Act) (htransfers : Transfers w w')
      (hchannel : w.conn.channel_.isNoneEvent = true →
        (∀ data, a = .call (.sendInLoop data) → w.leaves data written = false) →
        w'.conn.channel_ = w.conn.channel_)
      (hnext : next = [] ∨ next = [.drained] ∨ next = [.user] ∨
        ∃ functor, functor.isResend = true ∧ next = [.queue functor])
      (hact : a ≠ .call .connectEstablished ∧ a ≠ .call .connectDestroyed ∧ a ≠ .disconnect ∧ a ≠ .remove ∧
        (∀ functor, a ≠ .queue functor) ∧ a ≠ .callback .closeCallback_ ∧ a ≠ .closeCallback_ ∧
        a ≠ .removeConnection) :
      Turn received written w a w' next

theorem next_requeue (fileDescriptor : Nat) (offset remaining : Int) :
    World.requeue fileDescriptor offset remaining = [] ∨ ∃ functor, functor.isResend = true ∧
      World.requeue fileDescriptor offset remaining = [.queue functor] := by
  unfold World.requeue
  split
  · exact .inr ⟨_, rfl, rfl⟩
  · exact .inl rfl

theorem next_sendFileInLoop {w w' : World} {fileDescriptor : Nat} {offset : Int} {count : Nat}
    {written : Written} {next : List Act}
    (h : w.sendFileInLoop fileDescriptor offset count written = some (w', next)) :
    w'.conn = w.conn ∧ (next = [] ∨ ∃ functor, functor.isResend = true ∧ next = [.queue functor]) := by
  cases World.sendFileInLoop_cases h with
  | down => exact ⟨rfl, .inl rfl⟩
  | busy => exact ⟨rfl, next_requeue _ _ _⟩
  | bytes n =>
    refine ⟨rfl, ?_⟩
    split
    · next hdone =>
      refine .inr ⟨.writeCompleteCallback_, rfl, ?_⟩
      rw [World.requeue, if_neg (by omega), List.append_nil]
    · rw [List.nil_append]
      exact next_requeue _ _ _
  | error errno =>
    refine ⟨rfl, ?_⟩
    split
    · exact .inl rfl
    · exact next_requeue _ _ _

/-- Every act of the connection's code is one of these turns. -/
theorem World.act_turn {alloc : Nat → Bool} {received : Received} {written : Written} {w w' : World} {a : Act}
    {next : List Act} (h : w.act alloc received written a = some (w', next)) :
    Turn received written w a w' next := by
  cases a with
  | call functor =>
    cases functor with
    | connectEstablished =>
      cases h
      exact .connectEstablished
    | connectDestroyed =>
      cases h
      exact .connectDestroyed
    | sendInLoop data =>
      obtain ⟨sent, hsend, heq⟩ := Option.map_eq_some_iff.mp h
      cases heq
      refine .transfer _ _ _ (.sendInLoop hsend) ?_ (.inl rfl) (by simp)
      intro _ hleaves
      exact World.channel_sendInLoop hsend (hleaves data rfl)
    | sendFileInLoop fileDescriptor offset count =>
      obtain ⟨hconn, hnext⟩ := next_sendFileInLoop h
      refine .transfer _ _ _ (.sendFileInLoop h) (fun _ _ => by rw [hconn]) ?_ (by simp)
      rcases hnext with hnext | hnext
      · exact .inl hnext
      · exact .inr (.inr (.inr hnext))
    | shutdownInLoop =>
      cases h
      refine .transfer _ _ _ (.shutdownInLoop w) ?_ (.inl rfl) (by simp)
      intro _ _
      unfold World.shutdownInLoop
      split <;> rfl
    | writeCompleteCallback_ | highWaterMarkCallback_ =>
      cases h
      exact .transfer _ _ _ (.refl w) (fun _ _ => rfl) (.inr (.inr (.inl rfl))) (by simp)
  | callback callback =>
    cases callback with
    | closeCallback_ =>
      cases h
      exact .close
    | errorCallback_ =>
      cases h
      exact .transfer _ _ _ (.refl w) (fun _ _ => rfl) (.inl rfl) (by simp)
    | readCallback_ =>
      rcases World.handleRead_cases h with ⟨inputBuffer_, hfailed, hnext⟩ |
        ⟨bytes, inputBuffer_, hdata, ⟨hempty, hclose⟩ | ⟨hbytes, hmessage, hnext⟩⟩
      · subst hfailed
        exact .transfer _ _ _ (.setInputBuffer w inputBuffer_) (fun _ _ => rfl) (.inl hnext) (by simp)
      · subst hempty
        cases hclose
        exact .endOfStream inputBuffer_ hdata
      · subst hmessage
        subst hnext
        exact .message bytes inputBuffer_ hdata hbytes
    | writeCallback_ =>
      refine .transfer _ _ _ (.handleWrite h) ?_ ?_ (by simp)
      · intro hnone _
        simp only [World.act, World.handleWrite, isWriting_of_isNoneEvent hnone, Bool.false_eq_true, if_false] at h
        cases h
        rfl
      · rcases World.next_handleWrite h with hnext | hnext
        · exact .inl hnext
        · exact .inr (.inl hnext)
  | drained =>
    cases h
    refine .transfer _ _ _ (.drained w) ?_ (.inl rfl) (by simp)
    intro _ _
    unfold World.drained World.shutdownInLoop
    split
    · split <;> rfl
    · rfl
  | disconnect =>
    cases h
    exact .disconnect
  | remove =>
    cases h
    exact .remove
  | queue functor =>
    cases h
    exact .queue functor
  | closeCallback_ =>
    cases h
    exact .closeCallback_
  | user | removeConnection => cases h

theorem Turn.confined {received : Received} {written : Written} {w w' : World} {a : Act} {next : List Act}
    (h : Turn received written w a w' next) : Confined w w' := by
  cases h with
  | connectEstablished => exact .connectEstablished w
  | connectDestroyed => exact .of_eq rfl rfl
  | disconnect => exact .handleClose w
  | remove => exact .perform w .remove
  | queue => exact .of_eq rfl rfl
  | close => exact .handleClose w
  | endOfStream inputBuffer_ =>
    have hread : Confined w (w.setInputBuffer inputBuffer_) := .of_eq rfl rfl
    exact hread.trans (.handleClose _)
  | message => exact .of_eq rfl rfl
  | closeCallback_ => exact .of_eq rfl rfl
  | transfer _ _ _ htransfers => exact htransfers.confined

/-- Only `remove` makes the poller forget a channel. -/
theorem Turn.index {received : Received} {written : Written} {w w' : World} {a : Act} {next : List Act}
    (h : Turn received written w a w' next) (hremove : a ≠ .remove) (hindex : w.conn.channel_.index_ ≠ .kNew) :
    w'.conn.channel_.index_ ≠ .kNew := by
  have hclose (w : World) : w.handleClose.1.conn.channel_.index_ ≠ .kNew := by
    rw [World.conn_handleClose]
    exact nextIndex_ne_kNew _ _
  cases h with
  | connectEstablished =>
    rw [World.conn_connectEstablished]
    exact nextIndex_ne_kNew _ _
  | connectDestroyed | queue | message | closeCallback_ => exact hindex
  | disconnect | close => exact hclose w
  | remove => exact absurd rfl hremove
  | endOfStream inputBuffer_ => exact hclose (w.setInputBuffer inputBuffer_)
  | transfer _ _ _ htransfers => exact htransfers.index hindex

end muduo.tcp_connection
