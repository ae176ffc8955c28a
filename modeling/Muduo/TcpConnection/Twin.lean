import Muduo.TcpConnection.Effects

open muduo.kernel muduo.buffer muduo.epoll

namespace muduo.tcp_connection

/-- Two worlds that differ in nothing but their pollers. -/
def Twin (w v : World) : Prop := ∃ poller, v = { w with poller }

/-- What the code of a connection makes of such worlds differs in nothing else either. -/
inductive Twins : Option (World × List Act) → Option (World × List Act) → Prop where
  | refused : Twins none none
  | done {w v : World} (next : List Act) (htwin : Twin w v) : Twins (some (w, next)) (some (v, next))

theorem Twins.exists_eq {x y : Option (World × List Act)} {w : World} {next : List Act} (h : Twins x y)
    (hx : x = some (w, next)) : ∃ v, y = some (v, next) ∧ Twin w v := by
  cases h with
  | refused => cases hx
  | done next htwin =>
    cases hx
    exact ⟨_, rfl, htwin⟩

namespace Twin

variable {w v : World}

theorem conn_eq (h : Twin w v) : v.conn = w.conn := by
  obtain ⟨poller, rfl⟩ := h
  rfl

theorem queued_eq (h : Twin w v) : v.queued = w.queued := by
  obtain ⟨poller, rfl⟩ := h
  rfl

theorem log_eq (h : Twin w v) : v.log = w.log := by
  obtain ⟨poller, rfl⟩ := h
  rfl

theorem setConn (h : Twin w v) (conn : TcpConnection) : Twin { w with conn } { v with conn } := by
  obtain ⟨poller, rfl⟩ := h
  exact ⟨poller, rfl⟩

theorem emit (h : Twin w v) (event : Event) : Twin (w.emit event) (v.emit event) := by
  obtain ⟨poller, rfl⟩ := h
  exact ⟨poller, rfl⟩

theorem queueInLoop (h : Twin w v) (functor : Functor) : Twin (w.queueInLoop functor) (v.queueInLoop functor) := by
  obtain ⟨poller, rfl⟩ := h
  exact ⟨poller, rfl⟩

/-- What an interest operation does to the channel does not depend on the poller. -/
theorem perform (h : Twin w v) (op : ChannelOp) : Twin (w.perform op) (v.perform op) := by
  obtain ⟨poller, rfl⟩ := h
  refine ⟨(w.conn.channel_.perform poller op).1, ?_⟩
  simp only [World.perform, World.emit, perform_snd]

theorem connectionCallback_ (h : Twin w v) : Twin w.connectionCallback_ v.connectionCallback_ := by
  obtain ⟨poller, rfl⟩ := h
  exact ⟨poller, rfl⟩

theorem connectEstablished (h : Twin w v) : Twin w.connectEstablished.1 v.connectEstablished.1 := by
  obtain ⟨poller, rfl⟩ := h
  have hconnected : Twin (w.setState .kConnected) (World.setState { w with poller } .kConnected) := ⟨poller, rfl⟩
  exact ((hconnected.setConn _).perform .enableReading).connectionCallback_

theorem handleClose (h : Twin w v) : Twin w.handleClose.1 v.handleClose.1 := by
  obtain ⟨poller, rfl⟩ := h
  have hclosed : Twin (w.setState .kDisconnected) (World.setState { w with poller } .kDisconnected) := ⟨poller, rfl⟩
  exact (hclosed.perform .disableAll).connectionCallback_

theorem shutdownInLoop (h : Twin w v) : Twin w.shutdownInLoop v.shutdownInLoop := by
  obtain ⟨poller, rfl⟩ := h
  cases hwriting : w.conn.channel_.isWriting with
  | true => exact ⟨poller, by simp only [World.shutdownInLoop, hwriting, if_true]⟩
  | false => exact ⟨poller, by simp [World.shutdownInLoop, hwriting, World.emit]⟩

theorem drained (h : Twin w v) : Twin w.drained v.drained := by
  unfold World.drained
  rw [h.conn_eq]
  split
  · exact h.shutdownInLoop
  · exact h

theorem writeCompleted (h : Twin w v) : Twin w.writeCompleted v.writeCompleted := by
  unfold World.writeCompleted
  rw [h.conn_eq]
  split
  · exact h.queueInLoop _
  · exact h

theorem highWater (h : Twin w v) (len : Nat) : Twin (w.highWater len) (v.highWater len) := by
  simp only [World.highWater, h.conn_eq]
  split
  · exact h.queueInLoop _
  · exact h

theorem watchWriting (h : Twin w v) : Twin w.watchWriting v.watchWriting := by
  unfold World.watchWriting
  rw [h.conn_eq]
  split
  · exact h
  · exact h.perform .enableWriting

theorem setOutputBuffer (h : Twin w v) (outputBuffer_ : CheckedBuffer) :
    Twin (w.setOutputBuffer outputBuffer_) (v.setOutputBuffer outputBuffer_) := by
  obtain ⟨poller, rfl⟩ := h
  exact ⟨poller, rfl⟩

theorem setInputBuffer (h : Twin w v) (inputBuffer_ : CheckedBuffer) :
    Twin (w.setInputBuffer inputBuffer_) (v.setInputBuffer inputBuffer_) := by
  obtain ⟨poller, rfl⟩ := h
  exact ⟨poller, rfl⟩

variable {alloc : Nat → Bool} {received : Received} {written : Written}

/-- Keeping the rest of a payload. -/
theorem keep (h : Twin w v) (rest : List UInt8) :
    Twins ((w.keep alloc rest).map fun w => (w, [])) ((v.keep alloc rest).map fun v => (v, [])) := by
  unfold World.keep
  split
  · have hmarked := h.highWater rest.length
    simp only [hmarked.conn_eq]
    split
    · exact .done [] ((hmarked.setOutputBuffer _).emit _).watchWriting
    · exact .refused
  · exact .done [] h

theorem sendInLoop (h : Twin w v) (data : Text) :
    Twins ((w.sendInLoop alloc data written).map fun w => (w, []))
      ((v.sendInLoop alloc data written).map fun v => (v, [])) := by
  have hsent := h.emit (.sendInLoop data)
  have hwritten : Twin ((w.emit (.sendInLoop data)).writeDirectly data.chars written)
      ((v.emit (.sendInLoop data)).writeDirectly data.chars written) := by
    unfold World.writeDirectly
    simp only
    split
    · exact (hsent.emit _).writeCompleted
    · exact hsent.emit _
  unfold World.sendInLoop
  simp only [hsent.conn_eq]
  split
  · split
    · split
      · exact .done [] hwritten
      · exact hwritten.keep _
    · exact .refused
  · exact hsent.keep _

theorem sendFileInLoop (h : Twin w v) (fileDescriptor : Nat) (offset : Int) (count : Nat) :
    Twins (w.sendFileInLoop fileDescriptor offset count written)
      (v.sendFileInLoop fileDescriptor offset count written) := by
  have hemitted := h.emit (.sendfile fileDescriptor offset count written)
  unfold World.sendFileInLoop
  simp only [h.conn_eq, hemitted.conn_eq]
  split
  · exact .done [] h
  · split
    · split
      · cases written with
        | bytes n => exact .done _ hemitted
        | error errno => exact .done _ hemitted
      · exact .refused
    · exact .done _ h

theorem handleRead (h : Twin w v) : Twins (w.handleRead alloc received) (v.handleRead alloc received) := by
  unfold World.handleRead
  rw [h.conn_eq]
  split
  · split
    · next inputBuffer_ n _ _ =>
      have hread := h.setInputBuffer inputBuffer_
      simp only
      split
      · exact .done _ (hread.emit _)
      · split
        · exact .done [.user, .closeCallback_] hread.handleClose
        · exact .done _ hread
    · exact .refused
  · exact .refused

theorem wrote (h : Twin w v) (n : Nat) : Twins (some (w.wrote n)) (some (v.wrote n)) := by
  have htaken := h.setOutputBuffer (w.conn.outputBuffer_.retrieve n)
  simp only [World.wrote, h.conn_eq, htaken.conn_eq]
  split
  · exact .done _ (htaken.perform .disableWriting).writeCompleted
  · exact .done _ htaken

theorem handleWrite (h : Twin w v) : Twins (w.handleWrite written) (v.handleWrite written) := by
  unfold World.handleWrite
  rw [h.conn_eq]
  split
  · split
    · have hemitted := h.emit (.write w.conn.outputBuffer_.contents written)
      simp only
      split
      · exact hemitted.wrote written.taken
      · exact .done _ hemitted
    · exact .refused
  · exact .done _ h

/-- The code of a connection does the same whatever its poller is. -/
theorem act (h : Twin w v) (a : Act) : Twins (w.act alloc received written a) (v.act alloc received written a) := by
  cases a with
  | call functor =>
    cases functor with
    | connectEstablished => exact .done _ h.connectEstablished
    | connectDestroyed =>
      simp only [World.act, World.call, World.connectDestroyed, h.conn_eq]
      exact .done _ h
    | sendInLoop data => exact h.sendInLoop data
    | sendFileInLoop fileDescriptor offset count => exact h.sendFileInLoop fileDescriptor offset count
    | shutdownInLoop => exact .done _ h.shutdownInLoop
    | writeCompleteCallback_ | highWaterMarkCallback_ => exact .done _ h
  | callback callback =>
    cases callback with
    | closeCallback_ => exact .done _ h.handleClose
    | errorCallback_ => exact .done _ h
    | readCallback_ => exact h.handleRead
    | writeCallback_ => exact h.handleWrite
  | drained => exact .done _ h.drained
  | disconnect => exact .done _ h.handleClose
  | remove => exact .done _ (h.perform .remove)
  | queue functor => exact .done _ (h.queueInLoop functor)
  | closeCallback_ => exact .done _ (h.emit .closeCallback_)
  | user | removeConnection => exact .refused

theorem ownCall (h : Twin w v) (call : Call) :
    Twin (w.ownCall call).1 (v.ownCall call).1 ∧ (v.ownCall call).2 = (w.ownCall call).2 := by
  obtain ⟨poller, rfl⟩ := h
  cases hconnected : w.conn.connected with
  | true => cases call <;> simp only [World.ownCall, hconnected, if_true] <;> exact ⟨⟨poller, rfl⟩, trivial⟩
  | false => cases call <;> simp only [World.ownCall, hconnected] <;> exact ⟨⟨poller, rfl⟩, rfl⟩

end Twin

end muduo.tcp_connection
