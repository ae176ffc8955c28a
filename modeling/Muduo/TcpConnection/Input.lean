import Muduo.TcpConnection.Lifecycle

open transition
open muduo.kernel muduo.buffer muduo.epoll muduo.event_loop

namespace muduo.tcp_connection

namespace World

/-- The input of a connection: its buffer, and how often the message callback was called. -/
def input (w : World) : List UInt8 × Nat :=
  (w.conn.inputBuffer_.contents, w.log.count .messageCallback_)

theorem input_emit (w : World) {event : Event} (hevent : event ≠ .messageCallback_) :
    (w.emit event).input = w.input := by
  simp [input, List.count_append, hevent]

theorem input_queueInLoop (w : World) (functor : Functor) : (w.queueInLoop functor).input = w.input := by
  simp [input, List.count_append]

theorem input_setState (w : World) (state : StateE) : (w.setState state).input = w.input := by
  simp [input, List.count_append]

theorem input_perform (w : World) (op : ChannelOp) : (w.perform op).input = w.input := by
  unfold input
  rw [conn_perform, log_perform, List.count_append]
  split <;> simp

theorem input_handleClose (w : World) : w.handleClose.1.input = w.input := by
  have hperformed : ((w.setState .kDisconnected).perform .disableAll).input = w.input := by
    rw [input_perform, input_setState]
  rw [← hperformed]
  exact input_emit _ (by simp)

theorem input_writeCompleted (w : World) : w.writeCompleted.input = w.input := by
  unfold writeCompleted
  split
  · exact input_queueInLoop w _
  · rfl

theorem input_highWater (w : World) (len : Nat) : (w.highWater len).input = w.input := by
  simp only [highWater]
  split
  · exact input_queueInLoop w _
  · rfl

theorem input_watchWriting (w : World) : w.watchWriting.input = w.input := by
  unfold watchWriting
  split
  · rfl
  · exact input_perform w _

theorem input_setOutputBuffer (w : World) (outputBuffer_ : CheckedBuffer) :
    (w.setOutputBuffer outputBuffer_).input = w.input := rfl

theorem input_writeDirectly (w : World) (data : List UInt8) (written : Written) :
    (w.writeDirectly data written).input = w.input := by
  simp only [writeDirectly]
  split
  · rw [input_writeCompleted, input_emit w (by simp)]
  · exact input_emit w (by simp)

theorem input_keep {alloc : Nat → Bool} {w w' : World} {rest : List UInt8} (h : w.keep alloc rest = some w') :
    w'.input = w.input := by
  obtain ⟨_, rfl⟩ | ⟨_, outputBuffer_, _, rfl⟩ := keep_cases h
  · rfl
  · rw [input_watchWriting, input_emit _ (by simp), input_setOutputBuffer, input_highWater]

theorem input_sendInLoop {alloc : Nat → Bool} {w w' : World} {data : Text} {written : Written}
    (h : w.sendInLoop alloc data written = some w') : w'.input = w.input := by
  have hemit : (w.emit (.sendInLoop data)).input = w.input := input_emit w (by simp)
  obtain ⟨_, _, ⟨_, rfl⟩ | ⟨_, hkeep⟩⟩ | ⟨_, hkeep⟩ := sendInLoop_cases h
  · rw [input_writeDirectly, hemit]
  · rw [input_keep hkeep, input_writeDirectly, hemit]
  · rw [input_keep hkeep, hemit]

theorem input_handleWrite {w w' : World} {written : Written} {next : List Act}
    (h : w.handleWrite written = some (w', next)) : w'.input = w.input := by
  have hemit : (w.emit (.write w.conn.outputBuffer_.contents written)).input = w.input := input_emit w (by simp)
  obtain ⟨_, _, rfl⟩ | ⟨_, ⟨_, _, rfl⟩ | hwrote⟩ := handleWrite_cases h
  · rfl
  · exact hemit
  · obtain ⟨_, _, rfl⟩ | ⟨_, _, rfl⟩ := wrote_cases hwrote
    · rw [input_writeCompleted, input_perform, input_setOutputBuffer, hemit]
    · rw [input_setOutputBuffer, hemit]

theorem input_shutdownInLoop (w : World) : w.shutdownInLoop.input = w.input := by
  unfold shutdownInLoop
  split
  · rfl
  · exact input_emit w (by simp)

theorem input_drained (w : World) : w.drained.input = w.input := by
  unfold drained
  split
  · exact input_shutdownInLoop w
  · rfl

/-- What `readv` answers goes behind what is in the buffer, and is told to user code. -/
theorem input_handleRead {alloc : Nat → Bool} {w w' : World} {received : Received} {next : List Act}
    (h : w.handleRead alloc received = some (w', next)) :
    (∀ bytes, received = .data bytes → bytes ≠ [] →
      w'.input = (w.conn.inputBuffer_.contents ++ bytes, w.log.count .messageCallback_ + 1)) ∧
    ((∀ bytes, received = .data bytes → bytes = []) → w'.input = w.input) := by
  unfold handleRead at h
  split at h
  · next hpossible =>
    obtain ⟨errno, rfl, hread⟩ | ⟨bytes, rfl, hnone | ⟨longer, hread, hcontents⟩⟩ :=
      CheckedBuffer.readFd_cases alloc w.conn.inputBuffer_ hpossible
    · simp only [hread] at h
      cases h
      exact ⟨by simp, fun _ => rfl⟩
    · simp only [hnone] at h
      cases h
    · simp only [hread] at h
      by_cases hempty : bytes = []
      · subst hempty
        cases h
        refine ⟨by simp, fun _ => ?_⟩
        refine (input_handleClose (w.setInputBuffer longer)).trans ?_
        simp only [input, conn_setInputBuffer, log_setInputBuffer, hcontents, List.append_nil]
      · have hpositive : (0 : Int) < bytes.length := by
          have hlength := List.length_pos_iff.mpr hempty
          omega
        rw [if_pos hpositive] at h
        cases h
        refine ⟨?_, fun hnone => absurd (hnone bytes rfl) hempty⟩
        intro other hsame _
        cases hsame
        simp [input, hcontents, List.count_append]
  · cases h

/-- Apart from the read callback, no act touches the input. -/
theorem input_act {alloc : Nat → Bool} {received : Received} {written : Written} {w w' : World} {a : Act}
    {next : List Act} (h : w.act alloc received written a = some (w', next))
    (hread : a ≠ .callback .readCallback_) : w'.input = w.input := by
  cases a with
  | call functor =>
    cases functor with
    | connectEstablished =>
      cases h
      have hstate := input_setState w .kConnected
      refine (input_emit _ (by simp)).trans ((input_perform _ _).trans ?_)
      exact hstate
    | connectDestroyed | writeCompleteCallback_ | highWaterMarkCallback_ =>
      cases h
      rfl
    | sendInLoop data =>
      obtain ⟨sent, hsend, heq⟩ := Option.map_eq_some_iff.mp h
      cases heq
      exact input_sendInLoop hsend
    | sendFileInLoop fileDescriptor offset count =>
      cases sendFileInLoop_cases h with
      | down | busy => rfl
      | bytes | error => exact input_emit w (by simp)
    | shutdownInLoop =>
      cases h
      exact input_shutdownInLoop w
  | callback callback =>
    cases callback with
    | closeCallback_ =>
      cases h
      exact input_handleClose w
    | errorCallback_ =>
      cases h
      rfl
    | readCallback_ => exact absurd rfl hread
    | writeCallback_ => exact input_handleWrite h
  | drained =>
    cases h
    exact input_drained w
  | disconnect =>
    cases h
    exact input_handleClose w
  | remove =>
    cases h
    exact input_perform w _
  | queue functor =>
    cases h
    exact input_queueInLoop w functor
  | closeCallback_ =>
    cases h
    exact input_emit w (by simp)
  | user | removeConnection => cases h

theorem input_ownCall (w : World) (call : Call) : (w.ownCall call).1.input = w.input := by
  cases call <;> simp only [ownCall] <;> split
  · exact input_emit w (by simp)
  · rfl
  · rfl
  · rfl
  · exact input_setState w _
  · rfl

end World

/-- A connection on its loop, with the bytes that each `readv` has answered and those
that user code has taken out of the buffer. -/
structure Reading (T : Type) where
  system : System T
  chunks : List (List UInt8)
  retrieved : List UInt8

namespace Reading

variable {T : Type}

/-- What `readv` answers in a step, if the step reads. -/
def chunk (s : System T) : Input T → List (List UInt8)
  | .act (.data bytes) _ => if s.todo.head? = some (.callback .readCallback_) ∧ bytes ≠ [] then [bytes] else []
  | _ => []

/-- What user code takes out of the buffer in a step. -/
def taken (s : System T) : Input T → List UInt8
  | .ownRetrieve len => s.conn.inputBuffer_.contents.take len
  | _ => []

def step [DecidableEq T] (alloc : Nat → Bool) (sameLoop : Bool) (s : Reading T) (i : Input T) :
    Option (Reading T) :=
  (s.system.step alloc sameLoop i).map fun system =>
    { system, chunks := s.chunks ++ chunk s.system i, retrieved := s.retrieved ++ taken s.system i }

/-- A connection on which nothing has been received. -/
def start (system : System T) : Reading T where
  system := system
  chunks := []
  retrieved := []

/-- What came in is what user code has taken and what is still in the buffer, and user
code was told of it chunk by chunk. -/
structure Intact (s : Reading T) : Prop where
  stream : s.chunks.flatten = s.retrieved ++ s.system.conn.inputBuffer_.contents
  called : s.system.log.count .messageCallback_ = s.chunks.length

theorem Intact.of_input {s : Reading T} {t : System T} (h : s.Intact)
    (hcontents : t.conn.inputBuffer_.contents = s.system.conn.inputBuffer_.contents)
    (hcount : t.log.count .messageCallback_ = s.system.log.count .messageCallback_) :
    Intact { s with system := t } := by
  refine ⟨?_, ?_⟩
  · rw [hcontents]
    exact h.stream
  · rw [hcount]
    exact h.called

/-- An act of the connection's code keeps the input intact: what `readv` answers goes
behind what is in the buffer, and the message callback is called for it. -/
theorem Intact.act {s : Reading T} {alloc : Nat → Bool} {received : Received} {written : Written} {a : Act}
    {rest next : List Act} {w : World} (h : s.Intact) (htodo : s.system.todo = a :: rest)
    (hact : s.system.world.act alloc received written a = some (w, next)) :
    Intact { s with
      system := s.system.resume w (next ++ rest)
      chunks := s.chunks ++ chunk s.system (.act received written)
      retrieved := s.retrieved ++ [] } := by
  have hnothing (hsame : w.input = s.system.world.input) (hnone : chunk s.system (.act received written) = []) :
      Intact { s with
        system := s.system.resume w (next ++ rest)
        chunks := s.chunks ++ chunk s.system (.act received written)
        retrieved := s.retrieved ++ [] } := by
    rw [hnone, List.append_nil, List.append_nil]
    exact h.of_input (congrArg Prod.fst hsame) (congrArg Prod.snd hsame)
  by_cases hread : a = .callback .readCallback_
  · subst hread
    have hhandled : s.system.world.handleRead alloc received = some (w, next) := hact
    obtain ⟨hdata, hempty⟩ := World.input_handleRead hhandled
    by_cases hbytes : ∃ bytes, received = .data bytes ∧ bytes ≠ []
    · obtain ⟨bytes, rfl, hsome⟩ := hbytes
      have hinput := hdata bytes rfl hsome
      have hchunk : chunk s.system (.act (.data bytes) written) = [bytes] := by simp [chunk, htodo, hsome]
      have hcontents : (s.system.resume w (next ++ rest)).conn.inputBuffer_.contents =
          s.system.conn.inputBuffer_.contents ++ bytes := congrArg Prod.fst hinput
      rw [hchunk, List.append_nil]
      refine ⟨?_, ?_⟩
      · rw [hcontents, List.flatten_append, h.stream, List.flatten_singleton, List.append_assoc]
      · rw [List.length_append, ← h.called]
        exact congrArg Prod.snd hinput
    · refine hnothing (hempty fun bytes hsame => ?_) ?_
      · by_contra hsome
        exact hbytes ⟨bytes, hsame, hsome⟩
      · cases received with
        | data bytes =>
          have hnone : bytes = [] := by
            by_contra hsome
            exact hbytes ⟨bytes, rfl, hsome⟩
          simp [chunk, hnone]
        | error errno => rfl
  · refine hnothing (World.input_act hact hread) ?_
    cases received with
    | data bytes => simp [chunk, htodo, hread]
    | error errno => rfl

/-- Every step of the connection and of everybody else keeps the input intact. -/
theorem Intact.step [DecidableEq T] {alloc : Nat → Bool} {sameLoop : Bool} {s t : Reading T} {i : Input T}
    (h : s.Intact) (hstep : s.step alloc sameLoop i = some t) : t.Intact := by
  obtain ⟨system, hsystem, rfl⟩ := Option.map_eq_some_iff.mp hstep
  have hkept (hchunk : chunk s.system i = []) (htaken : taken s.system i = [])
      (hcontents : system.conn.inputBuffer_.contents = s.system.conn.inputBuffer_.contents)
      (hcount : system.log.count .messageCallback_ = s.system.log.count .messageCallback_) :
      Intact { system, chunks := s.chunks ++ chunk s.system i, retrieved := s.retrieved ++ taken s.system i } := by
    rw [hchunk, htaken, List.append_nil, List.append_nil]
    exact h.of_input hcontents hcount
  cases System.stepped hsystem with
  | advance a revents thread =>
    refine hkept rfl rfl ?_ rfl
    simp only [System.polled]
    split <;> rfl
  | removeConnection received written rest htodo =>
    refine hkept ?_ rfl ?_ ?_
    · cases received <;> simp [chunk, htodo]
    all_goals
      unfold System.removeConnection
      split <;> rfl
  | act received written a rest w next htodo hact => exact h.act htodo hact
  | ownCall call =>
    have hinput := World.input_ownCall s.system.world call
    exact hkept rfl rfl (congrArg Prod.fst hinput) (congrArg Prod.snd hinput)
  | ownRetrieve len =>
    refine ⟨?_, ?_⟩
    · simp only [chunk, taken, List.append_nil, List.append_assoc, CheckedBuffer.contents_retrieve,
        List.take_append_drop]
      exact h.stream
    · simpa [chunk] using h.called
  | load caller call =>
    refine hkept rfl rfl ?_ ?_
    all_goals
      unfold System.load
      cases call <;> split <;> simp [List.count_append]
  | store caller =>
    refine hkept rfl rfl rfl ?_
    simp [System.store, List.count_append]
  | ownQueue | userReturns | push | queueOther | quit | removeConnectionInLoop | sweepHere | sweepThere =>
    exact hkept rfl rfl rfl rfl

end Reading

def reading (T : Type) [DecidableEq T] (alloc : Nat → Bool) (sameLoop : Bool) :
    Machine (Reading T) (Input T) where
  step := Reading.step alloc sameLoop

/-- The input of a connection is intact. In every run of a connection among other threads,
whatever `readv` answers in however many parts, what was received is, byte for byte and in
order, what user code has taken out of `inputBuffer_` followed by what is still in it, and
the message callback was called exactly once for each part that was not empty. -/
theorem input_stream_intact {T : Type} [DecidableEq T] {alloc : Nat → Bool} {sameLoop : Bool} {s₀ : System T}
    {s : Reading T} (hempty : s₀.conn.inputBuffer_.contents = []) (hlog : .messageCallback_ ∉ s₀.log)
    (hrun : (reading T alloc sameLoop).Steps Machine.Any (.start s₀) s) :
    s.chunks.flatten = s.retrieved ++ s.system.conn.inputBuffer_.contents ∧
    s.system.log.count .messageCallback_ = s.chunks.length := by
  obtain ⟨hstream, hcalled⟩ := hrun.invariant (P := Reading.Intact) (fun _ _ _ h _ hstep => h.step hstep)
    ⟨by simp [Reading.start, hempty], List.count_eq_zero.mpr hlog⟩
  exact ⟨hstream, hcalled⟩

/-- Three bytes come in, of which user code takes two, and another one, with which user code
takes the rest. -/
def readInParts : List (Input Unit) :=
  [.userReturns, .advance .returned 0] ++ dispatchNext [.channel .connection] EPOLLIN ++
    [.act (.data [1, 2, 3]) (.bytes 0), .ownRetrieve 2, .userReturns, .advance .handled 0,
      .advance .beginFunctors 0, .advance .swap 0] ++ dispatchNext [.channel .connection] EPOLLIN ++
    [.act (.data [4]) (.bytes 0), .ownRetrieve 9]

theorem input_stream_intact_inParts :
    ∃ s, (reading Unit (fun _ => true) false).run (.start justEstablished) readInParts = some s ∧
      s.chunks.flatten = s.retrieved ++ s.system.conn.inputBuffer_.contents ∧
      s.system.log.count .messageCallback_ = s.chunks.length := by
  have hruns : ((reading Unit (fun _ => true) false).run (.start justEstablished) readInParts).isSome = true := by
    decide +kernel
  obtain ⟨s, hrun⟩ := Option.isSome_iff_exists.mp hruns
  exact ⟨s, hrun, input_stream_intact (by decide +kernel) (by decide +kernel)
    (Machine.steps_of_run hrun (Machine.along_of_forall (fun _ _ _ => trivial) _))⟩

end muduo.tcp_connection
