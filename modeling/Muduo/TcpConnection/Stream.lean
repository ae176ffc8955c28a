import Muduo.TcpConnection.Effects
import Muduo.Library.Record
import Muduo.Library.Transition

open transition record
open muduo.kernel muduo.buffer muduo.epoll

namespace muduo.tcp_connection

/-- The bytes that the kernel accepts by an event. -/
def Event.taken : Event → List UInt8
  | .write data written => data.take written.taken
  | _ => []

/-- The payload that an event hands to the connection's own thread. -/
def Event.submitted : Event → List UInt8
  | .sendInLoop data => data.chars
  | _ => []

/-- The payload of a call of `send` that found the connection connected. -/
def Event.accepted : Event → List UInt8
  | .send data => data.chars
  | _ => []

def taken (log : List Event) : List UInt8 := log.flatMap Event.taken

def submitted (log : List Event) : List UInt8 := log.flatMap Event.submitted

def accepted (log : List Event) : List UInt8 := log.flatMap Event.accepted

/-- A projection of the record to which queueing, buffering and changes of interest
do not show. -/
structure Ignores {B : Type} (f : Event → List B) : Prop where
  queueInLoop : ∀ functor, f (.queueInLoop functor) = []
  append : ∀ data, f (.append data) = []
  update : ∀ events_, f (.update events_) = []

theorem taken_ignores : Ignores Event.taken := ⟨fun _ => rfl, fun _ => rfl, fun _ => rfl⟩

theorem submitted_ignores : Ignores Event.submitted := ⟨fun _ => rfl, fun _ => rfl, fun _ => rfl⟩

theorem accepted_ignores : Ignores Event.accepted := ⟨fun _ => rfl, fun _ => rfl, fun _ => rfl⟩

/-- The calls of `shutdownWrite`. -/
def Event.shut : Event → List Unit
  | .shutdownWrite => [()]
  | _ => []

theorem shut_ignores : Ignores Event.shut := ⟨fun _ => rfl, fun _ => rfl, fun _ => rfl⟩

namespace World

variable {B : Type} {f : Event → List B}

theorem flatMap_writeCompleted (hf : Ignores f) (w : World) :
    w.writeCompleted.log.flatMap f = w.log.flatMap f := by
  unfold writeCompleted
  split
  · simp [hf.queueInLoop]
  · rfl

theorem flatMap_highWater (hf : Ignores f) (w : World) (len : Nat) :
    (w.highWater len).log.flatMap f = w.log.flatMap f := by
  simp only [highWater]
  split
  · simp [hf.queueInLoop]
  · rfl

theorem flatMap_watchWriting (hf : Ignores f) (w : World) :
    w.watchWriting.log.flatMap f = w.log.flatMap f := by
  unfold watchWriting
  split
  · rfl
  · simp [hf.update]

@[simp] theorem outputBuffer_watchWriting (w : World) :
    w.watchWriting.conn.outputBuffer_ = w.conn.outputBuffer_ := by
  unfold watchWriting
  split
  · rfl
  · simp

theorem isWriting_perform (w : World) (op : ChannelOp) :
    (w.perform op).conn.channel_.isWriting = (op.mask w.conn.channel_.events_).meets kWriteEvent := by
  simp [Channel.isWriting]

theorem isWriting_watchWriting (w : World) : w.watchWriting.conn.channel_.isWriting = true := by
  unfold watchWriting
  split
  · next hwriting => exact hwriting
  · rw [isWriting_perform]
    exact mask_enableWriting_meets _

/-- Keeping the rest of a payload appends it to the backlog and watches for room,
unless nothing is left. -/
theorem keep_spec {alloc : Nat → Bool} {w w' : World} {rest : List UInt8} (hlen : rest.length ≤ maxSize)
    (h : w.keep alloc rest = some w') :
    w'.conn.outputBuffer_.contents = w.conn.outputBuffer_.contents ++ rest ∧
    w'.conn.channel_.isWriting = (w.conn.channel_.isWriting || decide (0 < rest.length)) ∧
    (∀ {B : Type} {f : Event → List B}, Ignores f → w'.log.flatMap f = w.log.flatMap f) := by
  rcases keep_cases h with ⟨rfl, rfl⟩ | ⟨hrest, outputBuffer_, happend, rfl⟩
  · simp
  · refine ⟨?_, ?_, ?_⟩
    · have hcontents := CheckedBuffer.contents_append hlen happend
      simpa using hcontents
    · rw [isWriting_watchWriting]
      simp [hrest]
    · intro B f hf
      rw [flatMap_watchWriting hf, log_emit, List.flatMap_append]
      simp [hf.append, flatMap_highWater hf]

/-- What `writeDirectly` records. -/
theorem flatMap_writeDirectly (hf : Ignores f) (w : World) (data : List UInt8) (written : Written) :
    (w.writeDirectly data written).log.flatMap f = w.log.flatMap f ++ f (.write data written) := by
  simp only [writeDirectly]
  split
  · rw [flatMap_writeCompleted hf]
    simp
  · simp

end World

/-- The channel watches for room exactly as long as there is a backlog. -/
def World.Watching (w : World) : Prop :=
  w.conn.channel_.isWriting = true ↔ w.conn.outputBuffer_.contents ≠ []

namespace World.Watching

variable {alloc : Nat → Bool} {w w' : World}

theorem contents_eq_nil (h : w.Watching) (hwriting : w.conn.channel_.isWriting = false) :
    w.conn.outputBuffer_.contents = [] := by
  by_contra hcontents
  rw [h.mpr hcontents] at hwriting
  cases hwriting

theorem keep {rest : List UInt8} (h : w.Watching) (hlen : rest.length ≤ maxSize)
    (hkeep : w.keep alloc rest = some w') : w'.Watching := by
  obtain ⟨hcontents, hwriting, _⟩ := World.keep_spec hlen hkeep
  have hbefore : w.conn.channel_.isWriting = true ↔ w.conn.outputBuffer_.contents ≠ [] := h
  unfold Watching
  rw [hwriting, hcontents, Bool.or_eq_true, decide_eq_true_eq, hbefore]
  constructor
  · rintro (hbacklog | hrest)
    · exact fun hnil => hbacklog (List.append_eq_nil_iff.mp hnil).1
    · intro hnil
      rw [(List.append_eq_nil_iff.mp hnil).2] at hrest
      exact absurd hrest (by simp)
  · intro hne
    by_cases hbacklog : w.conn.outputBuffer_.contents = []
    · right
      rw [hbacklog, List.nil_append] at hne
      exact List.length_pos_iff.mpr hne
    · exact .inl hbacklog

end World.Watching

/-- What is left of a payload is no longer than a string can be. -/
theorem length_drop_le (data : Text) (n : Nat) : (data.chars.drop n).length ≤ maxSize := by
  rw [List.length_drop]
  exact Nat.le_trans (Nat.sub_le _ _) data.length_le

/-- Sending records the payload, at most one direct `write` of it, and what the
rest of it leads to. -/
theorem World.flatMap_sendInLoop {B : Type} {f : Event → List B} (hf : Ignores f) {alloc : Nat → Bool}
    {w w' : World} {data : Text} {written : Written} (h : w.sendInLoop alloc data written = some w') :
    w'.log.flatMap f = w.log.flatMap f ++ f (.sendInLoop data) ++
      if w.conn.channel_.isWriting = false ∧ w.conn.outputBuffer_.readableBytes = 0 then
        f (.write data.chars written) else [] := by
  rcases World.sendInLoop_cases h with ⟨hdirect, _, ⟨_, rfl⟩ | ⟨_, hkeep⟩⟩ | ⟨hdirect, hkeep⟩
  · rw [if_pos hdirect, World.flatMap_writeDirectly hf]
    simp
  · rw [if_pos hdirect, (World.keep_spec (length_drop_le data _) hkeep).2.2 hf, World.flatMap_writeDirectly hf]
    simp
  · rw [if_neg hdirect, (World.keep_spec data.length_le hkeep).2.2 hf]
    simp

/-- Dispatching `EPOLLOUT` records at most one `write`, of the whole backlog. -/
theorem World.flatMap_handleWrite {B : Type} {f : Event → List B} (hf : Ignores f) {w w' : World}
    {written : Written} {next : List Act} (h : w.handleWrite written = some (w', next)) :
    w'.log.flatMap f = w.log.flatMap f ++
      if w.conn.channel_.isWriting then f (.write w.conn.outputBuffer_.contents written) else [] := by
  rcases World.handleWrite_cases h with ⟨hidle, _, rfl⟩ | ⟨hwriting, ⟨_, _, rfl⟩ | hwrote⟩
  · simp [hidle]
  · simp [hwriting]
  · rw [if_pos hwriting]
    rcases World.wrote_cases hwrote with ⟨_, _, rfl⟩ | ⟨_, _, rfl⟩
    · simp [World.flatMap_writeCompleted hf, hf.update]
    · simp

/-- A projection of the record to the bytes that the kernel accepts, among which are
those that `write` takes. -/
structure Takes (f : Event → List UInt8) : Prop extends Ignores f where
  sendInLoop : ∀ data, f (.sendInLoop data) = []
  write : ∀ data written, f (.write data written) = data.take written.taken

theorem taken_takes : Takes Event.taken := ⟨taken_ignores, fun _ => rfl, fun _ _ => rfl⟩

/-- Sending puts its payload behind what the kernel has accepted and the backlog,
unless its direct write fails for good. -/
theorem World.stream_sendInLoop {f : Event → List UInt8} (hf : Takes f) {alloc : Nat → Bool} {w w' : World}
    {data : Text} {written : Written} (hwatching : w.Watching) (hfatal : written.isFatal = false)
    (h : w.sendInLoop alloc data written = some w') :
    w'.Watching ∧ w'.log.flatMap f ++ w'.conn.outputBuffer_.contents =
      w.log.flatMap f ++ w.conn.outputBuffer_.contents ++ data.chars := by
  have hlog := World.flatMap_sendInLoop hf.toIgnores h
  rw [hf.sendInLoop, hf.write, List.append_nil] at hlog
  rcases World.sendInLoop_cases h with ⟨hdirect, _, ⟨hfails, _⟩ | ⟨_, hkeep⟩⟩ | ⟨hdirect, hkeep⟩
  · rw [hfatal] at hfails
    cases hfails
  · have hempty := hwatching.contents_eq_nil hdirect.1
    have hlen := length_drop_le data written.taken
    refine ⟨Watching.keep (by simpa [Watching] using hwatching) hlen hkeep, ?_⟩
    rw [if_pos hdirect] at hlog
    rw [(World.keep_spec hlen hkeep).1, hlog]
    simp [hempty]
  · refine ⟨Watching.keep (by simpa [Watching] using hwatching) data.length_le hkeep, ?_⟩
    rw [if_neg hdirect, List.append_nil] at hlog
    rw [(World.keep_spec data.length_le hkeep).1, hlog]
    simp

/-- Dispatching `EPOLLOUT` moves bytes from the backlog to the kernel, and finishes
the call only when the backlog has drained. -/
theorem World.stream_handleWrite {f : Event → List UInt8} (hf : Takes f) {w w' : World} {written : Written}
    {next : List Act} (hwatching : w.Watching) (h : w.handleWrite written = some (w', next)) :
    w'.Watching ∧
    w'.log.flatMap f ++ w'.conn.outputBuffer_.contents = w.log.flatMap f ++ w.conn.outputBuffer_.contents ∧
    (.drained ∈ next → w'.conn.channel_.isWriting = false) := by
  have hlog := World.flatMap_handleWrite hf.toIgnores h
  rw [hf.write] at hlog
  rcases World.handleWrite_cases h with ⟨_, rfl, rfl⟩ | ⟨hwriting, ⟨hzero, rfl, rfl⟩ | hwrote⟩
  · exact ⟨hwatching, rfl, by simp⟩
  · rw [if_pos hwriting, hzero, List.take_zero, List.append_nil] at hlog
    refine ⟨hwatching, ?_, by simp⟩
    rw [hlog]
    rfl
  · rw [if_pos hwriting] at hlog
    have hcontents : w'.conn.outputBuffer_.contents = w.conn.outputBuffer_.contents.drop written.taken := by
      rcases World.wrote_cases hwrote with ⟨_, _, rfl⟩ | ⟨_, _, rfl⟩ <;> simp
    have hstream : w'.log.flatMap f ++ w'.conn.outputBuffer_.contents =
        w.log.flatMap f ++ w.conn.outputBuffer_.contents := by
      rw [hlog, hcontents, List.append_assoc, List.take_append_drop]
    have hempty : (w.conn.outputBuffer_.retrieve written.taken).readableBytes = 0 ↔
        w'.conn.outputBuffer_.contents = [] := by
      rw [hcontents, ← CheckedBuffer.contents_retrieve, CheckedBuffer.readableBytes_eq_zero_iff]
    rcases World.wrote_cases hwrote with ⟨hdrained, _, heq⟩ | ⟨hleft, rfl, heq⟩
    · have hoff : w'.conn.channel_.isWriting = false := by
        rw [heq, World.conn_writeCompleted, World.isWriting_perform]
        exact mask_disableWriting_meets _
      refine ⟨?_, hstream, fun _ => hoff⟩
      unfold Watching
      rw [hoff, hempty.mp hdrained]
      simp
    · have hkept : w'.conn.outputBuffer_.contents ≠ [] := fun hnil => hleft (hempty.mpr hnil)
      have hon : w'.conn.channel_.isWriting = true := by
        rw [heq]
        exact hwriting
      exact ⟨⟨fun _ => hkept, fun _ => hon⟩, hstream, by simp⟩

/-- The kernel has taken, and the backlog holds, exactly what was submitted behind
the first backlog, and the channel watches for room as long as there is a backlog. -/
structure Streaming (first : List UInt8) (w : World) : Prop where
  stream : taken w.log ++ w.conn.outputBuffer_.contents = first ++ submitted w.log
  isWriting_iff : w.conn.channel_.isWriting = true ↔ w.conn.outputBuffer_.contents ≠ []

namespace Streaming

variable {first : List UInt8} {alloc : Nat → Bool} {w w' : World}

theorem watching (h : Streaming first w) : w.Watching := h.isWriting_iff

/-- The stream only depends on the backlog, the interest in writing and the record. -/
theorem of_eq (h : Streaming first w)
    (hcontents : w'.conn.outputBuffer_.contents = w.conn.outputBuffer_.contents)
    (hwriting : w'.conn.channel_.isWriting = w.conn.channel_.isWriting)
    (htaken : taken w'.log = taken w.log) (hsubmitted : submitted w'.log = submitted w.log) :
    Streaming first w' := by
  refine ⟨?_, ?_⟩
  · rw [hcontents, htaken, hsubmitted]
    exact h.stream
  · rw [hcontents, hwriting]
    exact h.isWriting_iff

/-- Without a backlog the kernel has taken everything. -/
theorem taken_eq (h : Streaming first w) (hwriting : w.conn.channel_.isWriting = false) :
    taken w.log = first ++ submitted w.log := by
  rw [← h.stream, h.watching.contents_eq_nil hwriting, List.append_nil]

/-- Sending keeps the stream, unless its direct write fails for good. -/
theorem sendInLoop {data : Text} {written : Written} (h : Streaming first w)
    (hfatal : written.isFatal = false) (hsend : w.sendInLoop alloc data written = some w') :
    Streaming first w' := by
  obtain ⟨hwatching, hstream⟩ := World.stream_sendInLoop taken_takes h.watching hfatal hsend
  have hsubmitted : submitted w'.log = submitted w.log ++ data.chars := by
    rw [submitted, World.flatMap_sendInLoop submitted_ignores hsend]
    simp [submitted, Event.submitted]
  refine ⟨?_, hwatching⟩
  rw [taken, hstream, hsubmitted, ← List.append_assoc, ← h.stream]
  rfl

/-- Dispatching `EPOLLOUT` keeps the stream, and finishes the call only when the
backlog has drained. -/
theorem handleWrite {written : Written} {next : List Act} (h : Streaming first w)
    (hwrite : w.handleWrite written = some (w', next)) :
    Streaming first w' ∧ (.drained ∈ next → w'.conn.channel_.isWriting = false) := by
  obtain ⟨hwatching, hstream, hdrained⟩ := World.stream_handleWrite taken_takes h.watching hwrite
  have hsubmitted : submitted w'.log = submitted w.log := by
    rw [submitted, World.flatMap_handleWrite submitted_ignores hwrite]
    split <;> exact List.append_nil _
  refine ⟨⟨?_, hwatching⟩, hdrained⟩
  rw [taken, hstream, hsubmitted, ← h.stream]
  rfl

end Streaming

/-- A projection that does not see `write` either only sees the payload of a call. -/
theorem World.flatMap_sendInLoop_of_write {B : Type} {f : Event → List B} (hf : Ignores f)
    (hwrite : ∀ data written, f (.write data written) = []) {alloc : Nat → Bool} {w w' : World} {data : Text}
    {written : Written} (h : w.sendInLoop alloc data written = some w') :
    w'.log.flatMap f = w.log.flatMap f ++ f (.sendInLoop data) := by
  rw [World.flatMap_sendInLoop hf h, hwrite, ite_self, List.append_nil]

theorem World.flatMap_handleWrite_of_write {B : Type} {f : Event → List B} (hf : Ignores f)
    (hwrite : ∀ data written, f (.write data written) = []) {w w' : World} {written : Written}
    {next : List Act} (h : w.handleWrite written = some (w', next)) :
    w'.log.flatMap f = w.log.flatMap f := by
  rw [World.flatMap_handleWrite hf h, hwrite, ite_self, List.append_nil]

/-- Whenever `shutdownWrite` was called, the kernel had taken the first backlog and
everything that had been accepted. -/
def Flushed (first : List UInt8) (log : List Event) : Prop :=
  Whenever .shutdownWrite (fun before => taken before = first ++ accepted before) log

theorem shutdownWrite_notMem {log log' more : List Event} (hlog : log' = log ++ more)
    (hshut : log'.flatMap Event.shut = log.flatMap Event.shut) : .shutdownWrite ∉ more := by
  rw [hlog, List.flatMap_append, List.append_right_eq_self, List.flatMap_eq_nil_iff] at hshut
  intro hmem
  have hnil := hshut _ hmem
  cases hnil

/-- Moving output without a call of `shutdownWrite`. -/
theorem Flushed.of_transfers {first : List UInt8} {w w' : World} (h : Flushed first w.log)
    (htransfers : Transfers w w') (hshut : w'.log.flatMap Event.shut = w.log.flatMap Event.shut) :
    Flushed first w'.log := by
  obtain ⟨events, hlog, _⟩ := htransfers.log
  have habsent := shutdownWrite_notMem hlog hshut
  rw [hlog]
  exact h.append habsent

theorem Streaming.shutdownInLoop {first : List UInt8} {w : World} (h : Streaming first w) :
    Streaming first w.shutdownInLoop := by
  unfold World.shutdownInLoop
  split
  · exact h
  · refine h.of_eq rfl rfl ?_ ?_
    · simp [taken, Event.taken]
    · simp [submitted, Event.submitted]

/-- The write side is only shut when nothing is left to write, so all is well if
everything accepted has been submitted. -/
theorem Flushed.shutdownInLoop {first : List UInt8} {w : World} (h : Flushed first w.log)
    (hstreaming : Streaming first w) (haccepted : accepted w.log = submitted w.log) :
    Flushed first w.shutdownInLoop.log := by
  unfold World.shutdownInLoop
  split
  · exact h
  · next hwriting =>
    apply h.snoc
    intro _
    rw [hstreaming.taken_eq (by simpa using hwriting), haccepted]

/-- A call of `shutdownInLoop` submits and accepts nothing. -/
theorem flatMap_shutdownInLoop {B : Type} {f : Event → List B} (hf : f .shutdownWrite = []) (w : World) :
    w.shutdownInLoop.log.flatMap f = w.log.flatMap f := by
  unfold World.shutdownInLoop
  split
  · rfl
  · simp [hf]

end muduo.tcp_connection
