import Muduo.TcpConnection.Output

open transition record
open muduo.kernel muduo.buffer muduo.epoll

namespace muduo.tcp_connection

/-- A range of a file, of which `file` gives the contents by its descriptor. -/
def range (file : Nat → Text) (fileDescriptor : Nat) (offset : Int) (count : Nat) : List UInt8 :=
  ((file fileDescriptor).chars.drop offset.toNat).take count

/-- The bytes that the socket accepts by an event, from memory or from a file. -/
def Event.sent (file : Nat → Text) : Event → List UInt8
  | .write data written => data.take written.taken
  | .sendfile fileDescriptor offset count written => (range file fileDescriptor offset count).take written.taken
  | _ => []

def sent (file : Nat → Text) (log : List Event) : List UInt8 := log.flatMap (Event.sent file)

/-- The bytes that a queued functor is still to send. -/
def Functor.owed (file : Nat → Text) : Functor → List UInt8
  | .sendFileInLoop fileDescriptor offset count => range file fileDescriptor offset count
  | _ => []

def Functor.isFile : Functor → Bool
  | .sendFileInLoop _ _ _ => true
  | _ => false

/-- The range that a functor is to send lies inside its file. -/
def Functor.Inside (file : Nat → Text) : Functor → Prop
  | .sendFileInLoop fileDescriptor offset count =>
    0 ≤ offset ∧ offset + count ≤ (file fileDescriptor).chars.length
  | _ => True

instance (file : Nat → Text) : ∀ functor : Functor, Decidable (functor.Inside file)
  | .sendFileInLoop fileDescriptor offset count =>
    inferInstanceAs (Decidable (0 ≤ offset ∧ offset + count ≤ (file fileDescriptor).chars.length))
  | .connectEstablished => inferInstanceAs (Decidable True)
  | .connectDestroyed => inferInstanceAs (Decidable True)
  | .sendInLoop _ => inferInstanceAs (Decidable True)
  | .shutdownInLoop => inferInstanceAs (Decidable True)
  | .writeCompleteCallback_ => inferInstanceAs (Decidable True)
  | .highWaterMarkCallback_ _ => inferInstanceAs (Decidable True)

namespace World

/-- The test with which `sendInLoop` and `sendFileInLoop` decide to call the kernel at
once, and how many bytes it then takes. -/
def moves (w : World) (written : Written) : Nat :=
  if w.conn.channel_.isWriting = false ∧ w.conn.outputBuffer_.readableBytes = 0 then written.taken else 0

/-- Queue the functors that a call or a functor leaves. What user code does in its
turn are calls of their own. -/
def leave (w : World) : List Act → World
  | [] => w
  | .queue functor :: rest => (w.queueInLoop functor).leave rest
  | _ :: rest => w.leave rest

end World

def Act.leavesFile : Act → Bool
  | .queue functor => functor.isFile
  | _ => false

/-- The output of a connection on its own loop with the functors that the loop has
taken and not yet run; those still pending are the queued ones of the world. `again`
says that a functor of the running batch has queued the rest of its file, `late` that
a call of `sendFile` has done so since the loop took that batch. `asked` is what the
calls have asked to send, in their order. -/
structure Sharing where
  world : World
  waiting : List Functor
  again : Bool
  late : Bool
  asked : List UInt8

/-- Calls of user code, dispatches of `EPOLLOUT`, and the loop's work on its functors. -/
inductive Share where
  | send (buf : Text) (written : Written)
  | sendFile (fileDescriptor : Nat) (offset : Int) (count : Nat) (written : Written)
  | handleWrite (written : Written)
  | swap
  | functor (written : Written)

namespace Sharing

def start (conn : TcpConnection) (poller : EPollPoller) : Sharing where
  world := established conn poller
  waiting := []
  again := false
  late := false
  asked := []

def step (alloc : Nat → Bool) (file : Nat → Text) (s : Sharing) : Share → Option Sharing
  | .send buf written =>
    (World.complete alloc written (s.world.ownCall (.send buf))).map fun world =>
      { s with world, asked := s.asked ++ buf.chars }
  | .sendFile fileDescriptor offset count written =>
    match s.world.ownCall (.sendFile fileDescriptor offset count) with
    | (w, [.call functor]) =>
      (w.call alloc written functor).map fun (w, next) =>
        { s with
          world := w.leave next
          late := s.late || next.any Act.leavesFile
          asked := s.asked ++ range file fileDescriptor offset count }
    | (world, _) => some { s with world }
  | .handleWrite written =>
    if s.waiting = [] then
      ((s.world.handleWrite written).bind (World.complete alloc written)).map fun world => { s with world }
    else none
  | .swap =>
    if s.waiting = [] then
      some { s with
        world := { s.world with queued := [] }
        waiting := s.world.queued
        again := false
        late := false }
    else none
  | .functor written =>
    match s.waiting with
    | [] => none
    | functor :: waiting =>
      (s.world.call alloc written functor).map fun (w, next) =>
        { s with world := w.leave next, waiting, again := s.again || next.any Act.leavesFile }

/-- Some `sendFile` is unfinished: its functor is pending or in the running batch. -/
def unfinished (s : Sharing) : Bool := s.world.queued.any Functor.isFile || s.waiting.any Functor.isFile

/-- Whether a step keeps the order of the calls. A payload must find no unfinished
`sendFile`, and neither must a `sendFile` of which bytes are taken at once. A functor
must not take bytes behind a file that the running batch has queued again, nor queue
the rest of its own file behind one that was called for since. -/
def inTurn (s : Sharing) : Share → Bool
  | .send buf _ => buf.chars.isEmpty || !s.unfinished
  | .sendFile _ _ _ written => s.world.moves written == 0 || !s.unfinished
  | .functor written =>
    match s.waiting with
    | .sendFileInLoop _ _ count :: _ =>
      (s.world.moves written == 0 || !s.again) && (decide (count ≤ s.world.moves written) || !s.late)
    | _ => true
  | .handleWrite _ => true
  | .swap => true

end Sharing

/-- The calls of `send` and `sendFile` on the connection's own loop, between which
nobody closes the connection. -/
def sharing (alloc : Nat → Bool) (file : Nat → Text) : Machine Sharing Share where
  step := Sharing.step alloc file

/-- No write finds a dead peer, and every range lies inside its file. -/
def Share.Sound (file : Nat → Text) : Share → Prop
  | .send _ written => written.isFatal = false
  | .sendFile fileDescriptor offset count written =>
    written.isFatal = false ∧ (Functor.sendFileInLoop fileDescriptor offset count).Inside file
  | .functor written => written.isFatal = false
  | .handleWrite _ => True
  | .swap => True

instance (file : Nat → Text) : ∀ i : Share, Decidable (i.Sound file)
  | .send _ written => inferInstanceAs (Decidable (written.isFatal = false))
  | .sendFile fileDescriptor offset count written => inferInstanceAs (Decidable (written.isFatal = false ∧
      (Functor.sendFileInLoop fileDescriptor offset count).Inside file))
  | .functor written => inferInstanceAs (Decidable (written.isFatal = false))
  | .handleWrite _ => inferInstanceAs (Decidable True)
  | .swap => inferInstanceAs (Decidable True)

/-- A callback that is due calls user code, and changes nothing itself. -/
theorem called_notice {alloc : Nat → Bool} {w w' : World} {written : Written} {functor : Functor} {next : List Act}
    (hnotice : functor.isNotice = true) (hcalled : w.call alloc written functor = some (w', next)) :
    w' = w ∧ next = [.user] := by
  cases functor with
  | writeCompleteCallback_ | highWaterMarkCallback_ =>
    cases hcalled
    exact ⟨rfl, rfl⟩
  | _ => cases hnotice

theorem sent_takes (file : Nat → Text) : Takes (Event.sent file) :=
  ⟨⟨fun _ => rfl, fun _ => rfl, fun _ => rfl⟩, fun _ => rfl, fun _ _ => rfl⟩

/-- A range without its first bytes is the range behind them. -/
theorem drop_range (file : Nat → Text) (fileDescriptor : Nat) {offset : Int} (hoffset : 0 ≤ offset)
    (count n : Nat) :
    (range file fileDescriptor offset count).drop n = range file fileDescriptor (offset + n) (count - n) := by
  have hoffset' : (offset + n).toNat = offset.toNat + n := by omega
  rw [range, range, List.drop_take, List.drop_drop, hoffset']

theorem length_range {file : Nat → Text} {fileDescriptor : Nat} {offset : Int} {count : Nat}
    (hinside : (Functor.sendFileInLoop fileDescriptor offset count).Inside file) :
    (range file fileDescriptor offset count).length = count := by
  obtain ⟨hoffset, hcount⟩ := hinside
  rw [range, List.length_take, List.length_drop]
  omega

/-- A byte count inside of a file is a valid `ssize_t`. -/
theorem ssize_of_inside {file : Nat → Text} {fileDescriptor : Nat} {offset : Int} {count : Nat}
    (hinside : (Functor.sendFileInLoop fileDescriptor offset count).Inside file) : ssize count = count := by
  obtain ⟨hoffset, hcount⟩ := hinside
  have hlength := (file fileDescriptor).length_le
  rw [ssize, if_pos]
  unfold maxSize at hlength
  omega

namespace World

theorem moves_eq_zero {w : World} {written : Written} (hwatching : w.Watching)
    (hbacklog : w.conn.outputBuffer_.contents ≠ []) : w.moves written = 0 := by
  rw [moves, if_neg]
  rintro ⟨hwriting, _⟩
  exact hbacklog (hwatching.contents_eq_nil hwriting)

/-- What `sendFileInLoop` does in a connection that is not shutting down: the kernel
takes a first part of the range, and another functor is left for the rest. -/
theorem sendFileInLoop_spec {file : Nat → Text} {w w' : World} {fileDescriptor : Nat} {offset : Int}
    {count : Nat} {written : Written} {next : List Act} (hstate : w.conn.state_ ≠ .kDisconnecting)
    (hinside : (Functor.sendFileInLoop fileDescriptor offset count).Inside file)
    (hfatal : written.isFatal = false)
    (h : w.sendFileInLoop fileDescriptor offset count written = some (w', next)) :
    w'.conn = w.conn ∧ w'.queued = w.queued ∧
    sent file w'.log = sent file w.log ++ (range file fileDescriptor offset count).take (w.moves written) ∧
    (count ≤ w.moves written ∧ (next = [] ∨ next = [.queue .writeCompleteCallback_]) ∨
      w.moves written < count ∧ next = [.queue
        (.sendFileInLoop fileDescriptor (offset + (w.moves written : Nat)) (count - w.moves written))]) := by
  have hssize := ssize_of_inside hinside
  have hleft (n : Nat) (hn : n < count) : requeue fileDescriptor (offset + n) (ssize count - n) =
      [.queue (.sendFileInLoop fileDescriptor (offset + n) (count - n))] := by
    rw [requeue, if_pos (by omega), hssize]
    congr 3
    omega
  have hnothing (hzero : count = 0) : requeue fileDescriptor offset (ssize count) = [] := by
    rw [requeue, if_neg (by omega)]
  have hkept : count = 0 ∧ requeue fileDescriptor offset (ssize count) = [] ∨
      0 < count ∧ requeue fileDescriptor offset (ssize count) =
        [.queue (.sendFileInLoop fileDescriptor offset count)] := by
    rcases Nat.eq_zero_or_pos count with hzero | hpos
    · exact .inl ⟨hzero, hnothing hzero⟩
    · refine .inr ⟨hpos, ?_⟩
      simpa using hleft 0 hpos
  cases sendFileInLoop_cases h with
  | down _ hdown => exact absurd hdown hstate
  | busy _ _ hbusy =>
    have hmoves : w.moves written = 0 := if_neg hbusy
    rw [hmoves]
    refine ⟨rfl, rfl, by simp, ?_⟩
    rcases hkept with ⟨hzero, hnext⟩ | ⟨hpos, hnext⟩
    · exact .inl ⟨by omega, .inl hnext⟩
    · exact .inr ⟨hpos, by simpa using hnext⟩
  | bytes n _ hdirect hpossible =>
    have hmoves : w.moves (.bytes n) = n := if_pos hdirect
    rw [hmoves]
    refine ⟨rfl, rfl, by simp [sent, Event.sent, Written.taken], ?_⟩
    rcases Nat.lt_or_eq_of_le hpossible with hlt | rfl
    · refine .inr ⟨hlt, ?_⟩
      rw [if_neg (by omega), List.nil_append]
      exact hleft n hlt
    · refine .inl ⟨Nat.le_refl n, ?_⟩
      have hnone : requeue fileDescriptor (offset + n) (ssize n - n) = [] := by
        rw [requeue, if_neg (by omega)]
      rw [hnone, List.append_nil]
      split
      · exact .inr rfl
      · exact .inl rfl
  | error errno _ hdirect =>
    have hmoves : w.moves (.error errno) = 0 := if_pos hdirect
    rw [hmoves, if_neg (by simp [hfatal])]
    refine ⟨rfl, rfl, by simp [sent, Event.sent, Written.taken], ?_⟩
    rcases hkept with ⟨hzero, hnext⟩ | ⟨hpos, hnext⟩
    · exact .inl ⟨by omega, .inl hnext⟩
    · exact .inr ⟨hpos, by simpa using hnext⟩

end World

/-- What functors are still to send, in their order. -/
def owed (file : Nat → Text) (functors : List Functor) : List UInt8 := functors.flatMap (Functor.owed file)

@[simp] theorem owed_append (file : Nat → Text) (functors others : List Functor) :
    owed file (functors ++ others) = owed file functors ++ owed file others := List.flatMap_append

theorem owed_of_not_isFile {file : Nat → Text} {functors : List Functor}
    (h : functors.any Functor.isFile = false) : owed file functors = [] := by
  rw [owed, List.flatMap_eq_nil_iff]
  intro functor hmem
  rw [List.any_eq_false] at h
  cases functor with
  | sendFileInLoop => exact absurd rfl (h _ hmem)
  | _ => rfl

theorem owed_of_isNotice {file : Nat → Text} {functors : List Functor}
    (h : ∀ functor ∈ functors, functor.isNotice = true) : owed file functors = [] := by
  rw [owed, List.flatMap_eq_nil_iff]
  intro functor hmem
  cases functor with
  | sendFileInLoop => cases h _ hmem
  | _ => rfl

/-- The functors that moving output can leave. -/
inductive Functor.Left (file : Nat → Text) : Functor → Prop where
  | notice (functor : Functor) (hnotice : functor.isNotice = true) : Functor.Left file functor
  | rest (fileDescriptor : Nat) (offset : Int) (count : Nat)
      (hinside : (Functor.sendFileInLoop fileDescriptor offset count).Inside file) :
      Functor.Left file (.sendFileInLoop fileDescriptor offset count)

/-- What is queued behind `sendFileInLoop` is to send the rest of its range. -/
theorem World.leave_sendFileInLoop {file : Nat → Text} {w w' : World} {fileDescriptor : Nat} {offset : Int}
    {count : Nat} {written : Written} {next : List Act} (hstate : w.conn.state_ ≠ .kDisconnecting)
    (hinside : (Functor.sendFileInLoop fileDescriptor offset count).Inside file)
    (hfatal : written.isFatal = false)
    (h : w.sendFileInLoop fileDescriptor offset count written = some (w', next)) :
    (w'.leave next).conn = w.conn ∧
    sent file (w'.leave next).log = sent file w.log ++
      (range file fileDescriptor offset count).take (w.moves written) ∧
    ∃ functors, (w'.leave next).queued = w.queued ++ functors ∧ (∀ functor ∈ functors, functor.Left file) ∧
      owed file functors = (range file fileDescriptor offset count).drop (w.moves written) ∧
      (next.any Act.leavesFile = false → owed file functors = []) := by
  obtain ⟨hconn, hqueued, hsent, ⟨hall, hnext⟩ | ⟨hsome, hnext⟩⟩ :=
    World.sendFileInLoop_spec hstate hinside hfatal h
  · have hdrop : (range file fileDescriptor offset count).drop (w.moves written) = [] := by
      rw [List.drop_eq_nil_iff, length_range hinside]
      exact hall
    rcases hnext with rfl | rfl
    · refine ⟨hconn, hsent, [], ?_, by simp, hdrop.symm, fun _ => rfl⟩
      rw [List.append_nil]
      exact hqueued
    · refine ⟨hconn, ?_, [.writeCompleteCallback_], ?_, ?_, hdrop.symm, fun _ => rfl⟩
      · rw [← hsent]
        simp [leave, sent, Event.sent]
      · simp [leave, hqueued]
      · intro functor hmem
        rw [List.mem_singleton.mp hmem]
        exact .notice _ rfl
  · subst hnext
    obtain ⟨hoffset, hcount⟩ := id hinside
    refine ⟨hconn, ?_, [.sendFileInLoop fileDescriptor (offset + (w.moves written : Nat))
      (count - w.moves written)], ?_, ?_, ?_, ?_⟩
    · rw [← hsent]
      simp [leave, sent, Event.sent]
    · simp [leave, hqueued]
    · intro functor hmem
      rw [List.mem_singleton.mp hmem]
      refine .rest _ _ _ ⟨?_, ?_⟩ <;> omega
    · rw [drop_range file fileDescriptor hoffset]
      simp [owed, Functor.owed]
    · intro hnone
      simp [Act.leavesFile, Functor.isFile] at hnone

namespace Sharing

/-- The pending functors split into those that the running batch has queued again and
those that came later, and what all of them and the backlog hold completes what the
socket has accepted, in the order of the calls. -/
structure Ordered (file : Nat → Text) (s : Sharing) : Prop where
  connected : s.world.conn.state_ = .kConnected
  watching : s.world.Watching
  left : ∀ functor ∈ s.world.queued ++ s.waiting, functor.Left file
  asked : ∃ first later, s.world.queued = first ++ later ∧
    (s.again = false → owed file first = []) ∧ (s.late = false → owed file later = []) ∧
    sent file s.world.log ++ s.world.conn.outputBuffer_.contents ++
      (owed file first ++ owed file s.waiting ++ owed file later) = s.asked

namespace Ordered

variable {alloc : Nat → Bool} {file : Nat → Text} {s s' : Sharing}

theorem start {conn : TcpConnection} (poller : EPollPoller) {addr fd : Nat}
    (hchannel : conn.channel_ = .construct addr fd) (hempty : conn.outputBuffer_.contents = []) :
    Ordered file (Sharing.start conn poller) := by
  have hlog := World.log_connectEstablished { conn, poller, queued := [], log := [] }
  have hconn := World.conn_connectEstablished { conn, poller, queued := [], log := [] }
  have hstream := (OutputInvariant.established poller hchannel hempty).streaming
  refine ⟨?_, hstream.watching, ?_, [], [], rfl, fun _ => rfl, fun _ => rfl, ?_⟩
  · simp only [Sharing.start, established, hconn]
  · have hnone : (Sharing.start conn poller).world.queued ++ (Sharing.start conn poller).waiting = [] := rfl
    intro functor hmem
    rw [hnone] at hmem
    cases hmem
  · simp only [Sharing.start, established, hlog, hconn, hempty]
    rfl

theorem owed_of_finished (h : s.unfinished = false) :
    owed file s.world.queued = [] ∧ owed file s.waiting = [] := by
  obtain ⟨hqueued, hwaiting⟩ := Bool.or_eq_false_iff.mp h
  exact ⟨owed_of_not_isFile hqueued, owed_of_not_isFile hwaiting⟩

/-- A step on the buffered side that queues notices only. A payload that it brings must
find every file finished. -/
theorem of_stream (h : Ordered file s) {w : World} {payload : List UInt8} {functors : List Functor}
    (hstate : w.conn.state_ = s.world.conn.state_) (hwatching : w.Watching)
    (hqueued : w.queued = s.world.queued ++ functors) (hnotices : ∀ functor ∈ functors, functor.isNotice = true)
    (hstream : sent file w.log ++ w.conn.outputBuffer_.contents =
      sent file s.world.log ++ s.world.conn.outputBuffer_.contents ++ payload)
    (hturn : payload = [] ∨ s.unfinished = false) :
    Ordered file { s with world := w, asked := s.asked ++ payload } := by
  obtain ⟨first, later, hsplit, hfirst, hlater, hasked⟩ := h.asked
  have hnone : owed file functors = [] := owed_of_isNotice hnotices
  refine ⟨hstate.trans h.connected, hwatching, ?_, first, later ++ functors, ?_, hfirst, ?_, ?_⟩
  · intro functor hmem
    rw [hqueued, List.append_assoc, List.mem_append, List.mem_append] at hmem
    rcases hmem with hmem | hmem | hmem
    · exact h.left functor (List.mem_append.mpr (.inl hmem))
    · exact .notice functor (hnotices functor hmem)
    · exact h.left functor (List.mem_append.mpr (.inr hmem))
  · rw [hqueued, hsplit, List.append_assoc]
  · intro hlate
    rw [owed_append, hlater hlate, hnone]
    rfl
  · rw [hstream, owed_append, hnone, List.append_nil, ← hasked]
    rcases hturn with rfl | hfinished
    · simp
    · obtain ⟨hpending, hwaiting⟩ : owed file s.world.queued = [] ∧ owed file s.waiting = [] :=
        owed_of_finished hfinished
      rw [hsplit, owed_append] at hpending
      obtain ⟨hfirst, hlater⟩ := List.append_eq_nil_iff.mp hpending
      simp [hfirst, hlater, hwaiting]

theorem send (h : Ordered file s) {buf : Text} {written : Written} (hfatal : written.isFatal = false)
    (hturn : s.inTurn (.send buf written) = true) (hstep : s.step alloc file (.send buf written) = some s') :
    Ordered file s' := by
  have hconnected : s.world.conn.connected = true := by simp [TcpConnection.connected, h.connected]
  simp only [step, World.ownCall, hconnected, if_true, World.complete, World.call, Option.map_map,
    Option.map_eq_some_iff] at hstep
  obtain ⟨w, hsend, rfl⟩ := hstep
  obtain ⟨hwatching, hstream⟩ := World.stream_sendInLoop (sent_takes file) (w := s.world.emit (.send buf))
    h.watching hfatal hsend
  have htransfers := Transfers.sendInLoop hsend
  obtain ⟨functors, hqueued, hnotices⟩ := htransfers.queued
  change Ordered file { s with world := w, asked := s.asked ++ buf.chars }
  refine h.of_stream htransfers.state_eq hwatching hqueued hnotices ?_ ?_
  · rw [sent, hstream]
    simp [sent, Event.sent]
  · simpa [inTurn] using hturn

theorem handleWrite (h : Ordered file s) {written : Written}
    (hstep : s.step alloc file (.handleWrite written) = some s') : Ordered file s' := by
  simp only [step] at hstep
  split at hstep
  · simp only [Option.map_eq_some_iff, Option.bind_eq_some_iff] at hstep
    obtain ⟨w, ⟨⟨wrote, next⟩, hwrite, hcomplete⟩, rfl⟩ := hstep
    obtain ⟨hwatching, hstream, _⟩ := World.stream_handleWrite (sent_takes file) h.watching hwrite
    have htransfers := Transfers.handleWrite hwrite
    have hdone : w = wrote := by
      rcases World.next_handleWrite hwrite with hnext | hnext
      · subst hnext
        cases hcomplete
        rfl
      · subst hnext
        cases hcomplete
        rw [World.drained, if_neg]
        rw [htransfers.state_eq, h.connected]
        decide
    obtain ⟨functors, hqueued, hnotices⟩ := htransfers.queued
    have hordered : Ordered file { s with world := wrote, asked := s.asked ++ [] } := by
      refine h.of_stream htransfers.state_eq hwatching hqueued hnotices ?_ (.inl rfl)
      rw [List.append_nil]
      exact hstream
    rw [List.append_nil] at hordered
    rw [hdone]
    exact hordered
  · cases hstep

theorem swap (h : Ordered file s) (hstep : s.step alloc file .swap = some s') : Ordered file s' := by
  simp only [step] at hstep
  split at hstep
  · next hwaiting =>
    cases hstep
    obtain ⟨first, later, hsplit, _, _, hasked⟩ := h.asked
    refine ⟨h.connected, h.watching, ?_, [], [], rfl, fun _ => rfl, fun _ => rfl, ?_⟩
    · intro functor hmem
      exact h.left functor (List.mem_append.mpr (.inl (by simpa using hmem)))
    · rw [← hasked, hsplit, hwaiting]
      simp [owed]
  · cases hstep

/-- Bytes that the kernel takes of a range move in front of the rest, when nothing is
left before them. -/
theorem stream_moves {w w' : World} {fileDescriptor : Nat} {offset : Int} {count : Nat} {written : Written}
    {before : List UInt8} (hwatching : w.Watching) (hconn : w'.conn = w.conn)
    (hsent : sent file w'.log = sent file w.log ++
      (range file fileDescriptor offset count).take (w.moves written))
    (hturn : w.moves written = 0 ∨ before = []) :
    sent file w'.log ++ w'.conn.outputBuffer_.contents ++
        (before ++ (range file fileDescriptor offset count).drop (w.moves written)) =
      sent file w.log ++ w.conn.outputBuffer_.contents ++
        (before ++ range file fileDescriptor offset count) := by
  rw [hsent, hconn]
  by_cases hzero : w.moves written = 0
  · simp [hzero]
  · have hempty : w.conn.outputBuffer_.contents = [] := by
      by_contra hbacklog
      exact hzero (World.moves_eq_zero hwatching hbacklog)
    rw [hturn.resolve_left hzero, hempty]
    simp

theorem sendFile (h : Ordered file s) {fileDescriptor : Nat} {offset : Int} {count : Nat} {written : Written}
    (hsound : (Share.sendFile fileDescriptor offset count written).Sound file)
    (hturn : s.inTurn (.sendFile fileDescriptor offset count written) = true)
    (hstep : s.step alloc file (.sendFile fileDescriptor offset count written) = some s') :
    Ordered file s' := by
  obtain ⟨hfatal, hinside⟩ := hsound
  have hconnected : s.world.conn.connected = true := by simp [TcpConnection.connected, h.connected]
  simp only [step, World.ownCall, hconnected, if_true, World.call, Option.map_eq_some_iff] at hstep
  obtain ⟨⟨w, next⟩, hsend, rfl⟩ := hstep
  have hstate : s.world.conn.state_ ≠ .kDisconnecting := by
    rw [h.connected]
    decide
  obtain ⟨hconn, hsent, functors, hqueued, hleft, howed, hnone⟩ :=
    World.leave_sendFileInLoop hstate hinside hfatal hsend
  obtain ⟨first, later, hsplit, hfirst, hlater, hasked⟩ := h.asked
  have hbefore : s.world.moves written = 0 ∨ owed file first ++ owed file s.waiting ++ owed file later = [] := by
    simp only [inTurn, Bool.or_eq_true, beq_iff_eq, Bool.not_eq_true'] at hturn
    refine hturn.imp_right fun hfinished => ?_
    obtain ⟨hpending, hwaiting⟩ : owed file s.world.queued = [] ∧ owed file s.waiting = [] :=
      owed_of_finished hfinished
    rw [hsplit, owed_append] at hpending
    obtain ⟨hfirst, hlater⟩ := List.append_eq_nil_iff.mp hpending
    rw [hfirst, hwaiting, hlater]
    rfl
  have hstream := stream_moves h.watching hconn hsent hbefore
  refine ⟨?_, ?_, ?_, first, later ++ functors, ?_, hfirst, ?_, ?_⟩
  · rw [hconn]
    exact h.connected
  · unfold World.Watching
    rw [hconn]
    exact h.watching
  · intro functor hmem
    rw [hqueued, List.append_assoc, List.mem_append, List.mem_append] at hmem
    rcases hmem with hmem | hmem | hmem
    · exact h.left functor (List.mem_append.mpr (.inl hmem))
    · exact hleft functor hmem
    · exact h.left functor (List.mem_append.mpr (.inr hmem))
  · rw [hqueued, hsplit, List.append_assoc]
  · intro hlate
    obtain ⟨hbefore, hfile⟩ := Bool.or_eq_false_iff.mp hlate
    rw [owed_append, hlater hbefore, hnone hfile]
    rfl
  · change sent file (w.leave next).log ++ (w.leave next).conn.outputBuffer_.contents ++
      (owed file first ++ owed file s.waiting ++ owed file (later ++ functors)) =
      s.asked ++ range file fileDescriptor offset count
    rw [owed_append, howed, ← List.append_assoc (owed file first ++ owed file s.waiting), hstream, ← hasked]
    exact (List.append_assoc _ _ _).symm

theorem functor (h : Ordered file s) {written : Written} (hfatal : written.isFatal = false)
    (hturn : s.inTurn (.functor written) = true) (hstep : s.step alloc file (.functor written) = some s') :
    Ordered file s' := by
  obtain ⟨first, later, hsplit, hfirst, hlater, hasked⟩ := h.asked
  simp only [step] at hstep
  split at hstep
  · cases hstep
  · next functor waiting hwaiting =>
    obtain ⟨⟨w, next⟩, hcall, rfl⟩ := Option.map_eq_some_iff.mp hstep
    rw [hwaiting] at hasked
    have hleft (other : Functor) (hmem : other ∈ s.world.queued ++ waiting) : other.Left file := by
      apply h.left
      rw [hwaiting]
      simp only [List.mem_append, List.mem_cons] at hmem ⊢
      exact hmem.imp_right .inr
    cases h.left functor (by simp [hwaiting]) with
    | notice _ hnotice =>
      obtain ⟨rfl, rfl⟩ := called_notice hnotice hcall
      have hnone : functor.owed file = [] := by
        cases functor with
        | sendFileInLoop => cases hnotice
        | _ => rfl
      refine ⟨h.connected, h.watching, hleft, first, later, hsplit, ?_, hlater, ?_⟩
      · simpa [Act.leavesFile] using hfirst
      · rw [← hasked]
        simp [owed, hnone, World.leave]
    | rest fileDescriptor offset count hinside =>
      have hstate : s.world.conn.state_ ≠ .kDisconnecting := by
        rw [h.connected]
        decide
      obtain ⟨hconn, hsent, functors, hqueued, hleft', howed, hnone⟩ :=
        World.leave_sendFileInLoop hstate hinside hfatal hcall
      simp only [inTurn, hwaiting, Bool.and_eq_true, Bool.or_eq_true, beq_iff_eq, Bool.not_eq_true',
        decide_eq_true_eq] at hturn
      have hstream := stream_moves h.watching hconn hsent (hturn.1.imp_right hfirst)
      have hpending (other : Functor) (hmem : other ∈ (w.leave next).queued ++ waiting) : other.Left file := by
        rw [hqueued, List.append_assoc, List.mem_append, List.mem_append] at hmem
        rcases hmem with hmem | hmem | hmem
        · exact hleft other (List.mem_append.mpr (.inl hmem))
        · exact hleft' other hmem
        · exact hleft other (List.mem_append.mpr (.inr hmem))
      have hrest : owed file (.sendFileInLoop fileDescriptor offset count :: waiting) =
          range file fileDescriptor offset count ++ owed file waiting := rfl
      have hconnected : (w.leave next).conn.state_ = .kConnected := by
        rw [hconn]
        exact h.connected
      have hwatching : (w.leave next).Watching := by
        unfold World.Watching
        rw [hconn]
        exact h.watching
      cases hlate : s.late with
      | false =>
        refine ⟨hconnected, hwatching, hpending, first ++ later ++ functors, [], ?_, ?_, fun _ => rfl, ?_⟩
        · rw [List.append_nil, hqueued, hsplit]
        · intro hagain
          obtain ⟨hbefore, hfile⟩ := Bool.or_eq_false_iff.mp hagain
          rw [owed_append, owed_append, hfirst hbefore, hlater hlate, hnone hfile]
          rfl
        · rw [← hasked, hrest, owed_append, owed_append, hlater hlate, howed]
          have hnil : owed file [] = [] := rfl
          rw [hnil, List.append_nil, List.append_nil, List.append_nil, ← List.append_assoc,
            ← List.append_assoc, ← List.append_assoc]
          rw [← List.append_assoc] at hstream
          rw [hstream]
          simp only [List.append_assoc]
      | true =>
        have hall := hturn.2.resolve_right (by simp [hlate])
        have hempty : owed file functors = [] := by
          rw [howed, List.drop_eq_nil_iff, length_range hinside]
          exact hall
        refine ⟨hconnected, hwatching, hpending, first, later ++ functors, ?_, ?_, ?_, ?_⟩
        · rw [hqueued, hsplit, List.append_assoc]
        · intro hagain
          exact hfirst (Bool.or_eq_false_iff.mp hagain).1
        · intro hnot
          cases hnot
        · rw [← howed, hempty, List.append_nil] at hstream
          rw [← hasked, hrest, owed_append, hempty, List.append_nil]
          simp only [← List.append_assoc] at hstream ⊢
          rw [hstream]

/-- Each step that is taken in its turn keeps the order of the calls. -/
theorem step (h : Ordered file s) {i : Share} (hsound : i.Sound file) (hturn : s.inTurn i = true)
    (hstep : s.step alloc file i = some s') : Ordered file s' := by
  cases i with
  | send buf written => exact h.send hsound hturn hstep
  | sendFile fileDescriptor offset count written => exact h.sendFile hsound hturn hstep
  | handleWrite written => exact h.handleWrite hstep
  | swap => exact h.swap hstep
  | functor written => exact h.functor hsound hturn hstep

end Ordered

end Sharing

/-- The step is sound, and keeps the order of the calls. -/
def SoundInTurn (file : Nat → Text) (s : Sharing) (i : Share) : Prop := i.Sound file ∧ s.inTurn i = true

instance (file : Nat → Text) (s : Sharing) (i : Share) : Decidable (SoundInTurn file s i) :=
  inferInstanceAs (Decidable (i.Sound file ∧ s.inTurn i = true))

/-- `send` and `sendFile` share one ordered stream as long as each finds its turn: in
every run in which a payload is only sent when no file is unfinished, and no file
overtakes another one, the bytes that the socket has accepted are at any moment a
first part of what the calls have asked to send, in their order. -/
theorem send_and_sendFile_in_order (alloc : Nat → Bool) (file : Nat → Text) (conn : TcpConnection)
    (poller : EPollPoller) (addr fd : Nat) (hchannel : conn.channel_ = .construct addr fd)
    (hempty : conn.outputBuffer_.contents = []) {s : Sharing}
    (hrun : (sharing alloc file).Steps (SoundInTurn file) (Sharing.start conn poller) s) :
    sent file s.world.log <+: s.asked := by
  have hordered : Sharing.Ordered file s := by
    refine hrun.invariant ?_ (Sharing.Ordered.start poller hchannel hempty)
    intro _ _ _ h hok hstep
    exact h.step hok.1 hok.2 hstep
  obtain ⟨first, later, _, _, _, hasked⟩ := hordered.asked
  rw [← hasked, List.append_assoc]
  exact List.prefix_append _ _

/-- A file of two bytes. -/
def twoBytes : Nat → Text := fun _ => ⟨[70, 71], by decide⟩

/-- A file waits for a backlog, is sent in two parts, and is finished before the next payload. -/
def fileInTurn : List Share :=
  [.send ⟨[6, 7, 8], by decide⟩ (.bytes 1), .sendFile 7 0 2 (.bytes 0), .handleWrite (.bytes 2), .swap,
    .functor (.bytes 1), .swap, .functor (.bytes 1), .send ⟨[9], by decide⟩ (.bytes 1)]

theorem send_and_sendFile_in_order_file :
    ∃ s, (sharing (fun _ => true) twoBytes).run (Sharing.start (.construct 1 5) .construct) fileInTurn = some s ∧
      sent twoBytes s.world.log <+: s.asked := by
  have hruns : ((sharing (fun _ => true) twoBytes).run (Sharing.start (.construct 1 5) .construct)
      fileInTurn).isSome = true := by decide +kernel
  obtain ⟨s, hrun⟩ := Option.isSome_iff_exists.mp hruns
  exact ⟨s, hrun, send_and_sendFile_in_order _ _ (.construct 1 5) .construct 1 5 rfl
    CheckedBuffer.contents_fresh (Machine.steps_of_run hrun (by decide +kernel))⟩

/-- The socket takes the first byte of a file, and user code sends a payload. -/
def payloadBehindFile : List Share := [.sendFile 7 0 2 (.bytes 1), .send ⟨[9], by decide⟩ (.bytes 1)]

/-- The payload is written at once, in front of the rest of the file. -/
theorem send_overtakes_sendFile :
    ∃ s, (sharing (fun _ => true) twoBytes).run (Sharing.start (.construct 1 5) .construct)
        payloadBehindFile = some s ∧
      (sharing (fun _ => true) twoBytes).Along (fun _ i => i.Sound twoBytes)
        (Sharing.start (.construct 1 5) .construct) payloadBehindFile ∧
      sent twoBytes s.world.log = [70, 9] ∧ s.asked = [70, 71, 9] ∧ ¬ sent twoBytes s.world.log <+: s.asked := by
  have hruns : ((sharing (fun _ => true) twoBytes).run (Sharing.start (.construct 1 5) .construct)
      payloadBehindFile).map (fun s => (sent twoBytes s.world.log, s.asked)) =
        some ([70, 9], [70, 71, 9]) := by decide +kernel
  obtain ⟨s, hrun, hboth⟩ := Option.map_eq_some_iff.mp hruns
  obtain ⟨hsent, hasked⟩ := Prod.mk.inj hboth
  refine ⟨s, hrun, by decide +kernel, hsent, hasked, ?_⟩
  rw [hsent, hasked]
  decide

end muduo.tcp_connection
