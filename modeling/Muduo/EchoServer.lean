import Muduo.Buffer.Calls
import Muduo.TcpConnection.Input
import Muduo.TcpConnection.Output

open transition
open muduo.kernel muduo.buffer muduo.epoll
open muduo.tcp_connection

namespace muduo.buffer.CheckedBuffer

/-- `retrieveAllAsString`: the string, with the buffer that is left. -/
def retrieveAllAsString (alloc : Nat → Bool) (self : CheckedBuffer) : Option (Text × CheckedBuffer) :=
  match self.raw.retrieveAllAsString alloc with
  | .ok (chars, rest) =>
    if h : rest.Valid ∧ chars.length ≤ maxSize then some (⟨chars, h.2⟩, ⟨rest, h.1⟩) else none
  | .error _ => none

/-- The string holds everything, and nothing is left. -/
theorem retrieveAllAsString_spec {alloc : Nat → Bool} {self rest : CheckedBuffer} {msg : Text}
    (h : self.retrieveAllAsString alloc = some (msg, rest)) :
    msg.chars = self.contents ∧ rest.contents = [] := by
  unfold retrieveAllAsString at h
  split at h
  · next chars after hraw =>
    obtain ⟨hvalid, heq⟩ := Option.dite_none_right_eq_some.mp h
    obtain ⟨hgrant, _⟩ := Buffer.retrieveAsString_ok hraw
    have halloc : alloc self.raw.readableBytes = true := by
      simp only [grants, Bool.and_eq_true] at hgrant
      exact hgrant.2
    rw [Buffer.retrieveAllAsString, Buffer.retrieveAsString_eq self.valid (Nat.le_refl _) halloc] at hraw
    cases hraw
    cases heq
    have hall : self.contents.length ≤ self.raw.readableBytes := Nat.le_of_eq self.length_contents
    refine ⟨List.take_of_length_le hall, ?_⟩
    exact (contents_retrieve self _).trans (List.drop_of_length_le hall)
  · cases h

end muduo.buffer.CheckedBuffer

namespace muduo.echo_server

/-- A message that came in while the connection was connected. `failed` records that it
went with a direct write that failed for good. -/
structure Message where
  chars : List UInt8
  failed : Bool

/-- A connection of the echo server with what it has been told. -/
structure Echo where
  world : World
  messages : List Message

/-- The callbacks of the connection's channel, with the answers of `readv` and of the `write`
that they lead to. -/
inductive Dispatch where
  | readCallback_ (received : Received) (written : Written)
  | writeCallback_ (written : Written)
  | closeCallback_

/-- What `connectEstablished` leaves. -/
def start (conn : TcpConnection) (poller : EPollPoller) : Echo where
  world := established conn poller
  messages := []

/-- `EchoServer::onMessage`. -/
def onMessage (alloc : Nat → Bool) (w : World) (written : Written) : Option World :=
  (w.conn.inputBuffer_.retrieveAllAsString alloc).bind fun (msg, inputBuffer_) =>
    World.complete alloc written ((w.setInputBuffer inputBuffer_).ownCall (.send msg))

/-- Whether sending makes a direct write, and that fails for good. -/
def fails (w : World) (written : Written) : Bool :=
  decide (w.conn.channel_.isWriting = false ∧ w.conn.outputBuffer_.readableBytes = 0 ∧ written.isFatal = true)

/-- The message that is there for `onMessage` when the connection is connected. -/
def heard (w : World) (written : Written) : List Message :=
  if w.conn.connected then [{ chars := w.conn.inputBuffer_.contents, failed := fails w written }] else []

def step (alloc : Nat → Bool) (s : Echo) : Dispatch → Option Echo
  | .readCallback_ received written =>
    (s.world.handleRead alloc received).bind fun (w, next) =>
      if next = [.user] then (onMessage alloc w written).map fun world =>
        { world, messages := s.messages ++ heard w written }
      else some { s with world := w }
  | .writeCallback_ written =>
    ((s.world.handleWrite written).bind (World.complete alloc written)).map fun world => { s with world }
  | .closeCallback_ => some { s with world := s.world.handleClose.1 }

def echo (alloc : Nat → Bool) : Machine Echo Dispatch where
  step := step alloc

/-- What the peer is sent back, the backlog included. -/
def echoed (w : World) : List UInt8 := tcp_connection.taken w.log ++ w.conn.outputBuffer_.contents

/-- The messages in their order, without those whose direct write failed for good. -/
def delivered (messages : List Message) : List UInt8 :=
  (messages.filter fun message => !message.failed).flatMap Message.chars

/-- The channel watches for room exactly while a connected connection has a backlog. -/
structure Watches (w : World) : Prop where
  up : w.conn.state_ = .kConnected → w.Watching
  down : w.conn.state_ ≠ .kConnected → w.conn.channel_.isWriting = false

/-- A step that keeps the state, the interest, the backlog and what the kernel has taken. -/
structure Quiet (w w' : World) : Prop where
  state_eq : w'.conn.state_ = w.conn.state_
  isWriting_eq : w'.conn.channel_.isWriting = w.conn.channel_.isWriting
  contents_eq : w'.conn.outputBuffer_.contents = w.conn.outputBuffer_.contents
  taken_eq : tcp_connection.taken w'.log = tcp_connection.taken w.log

namespace Quiet

variable {w w' : World}

theorem watches (h : Quiet w w') (hw : Watches w) : Watches w' := by
  obtain ⟨hstate, hwriting, hcontents, _⟩ := h
  refine ⟨fun hup => ?_, fun hdown => ?_⟩
  · rw [hstate] at hup
    rw [World.Watching, hwriting, hcontents]
    exact hw.up hup
  · rw [hstate] at hdown
    rw [hwriting]
    exact hw.down hdown

theorem echoed_eq (h : Quiet w w') : echoed w' = echoed w := by
  rw [echoed, echoed, h.taken_eq, h.contents_eq]

end Quiet

/-- A connection that closes keeps what it has echoed, and sends no more. -/
theorem handleClose_spec (w : World) : Watches w.handleClose.1 ∧ echoed w.handleClose.1 = echoed w := by
  have hconn := World.conn_handleClose w
  have hlog := World.log_handleClose w
  refine ⟨⟨fun hup => ?_, fun _ => ?_⟩, ?_⟩
  · rw [hconn] at hup
    cases hup
  · rw [hconn]
    simp [Channel.isWriting, Mask.meets, kNoneEvent]
  · rw [echoed, echoed, hlog, hconn]
    simp [tcp_connection.taken, Event.taken]

/-- A direct write that fails for good drops the message. -/
theorem sendInLoop_of_fatal {alloc : Nat → Bool} {w w' : World} {msg : Text} {written : Written}
    (h : w.sendInLoop alloc msg written = some w') (hidle : w.conn.channel_.isWriting = false)
    (hempty : w.conn.outputBuffer_.readableBytes = 0) (hfatal : written.isFatal = true) : Quiet w w' := by
  have hnothing : written.taken = 0 := by
    cases written with
    | bytes n => cases hfatal
    | error errno => rfl
  obtain ⟨_, _, ⟨_, rfl⟩ | ⟨hnot, _⟩⟩ | ⟨hnot, _⟩ := World.sendInLoop_cases h
  · refine ⟨by simp, by simp, by simp, ?_⟩
    rw [tcp_connection.taken, World.flatMap_writeDirectly taken_ignores]
    simp [tcp_connection.taken, Event.taken, hnothing]
  · rw [hfatal] at hnot
    cases hnot
  · exact absurd ⟨hidle, hempty⟩ hnot

/-- Behind a backlog, or on a channel that is writing, there is no direct write. -/
theorem sendInLoop_of_backlog {w : World} (h : ¬ (w.conn.channel_.isWriting = false ∧
    w.conn.outputBuffer_.readableBytes = 0)) (alloc : Nat → Bool) (msg : Text) (written : Written) :
    w.sendInLoop alloc msg written = w.sendInLoop alloc msg (.bytes 0) := by
  simp only [World.sendInLoop, World.conn_emit, if_neg h]

/-- A message whose direct write does not fail for good is echoed. -/
theorem sendInLoop_spec {alloc : Nat → Bool} {w w' : World} {msg : Text} {written : Written} (hw : w.Watching)
    (hgood : ¬ (w.conn.channel_.isWriting = false ∧ w.conn.outputBuffer_.readableBytes = 0 ∧
      written.isFatal = true)) (h : w.sendInLoop alloc msg written = some w') :
    w'.Watching ∧ echoed w' = echoed w ++ msg.chars := by
  by_cases hdirect : w.conn.channel_.isWriting = false ∧ w.conn.outputBuffer_.readableBytes = 0
  · refine World.stream_sendInLoop taken_takes hw ?_ h
    by_contra hfatal
    exact hgood ⟨hdirect.1, hdirect.2, by simpa using hfatal⟩
  · rw [sendInLoop_of_backlog hdirect] at h
    exact World.stream_sendInLoop taken_takes hw rfl h

/-- `onMessage` takes everything and sends it back, if the connection is connected. -/
theorem onMessage_spec {alloc : Nat → Bool} {w w' : World} {written : Written} (hw : Watches w)
    (h : onMessage alloc w written = some w') :
    Watches w' ∧ w'.conn.inputBuffer_.contents = [] ∧
    echoed w' = echoed w ++ delivered (heard w written) := by
  obtain ⟨⟨msg, inputBuffer_⟩, htaken, hsend⟩ := Option.bind_eq_some_iff.mp h
  obtain ⟨hmsg, hrest⟩ := CheckedBuffer.retrieveAllAsString_spec htaken
  replace hsend : World.complete alloc written ((w.setInputBuffer inputBuffer_).ownCall (.send msg)) = some w' := hsend
  have hconnected : (w.setInputBuffer inputBuffer_).conn.connected = w.conn.connected := rfl
  by_cases hstate : w.conn.state_ = .kConnected
  · have hup : w.conn.connected = true := by simp [TcpConnection.connected, hstate]
    have hcall : (w.setInputBuffer inputBuffer_).ownCall (.send msg) =
        ((w.setInputBuffer inputBuffer_).emit (.send msg), [.call (.sendInLoop msg)]) := if_pos (hconnected.trans hup)
    rw [hcall] at hsend
    obtain ⟨_, hcompleted, rfl⟩ := Option.map_eq_some_iff.mp hsend
    obtain ⟨sent, hsent, rfl⟩ := Option.map_eq_some_iff.mp hcompleted
    have hcalled : Quiet w ((w.setInputBuffer inputBuffer_).emit (.send msg)) :=
      ⟨rfl, rfl, rfl, by simp [tcp_connection.taken, Event.taken]⟩
    have hinput : sent.conn.inputBuffer_.contents = [] :=
      (congrArg Prod.fst (World.input_sendInLoop hsent)).trans hrest
    by_cases hfails : w.conn.channel_.isWriting = false ∧ w.conn.outputBuffer_.readableBytes = 0 ∧
        written.isFatal = true
    · have hdropped := sendInLoop_of_fatal hsent hfails.1 hfails.2.1 hfails.2.2
      have hnothing : delivered (heard w written) = [] := by simp [delivered, heard, hup, fails, hfails]
      refine ⟨hdropped.watches (hcalled.watches hw), hinput, ?_⟩
      rw [hnothing, List.append_nil]
      exact hdropped.echoed_eq.trans hcalled.echoed_eq
    · obtain ⟨hwatching, hechoed⟩ := sendInLoop_spec ((hcalled.watches hw).up hstate) hfails hsent
      have hstill : sent.conn.state_ = .kConnected := (Transfers.sendInLoop hsent).state_eq.trans hstate
      refine ⟨⟨fun _ => hwatching, fun hdown => absurd hstill hdown⟩, hinput, ?_⟩
      have hall : delivered (heard w written) = w.conn.inputBuffer_.contents := by
        simp [delivered, heard, hup, fails, hfails]
      rw [hall, ← hmsg, ← hcalled.echoed_eq]
      exact hechoed
  · have hdown : w.conn.connected = false := by simpa [TcpConnection.connected] using hstate
    have hcall : (w.setInputBuffer inputBuffer_).ownCall (.send msg) = (w.setInputBuffer inputBuffer_, []) :=
      if_neg (by rw [hconnected, hdown]; exact Bool.false_ne_true)
    rw [hcall] at hsend
    cases hsend
    have hquiet : Quiet w (w.setInputBuffer inputBuffer_) := ⟨rfl, rfl, rfl, rfl⟩
    have hnone : delivered (heard w written) = [] := by simp [delivered, heard, hdown]
    refine ⟨hquiet.watches hw, hrest, ?_⟩
    rw [hnone, List.append_nil]
    exact hquiet.echoed_eq

/-- Every message is echoed but those whose direct write failed for good, and nothing stays
in the input buffer. -/
structure Faithful (s : Echo) : Prop where
  watches : Watches s.world
  read : s.world.conn.inputBuffer_.contents = []
  echoed_eq : echoed s.world = delivered s.messages

namespace Faithful

variable {alloc : Nat → Bool} {s t : Echo}

/-- A dispatch in which no message is heard. -/
theorem of_world {w : World} (h : Faithful s) (hwatches : Watches w) (hread : w.conn.inputBuffer_.contents = [])
    (hechoed : echoed w = echoed s.world) : Faithful { s with world := w } := by
  exact ⟨hwatches, hread, hechoed.trans h.echoed_eq⟩

/-- A message is heard, and echoed unless its direct write fails for good. -/
theorem of_message {w w' : World} {written : Written} (h : Faithful s) (hwatches : Watches w)
    (hechoed : echoed w = echoed s.world) (hmessage : onMessage alloc w written = some w') :
    Faithful { world := w', messages := s.messages ++ heard w written } := by
  obtain ⟨hwatches', hread, hmore⟩ := onMessage_spec hwatches hmessage
  refine ⟨hwatches', hread, ?_⟩
  rw [hmore, hechoed, h.echoed_eq, delivered, delivered, delivered, List.filter_append, List.flatMap_append]

/-- Every dispatch keeps the echo faithful. -/
theorem step {i : Dispatch} (h : Faithful s) (hstep : step alloc s i = some t) : Faithful t := by
  cases i with
  | readCallback_ received written =>
    obtain ⟨⟨w, next⟩, hhandled, hrest⟩ := Option.bind_eq_some_iff.mp hstep
    obtain ⟨hdata, hnothing⟩ := World.input_handleRead hhandled
    obtain ⟨inputBuffer_, rfl, rfl⟩ | ⟨bytes, inputBuffer_, rfl, ⟨rfl, hclose⟩ | ⟨hbytes, rfl, rfl⟩⟩ :=
      World.handleRead_cases hhandled
    · cases hrest
      have hquiet : Quiet s.world (s.world.setInputBuffer inputBuffer_) := ⟨rfl, rfl, rfl, rfl⟩
      refine h.of_world (hquiet.watches h.watches) ?_ hquiet.echoed_eq
      have hsame := hnothing fun bytes hreceived => by
        by_contra hsome
        exact Nat.succ_ne_self _ (congrArg Prod.snd (hdata bytes hreceived hsome)).symm
      exact (congrArg Prod.fst hsame).trans h.read
    · obtain ⟨rfl, rfl⟩ := Prod.mk.inj hclose
      cases hrest
      obtain ⟨hwatches, hechoed⟩ := handleClose_spec (s.world.setInputBuffer inputBuffer_)
      refine h.of_world hwatches ?_ hechoed
      exact (congrArg Prod.fst (hnothing fun _ hreceived => (Received.data.inj hreceived).symm)).trans h.read
    · obtain ⟨world, hmessage, rfl⟩ := Option.map_eq_some_iff.mp hrest
      have hquiet : Quiet s.world ((s.world.setInputBuffer inputBuffer_).emit .messageCallback_) :=
        ⟨rfl, rfl, rfl, by simp [tcp_connection.taken, Event.taken]⟩
      exact h.of_message (hquiet.watches h.watches) hquiet.echoed_eq hmessage
  | writeCallback_ written =>
    obtain ⟨world, hwritten, rfl⟩ := Option.map_eq_some_iff.mp hstep
    obtain ⟨⟨w, next⟩, hhandled, hcomplete⟩ := Option.bind_eq_some_iff.mp hwritten
    have hread := (congrArg Prod.fst (World.input_handleWrite hhandled)).trans h.read
    have hstate := (Transfers.handleWrite hhandled).state_eq
    by_cases hup : s.world.conn.state_ = .kConnected
    · obtain ⟨hwatching, hechoed, _⟩ := World.stream_handleWrite taken_takes (h.watches.up hup) hhandled
      have hstill : w.conn.state_ = .kConnected := hstate.trans hup
      have hdone : world = w := by
        obtain rfl | rfl := World.next_handleWrite hhandled
        · exact (Option.some.inj hcomplete).symm
        · have hkept : w.drained = w := if_neg (by simp [hstill])
          exact (Option.some.inj hcomplete).symm.trans hkept
      subst hdone
      exact h.of_world ⟨fun _ => hwatching, fun hdown => absurd hstill hdown⟩ hread hechoed
    · obtain ⟨_, rfl, rfl⟩ | ⟨hwriting, _⟩ := World.handleWrite_cases hhandled
      · cases hcomplete
        exact h
      · rw [h.watches.down hup] at hwriting
        cases hwriting
  | closeCallback_ =>
    cases hstep
    obtain ⟨hwatches, hechoed⟩ := handleClose_spec s.world
    refine h.of_world hwatches ?_ hechoed
    exact (congrArg Prod.fst (World.input_handleClose s.world)).trans h.read

end Faithful

/-- A message of three bytes of which the kernel takes one, another one behind the rest, and
then the end of the stream. -/
def twoMessages : List Dispatch :=
  [.readCallback_ (.data [1, 2, 3]) (.bytes 1), .readCallback_ (.data [4]) (.bytes 0), .writeCallback_ (.bytes 3),
    .readCallback_ (.error .EINTR) (.bytes 0), .readCallback_ (.data [5]) (.error .EPIPE),
    .readCallback_ (.data []) (.bytes 0)]

end muduo.echo_server
