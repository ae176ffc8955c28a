import Muduo.TcpConnection.Stream

open transition record
open muduo.kernel muduo.buffer muduo.epoll

namespace muduo.tcp_connection

/-- Carry out the single act that a call leaves, if there is one. -/
def World.complete (alloc : Nat → Bool) (written : Written) : World × List Act → Option World
  | (w, []) => some w
  | (w, [.call functor]) => (w.call alloc written functor).map Prod.fst
  | (w, [.drained]) => some w.drained
  | _ => none

/-- What happens to the output of a connection on its own loop: calls of user code,
and dispatches of `EPOLLOUT`, with the answers of `write`. -/
inductive Output where
  | send (buf : Text) (written : Written)
  | shutdown
  | handleWrite (written : Written)

/-- A connection on its own loop that nobody closes. A run ends with a call of `send` whose
append to the output buffer throws. -/
def output (alloc : Nat → Bool) : Machine World Output where
  step w
    | .send buf written => World.complete alloc written (w.ownCall (.send buf))
    | .shutdown => World.complete alloc (.bytes 0) (w.ownCall .shutdown)
    | .handleWrite written => (w.handleWrite written).bind (World.complete alloc written)

/-- No direct write fails for good. -/
def NeverFatal (_ : World) : Output → Prop
  | .send _ written => written.isFatal = false
  | _ => True

/-- The connection after it has been established, with nothing sent so far. -/
def established (conn : TcpConnection) (poller : EPollPoller) : World :=
  (World.connectEstablished { conn, poller, queued := [], log := [] }).1

structure OutputInvariant (w : World) : Prop where
  streaming : Streaming [] w
  accepted_eq : accepted w.log = submitted w.log
  flushed : Flushed [] w.log

theorem OutputInvariant.established {conn : TcpConnection} (poller : EPollPoller) {addr fd : Nat}
    (hchannel : conn.channel_ = .construct addr fd) (hempty : conn.outputBuffer_.contents = []) :
    OutputInvariant (established conn poller) := by
  unfold tcp_connection.established
  have hlog := World.log_connectEstablished { conn, poller, queued := [], log := [] }
  have hconn := World.conn_connectEstablished { conn, poller, queued := [], log := [] }
  refine ⟨⟨?_, ?_⟩, ?_, ?_⟩
  · rw [hlog, hconn]
    exact hempty
  · have hreading : (ChannelOp.enableReading.mask 0).meets kWriteEvent = false := by decide
    simp only [hconn, Channel.isWriting, hchannel, Channel.construct, hreading, hempty]
    simp
  · rw [hlog]
    rfl
  · rw [hlog]
    exact (whenever_nil _ _).append (by simp)

theorem OutputInvariant.shutdownInLoop {w : World} (h : OutputInvariant w) :
    OutputInvariant w.shutdownInLoop := by
  obtain ⟨hstreaming, haccepted, hflushed⟩ := h
  refine ⟨hstreaming.shutdownInLoop, ?_, hflushed.shutdownInLoop hstreaming haccepted⟩
  rw [accepted, submitted, flatMap_shutdownInLoop rfl, flatMap_shutdownInLoop rfl]
  exact haccepted

/-- Each call and each dispatch keeps the output invariant. -/
theorem OutputInvariant.step {alloc : Nat → Bool} {w w' : World} {i : Output} (h : OutputInvariant w)
    (hfatal : NeverFatal w i) (hstep : (output alloc).step w i = some w') : OutputInvariant w' := by
  obtain ⟨hstreaming, haccepted, hflushed⟩ := id h
  cases i with
  | send buf written =>
    simp only [output, World.ownCall] at hstep
    split at hstep
    · simp only [World.complete, World.call, Option.map_map, Option.map_eq_some_iff] at hstep
      obtain ⟨sent, hsend, rfl⟩ := hstep
      have hcall : Streaming [] (w.emit (.send buf)) := by
        refine hstreaming.of_eq rfl rfl ?_ ?_
        · simp [taken, Event.taken]
        · simp [submitted, Event.submitted]
      have haccepted' : accepted sent.log = accepted w.log ++ buf.chars := by
        rw [accepted, World.flatMap_sendInLoop_of_write accepted_ignores (fun _ _ => rfl) hsend]
        simp [accepted, Event.accepted]
      have hsubmitted' : submitted sent.log = submitted w.log ++ buf.chars := by
        rw [submitted, World.flatMap_sendInLoop_of_write submitted_ignores (fun _ _ => rfl) hsend]
        simp [submitted, Event.submitted]
      have hshut : sent.log.flatMap Event.shut = (w.emit (.send buf)).log.flatMap Event.shut := by
        rw [World.flatMap_sendInLoop_of_write shut_ignores (fun _ _ => rfl) hsend]
        exact List.append_nil _
      have hflushed' : Flushed [] (w.emit (.send buf)).log := hflushed.append (by simp)
      change OutputInvariant sent
      refine ⟨hcall.sendInLoop hfatal hsend, ?_, hflushed'.of_transfers (.sendInLoop hsend) hshut⟩
      rw [haccepted', haccepted, hsubmitted']
    · cases hstep
      exact h
  | shutdown =>
    simp only [output, World.ownCall] at hstep
    split at hstep
    · cases hstep
      apply OutputInvariant.shutdownInLoop
      refine ⟨?_, ?_, hflushed.append (by simp)⟩
      · refine hstreaming.of_eq rfl rfl ?_ ?_
        · simp [taken, Event.taken]
        · simp [submitted, Event.submitted]
      · simpa [accepted, submitted, Event.accepted, Event.submitted] using haccepted
    · cases hstep
      exact h
  | handleWrite written =>
    simp only [output, Option.bind_eq_some_iff] at hstep
    obtain ⟨⟨wrote, next⟩, hwrite, hcomplete⟩ := hstep
    have haccepted' : accepted wrote.log = accepted w.log :=
      World.flatMap_handleWrite_of_write accepted_ignores (fun _ _ => rfl) hwrite
    have hsubmitted' : submitted wrote.log = submitted w.log :=
      World.flatMap_handleWrite_of_write submitted_ignores (fun _ _ => rfl) hwrite
    have hshut := World.flatMap_handleWrite_of_write shut_ignores (fun _ _ => rfl) hwrite
    have hwrote : OutputInvariant wrote := by
      refine ⟨(hstreaming.handleWrite hwrite).1, ?_, hflushed.of_transfers (.handleWrite hwrite) hshut⟩
      rw [haccepted', hsubmitted', haccepted]
    rcases World.next_handleWrite hwrite with hnext | hnext
    · subst next
      cases hcomplete
      exact hwrote
    · subst next
      cases hcomplete
      unfold World.drained
      split
      · exact hwrote.shutdownInLoop
      · exact hwrote

/-- The output of a connection is one intact stream. After any calls of `send` and
`shutdown` and any dispatches of `EPOLLOUT` on the connection's own loop, with any
answers of `write`, the kernel has taken a first part of the accepted payloads in
the order of the calls, the output buffer holds exactly the rest, `EPOLLOUT` is
watched exactly as long as there is a rest, and `shutdownWrite` has only ever been
called when there was none. -/
theorem output_stream_intact (alloc : Nat → Bool) (conn : TcpConnection) (poller : EPollPoller) (addr fd : Nat)
    (hchannel : conn.channel_ = .construct addr fd) (hempty : conn.outputBuffer_.contents = []) {w : World}
    (hrun : (output alloc).Steps NeverFatal (established conn poller) w) :
    taken w.log ++ w.conn.outputBuffer_.contents = accepted w.log ∧
    (w.conn.channel_.isWriting = true ↔ 0 < w.conn.outputBuffer_.readableBytes) ∧
    ∀ before after, w.log = before ++ .shutdownWrite :: after → taken before = accepted before := by
  obtain ⟨hstreaming, haccepted, hflushed⟩ := hrun.invariant
    (fun _ _ _ h hfatal hstep => h.step hfatal hstep) (OutputInvariant.established poller hchannel hempty)
  refine ⟨?_, ?_, hflushed⟩
  · rw [hstreaming.stream, haccepted, List.nil_append]
  · rw [hstreaming.isWriting_iff, ne_eq, ← CheckedBuffer.readableBytes_eq_zero_iff]
    exact Nat.pos_iff_ne_zero.symm

/-- A direct write that takes one byte of three, a second payload behind the rest,
and a shutdown that waits for the backlog. -/
def partialWrites : List Output :=
  [.send ⟨[1, 2, 3], by decide⟩ (.bytes 1), .send ⟨[4], by decide⟩ (.bytes 0), .shutdown,
    .handleWrite (.bytes 2), .handleWrite (.bytes 1)]

theorem output_stream_intact_partial :
    ∃ w, (output fun _ => true).run (established (.construct 1 5) .construct) partialWrites = some w ∧
      taken w.log ++ w.conn.outputBuffer_.contents = accepted w.log ∧
      (w.conn.channel_.isWriting = true ↔ 0 < w.conn.outputBuffer_.readableBytes) ∧
      ∀ before after, w.log = before ++ .shutdownWrite :: after → taken before = accepted before := by
  have hruns : ((output fun _ => true).run (established (.construct 1 5) .construct) partialWrites).isSome =
      true := by decide +kernel
  obtain ⟨w, hrun⟩ := Option.isSome_iff_exists.mp hruns
  have hnever : ∀ i ∈ partialWrites, ∀ w, NeverFatal w i := by
    simp [partialWrites, NeverFatal, Written.isFatal]
  exact ⟨w, hrun, output_stream_intact _ (.construct 1 5) .construct 1 5 rfl CheckedBuffer.contents_fresh
    (Machine.steps_of_run hrun (Machine.along_of_forall hnever _))⟩

end muduo.tcp_connection
