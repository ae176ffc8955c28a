import Muduo.TcpConnection.Output

open transition
open muduo.kernel muduo.buffer muduo.epoll

namespace muduo.tcp_connection

/-- What user code sets on a connection before it runs. -/
structure Settings where
  highWaterMark_ : Nat
  writeCompleteCallback_ : Bool
  highWaterMarkCallback_ : Bool
  deriving DecidableEq

def TcpConnection.settings (self : TcpConnection) : Settings where
  highWaterMark_ := self.highWaterMark_
  writeCompleteCallback_ := self.writeCompleteCallback_
  highWaterMarkCallback_ := self.highWaterMarkCallback_

namespace World

variable (w : World)

/-- The number of bytes that are still to be written. -/
def backlog : Nat := w.conn.outputBuffer_.readableBytes

/-- What is queued when everything has been written. -/
def completion : List Functor := if w.conn.writeCompleteCallback_ then [.writeCompleteCallback_] else []

/-- What is queued when the backlog becomes `size`. -/
def crossing (size : Nat) : List Functor :=
  if w.backlog < w.conn.highWaterMark_ ∧ w.conn.highWaterMark_ ≤ size ∧ w.conn.highWaterMarkCallback_ = true then
    [.highWaterMarkCallback_ size]
  else []

theorem length_contents : w.conn.outputBuffer_.contents.length = w.backlog :=
  w.conn.outputBuffer_.length_contents

theorem backlog_eq_zero_iff : w.backlog = 0 ↔ w.conn.outputBuffer_.contents = [] :=
  w.conn.outputBuffer_.readableBytes_eq_zero_iff

/-- A backlog that does not grow crosses no mark. -/
theorem crossing_of_le {size : Nat} (hle : size ≤ w.backlog) : w.crossing size = [] := by
  rw [crossing, if_neg]
  rintro ⟨hbelow, habove, _⟩
  omega

theorem queued_writeCompleted : w.writeCompleted.queued = w.queued ++ w.completion := by
  unfold writeCompleted completion
  split
  · rfl
  · exact (List.append_nil _).symm

theorem queued_highWater {len : Nat} (hlen : len ≤ maxSize) :
    (w.highWater len).queued = w.queued ++ w.crossing (w.backlog + len) := by
  have hsum : addSize w.conn.outputBuffer_.readableBytes len = w.backlog + len := by
    have hbacklog := w.conn.outputBuffer_.readableBytes_le
    unfold maxSize at hbacklog hlen
    exact addSize_eq (by omega)
  have htest : (w.conn.highWaterMark_ ≤ w.backlog + len ∧ w.backlog < w.conn.highWaterMark_ ∧
      w.conn.highWaterMarkCallback_ = true) ↔
      (w.backlog < w.conn.highWaterMark_ ∧ w.conn.highWaterMark_ ≤ w.backlog + len ∧
        w.conn.highWaterMarkCallback_ = true) := and_left_comm
  simp only [highWater, hsum, crossing, ← htest]
  unfold backlog
  split
  · rfl
  · exact (List.append_nil _).symm

theorem queued_watchWriting : w.watchWriting.queued = w.queued := by
  unfold watchWriting
  split <;> rfl

theorem settings_watchWriting : w.watchWriting.conn.settings = w.conn.settings := by
  unfold watchWriting
  split
  · rfl
  · rw [conn_perform]
    rfl

end World

/-- Output that has been moved from one world to another one. What it queues is the
completion if there is one, and what the new backlog makes of the old one. -/
structure Moved (w w' : World) (complete : Bool) : Prop where
  settings_eq : w'.conn.settings = w.conn.settings
  queued_eq : w'.queued = w.queued ++ (if complete then w.completion else []) ++ w.crossing w'.backlog

namespace Moved

variable {alloc : Nat → Bool} {w w' : World}

/-- Queueing nothing, while the backlog does not grow. -/
theorem of_quiet (hsettings : w'.conn.settings = w.conn.settings) (hqueued : w'.queued = w.queued)
    (hle : w'.backlog ≤ w.backlog) : Moved w w' false := by
  refine ⟨hsettings, ?_⟩
  rw [hqueued, w.crossing_of_le hle]
  simp

theorem keep {rest : List UInt8} (hlen : rest.length ≤ maxSize) (h : w.keep alloc rest = some w') :
    Moved w w' false ∧ w'.backlog = w.backlog + rest.length := by
  have hbacklog : w'.backlog = w.backlog + rest.length := by
    rw [← World.length_contents, ← World.length_contents, (World.keep_spec hlen h).1, List.length_append]
  refine ⟨?_, hbacklog⟩
  rcases World.keep_cases h with ⟨_, rfl⟩ | ⟨_, outputBuffer_, _, rfl⟩
  · exact of_quiet rfl rfl (Nat.le_refl _)
  · refine ⟨?_, ?_⟩
    · rw [World.settings_watchWriting, World.conn_emit, World.conn_setOutputBuffer, World.conn_highWater]
      rfl
    · rw [World.queued_watchWriting, hbacklog]
      exact (World.queued_highWater w hlen).trans (by simp)

/-- What a world queues depends on its settings and its backlog only. -/
theorem crossing_eq {u : World} (hsettings : u.conn.settings = w.conn.settings)
    (hbacklog : u.backlog = w.backlog) (size : Nat) : u.crossing size = w.crossing size := by
  have hmark : u.conn.highWaterMark_ = w.conn.highWaterMark_ := (congrArg Settings.highWaterMark_ hsettings :)
  have hset : u.conn.highWaterMarkCallback_ = w.conn.highWaterMarkCallback_ :=
    (congrArg Settings.highWaterMarkCallback_ hsettings :)
  rw [World.crossing, World.crossing, hmark, hset, hbacklog]

theorem trans_of_backlog {u : World} {complete : Bool} (h : Moved w u complete) (hbacklog : u.backlog = w.backlog)
    (h' : Moved u w' false) : Moved w w' complete := by
  refine ⟨h'.settings_eq.trans h.settings_eq, ?_⟩
  rw [h'.queued_eq, h.queued_eq, w.crossing_of_le (Nat.le_of_eq hbacklog), crossing_eq h.settings_eq hbacklog]
  simp

theorem emit (w : World) (event : Event) : Moved w (w.emit event) false :=
  of_quiet rfl rfl (Nat.le_refl _)

theorem writeDirectly (w : World) (data : List UInt8) (written : Written) :
    Moved w (w.writeDirectly data written) (decide (written = .bytes data.length)) := by
  have hbacklog : (w.writeDirectly data written).backlog = w.backlog := by
    unfold World.backlog
    rw [World.conn_writeDirectly]
  refine ⟨by rw [World.conn_writeDirectly], ?_⟩
  rw [hbacklog, w.crossing_of_le (Nat.le_refl _), List.append_nil]
  simp only [World.writeDirectly]
  split
  · next hall =>
    rw [World.queued_writeCompleted, decide_eq_true hall, if_pos rfl]
    rfl
  · next hpart =>
    rw [decide_eq_false hpart, if_neg Bool.false_ne_true, List.append_nil]
    rfl

/-- Sending completes when a direct write takes everything. Otherwise something is left,
unless the write fails for good. -/
theorem sendInLoop {data : Text} {written : Written} (h : w.sendInLoop alloc data written = some w') :
    (w.conn.channel_.isWriting = false ∧ w.backlog = 0 ∧ written.Possible data.chars.length ∧
      Moved w w' (decide (written = .bytes data.chars.length)) ∧
      w'.backlog = if written.isFatal then 0 else data.chars.length - written.taken) ∨
    (¬ (w.conn.channel_.isWriting = false ∧ w.backlog = 0) ∧ Moved w w' false ∧
      w'.backlog = w.backlog + data.chars.length) := by
  have hemit := emit w (.sendInLoop data)
  have hwrite := writeDirectly (w.emit (.sendInLoop data)) data.chars written
  have hbacklog : ((w.emit (.sendInLoop data)).writeDirectly data.chars written).backlog = w.backlog := by
    unfold World.backlog
    rw [World.conn_writeDirectly]
    rfl
  have hdone : Moved w ((w.emit (.sendInLoop data)).writeDirectly data.chars written)
      (decide (written = .bytes data.chars.length)) := ⟨hwrite.settings_eq, hwrite.queued_eq⟩
  rcases World.sendInLoop_cases h with ⟨⟨hwriting, hempty⟩, hpossible, ⟨hfatal, rfl⟩ | ⟨hfatal, hrest⟩⟩ |
    ⟨hdirect, hall⟩
  · rw [if_pos hfatal, hbacklog]
    exact .inl ⟨hwriting, hempty, hpossible, hdone, hempty⟩
  · obtain ⟨hkeep, hgrown⟩ := keep (length_drop_le data _) hrest
    have hleft : w'.backlog = data.chars.length - written.taken := by
      have hnone : w.backlog = 0 := hempty
      rw [hgrown, hbacklog, hnone, List.length_drop, Nat.zero_add]
    rw [hfatal, if_neg Bool.false_ne_true]
    exact .inl ⟨hwriting, hempty, hpossible, hdone.trans_of_backlog hbacklog hkeep, hleft⟩
  · obtain ⟨hkeep, hgrown⟩ := keep data.length_le hall
    exact .inr ⟨hdirect, hemit.trans_of_backlog rfl hkeep, hgrown⟩

/-- The backlog shrinks by what has been taken, and is complete when nothing is left. -/
theorem wrote (w : World) (n : Nat) :
    (w.wrote n).1.backlog = w.backlog - n ∧ Moved w (w.wrote n).1 (decide (w.backlog - n = 0)) ∧
    (w.wrote n).2 = if w.backlog - n = 0 then [.drained] else [] := by
  have hretrieve : (w.conn.outputBuffer_.retrieve n).readableBytes = w.backlog - n := by
    rw [← CheckedBuffer.length_contents, CheckedBuffer.contents_retrieve, List.length_drop, World.length_contents]
  have hle : w.backlog - n ≤ w.backlog := Nat.sub_le _ _
  unfold World.wrote
  simp only [World.conn_setOutputBuffer, hretrieve]
  split
  · next hdrained =>
    have hbacklog : (((w.setOutputBuffer (w.conn.outputBuffer_.retrieve n)).perform
        .disableWriting).writeCompleted).backlog = w.backlog - n := by
      unfold World.backlog
      rw [World.conn_writeCompleted, World.conn_perform]
      exact hretrieve
    refine ⟨hbacklog, ⟨?_, ?_⟩, rfl⟩
    · rw [World.conn_writeCompleted, World.conn_perform]
      rfl
    · rw [hbacklog, w.crossing_of_le hle, List.append_nil, World.queued_writeCompleted, decide_eq_true hdrained,
        if_pos rfl]
      simp only [World.completion, World.conn_perform]
      rfl
  · next hleft =>
    refine ⟨hretrieve, ?_, rfl⟩
    rw [decide_eq_false hleft]
    exact of_quiet rfl rfl (by rw [World.backlog, World.conn_setOutputBuffer, hretrieve]; exact hle)

/-- A dispatch of `EPOLLOUT` is complete when it drains the backlog. -/
theorem handleWrite {written : Written} {next : List Act} (h : w.handleWrite written = some (w', next)) :
    Moved w w' (decide (next = [.drained])) ∧
    (next = [.drained] → w.conn.channel_.isWriting = true ∧ w'.backlog = 0) ∧
    (w'.backlog = 0 → next = [.drained] ∨ w.backlog = 0) := by
  rcases World.handleWrite_cases h with ⟨_, rfl, rfl⟩ | ⟨hwriting, ⟨_, rfl, rfl⟩ | hwrote⟩
  · exact ⟨of_quiet rfl rfl (Nat.le_refl _), by simp, .inr⟩
  · exact ⟨emit w _, by simp, .inr⟩
  · obtain ⟨hbacklog, hmoved, hnext⟩ :=
      wrote (w.emit (.write w.conn.outputBuffer_.contents written)) written.taken
    rw [hwrote] at hbacklog hmoved hnext
    rw [← hbacklog] at hmoved hnext
    have hdrained : next = [.drained] ↔ w'.backlog = 0 := by
      have hnext' : next = if w'.backlog = 0 then [.drained] else [] := hnext
      rw [hnext']
      split
      · next hempty => exact ⟨fun _ => hempty, fun _ => rfl⟩
      · next hleft => exact ⟨fun hnil => (List.cons_ne_nil _ _ hnil.symm).elim, fun hempty => absurd hempty hleft⟩
    refine ⟨?_, fun hnext => ⟨hwriting, hdrained.mp hnext⟩, fun hempty => .inl (hdrained.mpr hempty)⟩
    rw [decide_eq_decide.mpr hdrained]
    exact ⟨hmoved.settings_eq, hmoved.queued_eq⟩

theorem shutdownInLoop (w : World) : Moved w w.shutdownInLoop false := by
  unfold World.shutdownInLoop
  split
  · exact of_quiet rfl rfl (Nat.le_refl _)
  · exact emit w .shutdownWrite

theorem backlog_drained (w : World) : w.drained.backlog = w.backlog := by
  unfold World.drained World.shutdownInLoop
  split
  · split <;> rfl
  · rfl

/-- The end of `handleWrite` may shut the write side, and queues nothing. -/
theorem drained {complete : Bool} (h : Moved w w' complete) : Moved w w'.drained complete := by
  have hsettings : w'.drained.conn.settings = w'.conn.settings := by
    unfold World.drained World.shutdownInLoop
    split
    · split <;> rfl
    · rfl
  have hqueued : w'.drained.queued = w'.queued := by
    unfold World.drained World.shutdownInLoop
    split
    · split <;> rfl
    · rfl
  refine ⟨hsettings.trans h.settings_eq, ?_⟩
  rw [hqueued, backlog_drained]
  exact h.queued_eq

end Moved

/-- What a step does: a call in the wrong state does nothing, and any other step sends,
shuts down, or dispatches `EPOLLOUT`. -/
inductive Outcome (alloc : Nat → Bool) (w : World) : Output → World → Prop where
  | ignored (i : Output) (hstate : w.conn.connected = false) : Outcome alloc w i w
  | sent (buf : Text) (written : Written) (w' : World) (hstate : w.conn.connected = true)
      (hsend : (w.emit (.send buf)).sendInLoop alloc buf written = some w') :
      Outcome alloc w (.send buf written) w'
  | shut (hstate : w.conn.connected = true) :
      Outcome alloc w .shutdown (w.setState .kDisconnecting).shutdownInLoop
  | wrote (written : Written) (w' : World) (next : List Act) (hwrite : w.handleWrite written = some (w', next)) :
      Outcome alloc w (.handleWrite written) (if next = [.drained] then w'.drained else w')

theorem output_outcome {alloc : Nat → Bool} {w w' : World} {i : Output}
    (hstep : (output alloc).step w i = some w') : Outcome alloc w i w' := by
  cases i with
  | send buf written =>
    simp only [output, World.ownCall] at hstep
    split at hstep
    · next hstate =>
      simp only [World.complete, World.call, Option.map_map, Option.map_eq_some_iff] at hstep
      obtain ⟨sent, hsend, rfl⟩ := hstep
      exact .sent buf written _ hstate hsend
    · next hstate =>
      cases hstep
      exact .ignored _ (by simpa using hstate)
  | shutdown =>
    simp only [output, World.ownCall] at hstep
    split at hstep
    · next hstate =>
      cases hstep
      exact .shut hstate
    · next hstate =>
      cases hstep
      exact .ignored _ (by simpa using hstate)
  | handleWrite written =>
    simp only [output, Option.bind_eq_some_iff] at hstep
    obtain ⟨⟨wrote, next⟩, hwrite, hcomplete⟩ := hstep
    rcases World.next_handleWrite hwrite with hnext | hnext
    · subst next
      cases hcomplete
      exact .wrote written _ [] hwrite
    · subst next
      cases hcomplete
      exact .wrote written _ [.drained] hwrite

namespace Moved

variable {alloc : Nat → Bool} {w w' : World} {i : Output}

/-- Every step moves output. -/
theorem step (hstep : (output alloc).step w i = some w') : ∃ complete, Moved w w' complete := by
  cases output_outcome hstep with
  | ignored => exact ⟨false, of_quiet rfl rfl (Nat.le_refl _)⟩
  | sent buf written _ _ hsend =>
    rcases sendInLoop hsend with ⟨_, _, _, hmoved, _⟩ | ⟨_, hmoved, _⟩
    · exact ⟨_, hmoved.settings_eq, hmoved.queued_eq⟩
    · exact ⟨_, hmoved.settings_eq, hmoved.queued_eq⟩
  | shut =>
    have hmoved := shutdownInLoop (w.setState .kDisconnecting)
    exact ⟨_, hmoved.settings_eq, hmoved.queued_eq⟩
  | wrote written u next hwrite =>
    have hmoved := (handleWrite hwrite).1
    refine ⟨decide (next = [.drained]), ?_⟩
    split
    · exact hmoved.drained
    · exact hmoved

end Moved

/-- The high-water callbacks that have been queued. -/
def Functor.isMark : Functor → Bool
  | .highWaterMarkCallback_ _ => true
  | _ => false

def World.marks (w : World) : List Functor := w.queued.filter Functor.isMark

theorem Moved.marks {w w' : World} {complete : Bool} (h : Moved w w' complete) :
    w'.marks = w.marks ++ w.crossing w'.backlog := by
  have hcompletion : (if complete then w.completion else []).filter Functor.isMark = [] := by
    unfold World.completion
    split
    · split <;> rfl
    · rfl
  have hcrossing : (w.crossing w'.backlog).filter Functor.isMark = w.crossing w'.backlog := by
    unfold World.crossing
    split <;> rfl
  rw [World.marks, World.marks, h.queued_eq, List.filter_append, List.filter_append, hcompletion, hcrossing,
    List.append_nil]

theorem settings_established (conn : TcpConnection) (poller : EPollPoller) :
    (established conn poller).conn.settings = conn.settings := by
  rw [established, World.conn_connectEstablished]
  rfl

theorem backlog_established {conn : TcpConnection} (poller : EPollPoller)
    (hempty : conn.outputBuffer_.contents = []) : (established conn poller).backlog = 0 := by
  rw [World.backlog_eq_zero_iff, established, World.conn_connectEstablished]
  exact hempty

/-- No step changes what user code has set. -/
theorem settings_of_steps {alloc : Nat → Bool} {ok : World → Output → Prop} {w w' : World}
    (hrun : (output alloc).Steps ok w w') : w'.conn.settings = w.conn.settings := by
  refine hrun.invariant (P := fun u => u.conn.settings = w.conn.settings) ?_ rfl
  intro u i u' hsettings _ hstep
  obtain ⟨_, hmoved⟩ := Moved.step hstep
  exact hmoved.settings_eq.trans hsettings

section

variable {alloc : Nat → Bool} {conn : TcpConnection} {poller : EPollPoller}

/-- A step of a run queues the callback when it takes the backlog over the mark. -/
theorem marks_of_step (hset : conn.highWaterMarkCallback_ = true) {u v : World} {i : Output}
    (hreached : (output alloc).Steps Machine.Any (established conn poller) u)
    (hstep : (output alloc).step u i = some v) : v.marks = u.marks ++
      if u.backlog < conn.highWaterMark_ ∧ conn.highWaterMark_ ≤ v.backlog then
        [.highWaterMarkCallback_ v.backlog] else [] := by
  have hsettings := (settings_of_steps hreached).trans (settings_established conn poller)
  have hmark : u.conn.highWaterMark_ = conn.highWaterMark_ := (congrArg Settings.highWaterMark_ hsettings :)
  have hcallback : u.conn.highWaterMarkCallback_ = true :=
    (congrArg Settings.highWaterMarkCallback_ hsettings :).trans hset
  obtain ⟨_, hmoved⟩ := Moved.step hstep
  rw [hmoved.marks, World.crossing, hmark, hcallback]
  simp only [and_true]

/-- A step from the mark or above it queues no callback. -/
theorem marks_of_above (hset : conn.highWaterMarkCallback_ = true) {u v : World} {i : Output}
    (hreached : (output alloc).Steps Machine.Any (established conn poller) u)
    (hstep : (output alloc).step u i = some v) (habove : conn.highWaterMark_ ≤ u.backlog) :
    v.marks = u.marks := by
  have hbelow : ¬ (u.backlog < conn.highWaterMark_ ∧ conn.highWaterMark_ ≤ v.backlog) :=
    fun hcross => absurd habove (Nat.not_le.mpr hcross.1)
  rw [marks_of_step hset hreached hstep, if_neg hbelow, List.append_nil]

/-- A backlog that is not below the mark goes back to a step that has crossed the mark and
been reported, and since which it has not been below the mark. -/
theorem exists_crossing (hset : conn.highWaterMarkCallback_ = true) (hempty : conn.outputBuffer_.contents = [])
    (hpositive : 0 < conn.highWaterMark_) {w : World}
    (hrun : (output alloc).Steps Machine.Any (established conn poller) w)
    (habove : conn.highWaterMark_ ≤ w.backlog) : ∃ before i after,
      (output alloc).Steps Machine.Any (established conn poller) before ∧
      (output alloc).step before i = some after ∧
      before.backlog < conn.highWaterMark_ ∧ conn.highWaterMark_ ≤ after.backlog ∧
      after.marks = before.marks ++ [.highWaterMarkCallback_ after.backlog] ∧
      (output alloc).Steps (fun u _ => conn.highWaterMark_ ≤ u.backlog) after w ∧ w.marks = after.marks := by
  induction hrun with
  | refl =>
    rw [backlog_established poller hempty] at habove
    omega
  | @tail u v hbefore hnext ih =>
    obtain ⟨i, _, hstep⟩ := hnext
    by_cases hhigh : conn.highWaterMark_ ≤ u.backlog
    · obtain ⟨before, j, after, hreached, hcross, hbelow, hover, hreported, hsince, hmarks⟩ := ih hhigh
      refine ⟨before, j, after, hreached, hcross, hbelow, hover, hreported, hsince.tail hhigh hstep, ?_⟩
      rw [marks_of_above hset hbefore hstep hhigh, hmarks]
    · have hbelow : u.backlog < conn.highWaterMark_ := Nat.not_le.mp hhigh
      refine ⟨u, i, v, hbefore, hstep, hbelow, habove, ?_, .refl _ _ _, rfl⟩
      rw [marks_of_step hset hbefore hstep, if_pos ⟨hbelow, habove⟩]

end

/-- The high-water callback reports exactly the upward crossings of the mark. Each step
queues it if and only if it takes the backlog from below the mark to the mark or above it,
with the new backlog; between two reports the backlog has been below the mark; and as long
as the backlog has not been below the mark, the last report is that of its crossing. -/
theorem highWater_reports_crossings (alloc : Nat → Bool) (conn : TcpConnection) (poller : EPollPoller)
    (hempty : conn.outputBuffer_.contents = []) (hset : conn.highWaterMarkCallback_ = true) {w : World}
    (hrun : (output alloc).Steps Machine.Any (established conn poller) w) :
    (∀ i next, (output alloc).step w i = some next → next.marks = w.marks ++
      if w.backlog < conn.highWaterMark_ ∧ conn.highWaterMark_ ≤ next.backlog then
        [.highWaterMarkCallback_ next.backlog] else []) ∧
    (∀ i next j later last, (output alloc).step w i = some next → next.marks ≠ w.marks →
      (output alloc).Steps Machine.Any next later → (output alloc).step later j = some last →
      last.marks ≠ later.marks → later.backlog < conn.highWaterMark_) ∧
    (0 < conn.highWaterMark_ → conn.highWaterMark_ ≤ w.backlog → ∃ before i after,
      (output alloc).Steps Machine.Any (established conn poller) before ∧
      (output alloc).step before i = some after ∧
      before.backlog < conn.highWaterMark_ ∧ conn.highWaterMark_ ≤ after.backlog ∧
      after.marks = before.marks ++ [.highWaterMarkCallback_ after.backlog] ∧
      (output alloc).Steps (fun u _ => conn.highWaterMark_ ≤ u.backlog) after w ∧ w.marks = after.marks) := by
  refine ⟨fun i next hstep => marks_of_step hset hrun hstep, ?_, ?_⟩
  · intro i next j later last hstep _ hlater hlast hreported
    by_contra hnot
    have hreached := (hrun.tail trivial hstep).trans hlater
    exact hreported (marks_of_above hset hreached hlast (Nat.not_lt.mp hnot))
  · intro hpositive habove
    exact exists_crossing hset hempty hpositive hrun habove

/-- A connection with a mark of three bytes and both notices set. -/
def markedConnection : TcpConnection :=
  { TcpConnection.construct 1 5 with
    highWaterMark_ := 3, writeCompleteCallback_ := true, highWaterMarkCallback_ := true }

/-- The backlog reaches the mark, falls below it, crosses it again, and drains. -/
def aroundMark : List Output :=
  [.send ⟨[11, 12, 13], by decide⟩ (.bytes 1), .send ⟨[14], by decide⟩ (.bytes 0), .handleWrite (.bytes 1),
    .send ⟨[15, 16], by decide⟩ (.bytes 0), .handleWrite (.error .EINTR), .handleWrite (.bytes 4)]

theorem highWater_reports_crossings_twice :
    ∃ w, (output fun _ => true).run (established markedConnection .construct) aroundMark = some w ∧
      w.marks = [.highWaterMarkCallback_ 3, .highWaterMarkCallback_ 4] ∧
      ∀ i next, (output fun _ => true).step w i = some next → next.marks = w.marks ++
        if w.backlog < 3 ∧ 3 ≤ next.backlog then [.highWaterMarkCallback_ next.backlog] else [] := by
  have hruns : ((output fun _ => true).run (established markedConnection .construct) aroundMark).map
      World.marks = some [.highWaterMarkCallback_ 3, .highWaterMarkCallback_ 4] := by decide +kernel
  obtain ⟨w, hrun, hmarks⟩ := Option.map_eq_some_iff.mp hruns
  exact ⟨w, hrun, hmarks, (highWater_reports_crossings _ markedConnection .construct CheckedBuffer.contents_fresh rfl
    (Machine.steps_of_run hrun (Machine.along_of_forall (fun _ _ _ => trivial) _))).1⟩

end muduo.tcp_connection
