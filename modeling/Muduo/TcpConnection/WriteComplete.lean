import Muduo.TcpConnection.Notices

open transition
open muduo.kernel muduo.buffer muduo.epoll

namespace muduo.tcp_connection

/-- The payloads that `send` has accepted. -/
def Event.sends : Event → List Text
  | .send buf => [buf]
  | _ => []

def World.sends (w : World) : List Text := w.log.flatMap Event.sends

theorem sends_ignores : Ignores Event.sends := ⟨fun _ => rfl, fun _ => rfl, fun _ => rfl⟩

/-- The write-complete callbacks that have been queued. -/
def World.completions (w : World) : Nat := w.queued.count .writeCompleteCallback_

theorem Moved.completions {w w' : World} {complete : Bool} (h : Moved w w' complete)
    (hset : w.conn.writeCompleteCallback_ = true) : w'.completions = w.completions + complete.toNat := by
  have hcrossing : (w.crossing w'.backlog).count .writeCompleteCallback_ = 0 := by
    unfold World.crossing
    split <;> rfl
  have hcompletion : (if complete then w.completion else []).count .writeCompleteCallback_ = complete.toNat := by
    rw [World.completion, if_pos hset]
    cases complete <;> rfl
  rw [World.completions, World.completions, h.queued_eq, List.count_append, List.count_append, hcompletion,
    hcrossing, Nat.add_zero]

/-- No direct write fails for good, and a `write` of no bytes answers that it took none. -/
def Answered (_ : World) : Output → Prop
  | .send buf written => written.isFatal = false ∧ (buf.chars = [] → written = .bytes 0)
  | _ => True

/-- What a step does to the numbers of sends and of completions. A send is complete if
nothing is left behind it, and any other step if it drains a backlog. -/
inductive Counted (w w' : World) : Prop where
  | send (complete : Bool) (hsends : w'.sends.length = w.sends.length + 1)
      (hcompletions : w'.completions = w.completions + complete.toNat)
      (hcomplete : complete = true ↔ w'.backlog = 0) : Counted w w'
  | other (complete : Bool) (hsends : w'.sends.length = w.sends.length)
      (hcompletions : w'.completions = w.completions + complete.toNat)
      (hcomplete : complete = true ↔ w.backlog ≠ 0 ∧ w'.backlog = 0)
      (hempty : w.backlog = 0 → w'.backlog = 0) : Counted w w'

theorem World.Watching.isWriting_iff {w : World} (h : w.Watching) :
    w.conn.channel_.isWriting = true ↔ w.backlog ≠ 0 := by
  rw [ne_eq, w.backlog_eq_zero_iff]
  exact h

theorem sends_of_sendInLoop {alloc : Nat → Bool} {w w' : World} {buf : Text} {written : Written}
    (hsend : (w.emit (.send buf)).sendInLoop alloc buf written = some w') :
    w'.sends.length = w.sends.length + 1 := by
  rw [World.sends, World.flatMap_sendInLoop_of_write sends_ignores (fun _ _ => rfl) hsend]
  simp [World.sends, Event.sends]

namespace Counted

variable {alloc : Nat → Bool} {w w' : World}

theorem sent {buf : Text} {written : Written} (hwatching : w.Watching)
    (hset : w.conn.writeCompleteCallback_ = true) (hzero : buf.chars = [] → written = .bytes 0)
    (hfatal : written.isFatal = false) (hsend : (w.emit (.send buf)).sendInLoop alloc buf written = some w') :
    Counted w w' := by
  have hsends := sends_of_sendInLoop hsend
  rcases Moved.sendInLoop hsend with ⟨_, _, hpossible, hmoved, hbacklog⟩ | ⟨hbusy, hmoved, hbacklog⟩
  · refine .send _ hsends (hmoved.completions hset) ?_
    rw [hbacklog, hfatal, if_neg Bool.false_ne_true, decide_eq_true_eq]
    constructor
    · rintro rfl
      exact Nat.sub_self _
    · intro hall
      cases written with
      | bytes n =>
        have hn : n ≤ buf.chars.length := hpossible
        have hle : buf.chars.length ≤ n := Nat.sub_eq_zero_iff_le.mp hall
        rw [Nat.le_antisymm hn hle]
      | error errno =>
        have hnil : buf.chars = [] := List.length_eq_zero_iff.mp hall
        rw [hzero hnil, hnil]
        rfl
  · refine .send false hsends (hmoved.completions hset) ?_
    have hleft : w.backlog ≠ 0 := by
      by_contra hempty
      refine hbusy ⟨?_, hempty⟩
      rw [Bool.eq_false_iff, ne_eq, World.conn_emit, hwatching.isWriting_iff]
      exact fun hleft => hleft hempty
    have hbacklog' : w'.backlog = w.backlog + buf.chars.length := hbacklog
    rw [hbacklog']
    simp [hleft]

theorem quiet (hmoved : Moved w w' false) (hset : w.conn.writeCompleteCallback_ = true)
    (hsends : w'.sends = w.sends) (hbacklog : w'.backlog = w.backlog) : Counted w w' := by
  refine .other false (by rw [hsends]) (hmoved.completions hset) ?_ ?_
  · simp [hbacklog]
  · rw [hbacklog]
    exact id

theorem wrote {u : World} {written : Written} {next : List Act} (hwatching : w.Watching)
    (hset : w.conn.writeCompleteCallback_ = true) (hwrite : w.handleWrite written = some (u, next)) :
    Counted w (if next = [.drained] then u.drained else u) := by
  obtain ⟨hmoved, hdrained, hempty⟩ := Moved.handleWrite hwrite
  have hsends : u.sends = w.sends := World.flatMap_handleWrite_of_write sends_ignores (fun _ _ => rfl) hwrite
  split
  · next hnext =>
    obtain ⟨hwriting, hnone⟩ := hdrained hnext
    rw [decide_eq_true hnext] at hmoved
    refine .other true ?_ (hmoved.drained.completions hset) ?_ ?_
    · have hshut : u.drained.sends = u.sends := by
        unfold World.drained
        split
        · exact flatMap_shutdownInLoop rfl u
        · rfl
      rw [hshut, hsends]
    · rw [Moved.backlog_drained]
      exact ⟨fun _ => ⟨hwatching.isWriting_iff.mp hwriting, hnone⟩, fun _ => rfl⟩
    · rw [Moved.backlog_drained]
      exact fun _ => hnone
  · next hnext =>
    rw [decide_eq_false hnext] at hmoved
    refine .other false (by rw [hsends]) (hmoved.completions hset) ?_ ?_
    · constructor
      · intro hfalse
        cases hfalse
      · rintro ⟨hleft, hnone⟩
        exact absurd ((hempty hnone).resolve_left hnext) hleft
    · intro hnone
      -- An idle channel leaves the backlog, and an empty backlog has an idle channel.
      have hidle : w.conn.channel_.isWriting = false := by
        rw [Bool.eq_false_iff, ne_eq, hwatching.isWriting_iff]
        exact fun hleft => hleft hnone
      simp only [World.handleWrite, hidle, Bool.false_eq_true, if_false] at hwrite
      cases hwrite
      exact hnone

theorem step {i : Output} (hwatching : w.Watching) (hset : w.conn.writeCompleteCallback_ = true)
    (hok : Answered w i) (hstep : (output alloc).step w i = some w') : Counted w w' := by
  cases output_outcome hstep with
  | ignored => exact quiet (.of_quiet rfl rfl (Nat.le_refl _)) hset rfl rfl
  | sent buf written _ _ hsend => exact sent hwatching hset hok.2 hok.1 hsend
  | shut =>
    have hmoved := Moved.shutdownInLoop (w.setState .kDisconnecting)
    have hsends : (w.setState .kDisconnecting).shutdownInLoop.sends = w.sends := by
      rw [World.sends, flatMap_shutdownInLoop rfl]
      simp [World.sends, Event.sends]
    refine quiet ⟨hmoved.settings_eq, hmoved.queued_eq⟩ hset hsends ?_
    unfold World.shutdownInLoop
    split <;> rfl
  | wrote written u next hwrite => exact wrote hwatching hset hwrite

/-- A completion is only queued when nothing is left. -/
theorem backlog_of_completions (h : Counted w w') (hmore : w.completions < w'.completions) : w'.backlog = 0 := by
  cases h with
  | send complete _ hcompletions hcomplete =>
    cases complete with
    | false =>
      rw [hcompletions] at hmore
      exact absurd hmore (by simp)
    | true => exact hcomplete.mp rfl
  | other complete _ hcompletions hcomplete =>
    cases complete with
    | false =>
      rw [hcompletions] at hmore
      exact absurd hmore (by simp)
    | true => exact (hcomplete.mp rfl).2

theorem completions_le (h : Counted w w') : w.completions ≤ w'.completions := by
  cases h with
  | send _ _ hcompletions => omega
  | other _ _ hcompletions => omega

/-- Behind a send either something is left, or a completion has been queued. -/
theorem covered {before : Nat} (h : Counted w w') (hle : before ≤ w.completions)
    (hcovered : before < w.completions ∨ w.backlog ≠ 0) : before < w'.completions ∨ w'.backlog ≠ 0 := by
  by_cases hempty : w'.backlog = 0
  · left
    cases h with
    | send complete _ hcompletions hcomplete =>
      rw [hcomplete.mpr hempty, Bool.toNat_true] at hcompletions
      omega
    | other complete _ hcompletions hcomplete =>
      rcases hcovered with hmore | hleft
      · omega
      · rw [hcomplete.mpr ⟨hleft, hempty⟩, Bool.toNat_true] at hcompletions
        omega
  · exact .inr hempty

/-- A send leaves something, or queues a completion. -/
theorem behind_send (h : Counted w w') (hsent : w'.sends.length = w.sends.length + 1) :
    w.completions < w'.completions ∨ w'.backlog ≠ 0 := by
  cases h with
  | send complete _ hcompletions hcomplete =>
    by_cases hall : w'.backlog = 0
    · rw [hcomplete.mpr hall, Bool.toNat_true] at hcompletions
      exact .inl (by omega)
    · exact .inr hall
  | other _ hsends =>
    rw [hsends] at hsent
    omega

/-- Each completion has a send of its own, and so has a backlog. -/
theorem bounded (h : Counted w w')
    (hbound : w.completions + (if w.backlog = 0 then 0 else 1) ≤ w.sends.length) :
    w'.completions + (if w'.backlog = 0 then 0 else 1) ≤ w'.sends.length := by
  cases h with
  | send complete hsends hcompletions hcomplete =>
    cases complete with
    | false =>
      rw [Bool.toNat_false] at hcompletions
      split_ifs <;> omega
    | true =>
      rw [Bool.toNat_true] at hcompletions
      rw [if_pos (hcomplete.mp rfl)]
      omega
  | other complete hsends hcompletions hcomplete hempty =>
    cases complete with
    | false =>
      rw [Bool.toNat_false] at hcompletions
      split_ifs at hbound ⊢ with hnone hnone' <;> omega
    | true =>
      rw [Bool.toNat_true] at hcompletions
      obtain ⟨hleft, hnone⟩ := hcomplete.mp rfl
      rw [if_neg hleft] at hbound
      rw [if_pos hnone]
      omega

end Counted

/-- What holds of the output and its completions at any time. -/
structure Completing (w : World) : Prop where
  output : OutputInvariant w
  set : w.conn.writeCompleteCallback_ = true
  bounded : w.completions + (if w.backlog = 0 then 0 else 1) ≤ w.sends.length

namespace Completing

variable {alloc : Nat → Bool} {w w' : World} {i : Output}

theorem established {conn : TcpConnection} (poller : EPollPoller) {addr fd : Nat}
    (hchannel : conn.channel_ = .construct addr fd) (hempty : conn.outputBuffer_.contents = [])
    (hset : conn.writeCompleteCallback_ = true) : Completing (established conn poller) := by
  refine ⟨.established poller hchannel hempty, ?_, ?_⟩
  · exact (congrArg Settings.writeCompleteCallback_ (settings_established conn poller) :).trans hset
  · rw [backlog_established poller hempty]
    exact Nat.zero_le _

theorem counted (h : Completing w) (hok : Answered w i) (hstep : (tcp_connection.output alloc).step w i = some w') :
    Counted w w' :=
  .step h.output.streaming.watching h.set hok hstep

theorem step (h : Completing w) (hok : Answered w i) (hstep : (tcp_connection.output alloc).step w i = some w') :
    Completing w' := by
  have hfatal : NeverFatal w i := by
    cases i with
    | send => exact hok.1
    | shutdown | handleWrite => trivial
  obtain ⟨_, hmoved⟩ := Moved.step hstep
  refine ⟨h.output.step hfatal hstep, ?_, (h.counted hok hstep).bounded h.bounded⟩
  exact (congrArg Settings.writeCompleteCallback_ hmoved.settings_eq :).trans h.set

/-- Behind a send a run goes on to leave something, or to have queued a completion. -/
theorem covered (h : Completing w) {before : Nat} (hle : before ≤ w.completions)
    (hcovered : before < w.completions ∨ w.backlog ≠ 0) (hrun : (tcp_connection.output alloc).Steps Answered w w') :
    before < w'.completions ∨ w'.backlog ≠ 0 := by
  have hall : Completing w' ∧ before ≤ w'.completions ∧ (before < w'.completions ∨ w'.backlog ≠ 0) := by
    refine hrun.invariant (P := fun u => Completing u ∧ before ≤ u.completions ∧
      (before < u.completions ∨ u.backlog ≠ 0)) ?_ ⟨h, hle, hcovered⟩
    rintro u i v ⟨hu, hle, hcovered⟩ hok hstep
    have hcounted := hu.counted hok hstep
    exact ⟨hu.step hok hstep, Nat.le_trans hle hcounted.completions_le, hcounted.covered hle hcovered⟩
  exact hall.2.2

/-- Nothing is left when all that has been accepted is out. -/
theorem taken_eq (h : Completing w) (hnone : w.backlog = 0) : taken w.log = accepted w.log := by
  have hstream := h.output.streaming.stream
  rw [(World.backlog_eq_zero_iff _).mp hnone, List.append_nil, List.nil_append] at hstream
  rw [hstream, h.output.accepted_eq]

end Completing

/-- An accepted send is recorded. -/
theorem sends_of_send {alloc : Nat → Bool} {w w' : World} {buf : Text} {written : Written}
    (hstate : w.conn.connected = true) (hstep : (output alloc).step w (.send buf written) = some w') :
    w'.sends.length = w.sends.length + 1 := by
  cases output_outcome hstep with
  | ignored _ hignored =>
    rw [hstate] at hignored
    cases hignored
  | sent _ _ _ _ hsend => exact sends_of_sendInLoop hsend

/-- The write-complete callbacks match the drained output. Whatever has been sent and
however it has been written, there are at most as many callbacks as accepted sends; a step
queues one only if it leaves nothing unsent; and behind an accepted send, whenever nothing
is left, at least one has been queued by this send or since. -/
theorem completions_match_drains (alloc : Nat → Bool) (conn : TcpConnection) (poller : EPollPoller) (addr fd : Nat)
    (hchannel : conn.channel_ = .construct addr fd) (hempty : conn.outputBuffer_.contents = [])
    (hset : conn.writeCompleteCallback_ = true) {w : World}
    (hrun : (output alloc).Steps Answered (established conn poller) w) :
    w.completions ≤ w.sends.length ∧
    ∀ i next, Answered w i → (output alloc).step w i = some next →
      (w.completions < next.completions → next.backlog = 0 ∧ taken next.log = accepted next.log) ∧
      ∀ buf written, i = .send buf written → w.conn.connected = true →
        ∀ last, (output alloc).Steps Answered next last → last.backlog = 0 → w.completions < last.completions := by
  have hinvariant : Completing w :=
    hrun.invariant (fun _ _ _ h hok hstep => h.step hok hstep) (.established poller hchannel hempty hset)
  refine ⟨Nat.le_trans (Nat.le_add_right _ _) hinvariant.bounded, fun i next hok hstep => ?_⟩
  have hcounted := hinvariant.counted hok hstep
  have hnext := hinvariant.step hok hstep
  refine ⟨fun hmore => ?_, ?_⟩
  · have hnone := hcounted.backlog_of_completions hmore
    exact ⟨hnone, hnext.taken_eq hnone⟩
  · rintro buf written rfl hstate last hlast hnone
    have hbehind := hcounted.behind_send (sends_of_send hstate hstep)
    have hcovered := hnext.covered hcounted.completions_le hbehind hlast
    exact hcovered.resolve_right (fun hleft => hleft hnone)

theorem completions_match_drains_marked :
    ∃ w, (output fun _ => true).run (established markedConnection .construct) aroundMark = some w ∧
      w.completions = 1 ∧ w.completions ≤ w.sends.length := by
  have hruns : ((output fun _ => true).run (established markedConnection .construct) aroundMark).map
      World.completions = some 1 := by decide +kernel
  obtain ⟨w, hrun, hone⟩ := Option.map_eq_some_iff.mp hruns
  have hanswered : ∀ i ∈ aroundMark, ∀ w, Answered w i := by
    simp [aroundMark, Answered, Written.isFatal]
  exact ⟨w, hrun, hone, (completions_match_drains _ markedConnection .construct 1 5 rfl
    CheckedBuffer.contents_fresh rfl (Machine.steps_of_run hrun (Machine.along_of_forall hanswered _))).1⟩

end muduo.tcp_connection
