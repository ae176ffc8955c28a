import Muduo.TcpConnection.FileChain

open transition
open muduo.kernel muduo.buffer muduo.epoll

namespace muduo.tcp_connection

/-- The steps that the loop takes by itself. -/
def Share.isLoop : Share → Bool
  | .handleWrite _ => true
  | .swap => true
  | .functor _ => true
  | _ => false

/-- A call of `sendfile` for some bytes is given some of them, or finds the socket full. -/
def Resumes (s : Sharing) (i : Share) : Prop :=
  ∀ call ∈ s.fileCall i, 0 < call.count → s.world.Direct →
    call.written = .error .EWOULDBLOCK ∨ 0 < call.written.taken

instance (s : Sharing) (i : Share) : Decidable (Resumes s i) :=
  inferInstanceAs (Decidable (∀ call ∈ s.fileCall i, 0 < call.count → s.world.Direct →
    call.written = .error .EWOULDBLOCK ∨ 0 < call.written.taken))

/-- The write-complete callbacks that a call of `sendFileInLoop` queues. -/
def FileCall.completions (w : World) (call : FileCall) : Nat :=
  match call.run w with
  | some (_, next) => (left next).count .writeCompleteCallback_
  | none => 0

/-- The write-complete callbacks that the calls of a step, and of a run, queue. -/
def Sharing.fileCompletions (s : Sharing) (i : Share) : Nat :=
  match s.fileCall i with
  | some call => call.completions s.world
  | none => 0

def fileCompletions (alloc : Nat → Bool) (file : Nat → Text) (s : Sharing) : List Share → Nat
  | [] => 0
  | i :: is => s.fileCompletions i + match (sharing alloc file).step s i with
    | some t => fileCompletions alloc file t is
    | none => 0

theorem FileCall.completions_eq {w w' : World} {call : FileCall} {next : List Act}
    (hrun : call.run w = some (w', next)) :
    call.completions w = if w.Completes call.count call.written then 1 else 0 := by
  have hleft : left next = call.completion w ++ call.again w := World.left_sendFileInLoop w hrun
  have hagain : (call.again w).count .writeCompleteCallback_ = 0 := by
    unfold FileCall.again
    split <;> rfl
  simp only [completions, hrun, hleft, List.count_append, hagain, Nat.add_zero, completion]
  split <;> rfl

theorem range_append (file : Nat → Text) (fileDescriptor : Nat) {offset : Int} (hoffset : 0 ≤ offset) (k n : Nat) :
    range file fileDescriptor offset k ++ range file fileDescriptor (offset + k) n =
      range file fileDescriptor offset (k + n) := by
  have hstart : (offset + k).toNat = offset.toNat + k := by omega
  rw [range, range, range, hstart, List.take_add, List.drop_drop]

/-- Where the sending of a file stands: `sent` bytes of its range are out behind `first`,
and the rest is in the hands of one functor. -/
structure Standing (file : Nat → Text) (first : List UInt8) (fileDescriptor : Nat) (offset : Int) (count : Nat)
    (settings : Settings) (sent : Nat) (s : Sharing) : Prop where
  state_eq : s.world.conn.state_ = .kConnected
  settings_eq : s.world.conn.settings = settings
  plain : s.Plain
  sent_le : sent ≤ count
  fromFile_eq : fromFile file s.world.log = first ++ range file fileDescriptor offset sent
  pending_eq : s.pending = if sent < count then
    [.sendFileInLoop fileDescriptor (offset + sent) (count - sent)] else []

/-- A call for the rest of a range takes its place in the range. -/
theorem FileCall.resumes {file : Nat → Text} {w w' : World} {next : List Act} {fileDescriptor : Nat} {offset : Int}
    {count sent : Nat} {written : Written}
    (hinside : (Functor.sendFileInLoop fileDescriptor offset count).Inside file) (hsent : sent ≤ count)
    (hstate : w.conn.state_ = .kConnected)
    (hanswer : 0 < count - sent → w.Direct → written = .error .EWOULDBLOCK ∨ 0 < written.taken)
    (hrun : (FileCall.mk fileDescriptor (offset + sent) (count - sent) written).run w = some (w', next)) :
    ∃ more, sent + more ≤ count ∧
      range file fileDescriptor offset sent ++
          (FileCall.mk fileDescriptor (offset + sent) (count - sent) written).moved file w =
        range file fileDescriptor offset (sent + more) ∧
      (FileCall.mk fileDescriptor (offset + sent) (count - sent) written).again w =
        (if sent + more < count then
          [.sendFileInLoop fileDescriptor (offset + (sent + more : Nat)) (count - (sent + more))] else []) ∧
      (0 < count - sent → (FileCall.mk fileDescriptor (offset + sent) (count - sent) written).completions w =
        if 0 < more ∧ sent + more = count ∧ w.conn.writeCompleteCallback_ = true then 1 else 0) := by
  obtain ⟨hoffset, hend⟩ := id hinside
  have hsub : (Functor.sendFileInLoop fileDescriptor (offset + sent) (count - sent)).Inside file := by
    refine ⟨?_, ?_⟩ <;> omega
  have hssize : ssize (count - sent) = (count - sent : Nat) := ssize_of_inside hsub
  have hne : w.conn.state_ ≠ .kDisconnecting := by
    rw [hstate]
    decide
  have hfatal (hpos : 0 < count - sent) (hdirect : w.Direct) : written.isFatal = false := by
    rcases hanswer hpos hdirect with rfl | htaken
    · rfl
    · cases written with
      | bytes n => rfl
      | error errno => exact absurd htaken (Nat.lt_irrefl 0)
  obtain ⟨hle, hmoved, hagain⟩ :=
    FileCall.moved_again ⟨fileDescriptor, offset + sent, count - sent, written⟩ hsub hne hfatal hrun
  simp only at hle hmoved hagain
  refine ⟨w.moves written, by omega, ?_, ?_, fun hpos => ?_⟩
  · rw [hmoved, range_append file fileDescriptor hoffset]
  · have hleft : w.moves written < count - sent ↔ sent + w.moves written < count := by omega
    have hstart : offset + sent + (w.moves written : Int) = offset + (sent + w.moves written : Nat) := by omega
    rw [hagain, hstart, Nat.sub_sub]
    simp only [hleft]
  · have hcompletes : w.Completes (count - sent) written ↔
        0 < w.moves written ∧ sent + w.moves written = count ∧ w.conn.writeCompleteCallback_ = true := by
      constructor
      · rintro ⟨_, hdirect, _, hall, hset⟩
        have hmoves : w.moves written = written.taken := if_pos hdirect
        have htaken : written.taken = count - sent := by
          rw [hall, hssize]
          rfl
        exact ⟨by omega, by omega, hset⟩
      · rintro ⟨hsome, hall, hset⟩
        have hdirect : w.Direct := by
          by_contra hbusy
          have hnone : w.moves written = 0 := if_neg hbusy
          omega
        have hmoves : w.moves written = written.taken := if_pos hdirect
        refine ⟨hne, hdirect, by omega, ?_, hset⟩
        cases written with
        | bytes n =>
          have hn : w.moves (.bytes n) = n := hmoves
          rw [hssize, Int.toNat_natCast, ← hn]
          congr 1
          omega
        | error errno => exact absurd hsome (by rw [hmoves]; exact Nat.lt_irrefl 0)
    rw [completions_eq hrun]
    simp only [hcompletes]

/-- The last bytes go out in one of two stretches. -/
theorem last_append {sent more more' count : Nat} {P : Prop} [Decidable P] (hle : sent + (more + more') ≤ count) :
    (if 0 < more ∧ sent + more = count ∧ P then 1 else 0) +
        (if 0 < more' ∧ sent + more + more' = count ∧ P then 1 else 0) =
      if 0 < more + more' ∧ sent + (more + more') = count ∧ P then 1 else 0 := by
  by_cases hP : P
  · simp only [hP, and_true]
    split_ifs <;> omega
  · simp only [hP, and_false, if_false]

namespace Standing

variable {alloc : Nat → Bool} {file : Nat → Text} {first : List UInt8} {fileDescriptor : Nat} {offset : Int}
  {count sent : Nat} {settings : Settings} {s t : Sharing}

/-- A step of the loop either leaves the file where it stands or sends more of it, and
queues the callback when it sends the last bytes. -/
theorem step (h : Standing file first fileDescriptor offset count settings sent s)
    (hinside : (Functor.sendFileInLoop fileDescriptor offset count).Inside file) {i : Share}
    (hloop : i.isLoop = true) (hanswer : Resumes s i) (hstep : (sharing alloc file).step s i = some t) :
    ∃ more, Standing file first fileDescriptor offset count settings (sent + more) t ∧
      s.fileCompletions i =
        if 0 < more ∧ sent + more = count ∧ settings.writeCompleteCallback_ = true then 1 else 0 := by
  obtain ⟨hfile, hplain⟩ := h.plain.step hstep
  cases hfile with
  | other hcall hstate hsettings hpending hsent =>
    refine ⟨0, ⟨hstate.trans h.state_eq, hsettings.trans h.settings_eq, hplain, h.sent_le, ?_, ?_⟩, ?_⟩
    · rw [hsent]
      exact h.fromFile_eq
    · rw [hpending]
      exact h.pending_eq
    · simp only [Sharing.fileCompletions, hcall, Nat.lt_irrefl, false_and, if_false]
  | call call w next hcall hrun hconn hpending hsent =>
    cases i with
    | functor written =>
      obtain ⟨hwritten, hfirst⟩ := Sharing.pending_of_functor hcall
      rw [h.pending_eq] at hfirst
      split at hfirst
      · next hleft =>
        obtain ⟨hfunctor, hbehind⟩ := List.cons.inj hfirst
        obtain ⟨hdescriptor, hoffset, hcount⟩ := Functor.sendFileInLoop.inj hfunctor
        have hmk : call = ⟨fileDescriptor, offset + sent, count - sent, written⟩ := by
          cases call
          simp only at hdescriptor hoffset hcount hwritten
          rw [hdescriptor, hoffset, hcount, hwritten]
        subst hmk
        obtain ⟨more, hmore, hmoved, hagain, hcompletions⟩ :=
          FileCall.resumes hinside h.sent_le h.state_eq (hanswer _ hcall) hrun
        refine ⟨more, ⟨?_, ?_, hplain, hmore, ?_, ?_⟩, ?_⟩
        · rw [hconn]
          exact h.state_eq
        · rw [hconn]
          exact h.settings_eq
        · rw [hsent, h.fromFile_eq, List.append_assoc, hmoved]
        · rw [hpending, ← hbehind, hagain, List.nil_append]
        · have hset : s.world.conn.writeCompleteCallback_ = settings.writeCompleteCallback_ :=
            (congrArg Settings.writeCompleteCallback_ h.settings_eq :)
          simp only [Sharing.fileCompletions, hcall, hcompletions (by omega), hset]
      · cases hfirst
    | send | sendFile => cases hloop
    | handleWrite | swap => cases hcall

/-- A run of the loop from where a file stands to where it stands then. -/
theorem run {is : List Share} (h : Standing file first fileDescriptor offset count settings sent s)
    (hinside : (Functor.sendFileInLoop fileDescriptor offset count).Inside file)
    (hloop : ∀ i ∈ is, i.isLoop = true) (hanswers : (sharing alloc file).Along Resumes s is)
    (hrun : (sharing alloc file).run s is = some t) :
    ∃ more, Standing file first fileDescriptor offset count settings (sent + more) t ∧
      fileCompletions alloc file s is =
        if 0 < more ∧ sent + more = count ∧ settings.writeCompleteCallback_ = true then 1 else 0 := by
  induction is generalizing s sent with
  | nil =>
    cases hrun
    exact ⟨0, h, by simp [fileCompletions]⟩
  | cons i is ih =>
    obtain ⟨u, hstep, hrun⟩ := Machine.step_of_run_cons hrun
    obtain ⟨hanswer, hrest⟩ := (Machine.Along.cons_iff hstep).mp hanswers
    obtain ⟨more, hu, hone⟩ := h.step hinside (hloop i (by simp)) hanswer hstep
    obtain ⟨more', ht, hothers⟩ := ih hu (fun j hj => hloop j (by simp [hj])) hrest hrun
    refine ⟨more + more', by simpa only [Nat.add_assoc] using ht, ?_⟩
    simp only [fileCompletions, hstep, hone, hothers]
    exact last_append (by simpa only [Nat.add_assoc] using ht.sent_le)

end Standing

/-- A file is resumed without gap or repeat. Whatever parts of it `sendfile` takes, and
however often it finds the socket full or a backlog is in its way, what is out at any time
is a front of the range, exactly the rest of the range is in the hands of one functor as
long as there is a rest, and the callback is queued once, with the last bytes. -/
theorem sendFile_resumes (alloc : Nat → Bool) (file : Nat → Text) {s t : Sharing}
    (hconnected : s.world.conn.connected = true) (hplain : s.Plain) (hnone : s.pending = [])
    {fileDescriptor : Nat} {offset : Int} {count : Nat} {written : Written}
    (hinside : (Functor.sendFileInLoop fileDescriptor offset count).Inside file) {rest : List Share}
    (hloop : ∀ i ∈ rest, i.isLoop = true)
    (hanswers : (sharing alloc file).Along Resumes s (.sendFile fileDescriptor offset count written :: rest))
    (hrun : (sharing alloc file).run s (.sendFile fileDescriptor offset count written :: rest) = some t) :
    ∃ sent ≤ count,
      fromFile file t.world.log = fromFile file s.world.log ++ range file fileDescriptor offset sent ∧
      t.pending = (if sent < count then
        [.sendFileInLoop fileDescriptor (offset + sent) (count - sent)] else []) ∧
      (0 < count → fileCompletions alloc file s (.sendFile fileDescriptor offset count written :: rest) =
        if sent = count ∧ s.world.conn.writeCompleteCallback_ = true then 1 else 0) := by
  obtain ⟨u, hstep, hrun⟩ := Machine.step_of_run_cons hrun
  obtain ⟨hanswer, hanswers⟩ := (Machine.Along.cons_iff hstep).mp hanswers
  have hcall : s.fileCall (.sendFile fileDescriptor offset count written) =
      some ⟨fileDescriptor, offset, count, written⟩ := by
    simp only [Sharing.fileCall, hconnected, if_true]
  have hstate : s.world.conn.state_ = .kConnected := by simpa [TcpConnection.connected] using hconnected
  have hstep' : s.step alloc file (.sendFile fileDescriptor offset count written) = some u := hstep
  obtain ⟨hfile, hplain'⟩ := hplain.step hstep'
  cases hfile with
  | other hnocall =>
    rw [hcall] at hnocall
    cases hnocall
  | call call w next hcall' hcalled hconn hpending hsent =>
    rw [hcall] at hcall'
    cases hcall'
    have hstart : FileCall.mk fileDescriptor offset count written =
        ⟨fileDescriptor, offset + (0 : Nat), count - 0, written⟩ := by simp
    rw [hstart] at hcalled hpending hsent
    obtain ⟨more, hmore, hmoved, hagain, hcompletions⟩ :=
      FileCall.resumes hinside (Nat.zero_le _) hstate (hanswer _ hcall) hcalled
    rw [Nat.zero_add] at hmore hmoved hagain hcompletions
    have hempty : range file fileDescriptor offset 0 = [] := List.take_zero
    rw [hempty, List.nil_append] at hmoved
    have hstanding : Standing file (fromFile file s.world.log) fileDescriptor offset count s.world.conn.settings
        more u := by
      refine ⟨?_, by rw [hconn], hplain', hmore, by rw [hsent, hmoved], ?_⟩
      · rw [hconn]
        exact hstate
      · have hbehind : s.behind (.sendFile fileDescriptor offset count written) = [] := hnone
        rw [hpending, hagain, hbehind, List.nil_append]
    obtain ⟨more', ht, hothers⟩ := hstanding.run hinside hloop hanswers hrun
    refine ⟨more + more', ht.sent_le, ht.fromFile_eq, ht.pending_eq, fun hpos => ?_⟩
    have hone : s.fileCompletions (.sendFile fileDescriptor offset count written) =
        if 0 < more ∧ 0 + more = count ∧ s.world.conn.writeCompleteCallback_ = true then 1 else 0 := by
      rw [Nat.zero_add, ← hcompletions hpos, ← hstart]
      simp only [Sharing.fileCompletions, hcall]
    have hothers' : fileCompletions alloc file u rest =
        if 0 < more' ∧ 0 + more + more' = count ∧ s.world.conn.writeCompleteCallback_ = true then 1 else 0 := by
      rw [Nat.zero_add]
      exact hothers
    have hall : (0 < more + more' ∧ 0 + (more + more') = count ∧ s.world.conn.writeCompleteCallback_ = true) ↔
        more + more' = count ∧ s.world.conn.writeCompleteCallback_ = true := by
      rw [Nat.zero_add]
      exact ⟨fun hsome => hsome.2, fun hsome => ⟨by omega, hsome⟩⟩
    simp only [fileCompletions, hstep, hone, hothers']
    rw [last_append (by simpa only [Nat.zero_add] using ht.sent_le)]
    simp only [hall]

/-- The socket is full, takes one byte, is full again, and takes the other byte. -/
def inParts : List Share :=
  [.swap, .functor (.bytes 1), .swap, .functor (.error .EWOULDBLOCK), .handleWrite (.bytes 0), .swap,
    .functor (.bytes 1), .swap]

theorem sendFile_resumes_inParts :
    ∃ t, (sharing (fun _ => true) twoBytes).run (Sharing.start markedConnection .construct)
        (.sendFile 7 0 2 (.error .EWOULDBLOCK) :: inParts) = some t ∧
      ∃ sent ≤ 2, fromFile twoBytes t.world.log =
          fromFile twoBytes (Sharing.start markedConnection .construct).world.log ++ range twoBytes 7 0 sent ∧
        t.pending = (if sent < 2 then [.sendFileInLoop 7 (0 + sent) (2 - sent)] else []) ∧
        (0 < 2 → fileCompletions (fun _ => true) twoBytes (Sharing.start markedConnection .construct)
            (.sendFile 7 0 2 (.error .EWOULDBLOCK) :: inParts) =
          if sent = 2 ∧ (Sharing.start markedConnection .construct).world.conn.writeCompleteCallback_ = true
          then 1 else 0) := by
  have hruns : ((sharing (fun _ => true) twoBytes).run (Sharing.start markedConnection .construct)
      (.sendFile 7 0 2 (.error .EWOULDBLOCK) :: inParts)).isSome = true := by decide +kernel
  obtain ⟨t, hrun⟩ := Option.isSome_iff_exists.mp hruns
  have hplain : (Sharing.start markedConnection .construct).Plain := by
    intro functor hmem
    cases hmem
  exact ⟨t, hrun, sendFile_resumes _ _ rfl hplain rfl (by decide) (by decide) (by decide +kernel) hrun⟩

end muduo.tcp_connection
